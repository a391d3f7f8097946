/-
Synthfi.Solana.AccountSubscriberTheorems — when account notifications reach
every subscriber.

A call returns normally on three paths, and only the first one registers its
callback where a notification finds it: a call that joins a pending
subscription is woken and returns without, and a subscription id that is
taken keeps the callbacks it has. `notifiesOnce_iff` shows that there is no
other way to miss a callback or to invoke it twice. `Registered` is what holds
whatever the waits come to, as long as subscription ids are new.
-/
import Synthfi.Lib.PartialMap
import Synthfi.Solana.AccountSubscriber

namespace Synthfi.Solana.AccountSubscriber

open Run PartialMap

/-- A notification for the key of a call that has returned invokes the
callback of the call once. -/
def NotifiesOnce (s : AccountSubscriber) : Prop :=
  ∀ c key result, s.calls c = some ⟨key, .returned result⟩ →
    ∀ id, (id, key) ∈ s.responses → (s.doHandleAccountNotification id).count c = 1

/-- The steps that keep `NotifiesOnce`: a subscription id is new, and no call
returns after a wait. -/
def StepOk (s : AccountSubscriber) : Label → Prop
  | .response _ id => s.subscriptions id = none
  | .wake c =>
    match s.calls c with
    | some ⟨_, .cancelled⟩ => False
    | _ => True
  | _ => True

instance (s : AccountSubscriber) (label : Label) : Decidable (s.StepOk label) := by
  unfold StepOk
  split
  · infer_instance
  · split <;> infer_instance
  · infer_instance

/-! ## The invariant -/

/-- While all steps are `StepOk`, a subscription has the callback of the call
that was answered, a key is answered once, and what is not pending has no
call. -/
structure Inv (s : AccountSubscriber) : Prop where
  fresh : ∀ c, s.callCount ≤ c → s.calls c = none
  subscribed : ∀ id callbacks, s.subscriptions id = some callbacks →
    ∃ c key result, callbacks = [c] ∧ s.calls c = some ⟨key, .returned result⟩ ∧
      (id, key) ∈ s.responses
  answered : ∀ id key, (id, key) ∈ s.responses → s.subscriptions id ≠ none
  requesting : ∀ c key, s.calls c = some ⟨key, .requesting⟩ →
    s.pendingAccountSubscriptions key = some [c] ∧ ∀ id, (id, key) ∉ s.responses
  returned : ∀ c key result, s.calls c = some ⟨key, .returned result⟩ →
    ∃ id, s.subscriptions id = some [c] ∧ ∀ id', (id', key) ∈ s.responses ↔ id' = id
  cancelled : ∀ c key, s.calls c = some ⟨key, .cancelled⟩ → ∃ id, (id, key) ∈ s.responses
  pending : ∀ key, s.pendingAccountSubscriptions key = none →
    s.accountToCallback key = none ∧ (∀ c status, s.calls c ≠ some ⟨key, status⟩) ∧
      ∀ id, (id, key) ∉ s.responses

theorem inv_init : Inv init where
  fresh _ _ := rfl
  subscribed _ _ h := by simp [init] at h
  answered _ _ h := by simp [init] at h
  requesting _ _ h := by simp [init] at h
  returned _ _ _ h := by simp [init] at h
  cancelled _ _ h := by simp [init] at h
  pending _ _ := by simp [init]

theorem Inv.notifiesOnce {s : AccountSubscriber} (h : s.Inv) : s.NotifiesOnce := by
  intro c key result hc id hid
  obtain ⟨id', hsub, hall⟩ := h.returned c key result hc
  obtain rfl := (hall id).mp hid
  simp [doHandleAccountNotification, hsub]

/-! ## One step -/

/-- A call that neither has returned nor will have to be found. -/
def Passive (status : CallStatus) : Prop :=
  status = .waiting ∨ status = .expired ∨ status = .failed

/-- The frame: calls of keys with a pending subscription become passive, and
the calls that have returned stay. -/
theorem Inv.frame {s : AccountSubscriber} (h : s.Inv) (callCount : ℕ)
    {calls : ℕ → Option SubscribeCall} (hfresh : ∀ c, callCount ≤ c → calls c = none)
    (hcalls : ∀ c, calls c = s.calls c ∨ ∃ key status, calls c = some ⟨key, status⟩ ∧
      Passive status ∧ s.pendingAccountSubscriptions key ≠ none)
    (hkeep : ∀ c key result, s.calls c = some ⟨key, .returned result⟩ → calls c = s.calls c) :
    Inv { s with callCount, calls } := by
  -- What is not passive was there before.
  have hactive : ∀ c key status, calls c = some ⟨key, status⟩ → ¬ Passive status →
      s.calls c = some ⟨key, status⟩ := by
    intro c key status hc hnot
    obtain hsame | ⟨key', status', hnew, hpassive, -⟩ := hcalls c
    · exact hsame ▸ hc
    · rw [hnew, Option.some.injEq, SubscribeCall.mk.injEq] at hc
      exact absurd (hc.2 ▸ hpassive) hnot
  refine {
    fresh := hfresh
    subscribed := ?subscribed
    answered := h.answered
    requesting := ?requesting
    returned := ?returned
    cancelled := ?cancelled
    pending := ?pending }
  case subscribed =>
    intro id callbacks hid
    obtain ⟨c, key, result, hc, hcall, hmem⟩ := h.subscribed id callbacks hid
    exact ⟨c, key, result, hc, (hkeep c key result hcall).trans hcall, hmem⟩
  case requesting =>
    intro c key hc
    exact h.requesting c key (hactive c key _ hc (by simp [Passive]))
  case returned =>
    intro c key result hc
    exact h.returned c key result (hactive c key _ hc (by simp [Passive]))
  case cancelled =>
    intro c key hc
    exact h.cancelled c key (hactive c key _ hc (by simp [Passive]))
  case pending =>
    intro key hkey
    obtain ⟨hnone, hno, hresponses⟩ := h.pending key hkey
    refine ⟨hnone, fun c status hc => ?_, hresponses⟩
    obtain hsame | ⟨key', status', hnew, -, hpending⟩ := hcalls c
    · exact hno c status (hsame ▸ hc)
    · simp only [hnew, Option.some.injEq, SubscribeCall.mk.injEq] at hc
      exact hpending (hc.1 ▸ hkey)

/-- A call has a pending subscription. -/
theorem Inv.pending_of_call {s : AccountSubscriber} (h : s.Inv) {c : ℕ} {key : SubscriptionKey}
    {status : CallStatus} (hc : s.calls c = some ⟨key, status⟩) :
    s.pendingAccountSubscriptions key ≠ none :=
  fun hnone => (h.pending key hnone).2.1 c status hc

/-- A call that has not returned fails. -/
theorem Inv.setStatus_failed {s : AccountSubscriber} (h : s.Inv) {c : ℕ} {key : SubscriptionKey}
    {status : CallStatus} (hc : s.calls c = some ⟨key, status⟩)
    (hstatus : ∀ result, status ≠ .returned result) : (s.setStatus c key .failed).Inv := by
  apply h.frame s.callCount
  · intro c' hle
    exact update_eq_none_of_eq_none hc (h.fresh c' hle) _
  · intro c'
    by_cases heq : c' = c
    · subst heq
      exact .inr ⟨key, .failed, by simp, by simp [Passive], h.pending_of_call hc⟩
    · exact .inl (Function.update_of_ne heq ..)
  · intro c' key' result hc'
    have hne : c' ≠ c := fun heq => by
      subst heq
      simp only [hc, Option.some.injEq, SubscribeCall.mk.injEq] at hc'
      exact hstatus result hc'.2
    exact Function.update_of_ne hne ..

/-- What a call was before the waits on a key ended. -/
theorem calls_endWaits {s : AccountSubscriber} {key key' : SubscriptionKey}
    {status status' : CallStatus} {c : ℕ}
    (h : (s.endWaits key status).calls c = some ⟨key', status'⟩) :
    s.calls c = some ⟨key', status'⟩ ∨
      (s.calls c = some ⟨key, .waiting⟩ ∧ key' = key ∧ status' = status) := by
  obtain ⟨call, hcall, hwake⟩ := Option.map_eq_some_iff.mp h
  unfold wakeWaiting at hwake
  split at hwake
  · next hwaiting =>
    obtain ⟨callKey, callStatus⟩ := call
    obtain ⟨rfl, rfl⟩ := hwaiting
    cases hwake
    exact .inr ⟨hcall, rfl, rfl⟩
  · exact .inl (hwake ▸ hcall)

/-- A call that does not wait is not woken. -/
theorem calls_endWaits_of_ne {s : AccountSubscriber} {key key' : SubscriptionKey}
    {status status' : CallStatus} {c : ℕ} (hc : s.calls c = some ⟨key', status'⟩)
    (hne : status' ≠ .waiting) : (s.endWaits key status).calls c = s.calls c := by
  simp [endWaits, hc, wakeWaiting, hne]

theorem Inv.expire {s : AccountSubscriber} (h : s.Inv) (key : SubscriptionKey) :
    (s.endWaits key .expired).Inv := by
  apply h.frame s.callCount
  · intro c hle
    simp [h.fresh c hle]
  · intro c
    cases hc : (s.endWaits key .expired).calls c with
    | none =>
      have hnone : s.calls c = none := by simpa [endWaits] using hc
      exact .inl (hc.trans hnone.symm)
    | some call =>
      rcases calls_endWaits hc with hsame | ⟨hwaiting, hkey, hstatus⟩
      · exact .inl (hc.trans hsame.symm)
      · exact .inr ⟨call.key, call.status, hc, by simp [Passive, hstatus],
          hkey ▸ h.pending_of_call hwaiting⟩
  · intro c key' result hc
    exact calls_endWaits_of_ne hc (by simp)

/-- A call that joins. -/
theorem accountSubscribe_join {s : AccountSubscriber} {key : SubscriptionKey} {callbacks : List ℕ}
    (h : s.pendingAccountSubscriptions key = some callbacks) :
    s.accountSubscribe key =
      { s with
        callCount := s.callCount + 1
        calls := Function.update s.calls s.callCount (some ⟨key, .waiting⟩) } := by
  simp [accountSubscribe, h, setStatus]

/-- The first call for a key. -/
theorem accountSubscribe_first {s : AccountSubscriber} {key : SubscriptionKey}
    (h : s.pendingAccountSubscriptions key = none) (hcallback : s.accountToCallback key = none) :
    s.accountSubscribe key =
      { s with
        callCount := s.callCount + 1
        pendingAccountSubscriptions :=
          Function.update s.pendingAccountSubscriptions key (some [s.callCount])
        calls := Function.update s.calls s.callCount (some ⟨key, .requesting⟩) } := by
  simp [accountSubscribe, h, hcallback, setStatus]

/-- A new call leaves the others as they are. -/
theorem calls_new {s : AccountSubscriber} (h : ∀ c, s.callCount ≤ c → s.calls c = none)
    (call : SubscribeCall) :
    (∀ c, s.callCount + 1 ≤ c → Function.update s.calls s.callCount (some call) c = none) ∧
      ∀ c call', s.calls c = some call' →
        Function.update s.calls s.callCount (some call) c = some call' := by
  refine ⟨fun c hle => ?_, fun c call' hc => ?_⟩
  · rw [Function.update_of_ne (by omega)]
    exact h c (by omega)
  · have hne : c ≠ s.callCount := fun hsame => by simp [hsame, h s.callCount le_rfl] at hc
    rw [Function.update_of_ne hne, hc]

/-- A new call requests the subscription or joins one that is pending. -/
theorem Inv.accountSubscribe {s : AccountSubscriber} (h : s.Inv) (key : SubscriptionKey) :
    (s.accountSubscribe key).Inv := by
  cases hpending : s.pendingAccountSubscriptions key with
  | some callbacks =>
    rw [accountSubscribe_join hpending]
    obtain ⟨hfresh, hkeep⟩ := calls_new h.fresh ⟨key, .waiting⟩
    apply h.frame _ hfresh
    · intro c
      by_cases heq : c = s.callCount
      · subst heq
        exact .inr ⟨key, .waiting, by simp, by simp [Passive], by simp [hpending]⟩
      · exact .inl (Function.update_of_ne heq ..)
    · intro c key' result hc
      exact (hkeep c _ hc).trans hc.symm
  | none =>
    obtain ⟨hcallback, hno, hresponses⟩ := h.pending key hpending
    rw [accountSubscribe_first hpending hcallback]
    obtain ⟨hfresh, hkeep⟩ := calls_new h.fresh ⟨key, .requesting⟩
    have hcall : ∀ c key' status,
        Function.update s.calls s.callCount (some ⟨key, .requesting⟩) c = some ⟨key', status⟩ →
        (c = s.callCount ∧ key' = key ∧ status = .requesting) ∨
          (s.calls c = some ⟨key', status⟩ ∧ key' ≠ key) := by
      intro c key' status hc
      rcases update_some_eq_some.mp hc with ⟨rfl, hcall⟩ | ⟨-, hc⟩
      · cases hcall
        exact .inl ⟨rfl, rfl, rfl⟩
      · exact .inr ⟨hc, fun hkey => hno c status (hkey ▸ hc)⟩
    constructor
    · exact hfresh
    · intro id callbacks hid
      obtain ⟨c, key', result, hc, hcall, hmem⟩ := h.subscribed id callbacks hid
      exact ⟨c, key', result, hc, hkeep c _ hcall, hmem⟩
    · exact h.answered
    · intro c key' hc
      rcases hcall c key' _ hc with ⟨rfl, rfl, -⟩ | ⟨hc, hne⟩
      · exact ⟨Function.update_self .., hresponses⟩
      · refine ⟨?_, (h.requesting c key' hc).2⟩
        exact (Function.update_of_ne hne ..).trans (h.requesting c key' hc).1
    · intro c key' result hc
      rcases hcall c key' _ hc with ⟨-, -, hstatus⟩ | ⟨hc, -⟩
      · cases hstatus
      · exact h.returned c key' result hc
    · intro c key' hc
      rcases hcall c key' _ hc with ⟨-, -, hstatus⟩ | ⟨hc, -⟩
      · cases hstatus
      · exact h.cancelled c key' hc
    · intro key' hkey
      have hne : key' ≠ key := fun heq => by simp [heq] at hkey
      have hkey' : s.pendingAccountSubscriptions key' = none :=
        (Function.update_of_ne hne ..).symm.trans hkey
      obtain ⟨hcallback', hno', hresponses'⟩ := h.pending key' hkey'
      refine ⟨hcallback', fun c status hc => ?_, hresponses'⟩
      rcases hcall c key' status hc with ⟨-, heq, -⟩ | ⟨hc, -⟩
      · exact hne heq
      · exact hno' c status hc

/-- What the calls are after the answer to call `c`. -/
theorem calls_onSubscribeResult {s : AccountSubscriber} {c c' : ℕ} {key key' : SubscriptionKey}
    {id : UInt64} {status : CallStatus}
    (h : (s.onSubscribeResult c key id).calls c' = some ⟨key', status⟩) :
    (c' = c ∧ key' = key ∧ status = .returned s.nextSubscriptionId) ∨
      s.calls c' = some ⟨key', status⟩ ∧ c' ≠ c ∨
      s.calls c' = some ⟨key, .waiting⟩ ∧ key' = key ∧ status = .cancelled := by
  by_cases heq : c' = c
  · subst heq
    simp only [onSubscribeResult, returns, setStatus, Function.update_self, Option.some.injEq,
      SubscribeCall.mk.injEq] at h
    exact .inl ⟨rfl, h.1.symm, h.2.symm⟩
  · simp only [onSubscribeResult, returns, setStatus, Function.update_of_ne heq] at h
    rcases calls_endWaits h with hsame | hwoken
    · exact .inr (.inl ⟨hsame, heq⟩)
    · exact .inr (.inr hwoken)

theorem calls_onSubscribeResult_self (s : AccountSubscriber) (c : ℕ) (key : SubscriptionKey)
    (id : UInt64) : (s.onSubscribeResult c key id).calls c =
      some ⟨key, .returned s.nextSubscriptionId⟩ := by
  simp [onSubscribeResult, returns, setStatus, endWaits]

theorem mem_responses_onSubscribeResult {s : AccountSubscriber} {c : ℕ} {key key' : SubscriptionKey}
    {id id' : UInt64} : (id', key') ∈ (s.onSubscribeResult c key id).responses ↔
      (id' = id ∧ key' = key) ∨ (id', key') ∈ s.responses := by
  simp [onSubscribeResult, returns, setStatus, endWaits]

theorem subscriptions_onSubscribeResult {s : AccountSubscriber} {c : ℕ} {key : SubscriptionKey}
    {id : UInt64} (hpending : s.pendingAccountSubscriptions key = some [c])
    (hid : s.subscriptions id = none) : (s.onSubscribeResult c key id).subscriptions =
      Function.update s.subscriptions id (some [c]) := by
  simp [onSubscribeResult, returns, setStatus, endWaits, hid, hpending]

/-- A call that has returned is not touched. -/
theorem calls_onSubscribeResult_of_returned {s : AccountSubscriber} {c c' : ℕ}
    {key key' : SubscriptionKey} {result : UInt64} (id : UInt64)
    (hc : s.calls c = some ⟨key, .requesting⟩)
    (hc' : s.calls c' = some ⟨key', .returned result⟩) :
    (s.onSubscribeResult c key id).calls c' = some ⟨key', .returned result⟩ := by
  have hne : c' ≠ c := fun heq => by simp [heq, hc] at hc'
  simp only [onSubscribeResult, returns, setStatus, Function.update_of_ne hne]
  exact (calls_endWaits_of_ne hc' (by simp)).trans hc'

/-- The answer registers the callback of the call under a new id. -/
theorem Inv.onSubscribeResult {s : AccountSubscriber} (h : s.Inv) {c : ℕ} {key : SubscriptionKey}
    (hc : s.calls c = some ⟨key, .requesting⟩) {id : UInt64} (hid : s.subscriptions id = none) :
    (s.onSubscribeResult c key id).Inv := by
  obtain ⟨hpending, hresponses⟩ := h.requesting c key hc
  have hsubscriptions := subscriptions_onSubscribeResult hpending hid
  have hself := calls_onSubscribeResult_self s c key id
  have hmem : ∀ id' key', (id', key') ∈ (s.onSubscribeResult c key id).responses ↔
      (id' = id ∧ key' = key) ∨ (id', key') ∈ s.responses :=
    fun _ _ => mem_responses_onSubscribeResult
  refine {
    fresh := ?fresh
    subscribed := ?subscribed
    answered := ?answered
    requesting := ?requesting
    returned := ?returned
    cancelled := ?cancelled
    pending := ?pending }
  case fresh =>
    intro c' hle
    have hnone := h.fresh c' hle
    have hne : c' ≠ c := fun heq => by simp [heq, hc] at hnone
    simp [AccountSubscriber.onSubscribeResult, returns, setStatus, endWaits, hne, hnone]
  case subscribed =>
    intro id' callbacks hid'
    rw [hsubscriptions] at hid'
    rcases update_some_eq_some.mp hid' with ⟨rfl, rfl⟩ | ⟨-, hid'⟩
    · exact ⟨c, key, _, rfl, hself, (hmem _ _).mpr (.inl ⟨rfl, rfl⟩)⟩
    · obtain ⟨c', key', result, rfl, hcall, hin⟩ := h.subscribed id' callbacks hid'
      exact ⟨c', key', result, rfl, calls_onSubscribeResult_of_returned id hc hcall,
        (hmem _ _).mpr (.inr hin)⟩
  case answered =>
    intro id' key' hin
    rw [hsubscriptions]
    rcases (hmem id' key').mp hin with ⟨rfl, -⟩ | hin
    · simp
    · have hne : id' ≠ id := fun heq => h.answered id' key' hin (heq ▸ hid)
      rw [Function.update_of_ne hne]
      exact h.answered id' key' hin
  case requesting =>
    intro c' key' hc'
    rcases calls_onSubscribeResult hc' with ⟨-, -, hstatus⟩ | ⟨hc', hne⟩ | ⟨-, -, hstatus⟩
    · cases hstatus
    · obtain ⟨hpending', hresponses'⟩ := h.requesting c' key' hc'
      have hkey : key' ≠ key := fun heq => by
        rw [heq, hpending] at hpending'
        exact hne (by simpa using hpending'.symm)
      refine ⟨(Function.update_of_ne hkey ..).trans hpending', fun id' hin => ?_⟩
      rcases (hmem id' key').mp hin with ⟨-, heq⟩ | hin
      · exact hkey heq
      · exact hresponses' id' hin
    · cases hstatus
  case returned =>
    intro c' key' result hc'
    rw [hsubscriptions]
    rcases calls_onSubscribeResult hc' with ⟨rfl, rfl, -⟩ | ⟨hc', -⟩ | ⟨-, -, hstatus⟩
    · refine ⟨id, Function.update_self .., fun id' => ?_⟩
      rw [hmem]
      exact ⟨fun hor => (hor.resolve_right (hresponses id')).1, fun heq => .inl ⟨heq, rfl⟩⟩
    · obtain ⟨id₀, hsub, hall⟩ := h.returned c' key' result hc'
      have hne : id₀ ≠ id := fun heq => by simp [heq, hid] at hsub
      have hkey : key' ≠ key := fun heq => hresponses id₀ (heq ▸ (hall id₀).mpr rfl)
      refine ⟨id₀, (Function.update_of_ne hne ..).trans hsub, fun id' => ?_⟩
      rw [hmem, or_iff_right fun heq => hkey heq.2]
      exact hall id'
    · cases hstatus
  case cancelled =>
    intro c' key' hc'
    rcases calls_onSubscribeResult hc' with ⟨-, -, hstatus⟩ | ⟨hc', -⟩ | ⟨-, rfl, -⟩
    · cases hstatus
    · obtain ⟨id', hin⟩ := h.cancelled c' key' hc'
      exact ⟨id', (hmem _ _).mpr (.inr hin)⟩
    · exact ⟨id, (hmem _ _).mpr (.inl ⟨rfl, rfl⟩)⟩
  case pending =>
    intro key' hkey
    have hne : key' ≠ key := fun heq => by
      simp [AccountSubscriber.onSubscribeResult, returns, setStatus, endWaits, heq] at hkey
    have hkey' : s.pendingAccountSubscriptions key' = none :=
      (Function.update_of_ne hne ..).symm.trans hkey
    obtain ⟨hcallback, hno, hresponses'⟩ := h.pending key' hkey'
    refine ⟨(Function.update_of_ne hne ..).trans hcallback, fun c' status hc' => ?_,
      fun id' hin => ?_⟩
    · rcases calls_onSubscribeResult hc' with ⟨-, heq, -⟩ | ⟨hc', -⟩ | ⟨-, heq, -⟩
      · exact hne heq
      · exact hno c' status hc'
      · exact hne heq
    · rcases (hmem id' key').mp hin with ⟨-, heq⟩ | hin
      · exact hne heq
      · exact hresponses' id' hin

/-- A call that returns where the callback of another one is registered is
not notified. -/
theorem not_notifiesOnce {s : AccountSubscriber} {c c' : ℕ} {key : SubscriptionKey}
    {id result : UInt64} (hc : s.calls c = some ⟨key, .returned result⟩)
    (hin : (id, key) ∈ s.responses) (hid : s.subscriptions id = some [c']) (hne : c' ≠ c) :
    ¬ s.NotifiesOnce := by
  intro h
  have hone := h c key result hc id hin
  simp [doHandleAccountNotification, hid, hne] at hone

/-! ## What the labels of a call do -/

theorem step_response {s s' : AccountSubscriber} {c : ℕ} {id : UInt64}
    (h : s.step (.response c id) = some s') :
    ∃ key, s.calls c = some ⟨key, .requesting⟩ ∧ s.onSubscribeResult c key id = s' := by
  simp only [step] at h
  split at h
  · next key hc => exact ⟨key, hc, Option.some.inj h⟩
  · cases h

theorem step_failure {s s' : AccountSubscriber} {c : ℕ} (h : s.step (.failure c) = some s') :
    ∃ key, s.calls c = some ⟨key, .requesting⟩ ∧ s.setStatus c key .failed = s' := by
  simp only [step] at h
  split at h
  · next key hc => exact ⟨key, hc, Option.some.inj h⟩
  · cases h

theorem step_timerError {s s' : AccountSubscriber} {c : ℕ}
    (h : s.step (.timerError c) = some s') :
    ∃ key, s.calls c = some ⟨key, .waiting⟩ ∧ s.setStatus c key .failed = s' := by
  simp only [step] at h
  split at h
  · next key hc => exact ⟨key, hc, Option.some.inj h⟩
  · cases h

/-- A wait that was cancelled returns, one that expired throws. -/
theorem step_wake {s s' : AccountSubscriber} {c : ℕ} (h : s.step (.wake c) = some s') :
    ∃ key, (s.calls c = some ⟨key, .cancelled⟩ ∧ s.returns c key = s') ∨
      (s.calls c = some ⟨key, .expired⟩ ∧ s.setStatus c key .failed = s') := by
  simp only [step] at h
  split at h
  · next key hc => exact ⟨key, .inl ⟨hc, Option.some.inj h⟩⟩
  · next key hc => exact ⟨key, .inr ⟨hc, Option.some.inj h⟩⟩
  · cases h

/-! ## Every run -/

theorem inv_step (s : AccountSubscriber) (label : Label) (s' : AccountSubscriber) (h : s.Inv)
    (hok : s.StepOk label) (hstep : s.step label = some s') : s'.Inv := by
  cases label with
  | subscribe key =>
    obtain rfl := Option.some.inj hstep
    exact h.accountSubscribe key
  | response c id =>
    obtain ⟨key, hc, rfl⟩ := step_response hstep
    exact h.onSubscribeResult hc hok
  | failure c =>
    obtain ⟨key, hc, rfl⟩ := step_failure hstep
    exact h.setStatus_failed hc (by simp)
  | expire key =>
    obtain rfl := Option.some.inj hstep
    exact h.expire key
  | timerError c =>
    obtain ⟨key, hc, rfl⟩ := step_timerError hstep
    exact h.setStatus_failed hc (by simp)
  | wake c =>
    obtain ⟨key, ⟨hc, -⟩ | ⟨hc, rfl⟩⟩ := step_wake hstep
    · simp [StepOk, hc] at hok
    · exact h.setStatus_failed hc (by simp)
  | notification id =>
    obtain rfl := Option.some.inj hstep
    exact h

/-- A step that is not `StepOk` returns to a call that is not notified. -/
theorem stepOk_of_notifiesOnce {s s' : AccountSubscriber} {label : Label} (h : s.Inv)
    (hstep : s.step label = some s') (hgood : s'.NotifiesOnce) : s.StepOk label := by
  cases label with
  | response c id =>
    obtain ⟨key, hc, rfl⟩ := step_response hstep
    show s.subscriptions id = none
    by_contra hid
    obtain ⟨callbacks, hsub⟩ := Option.ne_none_iff_exists'.mp hid
    obtain ⟨c', key', result, rfl, hcall, -⟩ := h.subscribed id callbacks hsub
    have hne : c' ≠ c := fun heq => by simp [heq, hc] at hcall
    have hkept : (s.onSubscribeResult c key id).subscriptions id = some [c'] := by
      simp [onSubscribeResult, returns, setStatus, endWaits, hsub]
    exact not_notifiesOnce (calls_onSubscribeResult_self s c key id)
      (mem_responses_onSubscribeResult.mpr (.inl ⟨rfl, rfl⟩)) hkept hne hgood
  | wake c =>
    obtain ⟨key, ⟨hc, rfl⟩ | ⟨hc, -⟩⟩ := step_wake hstep
    · -- The answer that cancelled the wait registered another call's callback.
      obtain ⟨id, hin⟩ := h.cancelled c key hc
      obtain ⟨callbacks, hsub⟩ := Option.ne_none_iff_exists'.mp (h.answered id key hin)
      obtain ⟨c', key', result, rfl, hcall, -⟩ := h.subscribed id callbacks hsub
      have hne : c' ≠ c := fun heq => by simp [heq, hc] at hcall
      have hself : (s.returns c key).calls c = some ⟨key, .returned s.nextSubscriptionId⟩ :=
        Function.update_self ..
      exact absurd hgood (not_notifiesOnce hself hin hsub hne)
    · simp [StepOk, hc]
  | _ => trivial

/-- **Every subscriber.** Over all interleavings, a notification reaches the
callback of every call that has returned exactly once, in every state of a
run, exactly when all steps of the run are `StepOk`. -/
theorem notifiesOnce_iff {labels : List Label} {t : AccountSubscriber}
    (hrun : run step init labels = some t) :
    (∀ k s, run step init (labels.take k) = some s → NotifiesOnce s) ↔
      Along step StepOk init labels :=
  along_iff_prefixes (fun s label s' h _ => inv_step s label s' h)
    (fun s label s' h _ hstep => ⟨stepOk_of_notifiesOnce h hstep, fun hok =>
      (inv_step s label s' h hok hstep).notifiesOnce⟩)
    inv_init inv_init.notifiesOnce hrun

/-- A key by the byte it is filled with. -/
def processedKey (b : UInt8) : SubscriptionKey := (Bytes.ByteArr.fill 32 b, .processed)

/-- Two keys; a second call for the first one comes too late and times out. -/
def oneCallEach : List Label :=
  [.subscribe (processedKey 1), .subscribe (processedKey 2), .response 0 7,
    .subscribe (processedKey 1), .response 1 8, .notification 7, .expire (processedKey 1), .wake 2,
    .notification 8]

theorem notifiesOnce_iff_oneCallEach :
    ∃ t, run step init oneCallEach = some t ∧
      ∀ k s, run step init (oneCallEach.take k) = some s → NotifiesOnce s := by
  obtain ⟨t, ht⟩ := Option.isSome_iff_exists.mp
    (show (run step init oneCallEach).isSome by decide +kernel)
  exact ⟨t, ht, (notifiesOnce_iff ht).mpr (by decide +kernel)⟩

/-- A call joins another one, is woken and returns. -/
def joinPending : List Label :=
  [.subscribe (processedKey 1), .subscribe (processedKey 1), .response 0 7, .wake 1]

/-- Both calls have returned; a notification invokes the first callback. -/
theorem notifiesOnce_fails :
    ∃ t, run step init joinPending = some t ∧
      t.calls 0 = some ⟨processedKey 1, .returned 0⟩ ∧
      t.calls 1 = some ⟨processedKey 1, .returned 1⟩ ∧ (7, processedKey 1) ∈ t.responses ∧
      t.doHandleAccountNotification 7 = [0] ∧ ¬ NotifiesOnce t := by
  have hcalls : (run step init joinPending).map (fun t => (t.calls 0, t.calls 1)) =
      some (some ⟨processedKey 1, .returned 0⟩, some ⟨processedKey 1, .returned 1⟩) := by
    decide +kernel
  have hresponses : (run step init joinPending).map (fun t => t.responses) =
      some [(7, processedKey 1)] := by decide +kernel
  have hinvoked : (run step init joinPending).map (fun t => t.doHandleAccountNotification 7) =
      some [0] := by decide +kernel
  obtain ⟨t, ht, hcalls⟩ := Option.map_eq_some_iff.mp hcalls
  obtain ⟨hfirst, hsecond⟩ := Prod.mk.inj hcalls
  rw [ht, Option.map_some, Option.some.injEq] at hresponses hinvoked
  have hin : (7, processedKey 1) ∈ t.responses := by simp [hresponses]
  refine ⟨t, ht, hfirst, hsecond, hin, hinvoked, fun h => ?_⟩
  have hone := h 1 _ _ hsecond 7 hin
  simp [hinvoked] at hone

/-! ## With any steps and new ids -/

/-- Only the first call for a key registers its callback, alone and under one
id. -/
structure Registered (s : AccountSubscriber) : Prop where
  fresh : ∀ c, s.callCount ≤ c → s.calls c = none
  subscribed : ∀ id callbacks, s.subscriptions id = some callbacks →
    ∃ c key result, callbacks = [c] ∧ s.calls c = some ⟨key, .returned result⟩ ∧
      (id, key) ∈ s.responses
  requesting : ∀ c key, s.calls c = some ⟨key, .requesting⟩ →
    s.pendingAccountSubscriptions key = some [c] ∧ ∀ id, (id, key) ∉ s.responses
  unique : ∀ id id' key, (id, key) ∈ s.responses → (id', key) ∈ s.responses → id = id'
  pending : ∀ key, s.pendingAccountSubscriptions key = none →
    s.accountToCallback key = none ∧ ∀ id, (id, key) ∉ s.responses

variable {s s' : AccountSubscriber}

theorem registered_init : init.Registered where
  fresh _ _ := rfl
  subscribed _ _ h := by simp [init] at h
  requesting _ _ h := by simp [init] at h
  unique _ _ _ h := by simp [init] at h
  pending _ _ := by simp [init]

/-- A call has its callback under one id only. -/
theorem Registered.eq_of_subscriptions (h : s.Registered) {c : ℕ} {id id' : UInt64}
    (hid : s.subscriptions id = some [c]) (hid' : s.subscriptions id' = some [c]) : id = id' := by
  obtain ⟨c₁, key₁, result₁, hc₁, hcall₁, hmem₁⟩ := h.subscribed id _ hid
  obtain ⟨c₂, key₂, result₂, hc₂, hcall₂, hmem₂⟩ := h.subscribed id' _ hid'
  obtain rfl : c = c₁ := by simpa using hc₁
  obtain rfl : c = c₂ := by simpa using hc₂
  obtain rfl : key₁ = key₂ := by
    rw [hcall₁] at hcall₂
    cases hcall₂
    rfl
  exact h.unique id id' key₁ hmem₁ hmem₂

theorem Registered.ne_of_requesting (h : s.Registered) {c : ℕ} {key : SubscriptionKey}
    (hc : s.calls c = some ⟨key, .requesting⟩) (id : UInt64) : s.subscriptions id ≠ some [c] := by
  intro hid
  obtain ⟨c', key', result, hcall, hreturned, -⟩ := h.subscribed id _ hid
  obtain rfl : c = c' := by simpa using hcall
  rw [hc] at hreturned
  cases hreturned

/-- The frame: calls that had not returned go on, and none of them starts over. -/
theorem Registered.frame (h : s.Registered) (nextSubscriptionId : UInt64)
    {calls : ℕ → Option SubscribeCall}
    (hcalls : ∀ c, calls c = s.calls c ∨ ∃ key status status',
      s.calls c = some ⟨key, status⟩ ∧ calls c = some ⟨key, status'⟩ ∧
        (∀ result, status ≠ .returned result) ∧ status' ≠ .requesting) :
    Registered { s with nextSubscriptionId, calls } where
  fresh c hle := by
    obtain hsame | ⟨key, status, status', hold, -⟩ := hcalls c
    · exact hsame.trans (h.fresh c hle)
    · rw [h.fresh c hle] at hold
      cases hold
  subscribed id callbacks hid := by
    obtain ⟨c, key, result, hc, hcall, hmem⟩ := h.subscribed id callbacks hid
    refine ⟨c, key, result, hc, ?_, hmem⟩
    obtain hsame | ⟨key', status, status', hold, -, hreturned, -⟩ := hcalls c
    · exact hsame.trans hcall
    · rw [hcall] at hold
      cases hold
      exact absurd rfl (hreturned result)
  requesting c key hc := by
    obtain hsame | ⟨key', status, status', -, hnew, -, hstatus⟩ := hcalls c
    · exact h.requesting c key (hsame ▸ hc)
    · cases hnew.symm.trans hc
      exact absurd rfl hstatus
  unique := h.unique
  pending := h.pending

theorem Registered.setStatus (h : s.Registered) {c : ℕ} {key : SubscriptionKey}
    {status status' : CallStatus} (hc : s.calls c = some ⟨key, status⟩)
    (hstatus : ∀ result, status ≠ .returned result) (hstatus' : status' ≠ .requesting)
    (nextSubscriptionId : UInt64) :
    Registered { s.setStatus c key status' with nextSubscriptionId } := by
  refine h.frame nextSubscriptionId fun c' => ?_
  by_cases hsame : c' = c
  · subst hsame
    exact .inr ⟨key, status, status', hc, Function.update_self .., hstatus, hstatus'⟩
  · exact .inl (Function.update_of_ne hsame ..)

theorem Registered.endWaits (h : s.Registered) (key : SubscriptionKey) {status : CallStatus}
    (hstatus : status ≠ .requesting) : (s.endWaits key status).Registered := by
  refine h.frame s.nextSubscriptionId fun c => ?_
  by_cases hwaiting : s.calls c = some ⟨key, .waiting⟩
  · exact .inr ⟨key, .waiting, status, hwaiting, by simp [hwaiting, wakeWaiting], by simp, hstatus⟩
  · refine .inl ?_
    cases hc : s.calls c with
    | none => rfl
    | some call =>
      have hnot : ¬(call.key = key ∧ call.status = .waiting) := by
        rintro ⟨rfl, hstatus⟩
        exact hwaiting (hc.trans (by rw [← hstatus]))
      simp [wakeWaiting, hnot]

/-- A new call registers nothing; the first one for a key sends the request. -/
theorem Registered.accountSubscribe (h : s.Registered) (key : SubscriptionKey) :
    (s.accountSubscribe key).Registered ∧
      (s.accountSubscribe key).subscriptions = s.subscriptions ∧
      (s.accountSubscribe key).callCount = s.callCount + 1 := by
  cases hpending : s.pendingAccountSubscriptions key with
  | some callbacks =>
    rw [accountSubscribe_join hpending]
    obtain ⟨hfresh, hkeep⟩ := calls_new h.fresh ⟨key, .waiting⟩
    refine ⟨{
      fresh := hfresh
      subscribed := fun id callbacks hid => ?_
      requesting := fun c key' hc => ?_
      unique := h.unique
      pending := h.pending }, rfl, rfl⟩
    · obtain ⟨c, key', result, hc, hcall, hmem⟩ := h.subscribed id callbacks hid
      exact ⟨c, key', result, hc, hkeep c _ hcall, hmem⟩
    · obtain ⟨-, hcall⟩ | ⟨-, hc⟩ := update_some_eq_some.mp hc
      · cases hcall
      · exact h.requesting c key' hc
  | none =>
    obtain ⟨hcallback, hresponses⟩ := h.pending key hpending
    rw [accountSubscribe_first hpending hcallback]
    obtain ⟨hfresh, hkeep⟩ := calls_new h.fresh ⟨key, .requesting⟩
    refine ⟨{
      fresh := hfresh
      subscribed := fun id callbacks hid => ?_
      requesting := fun c key' hc => ?_
      unique := h.unique
      pending := fun key' hkey => ?_ }, rfl, rfl⟩
    · obtain ⟨c, key', result, hc, hcall, hmem⟩ := h.subscribed id callbacks hid
      exact ⟨c, key', result, hc, hkeep c _ hcall, hmem⟩
    · obtain ⟨rfl, hcall⟩ | ⟨-, hc⟩ := update_some_eq_some.mp hc
      · cases hcall
        exact ⟨Function.update_self .., hresponses⟩
      · obtain ⟨hfirst, hno⟩ := h.requesting c key' hc
        have hne : key' ≠ key := fun hsame => by simp [hsame, hpending] at hfirst
        exact ⟨(Function.update_of_ne hne ..).trans hfirst, hno⟩
    · obtain ⟨-, hkey⟩ := update_some_eq_none.mp hkey
      exact h.pending key' hkey

/-- The answer registers the callback of its call alone. -/
theorem Registered.onSubscribeResult (h : s.Registered) {c : ℕ} {key : SubscriptionKey}
    (hc : s.calls c = some ⟨key, .requesting⟩) {id : UInt64} (hid : s.subscriptions id = none) :
    (s.onSubscribeResult c key id).Registered ∧
      (s.onSubscribeResult c key id).subscriptions =
        Function.update s.subscriptions id (some [c]) ∧
      (s.onSubscribeResult c key id).callCount = s.callCount := by
  obtain ⟨hpending, hresponses⟩ := h.requesting c key hc
  have hsubscriptions := subscriptions_onSubscribeResult hpending hid
  have hpendings : (s.onSubscribeResult c key id).pendingAccountSubscriptions =
      Function.update s.pendingAccountSubscriptions key (some []) := rfl
  refine ⟨{
    fresh := fun c' hle => ?_
    subscribed := fun id' callbacks hid' => ?_
    requesting := fun c' key' hc' => ?_
    unique := fun id₁ id₂ key' h₁ h₂ => ?_
    pending := fun key' hkey => ?_ }, hsubscriptions, rfl⟩
  · have hnone := h.fresh c' hle
    have hne : c' ≠ c := fun hsame => by simp [hsame, hc] at hnone
    simp [AccountSubscriber.onSubscribeResult, returns, AccountSubscriber.setStatus,
      AccountSubscriber.endWaits, hne, hnone]
  · rw [hsubscriptions] at hid'
    obtain ⟨rfl, hcallbacks⟩ | ⟨-, hid'⟩ := update_some_eq_some.mp hid'
    · exact ⟨c, key, _, hcallbacks.symm, calls_onSubscribeResult_self s c key id',
        mem_responses_onSubscribeResult.mpr (.inl ⟨rfl, rfl⟩)⟩
    · obtain ⟨c', key', result, rfl, hcall, hmem⟩ := h.subscribed id' callbacks hid'
      exact ⟨c', key', result, rfl, calls_onSubscribeResult_of_returned id hc hcall,
        mem_responses_onSubscribeResult.mpr (.inr hmem)⟩
  · obtain ⟨-, -, hstatus⟩ | ⟨hc', hne⟩ | ⟨-, -, hstatus⟩ := calls_onSubscribeResult hc'
    · cases hstatus
    · obtain ⟨hfirst, hno⟩ := h.requesting c' key' hc'
      have hkey : key' ≠ key := by
        rintro rfl
        rw [hpending] at hfirst
        exact hne (by simpa using hfirst.symm)
      refine ⟨?_, fun id' hmem => ?_⟩
      · rw [hpendings, Function.update_of_ne hkey, hfirst]
      · obtain ⟨-, hsame⟩ | hmem := mem_responses_onSubscribeResult.mp hmem
        · exact hkey hsame
        · exact hno id' hmem
    · cases hstatus
  · -- The key had no response yet.
    obtain ⟨rfl, hkey₁⟩ | hmem₁ := mem_responses_onSubscribeResult.mp h₁ <;>
      obtain ⟨rfl, hkey₂⟩ | hmem₂ := mem_responses_onSubscribeResult.mp h₂
    · rfl
    · exact absurd (hkey₁ ▸ hmem₂) (hresponses id₂)
    · exact absurd (hkey₂ ▸ hmem₁) (hresponses id₁)
    · exact h.unique id₁ id₂ key' hmem₁ hmem₂
  · rw [hpendings] at hkey
    obtain ⟨hne, hkey⟩ := update_some_eq_none.mp hkey
    obtain ⟨hcallback, hno⟩ := h.pending key' hkey
    refine ⟨(Function.update_of_ne hne ..).trans hcallback, fun id' hmem => ?_⟩
    obtain ⟨-, hsame⟩ | hmem := mem_responses_onSubscribeResult.mp hmem
    · exact hne hsame
    · exact hno id' hmem

/-- The steps of a call on its own. -/
def Label.OnItsOwn : Label → Prop
  | .failure _ | .expire _ | .timerError _ | .wake _ => True
  | _ => False

/-- None of them registers anything. -/
theorem Registered.onItsOwn (h : s.Registered) {label : Label} (hlabel : label.OnItsOwn)
    (hstep : s.step label = some s') :
    s'.Registered ∧ s'.subscriptions = s.subscriptions ∧ s'.callCount = s.callCount := by
  cases label with
  | failure c =>
    obtain ⟨key, hc, rfl⟩ := step_failure hstep
    exact ⟨h.setStatus hc (by simp) (by simp) _, rfl, rfl⟩
  | expire key =>
    obtain rfl := Option.some.inj hstep
    exact ⟨h.endWaits key (by simp), rfl, rfl⟩
  | timerError c =>
    obtain ⟨key, hc, rfl⟩ := step_timerError hstep
    exact ⟨h.setStatus hc (by simp) (by simp) _, rfl, rfl⟩
  | wake c =>
    obtain ⟨key, ⟨hc, rfl⟩ | ⟨hc, rfl⟩⟩ := step_wake hstep
    · exact ⟨h.setStatus hc (by simp) (by simp) _, rfl, rfl⟩
    · exact ⟨h.setStatus hc (by simp) (by simp) _, rfl, rfl⟩
  | _ => exact hlabel.elim

end Synthfi.Solana.AccountSubscriber
