/-
Synthfi.Solana.SignatureSubscriberTheorems — what the outcome of a call of
`do_signature_subscribe` says.

A call that returns should return the content of a notification of its own
subscription, and one that times out should have had none in its 30 seconds
(`Promises`). A notification passes two slots of one place, two signals that
nobody keeps and a map that is filled late; `StepOk` asks of each of these
that it loses nothing and adds nothing, and `promises_run` says that this is
enough, over all runs.
-/
import Synthfi.Solana.SignatureSubscriber

namespace Synthfi.Solana

open Run PartialMap

/-! ## Outcomes -/

/-- The error is engaged unless `err` is null, and has the text of a string. -/
def ContentOf (err : NotificationErr) (notification : SignatureNotification) : Prop :=
  (notification.error.isSome ↔ err ≠ .null) ∧
    ∀ text, err = .string text → notification.error = some text

/-- What decodes is decoded right. -/
theorem contentOf_of_json {err : NotificationErr} {notification : SignatureNotification}
    (h : jsonToSignatureNotification err = some notification) : ContentOf err notification := by
  cases err with
  | null =>
    obtain rfl := Option.some.inj h
    simp [ContentOf]
  | string text =>
    obtain rfl := Option.some.inj h
    simp [ContentOf]
  | object => cases h

/-- The call has not ended its wait. -/
def SignatureStatus.isOpen : SignatureStatus → Bool
  | .requesting | .answered _ | .registered _ | .waiting _ => true
  | _ => false

namespace SignatureSubscriber

variable {s s' t : SignatureSubscriber}

/-- A notification with this content has arrived for the call. -/
def Received (s : SignatureSubscriber) (c : ℕ) (notification : SignatureNotification) : Prop :=
  ∃ a ∈ s.arrivals, a.call = c ∧ ContentOf a.err notification

/-- A notification has arrived for the call before its 30 seconds ran out. -/
def Due (s : SignatureSubscriber) (c : ℕ) (call : SignatureCall) : Prop :=
  ∃ a ∈ s.arrivals, a.call = c ∧ ∀ d ∈ call.deadline, a.time < d

/-- The claims made to the callers. -/
structure Promises (s : SignatureSubscriber) : Prop where
  returned : ∀ c call notification, s.calls c = some call →
    call.status = .returned notification → s.Received c notification
  timedOut : ∀ c call, s.calls c = some call → call.status = .threw .timedOut →
    call.deadline.isSome ∧ ¬ s.Due c call

/-! ## The guard -/

/-- A notification for the call is in a slot that `do_notify` was woken to
pass on, or in a coroutine. -/
def OnItsWay (s : SignatureSubscriber) (c : ℕ) : Prop :=
  (∃ a ∈ s.arrivals, a.call = c ∧ ∃ subscription ∈ s.activeSubscriptions a.subscriptionId,
    subscription.notifier = .signalled ∧ subscription.arrival = some a) ∨
    ∃ handler ∈ s.handlers, ∃ a ∈ handler.arrival, a.call = c

/-- A notification that comes in time for an open call, and is the first to
be on its way, decodes and finds `do_notify` at its wait or woken. -/
def Caught (s : SignatureSubscriber) (id : UInt64) (err : NotificationErr) : Prop :=
  ∀ c ∈ s.owners id, ∀ call ∈ s.calls c, call.status.isOpen →
    (∀ d ∈ call.deadline, s.now < d) → s.OnItsWay c ∨
      ((jsonToSignatureNotification err).isSome ∧
        ∃ subscription ∈ s.activeSubscriptions id,
          subscription.notifier = .waiting ∨ subscription.notifier = .signalled)

/-- The slot holds what is due to an open call other than the owner. -/
def HoldsOther (s : SignatureSubscriber) (owner : Option ℕ) (subscription : ActiveSignature) :
    Prop :=
  subscription.notifier = .signalled ∧ ∃ a ∈ subscription.arrival, owner ≠ some a.call ∧
    ∃ call ∈ s.calls a.call, call.status.isOpen ∧ s.Due a.call call

/-- None takes the place of one that is due to another open call. -/
def DisplacesNone (s : SignatureSubscriber) (id : UInt64) (err : NotificationErr) : Prop :=
  ∀ subscription ∈ s.activeSubscriptions id,
    jsonToSignatureNotification err = none ∨ ¬ s.HoldsOther (s.owners id) subscription

/-- A coroutine with a notification of an open call finds it at its wait. No
other call awaits the element, and none that was woken and has not resumed
finds it changed. -/
def HandlerOk (s : SignatureSubscriber) (handler : SignatureHandler) : Prop :=
  (∀ a ∈ handler.arrival, ∀ call ∈ s.calls a.call, call.status.isOpen →
    call.status = .waiting handler.subscriptionId) ∧
  ∀ c < s.callCount, ∀ call ∈ s.calls c, handler.arrival.map Arrival.call ≠ some c →
    call.status ≠ .waiting handler.subscriptionId ∧
      (call.status = .cancelled handler.subscriptionId →
        ∀ subscription ∈ s.subscriptions handler.subscriptionId,
          subscription.notification = handler.notification)

/-- The steps that lose nothing and add nothing. -/
def StepOk (s : SignatureSubscriber) : Label → Prop
  | .notification id err => s.Caught id err ∧ s.DisplacesNone id err
  | .handle k => ∀ handler ∈ s.handlers[k]?, s.HandlerOk handler
  -- The 30 seconds are those of the call, and nothing that came in them is on its way.
  | .expire c => ∀ call ∈ s.calls c, (∀ d ∈ call.deadline, d ≤ s.now) ∧
    (s.Due c call → ¬ s.OnItsWay c)
  | _ => True

/-! ## The invariant -/

/-- The 30 seconds of the call are over, and nothing came in them. -/
def Over (s : SignatureSubscriber) (c : ℕ) (call : SignatureCall) : Prop :=
  ∃ d ∈ call.deadline, d ≤ s.now ∧ ∀ a ∈ s.arrivals, a.call = c → d ≤ a.time

/-- What a call can count on, by where it stands. -/
def CallKept (s : SignatureSubscriber) (c : ℕ) (call : SignatureCall) : Prop :=
  match call.status with
  | .requesting | .answered _ | .registered _ =>
    call.deadline = none ∧ (s.Due c call → s.OnItsWay c)
  | .waiting id =>
    (s.subscriptions id).isSome ∧ call.deadline.isSome ∧ (s.Due c call → s.OnItsWay c)
  | .cancelled id => ∃ subscription ∈ s.subscriptions id, s.Received c subscription.notification
  | .expired _ => s.Over c call
  | .returned notification => s.Received c notification
  | .threw .timedOut => s.Over c call
  | .failed _ | .threw _ => True

structure Kept (s : SignatureSubscriber) : Prop where
  calls : ∀ c call, s.calls c = some call → c < s.callCount ∧ s.CallKept c call
  /-- A slot holds the arrival it was filled with. -/
  slots : ∀ id subscription, s.activeSubscriptions id = some subscription →
    ∀ a ∈ subscription.arrival,
      a ∈ s.arrivals ∧ a.subscriptionId = id ∧ ContentOf a.err subscription.message
  handlers : ∀ handler ∈ s.handlers, ∀ a ∈ handler.arrival,
    a ∈ s.arrivals ∧ ContentOf a.err handler.notification
  owners : ∀ id c, s.owners id = some c → c < s.callCount
  arrivals : ∀ a ∈ s.arrivals, a.call < s.callCount

theorem CallKept.due_onItsWay {c : ℕ} {call : SignatureCall} (h : s.CallKept c call)
    (hopen : call.status.isOpen) (hdue : s.Due c call) : s.OnItsWay c := by
  unfold CallKept at h
  cases hstatus : call.status with
  | requesting | answered | registered =>
    simp only [hstatus] at h
    exact h.2 hdue
  | waiting id =>
    simp only [hstatus] at h
    exact h.2.2 hdue
  | _ => simp [hstatus, SignatureStatus.isOpen] at hopen

theorem Over.not_due {c : ℕ} {call : SignatureCall} (h : s.Over c call) : ¬ s.Due c call := by
  obtain ⟨d, hd, -, hlate⟩ := h
  rintro ⟨a, ha, hcall, htime⟩
  exact absurd (htime d hd) (Nat.not_lt.mpr (hlate a ha hcall))

theorem Kept.promises (h : s.Kept) : s.Promises where
  returned c call notification hc hstatus := by
    have hkept := (h.calls c call hc).2
    simpa only [CallKept, hstatus] using hkept
  timedOut c call hc hstatus := by
    have hkept := (h.calls c call hc).2
    have hover : s.Over c call := by simpa only [CallKept, hstatus] using hkept
    have hnone := hover.not_due
    obtain ⟨d, hd, -⟩ := hover
    exact ⟨Option.isSome_of_mem hd, hnone⟩

/-- What a call counts on stays when what it was made of does. -/
theorem CallKept.mono {c : ℕ} {call : SignatureCall} (h : s.CallKept c call)
    (hway : call.status.isOpen → s'.Due c call → s'.OnItsWay c)
    (helement : ∀ id, (s.subscriptions id).isSome → (s'.subscriptions id).isSome)
    (hheld : ∀ id, call.status = .cancelled id → ∀ subscription ∈ s.subscriptions id,
      s.Received c subscription.notification →
        ∃ subscription ∈ s'.subscriptions id, s'.Received c subscription.notification)
    (hreceived : ∀ notification, s.Received c notification → s'.Received c notification)
    (hover : s.Over c call → s'.Over c call) : s'.CallKept c call := by
  unfold CallKept at h ⊢
  cases hstatus : call.status with
  | requesting | answered | registered =>
    simp only [hstatus] at h ⊢
    exact ⟨h.1, hway (by simp [hstatus, SignatureStatus.isOpen])⟩
  | waiting id =>
    simp only [hstatus] at h ⊢
    exact ⟨helement id h.1, h.2.1, hway (by simp [hstatus, SignatureStatus.isOpen])⟩
  | cancelled id =>
    simp only [hstatus] at h ⊢
    obtain ⟨subscription, hmem, hgot⟩ := h
    exact hheld id hstatus subscription hmem hgot
  | expired =>
    simp only [hstatus] at h ⊢
    exact hover h
  | failed => trivial
  | returned notification =>
    simp only [hstatus] at h ⊢
    exact hreceived notification h
  | threw error =>
    cases error with
    | timedOut =>
      simp only [hstatus] at h ⊢
      exact hover h
    | request | duplicate | timer => trivial

/-- A step that brings no notification. -/
theorem CallKept.frame {c : ℕ} {call : SignatureCall} (h : s.CallKept c call)
    (harrivals : s'.arrivals = s.arrivals) (hnow : s.now ≤ s'.now)
    (helements : ∀ id subscription, s.subscriptions id = some subscription →
      s'.subscriptions id = some subscription)
    (hway : s.OnItsWay c → s'.OnItsWay c) : s'.CallKept c call := by
  refine h.mono (fun hopen hdue => hway (h.due_onItsWay hopen ?_)) (fun id hsome => ?_)
    (fun id _ subscription hmem hgot => ⟨subscription, helements id _ hmem, ?_⟩)
    (fun notification hgot => ?_) (fun hover => ?_)
  · simpa only [Due, harrivals] using hdue
  · obtain ⟨subscription, hsubscription⟩ := Option.isSome_iff_exists.mp hsome
    rw [helements id subscription hsubscription]
    rfl
  · simpa only [Received, harrivals] using hgot
  · simpa only [Received, harrivals] using hgot
  · obtain ⟨d, hd, hle, hlate⟩ := hover
    exact ⟨d, hd, Nat.le_trans hle hnow, harrivals ▸ hlate⟩

/-! ## Steps of a call -/

/-- A call moves to where it stands rightly. -/
theorem Kept.setCall (h : s.Kept) {c : ℕ} {call call' : SignatureCall} (hc : s.calls c = some call)
    (hkept : s.CallKept c call') : (s.setCall c call').Kept where
  calls := forall_update_some h.calls ⟨(h.calls c call hc).1, hkept⟩
  slots := h.slots
  handlers := h.handlers
  owners := h.owners
  arrivals := h.arrivals

/-- For a new call nothing has arrived. -/
theorem Kept.subscribe (h : s.Kept) : s.subscribe.Kept where
  calls c call hc := by
    obtain ⟨rfl, rfl⟩ | ⟨-, hold⟩ := update_some_eq_some.mp hc
    · refine ⟨Nat.lt_succ_self _, rfl, ?_⟩
      rintro ⟨a, ha, hcall, -⟩
      exact absurd (h.arrivals a ha) (Nat.not_lt.mpr (Nat.le_of_eq hcall.symm))
    · obtain ⟨hlt, hkept⟩ := h.calls c call hold
      exact ⟨Nat.lt_succ_of_lt hlt, hkept⟩
  slots := h.slots
  handlers := h.handlers
  owners id c hc := Nat.lt_succ_of_lt (h.owners id c hc)
  arrivals a ha := Nat.lt_succ_of_lt (h.arrivals a ha)

theorem Kept.onResponse (h : s.Kept) {c : ℕ} {call : SignatureCall} (hc : s.calls c = some call)
    (hstatus : call.status = .requesting) (id : UInt64) : (s.onResponse c call id).Kept := by
  obtain ⟨hlt, hkept⟩ := h.calls c call hc
  simp only [CallKept, hstatus] at hkept
  have hcall : (s.setCall c { call with status := .answered id }).Kept := h.setCall hc hkept
  exact { hcall with owners := forall_update_some h.owners hlt }

theorem Kept.doSignatureSubscribe (h : s.Kept) {c : ℕ} {call : SignatureCall}
    (hc : s.calls c = some call) {id : UInt64} (hstatus : call.status = .registered id) :
    (s.doSignatureSubscribe c id).Kept where
  calls := by
    obtain ⟨hlt, hkept⟩ := h.calls c call hc
    simp only [CallKept, hstatus] at hkept
    refine forall_update_some (fun c' call' hc' => ?_) ⟨hlt, ?_, rfl, fun hdue => ?_⟩
    · obtain ⟨hlt', hkept'⟩ := h.calls c' call' hc'
      exact ⟨hlt', hkept'.frame rfl (Nat.le_refl _)
        (fun _ _ hsubscription => emplace_eq_some.mpr (.inl hsubscription)) fun hway => hway⟩
    · simp [SignatureSubscriber.doSignatureSubscribe, emplace]
    · -- Before the wait every notification is in time.
      obtain ⟨a, ha, hcall, -⟩ := hdue
      exact hkept.2 ⟨a, ha, hcall, by simp [hkept.1]⟩
  slots := h.slots
  handlers := h.handlers
  owners := h.owners
  arrivals := h.arrivals

/-! ## Active subscriptions -/

theorem onItsWay_putActive {id : UInt64} {subscription : Option ActiveSignature}
    (hkeep : ∀ old ∈ s.activeSubscriptions id, old.notifier = .signalled →
      ∃ new ∈ subscription, new.notifier = .signalled ∧ new.arrival = old.arrival)
    {c : ℕ} (h : s.OnItsWay c) : (s.putActive id subscription).OnItsWay c := by
  obtain ⟨a, ha, hcall, old, hold, hsignalled, harrival⟩ | hhandler := h
  · refine .inl ⟨a, ha, hcall, ?_⟩
    by_cases hid : a.subscriptionId = id
    · obtain ⟨new, hnew, hsignalled', harrival'⟩ := hkeep old (hid ▸ hold) hsignalled
      refine ⟨new, ?_, hsignalled', harrival'.trans harrival⟩
      rw [hid]
      exact (Function.update_self ..).trans hnew
    · exact ⟨old, (Function.update_of_ne hid ..).trans hold, hsignalled, harrival⟩
  · exact .inr hhandler

theorem Kept.putActive (h : s.Kept) {id : UInt64} {subscription : Option ActiveSignature}
    (hslot : ∀ new ∈ subscription, ∀ a ∈ new.arrival,
      a ∈ s.arrivals ∧ a.subscriptionId = id ∧ ContentOf a.err new.message)
    (hway : ∀ c, s.OnItsWay c → (s.putActive id subscription).OnItsWay c) :
    (s.putActive id subscription).Kept where
  calls c call hc := by
    obtain ⟨hlt, hkept⟩ := h.calls c call hc
    exact ⟨hlt, hkept.frame rfl (Nat.le_refl _) (fun _ _ hsubscription => hsubscription) (hway c)⟩
  slots id' subscription' hsubscription := by
    unfold SignatureSubscriber.putActive at hsubscription
    by_cases hid : id' = id
    · subst hid
      simp only [Function.update_self] at hsubscription
      exact hslot subscription' hsubscription
    · simp only [Function.update_of_ne hid] at hsubscription
      exact h.slots id' subscription' hsubscription
  handlers := h.handlers
  owners := h.owners
  arrivals := h.arrivals

/-- The subscription changes and its slot does not. -/
theorem Kept.setActive (h : s.Kept) {id : UInt64} {old new : ActiveSignature}
    (hold : s.activeSubscriptions id = some old) (hmessage : new.message = old.message)
    (harrival : new.arrival = old.arrival)
    (hsignalled : old.notifier = .signalled → new.notifier = .signalled) :
    (s.putActive id (some new)).Kept := by
  refine h.putActive (fun new' hnew a ha => ?_) fun c => onItsWay_putActive fun old' hold' h' => ?_
  · obtain rfl := Option.some.inj hnew
    rw [hmessage]
    exact h.slots id old hold a (harrival ▸ ha)
  · obtain rfl := Option.some.inj (hold.symm.trans hold')
    exact ⟨new, rfl, hsignalled h', harrival⟩

theorem Kept.doSendSubscribe (h : s.Kept) {c : ℕ} {call : SignatureCall}
    (hc : s.calls c = some call) {id : UInt64} (hstatus : call.status = .answered id) :
    (s.doSendSubscribe c call id).Kept := by
  unfold SignatureSubscriber.doSendSubscribe
  split
  · next hnone =>
    have hactive : (s.putActive id (some .registered)).Kept := by
      refine h.putActive (fun new hnew a ha => ?_) fun c' => onItsWay_putActive fun old hold _ => ?_
      · obtain rfl := Option.some.inj hnew
        cases ha
      · cases hnone.symm.trans hold
    have hkept := (hactive.calls c call hc).2
    simp only [CallKept, hstatus] at hkept
    exact hactive.setCall hc hkept
  · exact h.setCall hc trivial

theorem Kept.moveNotifier (h : s.Kept) {id : UInt64} {source target : Notifier}
    (hsource : source ≠ .signalled) (hstep : s.moveNotifier id source target = some s') :
    s'.Kept := by
  obtain ⟨old, hold, hstep⟩ := Option.bind_eq_some_iff.mp hstep
  obtain ⟨hnotifier, hstep⟩ := Option.ite_none_right_eq_some.mp hstep
  obtain rfl := Option.some.inj hstep
  exact h.setActive hold rfl rfl fun h' => absurd (hnotifier.symm.trans h') hsource

theorem Kept.addHandler (h : s.Kept) {handler : SignatureHandler}
    (hhandler : ∀ a ∈ handler.arrival, a ∈ s.arrivals ∧ ContentOf a.err handler.notification) :
    Kept { s with handlers := s.handlers ++ [handler] } where
  calls c call hc := by
    obtain ⟨hlt, hkept⟩ := h.calls c call hc
    refine ⟨hlt, hkept.frame rfl (Nat.le_refl _) (fun _ _ hsubscription => hsubscription) ?_⟩
    rintro (hslot | ⟨handler', hmem, hcall⟩)
    · exact .inl hslot
    · exact .inr ⟨handler', List.mem_append_left _ hmem, hcall⟩
  slots := h.slots
  handlers handler' hmem := by
    obtain hmem | hmem := List.mem_append.mp hmem
    · exact h.handlers handler' hmem
    · obtain rfl := List.mem_singleton.mp hmem
      exact hhandler
  owners := h.owners
  arrivals := h.arrivals

/-- The notification moves on from the slot to the coroutine. -/
theorem Kept.doNotify (h : s.Kept) {id : UInt64} {old : ActiveSignature}
    (hold : s.activeSubscriptions id = some old) {left : String}
    (hstep : s.doNotify id old left = some s') : s'.Kept := by
  unfold SignatureSubscriber.doNotify at hstep
  cases hnotifier : old.notifier with
  | spawned | waiting => simp [hnotifier] at hstep
  | expired =>
    simp only [hnotifier, Option.some.injEq] at hstep
    subst hstep
    exact h.setActive hold rfl rfl fun h' => absurd (hnotifier.symm.trans h') (by decide)
  | failed =>
    simp only [hnotifier, Option.some.injEq] at hstep
    subst hstep
    refine h.putActive (fun _ hnew => by cases hnew) fun c =>
      onItsWay_putActive fun old' hold' h' => ?_
    obtain rfl := Option.some.inj (hold.symm.trans hold')
    cases hnotifier.symm.trans h'
  | signalled =>
    simp only [hnotifier] at hstep
    have hslot := h.slots id old hold
    have hadded : Kept { s with handlers := s.handlers ++ [⟨id, old.message, old.arrival⟩] } :=
      h.addHandler fun a ha => ⟨(hslot a ha).1, (hslot a ha).2.2⟩
    have hway (subscription : Option ActiveSignature) (c : ℕ)
        (hc : OnItsWay { s with handlers := s.handlers ++ [⟨id, old.message, old.arrival⟩] } c) :
        (SignatureSubscriber.putActive
          { s with handlers := s.handlers ++ [⟨id, old.message, old.arrival⟩] } id
          subscription).OnItsWay c := by
      obtain ⟨a, ha, hcall, old', hold', hsignalled, harrival⟩ | hhandler := hc
      · by_cases hid : a.subscriptionId = id
        · obtain rfl : old = old' := Option.some.inj (hold.symm.trans (hid ▸ hold'))
          exact .inr ⟨_, List.mem_append_right _ (List.mem_singleton_self _), a, harrival, hcall⟩
        · exact .inl ⟨a, ha, hcall, old', (Function.update_of_ne hid ..).trans hold', hsignalled,
            harrival⟩
      · exact .inr hhandler
    split at hstep
    · obtain rfl := Option.some.inj hstep
      exact hadded.putActive (fun _ hnew => by cases hnew) (hway none)
    · obtain rfl := Option.some.inj hstep
      refine hadded.putActive (fun new hnew a ha => ?_) (hway _)
      obtain rfl := Option.some.inj hnew
      cases ha

theorem Kept.doCancel (h : s.Kept) (id : UInt64) : (s.doCancel id).Kept := by
  unfold SignatureSubscriber.doCancel
  split
  · exact h
  · next old hold =>
    unfold ActiveSignature.cancelTimer
    split
    · exact h.setActive hold rfl rfl fun _ => rfl
    · exact h.setActive hold rfl rfl fun h' => h'

/-! ## A notification comes -/

theorem setResult_of_none {err : NotificationErr} (hdecode : jsonToSignatureNotification err = none)
    (id : UInt64) (old : ActiveSignature) : s.setResult id err old = old := by
  rw [setResult, hdecode]

/-- A slot that took a notification. -/
theorem setResult_of_some {err : NotificationErr} {message : SignatureNotification}
    (hdecode : jsonToSignatureNotification err = some message) (id : UInt64)
    (old : ActiveSignature) :
    (s.setResult id err old).message = message ∧
      (s.setResult id err old).arrival = s.arrivalOf id err ∧
      (old.notifier = .waiting ∨ old.notifier = .signalled →
        (s.setResult id err old).notifier = .signalled) := by
  simp only [setResult, hdecode, ActiveSignature.cancelTimer]
  split
  · exact ⟨rfl, rfl, fun _ => rfl⟩
  · next hnotifier => exact ⟨rfl, rfl, fun h' => h'.resolve_left hnotifier⟩

theorem arrivalOf_eq_some {id : UInt64} {err : NotificationErr} {a : Arrival} :
    s.arrivalOf id err = some a ↔ ∃ c, s.owners id = some c ∧ ⟨c, id, err, s.now⟩ = a :=
  Option.map_eq_some_iff

theorem mem_arrivals_onNotification {id : UInt64} {err : NotificationErr} {a : Arrival} :
    a ∈ (s.onNotification id err).arrivals ↔ s.arrivalOf id err = some a ∨ a ∈ s.arrivals := by
  simp [onNotification]

theorem activeSubscriptions_onNotification_self {id : UInt64} {old : ActiveSignature}
    (hold : s.activeSubscriptions id = some old) (err : NotificationErr) :
    (s.onNotification id err).activeSubscriptions id = some (s.setResult id err old) := by
  simp [onNotification, hold]

theorem activeSubscriptions_onNotification_of_ne {id id' : UInt64} (hne : id' ≠ id)
    (err : NotificationErr) :
    (s.onNotification id err).activeSubscriptions id' = s.activeSubscriptions id' := by
  simp [onNotification, hne]

/-- What was on its way stays so, or the new notification takes its place. -/
theorem onItsWay_onNotification {id : UInt64} {err : NotificationErr} {c : ℕ}
    {call : SignatureCall} (hc : s.calls c = some call) (hopen : call.status.isOpen)
    (hok : s.DisplacesNone id err) (hdue : (s.onNotification id err).Due c call)
    (h : s.OnItsWay c) : (s.onNotification id err).OnItsWay c := by
  obtain ⟨a, ha, hcall, old, hold, hsignalled, harrival⟩ | hhandler := h
  · by_cases hid : a.subscriptionId = id
    · rw [hid] at hold
      have hnew := activeSubscriptions_onNotification_self hold err
      cases hdecode : jsonToSignatureNotification err with
      | none =>
        rw [setResult_of_none hdecode] at hnew
        exact .inl ⟨a, mem_arrivals_onNotification.mpr (.inr ha), hcall, old, hid ▸ hnew,
          hsignalled, harrival⟩
      | some message =>
        obtain ⟨-, hslot, hnotifier⟩ := setResult_of_some hdecode id old (s := s)
        by_cases howner : s.owners id = some c
        · have hcome : s.arrivalOf id err = some ⟨c, id, err, s.now⟩ :=
            arrivalOf_eq_some.mpr ⟨c, howner, rfl⟩
          exact .inl ⟨_, mem_arrivals_onNotification.mpr (.inl hcome), rfl, _, hnew,
            hnotifier (.inr hsignalled), hslot.trans hcome⟩
        · -- Another owner takes the place: nothing that came in time is lost.
          obtain ⟨b, hb, hbcall, htime⟩ := hdue
          obtain hcome | hb := mem_arrivals_onNotification.mp hb
          · obtain ⟨c', howner', rfl⟩ := arrivalOf_eq_some.mp hcome
            exact absurd (hbcall ▸ howner') howner
          · have hnot := (hok old hold).resolve_left (by simp [hdecode])
            exact absurd ⟨hsignalled, a, harrival, hcall ▸ howner, call, hcall ▸ hc, hopen, b, hb,
              hbcall.trans hcall.symm, htime⟩ hnot
    · exact .inl ⟨a, mem_arrivals_onNotification.mpr (.inr ha), hcall, old,
        (activeSubscriptions_onNotification_of_ne hid err).trans hold, hsignalled, harrival⟩
  · exact .inr hhandler

/-- What is due is on its way, the new notification included. -/
theorem due_onItsWay_onNotification {id : UInt64} {err : NotificationErr} (h : s.Kept)
    (hcaught : s.Caught id err) (hplace : s.DisplacesNone id err) {c : ℕ} {call : SignatureCall}
    (hc : s.calls c = some call)
    (hopen : call.status.isOpen) (hdue : (s.onNotification id err).Due c call) :
    (s.onNotification id err).OnItsWay c := by
  have hway := onItsWay_onNotification hc hopen hplace hdue
  obtain ⟨b, hb, hbcall, htime⟩ := hdue
  obtain hcome | hb := mem_arrivals_onNotification.mp hb
  · obtain ⟨c', howner, rfl⟩ := arrivalOf_eq_some.mp hcome
    obtain rfl : c' = c := hbcall
    obtain hbefore | ⟨hdecode, old, hold, hnotifier⟩ := hcaught c' howner call hc hopen htime
    · exact hway hbefore
    · obtain ⟨message, hmessage⟩ := Option.isSome_iff_exists.mp hdecode
      obtain ⟨-, hslot, hsignalled⟩ := setResult_of_some hmessage id old (s := s)
      exact .inl ⟨_, mem_arrivals_onNotification.mpr (.inl hcome), rfl, _,
        activeSubscriptions_onNotification_self hold err, hsignalled hnotifier, hslot.trans hcome⟩
  · exact hway ((h.calls c call hc).2.due_onItsWay hopen ⟨b, hb, hbcall, htime⟩)

theorem Kept.onNotification (h : s.Kept) {id : UInt64} {err : NotificationErr}
    (hcaught : s.Caught id err) (hplace : s.DisplacesNone id err) :
    (s.onNotification id err).Kept where
  calls c call hc := by
    obtain ⟨hlt, hkept⟩ := h.calls c call hc
    have hreceived (notification : SignatureNotification) (hgot : s.Received c notification) :
        (s.onNotification id err).Received c notification := by
      obtain ⟨a, ha, hcall, hcontent⟩ := hgot
      exact ⟨a, mem_arrivals_onNotification.mpr (.inr ha), hcall, hcontent⟩
    refine ⟨hlt, hkept.mono (due_onItsWay_onNotification h hcaught hplace hc)
      (fun _ hsome => hsome)
      (fun _ _ subscription hmem hgot => ⟨subscription, hmem, hreceived _ hgot⟩) hreceived ?_⟩
    -- What comes after the deadline is late.
    rintro ⟨d, hd, hle, hlate⟩
    refine ⟨d, hd, hle, fun a ha hcall => ?_⟩
    obtain hcome | ha := mem_arrivals_onNotification.mp ha
    · obtain ⟨c', -, rfl⟩ := arrivalOf_eq_some.mp hcome
      exact hle
    · exact hlate a ha hcall
  slots id' new hnew a ha := by
    by_cases hid : id' = id
    · subst hid
      obtain ⟨old, hold, rfl⟩ := Option.map_eq_some_iff.mp
        ((Function.update_self id' _ s.activeSubscriptions).symm.trans hnew)
      cases hdecode : jsonToSignatureNotification err with
      | none =>
        rw [setResult_of_none hdecode] at ha ⊢
        obtain ⟨hmem, hrest⟩ := h.slots id' old hold a ha
        exact ⟨mem_arrivals_onNotification.mpr (.inr hmem), hrest⟩
      | some message =>
        obtain ⟨hmessage, hslot, -⟩ := setResult_of_some hdecode id' old (s := s)
        have hcome : s.arrivalOf id' err = some a := hslot.symm.trans ha
        obtain ⟨c, -, rfl⟩ := arrivalOf_eq_some.mp hcome
        refine ⟨mem_arrivals_onNotification.mpr (.inl hcome), rfl, ?_⟩
        rw [hmessage]
        exact contentOf_of_json hdecode
    · rw [activeSubscriptions_onNotification_of_ne hid] at hnew
      obtain ⟨hmem, hrest⟩ := h.slots id' new hnew a ha
      exact ⟨mem_arrivals_onNotification.mpr (.inr hmem), hrest⟩
  handlers handler hmem a ha := by
    obtain ⟨hmem', hcontent⟩ := h.handlers handler hmem a ha
    exact ⟨mem_arrivals_onNotification.mpr (.inr hmem'), hcontent⟩
  owners := h.owners
  arrivals a ha := by
    obtain hcome | ha := mem_arrivals_onNotification.mp ha
    · obtain ⟨c, howner, rfl⟩ := arrivalOf_eq_some.mp hcome
      exact h.owners id c howner
    · exact h.arrivals a ha

/-! ## A coroutine runs -/

/-- Without the coroutine only its own notification is not on its way. -/
theorem onItsWay_eraseHandler {k : ℕ} {handler : SignatureHandler}
    (hk : s.handlers[k]? = some handler) {c : ℕ} (h : s.OnItsWay c) :
    handler.arrival.map Arrival.call = some c ∨
      OnItsWay { s with handlers := s.handlers.eraseIdx k } c := by
  obtain hslot | ⟨handler', hmem, a, ha, hcall⟩ := h
  · exact .inr (.inl hslot)
  · obtain ⟨k', hk'⟩ := List.getElem?_of_mem hmem
    by_cases heq : k' = k
    · obtain rfl : handler = handler' := by simpa [heq, hk] using hk'
      exact .inl (Option.map_eq_some_iff.mpr ⟨a, ha, hcall⟩)
    · exact .inr (.inr ⟨handler', List.mem_eraseIdx_iff_getElem?.mpr ⟨k', heq, hk'⟩, a, ha, hcall⟩)

/-- What is due to another open call is still on its way. -/
theorem due_onItsWay_eraseHandler (h : s.Kept) {k : ℕ} {handler : SignatureHandler}
    (hk : s.handlers[k]? = some handler) (hok : s.HandlerOk handler) {c : ℕ}
    {call : SignatureCall} (hc : s.calls c = some call) (hopen : call.status.isOpen)
    (hne : call.status ≠ .waiting handler.subscriptionId) (hdue : s.Due c call) :
    OnItsWay { s with handlers := s.handlers.eraseIdx k } c := by
  obtain hown | hway :=
    onItsWay_eraseHandler hk ((h.calls c call hc).2.due_onItsWay hopen hdue)
  · obtain ⟨a, ha, rfl⟩ := Option.map_eq_some_iff.mp hown
    exact absurd (hok.1 a ha call hc hopen) hne
  · exact hway

theorem Kept.handle (h : s.Kept) {k : ℕ} {handler : SignatureHandler}
    (hk : s.handlers[k]? = some handler) (hok : s.HandlerOk handler) :
    ({ s with handlers := s.handlers.eraseIdx k }.doHandleSignatureNotification handler).Kept := by
  have hhandlers (handler' : SignatureHandler) (hmem : handler' ∈ s.handlers.eraseIdx k) :=
    h.handlers handler' (List.mem_of_mem_eraseIdx hmem)
  unfold doHandleSignatureNotification
  cases hold : s.subscriptions handler.subscriptionId with
  | none =>
    refine { h with handlers := hhandlers, calls := fun c call hc => ?_ }
    obtain ⟨hlt, hkept⟩ := h.calls c call hc
    have hne : call.status ≠ .waiting handler.subscriptionId := by
      intro hstatus
      simp only [CallKept, hstatus, hold] at hkept
      cases hkept.1
    exact ⟨hlt, hkept.mono
      (fun hopen => due_onItsWay_eraseHandler h hk hok hc hopen hne) (fun _ hsome => hsome)
      (fun _ _ subscription hmem hgot => ⟨subscription, hmem, hgot⟩) (fun _ hgot => hgot)
      (fun hover => hover)⟩
  | some old =>
    refine { h with handlers := hhandlers, calls := fun c call' hc' => ?_ }
    obtain ⟨call, hc, rfl⟩ := Option.map_eq_some_iff.mp hc'
    obtain ⟨hlt, hkept⟩ := h.calls c call hc
    have hown (hcall : handler.arrival.map Arrival.call = some c) :
        s.Received c handler.notification := by
      obtain ⟨a, ha, hcall⟩ := Option.map_eq_some_iff.mp hcall
      obtain ⟨hmem, hcontent⟩ := h.handlers handler (List.mem_of_getElem? hk) a ha
      exact ⟨a, hmem, hcall, hcontent⟩
    refine ⟨hlt, ?_⟩
    by_cases hwaiting : call.status = .waiting handler.subscriptionId
    · -- It is woken, by its own notification.
      have hcall : handler.arrival.map Arrival.call = some c := by
        by_contra hother
        exact (hok.2 c hlt call hc hother).1 hwaiting
      rw [wake, if_pos hwaiting]
      exact ⟨_, Function.update_self .., hown hcall⟩
    · rw [wake, if_neg hwaiting]
      refine hkept.mono (fun hopen => due_onItsWay_eraseHandler h hk hok hc hopen hwaiting)
        (fun id hsome => ?_) (fun id hstatus subscription hmem hgot => ?_) (fun _ hgot => hgot)
        (fun hover => hover)
      · by_cases hid : id = handler.subscriptionId
        · simp [hid]
        · simpa [hid] using hsome
      · by_cases hid : id = handler.subscriptionId
        · subst hid
          refine ⟨_, Function.update_self .., ?_⟩
          -- A call that was woken finds its own notification, or what it had.
          by_cases hcall : handler.arrival.map Arrival.call = some c
          · exact hown hcall
          · have hsame := (hok.2 c hlt call hc hcall).2 hstatus subscription hmem
            exact hsame ▸ hgot
        · exact ⟨subscription, (Function.update_of_ne hid ..).trans hmem, hgot⟩

/-! ## Runs -/

/-- A wait that expires when the 30 seconds are over and nothing is on its
way. -/
theorem Kept.over (h : s.Kept) {c : ℕ} {call : SignatureCall} (hc : s.calls c = some call)
    {id : UInt64} (hstatus : call.status = .waiting id) (hover : ∀ d ∈ call.deadline, d ≤ s.now)
    (hway : s.Due c call → ¬ s.OnItsWay c) : s.Over c call := by
  have hkept := (h.calls c call hc).2
  have hnot : ¬ s.Due c call := fun hdue =>
    hway hdue (hkept.due_onItsWay (by simp [hstatus, SignatureStatus.isOpen]) hdue)
  simp only [CallKept, hstatus] at hkept
  obtain ⟨d, hd⟩ := Option.isSome_iff_exists.mp hkept.2.1
  refine ⟨d, hd, hover d hd, fun a ha hcall => Nat.not_lt.mp fun hlt => hnot ⟨a, ha, hcall, ?_⟩⟩
  intro d' hd'
  obtain rfl := Option.some.inj (hd.symm.trans hd')
  exact hlt

theorem Kept.afterWait (h : s.Kept) {c : ℕ} {call : SignatureCall} (hc : s.calls c = some call)
    (hstep : s.afterWait c call = some s') : s'.Kept := by
  have hkept := (h.calls c call hc).2
  unfold SignatureSubscriber.afterWait at hstep
  cases hstatus : call.status with
  | cancelled id =>
    simp only [hstatus, CallKept] at hstep hkept
    obtain ⟨subscription, hmem, hgot⟩ := hkept
    obtain ⟨subscription', hmem', rfl⟩ := Option.map_eq_some_iff.mp hstep
    obtain rfl := Option.some.inj (hmem.symm.trans hmem')
    exact h.setCall hc hgot
  | expired id =>
    simp only [hstatus, CallKept, Option.some.injEq] at hstep hkept
    subst hstep
    exact h.setCall hc hkept
  | failed id =>
    simp only [hstatus, Option.some.injEq] at hstep
    subst hstep
    exact h.setCall hc trivial
  | _ => simp [hstatus] at hstep

/-- What one step preserves. -/
theorem Kept.step (h : s.Kept) {label : Label} (hok : s.StepOk label)
    (hstep : s.step label = some s') : s'.Kept := by
  cases label with
  | subscribe =>
    obtain rfl := Option.some.inj hstep
    exact h.subscribe
  | requestFails c =>
    obtain ⟨call, hc, hstep⟩ := Option.bind_eq_some_iff.mp hstep
    obtain ⟨-, hstep⟩ := Option.ite_none_right_eq_some.mp hstep
    obtain rfl := Option.some.inj hstep
    exact h.setCall hc trivial
  | response c id =>
    obtain ⟨call, hc, hstep⟩ := Option.bind_eq_some_iff.mp hstep
    obtain ⟨hstatus, hstep⟩ := Option.ite_none_right_eq_some.mp hstep
    obtain rfl := Option.some.inj hstep
    exact h.onResponse hc hstatus id
  | register c =>
    obtain ⟨call, hc, hstep⟩ := Option.bind_eq_some_iff.mp hstep
    simp only [stepCall] at hstep
    split at hstep
    · next hstatus =>
      obtain rfl := Option.some.inj hstep
      exact h.doSendSubscribe hc hstatus
    · cases hstep
  | emplace c =>
    obtain ⟨call, hc, hstep⟩ := Option.bind_eq_some_iff.mp hstep
    simp only [stepCall] at hstep
    split at hstep
    · next hstatus =>
      obtain rfl := Option.some.inj hstep
      exact h.doSignatureSubscribe hc hstatus
    · cases hstep
  | notification id err =>
    obtain rfl := Option.some.inj hstep
    exact h.onNotification hok.1 hok.2
  | start id => exact h.moveNotifier (by decide) hstep
  | notifyExpires id => exact h.moveNotifier (by decide) hstep
  | notifyError id => exact h.moveNotifier (by decide) hstep
  | notify id left =>
    obtain ⟨old, hold, hstep⟩ := Option.bind_eq_some_iff.mp hstep
    exact h.doNotify hold hstep
  | handle k =>
    obtain ⟨handler, hk, rfl⟩ := Option.map_eq_some_iff.mp hstep
    exact h.handle hk (hok handler hk)
  | cancel k =>
    obtain ⟨id, -, rfl⟩ := Option.map_eq_some_iff.mp hstep
    have hcancels : Kept { s with cancels := s.cancels.eraseIdx k } :=
      ⟨h.calls, h.slots, h.handlers, h.owners, h.arrivals⟩
    exact hcancels.doCancel id
  | expire c =>
    obtain ⟨call, hc, hstep⟩ := Option.bind_eq_some_iff.mp hstep
    obtain ⟨hover, hway⟩ := hok call hc
    simp only [stepCall] at hstep
    split at hstep
    · next hstatus =>
      obtain ⟨subscription, -, hstep⟩ := Option.bind_eq_some_iff.mp hstep
      obtain ⟨-, hstep⟩ := Option.ite_none_right_eq_some.mp hstep
      obtain rfl := Option.some.inj hstep
      have hkept : s.Over c call := h.over hc hstatus hover hway
      exact h.setCall hc hkept
    · cases hstep
  | timerError c =>
    obtain ⟨call, hc, hstep⟩ := Option.bind_eq_some_iff.mp hstep
    simp only [stepCall] at hstep
    split at hstep
    · obtain rfl := Option.some.inj hstep
      exact h.setCall hc trivial
    · cases hstep
  | resume c =>
    obtain ⟨call, hc, hstep⟩ := Option.bind_eq_some_iff.mp hstep
    exact h.afterWait hc hstep
  | tick elapsed =>
    obtain rfl := Option.some.inj hstep
    refine { h with calls := fun c call hc => ?_ }
    obtain ⟨hlt, hkept⟩ := h.calls c call hc
    exact ⟨hlt, hkept.frame rfl (Nat.le_add_right ..) (fun _ _ hsubscription => hsubscription)
      fun hway => hway⟩

theorem kept_init : init.Kept where
  calls c call hc := by cases hc
  slots id subscription hsubscription := by cases hsubscription
  handlers handler hmem := by cases hmem
  owners id c hc := by cases hc
  arrivals a ha := by cases ha

/-- **Outcomes.** Over all runs whose steps lose nothing and add nothing: a
call that has returned got the content of a notification of its own
subscription, and one that has timed out had none before its 30 seconds ran
out. -/
theorem promises_run {labels : List Label} (hrun : run step init labels = some t)
    (hok : Along step StepOk init labels) : t.Promises :=
  (invariant_along (fun _ _ _ h hok hstep => h.step hok hstep) kept_init hok hrun).promises

/-! ## Two runs -/

section
variable (s : SignatureSubscriber)

instance (c : ℕ) (call : SignatureCall) : Decidable (s.Due c call) := by
  unfold Due; infer_instance

instance (c : ℕ) : Decidable (s.OnItsWay c) := by
  unfold OnItsWay; infer_instance

instance (id : UInt64) (err : NotificationErr) : Decidable (s.Caught id err) := by
  unfold Caught; infer_instance

instance (owner : Option ℕ) (subscription : ActiveSignature) :
    Decidable (s.HoldsOther owner subscription) := by
  unfold HoldsOther; infer_instance

instance (id : UInt64) (err : NotificationErr) : Decidable (s.DisplacesNone id err) := by
  unfold DisplacesNone; infer_instance

instance (handler : SignatureHandler) : Decidable (s.HandlerOk handler) := by
  unfold HandlerOk; infer_instance

instance (label : Label) : Decidable (s.StepOk label) := by
  cases label <;> (unfold StepOk; infer_instance)

end

/-- The first transaction succeeds, and its id is given to the second call
when all is over; the second fails; the third gets no answer. -/
def threeOutcomes : List Label :=
  [.subscribe, .subscribe, .response 0 5, .register 0, .emplace 0, .start 5,
    .notification 5 .null, .notify 5 "", .handle 0, .resume 0, .cancel 0, .notify 5 "", .handle 0,
    .cancel 0, .tick 1000, .response 1 5, .register 1, .start 5, .emplace 1,
    .notification 5 (.string "AccountInUse"), .notify 5 "", .subscribe, .handle 0, .cancel 0,
    .resume 1, .response 2 7, .notify 5 "", .register 2, .handle 0, .start 7, .emplace 2,
    .tick signatureTimeout, .expire 2, .resume 2]

theorem promises_run_threeOutcomes :
    ∃ t, run step init threeOutcomes = some t ∧ t.Promises ∧
      (List.range 3).map (fun c => (t.calls c).map SignatureCall.status) =
        [some (.returned ⟨none⟩), some (.returned ⟨some "AccountInUse"⟩),
          some (.threw .timedOut)] := by
  have hend : (run step init threeOutcomes).map (fun s =>
      (List.range 3).map fun c => (s.calls c).map SignatureCall.status) =
      some [some (.returned ⟨none⟩), some (.returned ⟨some "AccountInUse"⟩),
        some (.threw .timedOut)] := by decide +kernel
  obtain ⟨t, ht, hend⟩ := Option.map_eq_some_iff.mp hend
  exact ⟨t, ht, promises_run ht (by decide +kernel), hend⟩

/-- The error of the transaction is an object. -/
def objectError : List Label :=
  [.subscribe, .response 0 5, .register 0, .start 5, .emplace 0, .notification 5 .object,
    .tick signatureTimeout, .expire 0, .resume 0]

/-- The call times out 30 seconds after the notification came. -/
theorem promises_fails :
    ∃ t, run step init objectError = some t ∧ t.arrivals = [⟨0, 5, .object, 0⟩] ∧
      t.calls 0 = some ⟨.threw .timedOut, some signatureTimeout⟩ ∧ ¬ t.Promises := by
  have hend : (run step init objectError).map (fun s => (s.arrivals, s.calls 0)) =
      some ([⟨0, 5, .object, 0⟩], some ⟨.threw .timedOut, some signatureTimeout⟩) := by
    decide +kernel
  obtain ⟨t, ht, hend⟩ := Option.map_eq_some_iff.mp hend
  rw [Prod.mk.injEq] at hend
  refine ⟨t, ht, hend.1, hend.2, fun hpromises => (hpromises.timedOut 0 _ hend.2 rfl).2 ?_⟩
  exact ⟨_, hend.1 ▸ List.mem_singleton_self _, rfl, by simp [signatureTimeout]⟩

end SignatureSubscriber

end Synthfi.Solana
