/-
Synthfi.Solana.SolanaWsClientTheorems — when websocket notifications are
delivered exactly once.

A subscription is `Exact` when what was passed to the subscriber, and the
slot if `do_notify` is about to pass it on, is what was received, in order.
The slot holds one notification and a cancelled timer is the only signal, so
`delivers_iff` asks of every notification that `do_notify` is waiting when it
comes, and of every cancellation that it is not.

In every run a notifier that was woken has something to pass on (`Loaded`).
-/
import Synthfi.Lib.PartialMap
import Synthfi.Solana.SolanaWsClient

namespace Synthfi.Solana

open Run PartialMap

variable {α : Type}

/-! ## One subscription -/

namespace ActiveSubscription

/-- What `do_notify` was woken to pass on. -/
def signalledSlot (subscription : ActiveSubscription α) : List (Option α) :=
  if subscription.notifier = .signalled then [subscription.message] else []

def Exact (subscription : ActiveSubscription α) : Prop :=
  subscription.delivered ++ subscription.signalledSlot = subscription.received.map some

theorem exact_registered : (registered : ActiveSubscription α).Exact := rfl

/-- Where nothing is signalled, all was passed on. -/
theorem exact_iff_of_ne {subscription : ActiveSubscription α}
    (h : subscription.notifier ≠ .signalled) :
    subscription.Exact ↔ subscription.delivered = subscription.received.map some := by
  simp [Exact, signalledSlot, h]

/-- A step of the coroutine or the timer between waits. -/
theorem Exact.move {subscription : ActiveSubscription α} (h : subscription.Exact)
    (hne : subscription.notifier ≠ .signalled) {notifier : Notifier}
    (hnotifier : notifier ≠ .signalled) : Exact { subscription with notifier } :=
  (exact_iff_of_ne hnotifier).mpr ((exact_iff_of_ne hne).mp h)

theorem Exact.deliver {subscription : ActiveSubscription α} (h : subscription.Exact)
    (hsignalled : subscription.notifier = .signalled) : subscription.deliver.Exact := by
  simpa [Exact, signalledSlot, ActiveSubscription.deliver, hsignalled] using h

/-- A notification is delivered if `do_notify` is waiting; else the signal is
lost, and with it the notification or the one that was in the slot. -/
theorem exact_notification {subscription : ActiveSubscription α} (h : subscription.Exact)
    (message : α) :
    (subscription.setResult message).cancelTimer.Exact ↔ subscription.notifier = .waiting := by
  by_cases hwaiting : subscription.notifier = .waiting
  · have hdelivered := (exact_iff_of_ne (by simp [hwaiting])).mp h
    simp [Exact, signalledSlot, cancelTimer, setResult, hwaiting, hdelivered]
  · refine iff_of_false (fun h' => ?_) hwaiting
    -- Both ends are as long as before, and one more was received.
    have hlen := congrArg List.length h
    have hlen' := congrArg List.length h'
    by_cases hsignalled : subscription.notifier = .signalled
    · simp [signalledSlot, hsignalled] at hlen
      simp [signalledSlot, cancelTimer, setResult, hsignalled] at hlen'
      omega
    · simp [signalledSlot, hsignalled] at hlen
      simp [signalledSlot, cancelTimer, setResult, hwaiting, hsignalled] at hlen'
      omega

/-- A cancellation that ends a wait passes on an empty slot. -/
theorem exact_cancel {subscription : ActiveSubscription α} (h : subscription.Exact) :
    Exact { subscription with isCancelled := true }.cancelTimer ↔
      subscription.notifier ≠ .waiting := by
  by_cases hwaiting : subscription.notifier = .waiting
  · refine iff_of_false (fun h' => ?_) (not_not_intro hwaiting)
    have hlen := congrArg List.length h
    have hlen' := congrArg List.length h'
    simp [signalledSlot, hwaiting] at hlen
    simp [signalledSlot, cancelTimer, hwaiting] at hlen'
    omega
  · refine iff_of_true ?_ hwaiting
    simpa [Exact, signalledSlot, cancelTimer, hwaiting] using h

end ActiveSubscription

/-! ## All subscriptions -/

namespace SolanaWsClient

open ActiveSubscription

/-- Every subscription was delivered what it received. -/
structure Delivers (s : SolanaWsClient α) : Prop where
  active : ∀ id subscription, s.activeSubscriptions id = some subscription → subscription.Exact
  removed : ∀ subscription ∈ s.removed,
    subscription.delivered = subscription.received.map some

def StepOk (s : SolanaWsClient α) : Label α → Prop
  | .notification id (some _) =>
    ∀ subscription ∈ s.activeSubscriptions id, subscription.notifier = .waiting
  | .cancel id => ∀ subscription ∈ s.activeSubscriptions id, subscription.notifier ≠ .waiting
  | _ => True

instance (s : SolanaWsClient α) (label : Label α) : Decidable (s.StepOk label) := by
  unfold StepOk
  split <;> infer_instance

theorem delivers_init : (init : SolanaWsClient α).Delivers where
  active _ _ h := by simp [init] at h
  removed _ h := by simp [init] at h

/-- A change of one subscription concerns that subscription. -/
theorem Delivers.put_iff {s : SolanaWsClient α} (h : s.Delivers) (id : UInt64)
    (subscription : ActiveSubscription α) :
    (s.put id subscription).Delivers ↔ subscription.Exact := by
  constructor
  · intro h'
    exact h'.active id subscription (Function.update_self ..)
  · intro hexact
    exact ⟨forall_update_some h.active hexact, h.removed⟩

theorem Delivers.erase {s : SolanaWsClient α} (h : s.Delivers) (id : UInt64)
    {subscription : ActiveSubscription α}
    (hdelivered : subscription.delivered = subscription.received.map some) :
    (s.erase id subscription).Delivers where
  active id' subscription' hid := by
    exact h.active id' subscription' (update_none_eq_some.mp hid).2
  removed subscription' hmem := by
    rcases List.mem_cons.mp hmem with rfl | hmem
    · exact hdelivered
    · exact h.removed subscription' hmem

theorem moveNotifier_eq_some {s s' : SolanaWsClient α} {id : UInt64} {source target : Notifier}
    (h : s.moveNotifier id source target = some s') :
    ∃ subscription, s.activeSubscriptions id = some subscription ∧
      subscription.notifier = source ∧
      s.put id { subscription with notifier := target } = s' := by
  unfold moveNotifier at h
  split at h
  · next subscription hid =>
    obtain ⟨hsource, hs'⟩ := Option.ite_none_right_eq_some.mp h
    exact ⟨subscription, hid, hsource, Option.some.inj hs'⟩
  · cases h

theorem Delivers.moveNotifier {s s' : SolanaWsClient α} (h : s.Delivers) {id : UInt64}
    {source target : Notifier} (hsource : source ≠ .signalled) (htarget : target ≠ .signalled)
    (hstep : s.moveNotifier id source target = some s') : s'.Delivers := by
  obtain ⟨subscription, hid, hnotifier, rfl⟩ := moveNotifier_eq_some hstep
  have hexact := h.active id subscription hid
  exact (h.put_iff id _).mpr (hexact.move (hnotifier ▸ hsource) htarget)

/-- `do_notify` empties the slot it was woken for; else it leaves the slot or
ends. -/
theorem doNotify_cases {s s' : SolanaWsClient α} {id : UInt64}
    {subscription : ActiveSubscription α} (hstep : s.doNotify id subscription = some s') :
    (subscription.notifier = .signalled ∧
      (s' = s.put id subscription.deliver ∨ s' = s.erase id subscription.deliver)) ∨
    (subscription.notifier ≠ .signalled ∧
      (s' = s.put id { subscription with notifier := .waiting } ∨
        s' = s.erase id subscription)) := by
  unfold doNotify at hstep
  split at hstep
  · cases hstep
  · cases hstep
  · next hsignalled =>
    refine .inl ⟨hsignalled, ?_⟩
    split at hstep
    · exact .inr (Option.some.inj hstep).symm
    · exact .inl (Option.some.inj hstep).symm
  · next hfailed => exact .inr ⟨by simp [hfailed], .inr (Option.some.inj hstep).symm⟩
  · next hexpired => exact .inr ⟨by simp [hexpired], .inl (Option.some.inj hstep).symm⟩

/-- `do_notify` keeps what was delivered exact. -/
theorem Delivers.doNotify {s s' : SolanaWsClient α} (h : s.Delivers) {id : UInt64}
    {subscription : ActiveSubscription α} (hexact : subscription.Exact)
    (hstep : s.doNotify id subscription = some s') : s'.Delivers := by
  obtain ⟨hsignalled, hcases⟩ | ⟨hsource, rfl | rfl⟩ := doNotify_cases hstep
  · have hdeliver := hexact.deliver hsignalled
    obtain rfl | rfl := hcases
    · exact (h.put_iff id _).mpr hdeliver
    · exact h.erase id ((exact_iff_of_ne (by simp [ActiveSubscription.deliver])).mp hdeliver)
  · exact (h.put_iff id _).mpr (hexact.move hsource (by simp))
  · exact h.erase id ((exact_iff_of_ne hsource).mp hexact)

/-- **One step** keeps `Delivers` exactly when it is `StepOk`. -/
theorem delivers_step {s s' : SolanaWsClient α} {label : Label α} (h : s.Delivers)
    (hstep : s.step label = some s') : s'.Delivers ↔ s.StepOk label := by
  cases label with
  | subscribed id =>
    refine iff_of_true ?_ trivial
    simp only [step] at hstep
    split at hstep
    · obtain rfl := Option.some.inj hstep
      exact (h.put_iff id _).mpr exact_registered
    · obtain rfl := Option.some.inj hstep
      exact h
  | start id => exact iff_of_true (h.moveNotifier (by simp) (by simp) hstep) trivial
  | notification id message =>
    cases message with
    | none =>
      obtain rfl := Option.some.inj hstep
      exact iff_of_true h trivial
    | some message =>
      simp only [step] at hstep
      split at hstep
      · next subscription hid =>
        obtain rfl := Option.some.inj hstep
        have hexact := h.active id subscription hid
        rw [h.put_iff id, exact_notification hexact]
        simp [StepOk, hid]
      · next hid =>
        obtain rfl := Option.some.inj hstep
        exact iff_of_true h (by simp [StepOk, hid])
  | expire id => exact iff_of_true (h.moveNotifier (by simp) (by simp) hstep) trivial
  | timerError id => exact iff_of_true (h.moveNotifier (by simp) (by simp) hstep) trivial
  | resume id =>
    obtain ⟨subscription, hid, hnotify⟩ := Option.bind_eq_some_iff.mp hstep
    exact iff_of_true (h.doNotify (h.active id subscription hid) hnotify) trivial
  | cancel id =>
    simp only [step] at hstep
    split at hstep
    · next subscription hid =>
      obtain rfl := Option.some.inj hstep
      have hexact := h.active id subscription hid
      rw [h.put_iff id, exact_cancel hexact]
      simp [StepOk, hid]
    · next hid =>
      obtain rfl := Option.some.inj hstep
      exact iff_of_true h (by simp [StepOk, hid])

/-- **Exactly once.** Over all interleavings, every subscription is delivered
what it receives, in every state of a run, exactly when every notification
finds `do_notify` waiting and no cancellation does. -/
theorem delivers_iff {labels : List (Label α)} {t : SolanaWsClient α}
    (hrun : run step init labels = some t) :
    (∀ k s, run step init (labels.take k) = some s → Delivers s) ↔
      Along step StepOk (init : SolanaWsClient α) labels :=
  along_iff_prefixes (fun _ _ _ _ _ _ _ => trivial) (fun _ _ _ _ h hstep => delivers_step h hstep)
    trivial delivers_init hrun

/-- Two notifications, the second one cancelled before it is passed on. -/
def oneAtATime : List (Label ℕ) :=
  [.subscribed 5, .start 5, .notification 5 (some 1), .resume 5, .expire 5, .resume 5,
    .notification 5 none, .notification 5 (some 2), .cancel 5, .resume 5, .notification 5 (some 3)]

theorem delivers_iff_oneAtATime :
    ∃ t, run step init oneAtATime = some t ∧
      ∀ k s, run step init (oneAtATime.take k) = some s → Delivers s := by
  obtain ⟨t, ht⟩ := Option.isSome_iff_exists.mp
    (show (run step init oneAtATime).isSome by decide)
  exact ⟨t, ht, (delivers_iff ht).mpr (by decide)⟩

/-- Two notifications before `do_notify` resumes, and a cancellation. -/
def twoAtOnce : List (Label ℕ) :=
  [.subscribed 5, .start 5, .notification 5 (some 1), .notification 5 (some 2), .resume 5,
    .cancel 5, .resume 5]

/-- The first notification is lost, and the cancellation makes a call without
one. -/
theorem delivers_fails :
    ∃ t, run step init twoAtOnce = some t ∧
      t.removed = [⟨none, true, .waiting, [1, 2], [some 2, none]⟩] ∧ ¬ Delivers t := by
  have hremoved : (run step init twoAtOnce).map (fun t => t.removed) =
      some [⟨none, true, .waiting, [1, 2], [some 2, none]⟩] := by decide
  obtain ⟨t, ht, hremoved⟩ := Option.map_eq_some_iff.mp hremoved
  refine ⟨t, ht, hremoved, fun h => ?_⟩
  have hdelivered := h.removed _ (hremoved ▸ List.mem_singleton_self _)
  simp at hdelivered

/-! ## The slot of a subscription -/

/-- The notification a subscription holds. -/
def slot (s : SolanaWsClient α) (id : UInt64) : List α :=
  ((s.activeSubscriptions id).bind ActiveSubscription.message).toList

variable {s s' : SolanaWsClient α} {id : UInt64}

theorem slot_of_active {subscription : ActiveSubscription α}
    (h : s.activeSubscriptions id = some subscription) :
    s.slot id = subscription.message.toList := by
  rw [slot, h]
  rfl

theorem slot_put_self (s : SolanaWsClient α) (id : UInt64) (subscription : ActiveSubscription α) :
    (s.put id subscription).slot id = subscription.message.toList :=
  slot_of_active (Function.update_self ..)

theorem slot_put_of_ne {id' : UInt64} (hne : id' ≠ id) (subscription : ActiveSubscription α) :
    (s.put id subscription).slot id' = s.slot id' := by
  simp [slot, put, hne]

theorem slot_erase_self (s : SolanaWsClient α) (id : UInt64)
    (subscription : ActiveSubscription α) : (s.erase id subscription).slot id = [] := by
  simp [slot, erase]

theorem slot_erase_of_ne {id' : UInt64} (hne : id' ≠ id) (subscription : ActiveSubscription α) :
    (s.erase id subscription).slot id' = s.slot id' := by
  simp [slot, erase, hne]

/-- The steps that call nobody. -/
def Label.Quiet : Label α → Prop
  | .start _ | .notification _ _ | .expire _ | .timerError _ => True
  | _ => False

/-- They write the slot of a subscription, or move its coroutine between waits. -/
theorem quiet_cases {label : Label α} (hlabel : label.Quiet) (hstep : s.step label = some s') :
    (s' = s ∧ ∀ id message, label = .notification id (some message) →
      s.activeSubscriptions id = none) ∨
    (∃ id subscription notifier, s.activeSubscriptions id = some subscription ∧
      subscription.notifier ≠ .signalled ∧ notifier ≠ .signalled ∧
      s' = s.put id { subscription with notifier } ∧
      ∀ id message, label ≠ .notification id (some message)) ∨
    ∃ id subscription message, label = .notification id (some message) ∧
      s.activeSubscriptions id = some subscription ∧
      s' = s.put id (subscription.setResult message).cancelTimer := by
  cases label with
  | start id =>
    obtain ⟨subscription, hid, hsource, rfl⟩ := moveNotifier_eq_some hstep
    exact .inr (.inl ⟨id, subscription, .waiting, hid, by simp [hsource], by simp, rfl, by simp⟩)
  | expire id =>
    obtain ⟨subscription, hid, hsource, rfl⟩ := moveNotifier_eq_some hstep
    exact .inr (.inl ⟨id, subscription, .expired, hid, by simp [hsource], by simp, rfl, by simp⟩)
  | timerError id =>
    obtain ⟨subscription, hid, hsource, rfl⟩ := moveNotifier_eq_some hstep
    exact .inr (.inl ⟨id, subscription, .failed, hid, by simp [hsource], by simp, rfl, by simp⟩)
  | notification id message =>
    cases message with
    | none =>
      obtain rfl := Option.some.inj hstep
      exact .inl ⟨rfl, by simp⟩
    | some message =>
      simp only [step] at hstep
      split at hstep
      · next subscription hid =>
        obtain rfl := Option.some.inj hstep
        exact .inr (.inr ⟨id, subscription, message, rfl, hid, rfl⟩)
      · next hid =>
        obtain rfl := Option.some.inj hstep
        refine .inl ⟨rfl, fun id' message' hlabel => ?_⟩
        cases hlabel
        exact hid
  | _ => exact hlabel.elim

theorem resume_cases {subscription : ActiveSubscription α}
    (hid : s.activeSubscriptions id = some subscription)
    (hstep : s.step (.resume id) = some s') :
    (subscription.notifier = .signalled ∧
      (s' = s.put id subscription.deliver ∨ s' = s.erase id subscription.deliver)) ∨
    (subscription.notifier ≠ .signalled ∧
      (s' = s.put id { subscription with notifier := .waiting } ∨
        s' = s.erase id subscription)) := by
  simp only [step, hid, Option.bind_some] at hstep
  exact doNotify_cases hstep

/-- A notifier that was woken has something to pass on. -/
def Loaded (s : SolanaWsClient α) : Prop :=
  ∀ id subscription, s.activeSubscriptions id = some subscription →
    subscription.notifier = .signalled → subscription.message ≠ none

/-- What a subscription holds is about to be passed on. -/
def Noticed (s : SolanaWsClient α) : Prop :=
  ∀ id subscription, s.activeSubscriptions id = some subscription →
    subscription.message ≠ none → subscription.notifier = .signalled

theorem loaded_init : (init : SolanaWsClient α).Loaded := fun _ _ h => by cases h

theorem noticed_init : (init : SolanaWsClient α).Noticed := fun _ _ h => by cases h

theorem Loaded.registered (h : s.Loaded) (id : UInt64) : (s.put id .registered).Loaded :=
  forall_update_some h fun hsignalled => by cases hsignalled

theorem Noticed.registered (h : s.Noticed) (id : UInt64) : (s.put id .registered).Noticed :=
  forall_update_some h fun hmessage => absurd rfl hmessage

theorem setResult_message (subscription : ActiveSubscription α) (message : α) :
    (subscription.setResult message).cancelTimer.message = some message := by
  unfold ActiveSubscription.cancelTimer
  split <;> rfl

theorem Loaded.quiet (h : s.Loaded) {label : Label α} (hlabel : label.Quiet)
    (hstep : s.step label = some s') : s'.Loaded := by
  obtain ⟨rfl, -⟩ | ⟨id, subscription, notifier, -, -, hnotifier, rfl, -⟩ |
    ⟨id, subscription, message, -, -, rfl⟩ := quiet_cases hlabel hstep
  · exact h
  · exact forall_update_some h fun hsignalled => absurd hsignalled hnotifier
  · exact forall_update_some h fun _ => by simp [setResult_message]

theorem Loaded.resume (h : s.Loaded) (hstep : s.step (.resume id) = some s') : s'.Loaded := by
  obtain ⟨subscription, hid, -⟩ := Option.bind_eq_some_iff.mp hstep
  have herase (gone : ActiveSubscription α) : (s.erase id gone).Loaded :=
    fun id' subscription' hid' => h id' subscription' (update_none_eq_some.mp hid').2
  obtain ⟨-, rfl | rfl⟩ | ⟨-, rfl | rfl⟩ := resume_cases hid hstep
  · exact forall_update_some h fun hsignalled => by cases hsignalled
  · exact herase _
  · exact forall_update_some h fun hsignalled => by cases hsignalled
  · exact herase _

/-- A notification finds `do_notify` waiting or woken. -/
def Label.Noticed (s : SolanaWsClient α) : Label α → Prop
  | .notification id (some _) => ∀ subscription ∈ s.activeSubscriptions id,
      subscription.notifier = .waiting ∨ subscription.notifier = .signalled
  | _ => True

instance (s : SolanaWsClient α) : (label : Label α) → Decidable (label.Noticed s)
  | .subscribed _ => .isTrue trivial
  | .start _ => .isTrue trivial
  | .notification id (some _) => inferInstanceAs (Decidable
      (∀ subscription ∈ s.activeSubscriptions id,
        subscription.notifier = .waiting ∨ subscription.notifier = .signalled))
  | .notification _ none => .isTrue trivial
  | .expire _ => .isTrue trivial
  | .timerError _ => .isTrue trivial
  | .resume _ => .isTrue trivial
  | .cancel _ => .isTrue trivial

theorem Noticed.quiet (h : s.Noticed) {label : Label α} (hlabel : label.Quiet)
    (hstep : s.step label = some s') (hnoticed : label.Noticed s) : s'.Noticed := by
  obtain ⟨rfl, -⟩ | ⟨id, subscription, notifier, hid, hsource, -, rfl, -⟩ |
    ⟨id, subscription, message, rfl, hid, rfl⟩ := quiet_cases hlabel hstep
  · exact h
  · exact forall_update_some h fun hmessage => absurd (h id subscription hid hmessage) hsource
  · refine forall_update_some h fun _ => ?_
    obtain hwaiting | hsignalled := hnoticed subscription hid
    · simp [ActiveSubscription.cancelTimer, ActiveSubscription.setResult, hwaiting]
    · simp [ActiveSubscription.cancelTimer, ActiveSubscription.setResult, hsignalled]

theorem Noticed.resume (h : s.Noticed) (hstep : s.step (.resume id) = some s') : s'.Noticed := by
  obtain ⟨subscription, hid, -⟩ := Option.bind_eq_some_iff.mp hstep
  have herase (gone : ActiveSubscription α) : (s.erase id gone).Noticed :=
    fun id' subscription' hid' => h id' subscription' (update_none_eq_some.mp hid').2
  obtain ⟨-, rfl | rfl⟩ | ⟨hsource, rfl | rfl⟩ := resume_cases hid hstep
  · exact forall_update_some h fun hmessage => absurd rfl hmessage
  · exact herase _
  · exact forall_update_some h fun hmessage => absurd (h id subscription hid hmessage) hsource
  · exact herase _

end SolanaWsClient

end Synthfi.Solana
