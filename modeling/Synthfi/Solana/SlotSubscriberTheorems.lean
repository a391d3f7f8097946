/-
Synthfi.Solana.SlotSubscriberTheorems — the recent blockhash only moves
forward, and how often it is asked for.

Refreshes overlap and their responses come in any order; what keeps the
published heights increasing is the comparison made after the response.
`forward_run` states it with what each callback receives. The comparison
made before the request is with a slot that nothing sets: `_recentBlockhashSlot`
stays zero, and `interval_iff` finds the runs in which that does no harm.
-/
import Synthfi.Solana.SlotSubscriber

namespace Synthfi.Solana.SlotSubscriber

open Run Bytes Synthfi.Core

/-! ## What is kept -/

/-- What a callback that came after `joined` publications receives: the
blockhash current then, if any, and all published since. -/
def receivedSince (published : List Publication) (joined : ℕ) : List Hash :=
  ((published.take joined).getLast?.toList ++ published.drop joined).map Publication.blockhash

/-- The blockhash and height last published, zeros before the first. -/
def lastPublished (published : List Publication) : Hash × UInt64 :=
  (published.getLast?.map fun p => (p.blockhash, p.lastValidBlockHeight)).getD
    (ByteArr.fill 32 0, 0)

structure Forward (s : SlotSubscriber) : Prop where
  increasing : (s.published.map Publication.lastValidBlockHeight).Pairwise (· < ·)
  current : (s.recentBlockhash, s.lastValidBlockHeight) = lastPublished s.published
  received : ∀ callback ∈ s.onBlockhashCallbacks,
    callback.received = receivedSince s.published callback.joined

/-- What carries `Forward` over a step. -/
structure Kept (s : SlotSubscriber) : Prop extends Forward s where
  bounded : ∀ p ∈ s.published, p.lastValidBlockHeight ≤ s.lastValidBlockHeight
  nonzero : ∀ p ∈ s.published, p.blockhash.isZero = false
  joined : ∀ callback ∈ s.onBlockhashCallbacks, callback.joined ≤ s.published.length

@[simp] theorem lastPublished_append (published : List Publication) (p : Publication) :
    lastPublished (published ++ [p]) = (p.blockhash, p.lastValidBlockHeight) := by
  simp [lastPublished]

theorem receivedSince_append {published : List Publication} {joined : ℕ}
    (h : joined ≤ published.length) (p : Publication) :
    receivedSince (published ++ [p]) joined = receivedSince published joined ++ [p.blockhash] := by
  simp [receivedSince, List.take_append_of_le_length h, List.drop_append_of_le_length h]

/-- A callback starts with what is current. -/
theorem receivedSince_length (published : List Publication) :
    receivedSince published published.length =
      published.getLast?.toList.map Publication.blockhash := by
  simp [receivedSince]

/-! ## Publications and subscriptions -/

theorem kept_init : Kept init := by
  refine ⟨⟨.nil, rfl, ?_⟩, ?_, ?_, ?_⟩ <;> simp [init]

/-- Only the response of a refresh touches what is kept. -/
theorem Kept.of_eq {s t : SlotSubscriber} (h : s.Kept) (hpublished : t.published = s.published)
    (hcurrent : (t.recentBlockhash, t.lastValidBlockHeight) =
      (s.recentBlockhash, s.lastValidBlockHeight))
    (hcallbacks : t.onBlockhashCallbacks = s.onBlockhashCallbacks) : t.Kept := by
  obtain ⟨hhash, hheight⟩ := Prod.mk.inj hcurrent
  refine ⟨⟨?_, ?_, ?_⟩, ?_, ?_, ?_⟩
  · simpa [hpublished] using h.increasing
  · rw [hcurrent, hpublished, h.current]
  · simpa [hpublished, hcallbacks] using h.received
  · simpa [hpublished, hheight] using h.bounded
  · simpa [hpublished] using h.nonzero
  · simpa [hpublished, hcallbacks] using h.joined

theorem kept_onResponse {s : SlotSubscriber} (h : s.Kept) (k : ℕ)
    (slotNotification : SlotNotification) {response : GetLatestBlockhashResponse}
    (hnonzero : response.blockhash.isZero = false) :
    (s.onResponse k slotNotification response).Kept := by
  unfold onResponse
  split
  · exact h.of_eq rfl rfl rfl
  · next hlt =>
    have hlt : s.lastValidBlockHeight < response.lastValidBlockHeight := UInt64.not_le.mp hlt
    refine ⟨⟨?_, ?_, ?_⟩, ?_, ?_, ?_⟩
    · simp only [suspend, List.map_append, List.map_cons, List.map_nil, List.pairwise_append]
      refine ⟨h.increasing, List.pairwise_singleton _ _, fun height hmem height' hmem' => ?_⟩
      obtain ⟨p, hp, rfl⟩ := List.mem_map.mp hmem
      rw [List.mem_singleton.mp hmem']
      exact UInt64.lt_of_le_of_lt (h.bounded p hp) hlt
    · simp [suspend]
    · simp only [suspend, List.mem_map]
      rintro callback ⟨old, hold, rfl⟩
      rw [receivedSince_append (h.joined old hold), h.received old hold]
    · simp only [suspend, List.mem_append, List.mem_singleton]
      rintro p (hp | rfl)
      · exact UInt64.le_trans (h.bounded p hp) (UInt64.le_of_lt hlt)
      · exact UInt64.le_refl _
    · simp only [suspend, List.mem_append, List.mem_singleton]
      rintro p (hp | rfl)
      · exact h.nonzero p hp
      · exact hnonzero
    · simp only [suspend, List.mem_map]
      rintro callback ⟨old, hold, rfl⟩
      simpa using (h.joined old hold).trans (Nat.le_succ _)

/-- `is_zero` tells whether anything has been published. -/
theorem Kept.current_toList {s : SlotSubscriber} (h : s.Kept) :
    (if s.recentBlockhash.isZero then [] else [s.recentBlockhash]) =
      s.published.getLast?.toList.map Publication.blockhash := by
  have hcurrent := h.current
  unfold lastPublished at hcurrent
  cases hlast : s.published.getLast? with
  | none =>
    have hzero : s.recentBlockhash = ByteArr.fill 32 0 := by
      simpa [hlast] using congrArg Prod.fst hcurrent
    rw [hzero]
    rfl
  | some p =>
    have hhash : s.recentBlockhash = p.blockhash := by
      simpa [hlast] using congrArg Prod.fst hcurrent
    simp [hhash, h.nonzero p (List.mem_of_getLast? hlast)]

theorem kept_doSubscribeRecentBlockhash {s : SlotSubscriber} (h : s.Kept) :
    s.doSubscribeRecentBlockhash.Kept := by
  refine ⟨⟨h.increasing, h.current, fun callback hmem => ?_⟩, h.bounded, h.nonzero,
    fun callback hmem => ?_⟩
  all_goals
    simp only [doSubscribeRecentBlockhash, List.mem_append, List.mem_singleton] at hmem
    obtain hmem | rfl := hmem
  · exact h.received callback hmem
  · exact h.current_toList.trans (receivedSince_length s.published).symm
  · exact h.joined callback hmem
  · exact le_rfl

/-! ## Steps -/

/-- What a step can do: move a coroutine, send a request, publish, or take a
callback. -/
theorem step_cases {s s' : SlotSubscriber} {label : Label} (hstep : s.step label = some s') :
    ((∀ k n, label = .statistic k → s.handlers[k]? ≠ some (.publishingSlot n)) ∧
        s'.published = s.published ∧ s'.requests = s.requests ∧
        s'.recentBlockhash = s.recentBlockhash ∧
        s'.lastValidBlockHeight = s.lastValidBlockHeight ∧
        s'.onBlockhashCallbacks = s.onBlockhashCallbacks ∧
        s'.recentBlockhashSlot = s.recentBlockhashSlot) ∨
      (∃ k n, label = .statistic k ∧ s.handlers[k]? = some (.publishingSlot n) ∧
        s' = s.checkSlot k n) ∨
      (∃ k n response, label = .response k response ∧ s' = s.onResponse k n response) ∨
      (label = .subscribe ∧ s' = s.doSubscribeRecentBlockhash) := by
  cases label with
  | notification n =>
    obtain rfl := Option.some.inj hstep
    exact .inl ⟨(fun _ _ heq => by cases heq), rfl, rfl, rfl, rfl, rfl, rfl⟩
  | enter k =>
    simp only [step] at hstep
    split at hstep
    · obtain rfl := Option.some.inj hstep
      exact .inl ⟨(fun _ _ heq => by cases heq), rfl, rfl, rfl, rfl, rfl, rfl⟩
    · cases hstep
  | statistic k =>
    simp only [step] at hstep
    split at hstep
    · next n hk =>
      obtain rfl := Option.some.inj hstep
      exact .inr (.inl ⟨k, n, rfl, hk, rfl⟩)
    · next hk =>
      obtain rfl := Option.some.inj hstep
      refine .inl ⟨fun k' n heq => ?_, rfl, rfl, rfl, rfl, rfl, rfl⟩
      cases heq
      simp [hk]
    · cases hstep
  | response k response =>
    simp only [step] at hstep
    split at hstep
    · next n hk =>
      obtain rfl := Option.some.inj hstep
      exact .inr (.inr (.inl ⟨k, n, response, rfl, rfl⟩))
    · cases hstep
  | throws k =>
    simp only [step] at hstep
    split at hstep
    · cases hstep
    · obtain rfl := Option.some.inj hstep
      exact .inl ⟨(fun _ _ heq => by cases heq), rfl, rfl, rfl, rfl, rfl, rfl⟩
    · cases hstep
  | subscribe =>
    obtain rfl := Option.some.inj hstep
    exact .inr (.inr (.inr ⟨rfl, rfl⟩))

/-- A check publishes nothing. -/
theorem checkSlot_frame (s : SlotSubscriber) (k : ℕ) (n : SlotNotification) :
    (s.checkSlot k n).published = s.published ∧
      (s.checkSlot k n).recentBlockhash = s.recentBlockhash ∧
      (s.checkSlot k n).lastValidBlockHeight = s.lastValidBlockHeight ∧
      (s.checkSlot k n).onBlockhashCallbacks = s.onBlockhashCallbacks ∧
      (s.checkSlot k n).recentBlockhashSlot = s.recentBlockhashSlot := by
  unfold checkSlot
  split <;> exact ⟨rfl, rfl, rfl, rfl, rfl⟩

/-! ## Forward -/

/-- The response, if the label is one, carries a blockhash. -/
def NonzeroResponse : Label → Prop
  | .response _ response => response.blockhash.isZero = false
  | _ => True

instance (label : Label) : Decidable (NonzeroResponse label) := by
  unfold NonzeroResponse
  split <;> infer_instance

theorem kept_step {s s' : SlotSubscriber} {label : Label} (h : s.Kept)
    (hnonzero : NonzeroResponse label) (hstep : s.step label = some s') : s'.Kept := by
  obtain ⟨-, hpub, -, hhash, hheight, hcb, -⟩ | ⟨k, n, rfl, -, rfl⟩ | ⟨k, n, response, rfl, rfl⟩ |
    ⟨rfl, rfl⟩ := step_cases hstep
  · exact h.of_eq hpub (by rw [hhash, hheight]) hcb
  · obtain ⟨hpub, hhash, hheight, hcb, -⟩ := checkSlot_frame s k n
    exact h.of_eq hpub (by rw [hhash, hheight]) hcb
  · exact kept_onResponse h k n hnonzero
  · exact kept_doSubscribeRecentBlockhash h

/-- **Blockhashes move forward.** In every state of every run whose responses
carry blockhashes, the published heights are strictly increasing, the current
blockhash and height are the ones last published, and each callback has
received the one current when it came and all published since, in order. -/
theorem forward_run {labels : List Label} {s : SlotSubscriber}
    (hnonzero : ∀ label ∈ labels, NonzeroResponse label)
    (hrun : run step init labels = some s) : s.Forward := by
  have hstep : ∀ s label s', Kept s → NonzeroResponse label → step s label = some s' → Kept s' :=
    fun _ _ _ => kept_step
  exact (invariant_along hstep kept_init (along_of_forall_mem hnonzero) hrun).toForward

/-- Two refreshes answered in the other order, and callbacks before, between
and after them. -/
def answersCrossed : List Label :=
  [.subscribe, .notification ⟨39, 8, 40⟩, .notification ⟨40, 9, 41⟩, .enter 0, .enter 1,
    .statistic 0, .statistic 1, .response 1 ⟨ByteArr.fill 32 2, 152⟩, .subscribe,
    .response 0 ⟨ByteArr.fill 32 1, 151⟩, .notification ⟨41, 10, 42⟩, .enter 1, .statistic 1,
    .response 1 ⟨ByteArr.fill 32 3, 153⟩, .subscribe]

theorem forward_run_answersCrossed :
    ∃ s, run step init answersCrossed = some s ∧
      s.onBlockhashCallbacks.map BlockhashCallback.received =
        [[ByteArr.fill 32 2, ByteArr.fill 32 3], [ByteArr.fill 32 2, ByteArr.fill 32 3],
          [ByteArr.fill 32 3]] ∧ s.Forward := by
  have hnonzero : ∀ label ∈ answersCrossed, NonzeroResponse label := by decide +kernel
  have hreceived : (run step init answersCrossed).map
      (fun s => s.onBlockhashCallbacks.map BlockhashCallback.received) =
        some [[ByteArr.fill 32 2, ByteArr.fill 32 3], [ByteArr.fill 32 2, ByteArr.fill 32 3],
          [ByteArr.fill 32 3]] := by decide +kernel
  obtain ⟨s, hs, hreceived⟩ := Option.map_eq_some_iff.mp hreceived
  exact ⟨s, hs, hreceived, forward_run hnonzero hs⟩

/-! ## The refresh interval -/

/-- No request was sent for a slot closer than the interval to one whose
refresh had published by then. -/
def IntervalKept (s : SlotSubscriber) : Prop :=
  ∀ request ∈ s.requests, ∀ p ∈ s.published.take request.publishedBefore,
    p.slot.toNat + recentBlockhashRefreshSlotInterval.toNat ≤ request.slot.toNat

/-- A slot is checked that lies within the first interval of all, or not
within that of any slot whose refresh has published. -/
def StepOk (s : SlotSubscriber) : Label → Prop
  | .statistic k =>
    match s.handlers[k]? with
    | some (.publishingSlot n) =>
      n.slot < recentBlockhashRefreshSlotInterval ∨
        ∀ p ∈ s.published,
          p.slot.toNat + recentBlockhashRefreshSlotInterval.toNat ≤ n.slot.toNat
    | _ => True
  | _ => True

instance (s : SlotSubscriber) (label : Label) : Decidable (s.StepOk label) := by
  unfold StepOk
  split
  · split <;> infer_instance
  · infer_instance

/-- `_recentBlockhashSlot` is never set. -/
structure Unthrottled (s : SlotSubscriber) : Prop where
  slot : s.recentBlockhashSlot = 0
  before : ∀ request ∈ s.requests, request.publishedBefore ≤ s.published.length

/-- So a request is sent exactly when the slot is past the first interval. -/
theorem requests_checkSlot {s : SlotSubscriber} (h : s.Unthrottled) (k : ℕ)
    (n : SlotNotification) :
    (s.checkSlot k n).requests =
      if n.slot < recentBlockhashRefreshSlotInterval then s.requests
      else s.requests ++ [⟨n.slot, s.published.length⟩] := by
  unfold checkSlot
  rw [h.slot, UInt64.zero_add]
  split <;> rfl

theorem intervalKept_checkSlot {s : SlotSubscriber} (h : s.Unthrottled) (hkept : s.IntervalKept)
    (k : ℕ) (n : SlotNotification) :
    (s.checkSlot k n).IntervalKept ↔ n.slot < recentBlockhashRefreshSlotInterval ∨
      ∀ p ∈ s.published,
        p.slot.toNat + recentBlockhashRefreshSlotInterval.toNat ≤ n.slot.toNat := by
  unfold IntervalKept
  rw [requests_checkSlot h, (checkSlot_frame s k n).1]
  by_cases hslot : n.slot < recentBlockhashRefreshSlotInterval
  · rw [if_pos hslot]
    exact iff_of_true hkept (.inl hslot)
  · rw [if_neg hslot, List.forall_mem_append]
    simp only [List.forall_mem_singleton, List.take_length, hslot, false_or]
    exact and_iff_right hkept

theorem intervalKept_onResponse {s : SlotSubscriber} (h : s.Unthrottled) (hkept : s.IntervalKept)
    (k : ℕ) (n : SlotNotification) (response : GetLatestBlockhashResponse) :
    (s.onResponse k n response).Unthrottled ∧ (s.onResponse k n response).IntervalKept := by
  unfold onResponse
  split
  · exact ⟨⟨h.slot, h.before⟩, hkept⟩
  · refine ⟨⟨h.slot, fun request hmem => ?_⟩, fun request hmem p hp => ?_⟩
    · exact (h.before request hmem).trans (by simp [suspend])
    · rw [suspend, List.take_append_of_le_length (h.before request hmem)] at hp
      exact hkept request hmem p hp

theorem unthrottled_checkSlot {s : SlotSubscriber} (h : s.Unthrottled) (k : ℕ)
    (n : SlotNotification) : (s.checkSlot k n).Unthrottled := by
  obtain ⟨hpub, -, -, -, hslot⟩ := checkSlot_frame s k n
  refine ⟨hslot.trans h.slot, ?_⟩
  rw [requests_checkSlot h, hpub]
  split
  · exact h.before
  · rw [List.forall_mem_append]
    exact ⟨h.before, by simp⟩

theorem interval_step {s s' : SlotSubscriber} {label : Label} (h : s.Unthrottled)
    (hkept : s.IntervalKept) (hstep : s.step label = some s') :
    s'.Unthrottled ∧ (s'.IntervalKept ↔ s.StepOk label) := by
  obtain ⟨hlabel, hpub, hreq, -, -, -, hslot⟩ | ⟨k, n, rfl, hk, rfl⟩ | ⟨k, n, response, rfl, rfl⟩ |
    ⟨rfl, rfl⟩ := step_cases hstep
  · refine ⟨⟨hslot.trans h.slot, by rw [hreq, hpub]; exact h.before⟩, iff_of_true ?_ ?_⟩
    · unfold IntervalKept
      rw [hreq, hpub]
      exact hkept
    · cases label with
      | statistic k =>
        simp only [StepOk]
        split
        · next n hk => exact absurd hk (hlabel k n rfl)
        · trivial
      | _ => trivial
  · refine ⟨unthrottled_checkSlot h k n, (intervalKept_checkSlot h hkept k n).trans ?_⟩
    simp [StepOk, hk]
  · obtain ⟨h', hkept'⟩ := intervalKept_onResponse h hkept k n response
    exact ⟨h', iff_of_true hkept' trivial⟩
  · exact ⟨⟨h.slot, h.before⟩, iff_of_true hkept trivial⟩

/-- **Refresh interval.** No request of a run is sent within the interval of
a slot whose refresh has published exactly when no slot is checked that lies
within such an interval and past the first one. -/
theorem interval_iff {labels : List Label} {t : SlotSubscriber}
    (hrun : run step init labels = some t) :
    (∀ k s, run step init (labels.take k) = some s → IntervalKept s) ↔
      Along step StepOk init labels :=
  along_iff_prefixes (fun _ _ _ h hkept _ hstep => (interval_step h hkept hstep).1)
    (fun _ _ _ h hkept hstep => (interval_step h hkept hstep).2)
    ⟨rfl, by simp [init]⟩ (by simp [IntervalKept, init]) hrun

/-- Slots below the first interval are never asked for. -/
def firstSlots : List Label :=
  [.notification ⟨27, 0, 28⟩, .enter 0, .statistic 0, .notification ⟨28, 0, 30⟩, .enter 0,
    .statistic 0, .response 0 ⟨ByteArr.fill 32 1, 151⟩, .statistic 0, .notification ⟨28, 0, 29⟩,
    .enter 0, .statistic 0, .notification ⟨59, 40, 60⟩, .enter 0, .statistic 0]

theorem interval_iff_firstSlots :
    ∃ t, run step init firstSlots = some t ∧
      t.requests = [⟨30, 0⟩, ⟨60, 1⟩] ∧
      ∀ k s, run step init (firstSlots.take k) = some s → IntervalKept s := by
  have hrequests : (run step init firstSlots).map requests = some [⟨30, 0⟩, ⟨60, 1⟩] := by
    decide +kernel
  obtain ⟨t, ht, hrequests⟩ := Option.map_eq_some_iff.mp hrequests
  exact ⟨t, ht, hrequests, (interval_iff ht).mpr (by decide +kernel)⟩

/-- A refresh for slot 100 has published when slot 101 comes. -/
def nextSlot : List Label :=
  [.notification ⟨99, 68, 100⟩, .enter 0, .statistic 0, .response 0 ⟨ByteArr.fill 32 1, 151⟩,
    .statistic 0, .notification ⟨100, 69, 101⟩, .enter 0, .statistic 0]

/-- The next slot sends the next request. -/
theorem interval_fails :
    ∃ t, run step init nextSlot = some t ∧ t.requests = [⟨100, 0⟩, ⟨101, 1⟩] ∧
      t.published.map Publication.slot = [100] ∧ ¬ IntervalKept t := by
  have hend : (run step init nextSlot).map (fun s => (s.requests, s.published)) =
      some ([⟨100, 0⟩, ⟨101, 1⟩], [⟨100, ByteArr.fill 32 1, 151⟩]) := by decide +kernel
  obtain ⟨t, ht, hend⟩ := Option.map_eq_some_iff.mp hend
  rw [Prod.mk.injEq] at hend
  refine ⟨t, ht, hend.1, by rw [hend.2]; rfl, fun h => ?_⟩
  unfold IntervalKept at h
  rw [hend.1, hend.2] at h
  exact absurd h (by decide)

end Synthfi.Solana.SlotSubscriber
