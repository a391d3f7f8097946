/-
Synthfi.Serum.EventQueue — which events of a market's queue the market data
client processes, over any history of the queue.

`EventQueue` is the on-chain queue with its whole past: pushes at the tail
count into the header's sequence number, pops at the head do not. The system
is one queue for each pair and one client; a notification hands the client a
snapshot of the queue. `EventSystem.windows` is a ghost: it records which
positions of the push history each snapshot showed.

`ExactlyOnce` asks that the client processed exactly the events some
snapshot showed, in push order. `exactlyOnce_iff` finds for every run the
exact condition on its notifications.
-/
import Mathlib.Data.List.Induction
import Mathlib.Data.List.Enum
import Synthfi.Lib.Run
import Synthfi.Serum.SerumMarketData

namespace Synthfi.Serum

open Run

/-! ## Queues and snapshots -/

/-- A queue with its history. The sequence number is a 64-bit field. -/
structure EventQueue where
  pushed : List SerumEvent
  popped : ℕ
  popped_le : popped ≤ pushed.length
  fits : pushed.length < 2 ^ 64

namespace EventQueue

def empty : EventQueue := ⟨[], 0, Nat.le_refl _, by decide⟩

def push (queue : EventQueue) (event : SerumEvent) : Option EventQueue :=
  if h : (queue.pushed ++ [event]).length < 2 ^ 64 then
    some ⟨queue.pushed ++ [event], queue.popped,
      queue.popped_le.trans (by rw [List.length_append]; exact Nat.le_add_right ..), h⟩
  else none

def pop (queue : EventQueue) : Option EventQueue :=
  if h : queue.popped < queue.pushed.length then
    some ⟨queue.pushed, queue.popped + 1, h, queue.fits⟩
  else none

/-- The events in the queue. -/
def events (queue : EventQueue) : List SerumEvent := queue.pushed.drop queue.popped

def sequenceNumber (queue : EventQueue) : UInt64 := UInt64.ofNat queue.pushed.length

/-- The account of the queue, as it decodes. -/
def snapshot (queue : EventQueue) : SerumEventQueueAccount := ⟨queue.sequenceNumber, queue.events⟩

theorem toNat_sequenceNumber (queue : EventQueue) :
    queue.sequenceNumber.toNat = queue.pushed.length :=
  UInt64.toNat_ofNat_of_lt' queue.fits

end EventQueue

/-! ## The system -/

/-- The positions a snapshot showed: from `popped` up to `pushed.length`. -/
abbrev Window := ℕ × ℕ

variable {referenceData : SerumReferenceData}

structure EventSystem (referenceData : SerumReferenceData) where
  queues : referenceData.PairIndex → EventQueue
  client : SerumMarketDataClient referenceData
  /-- The snapshots received of each pair, newest first. -/
  windows : referenceData.PairIndex → List Window

/-- Any queues, and a client that has seen none of them. -/
def EventSystem.init (queues : referenceData.PairIndex → EventQueue) :
    EventSystem referenceData :=
  ⟨queues, .init referenceData, fun _ => []⟩

inductive EventLabel (referenceData : SerumReferenceData) where
  | push (i : referenceData.PairIndex) (event : SerumEvent)
  | pop (i : referenceData.PairIndex)
  /-- The client handles an account of the queue. -/
  | notify (i : referenceData.PairIndex)
  /-- The client handles an account that does not decode. -/
  | garbled (i : referenceData.PairIndex) (error : SynthfiError)

def EventSystem.step (s : EventSystem referenceData) :
    EventLabel referenceData → Option (EventSystem referenceData)
  | .push i event =>
    ((s.queues i).push event).map fun queue =>
      { s with queues := Function.update s.queues i queue }
  | .pop i =>
    (s.queues i).pop.map fun queue => { s with queues := Function.update s.queues i queue }
  | .notify i =>
    some
      { s with
        client := doOnEventQueueAccount s.client i (.ok (s.queues i).snapshot)
        windows := Function.update s.windows i
          (((s.queues i).popped, (s.queues i).pushed.length) :: s.windows i) }
  | .garbled i error => some { s with client := doOnEventQueueAccount s.client i (.error error) }

/-- The events of one pair passed to `do_on_event`, in order. -/
def SerumMarketDataClient.processed (client : SerumMarketDataClient referenceData)
    (i : referenceData.PairIndex) : List SerumEvent :=
  (client.onEvent.filter fun call => call.1 = i).map Prod.snd

/-- Position `k` was in some snapshot. -/
def Shown (windows : List Window) (k : ℕ) : Prop := ∃ w ∈ windows, w.1 ≤ k ∧ k < w.2

instance (windows : List Window) : DecidablePred (Shown windows) := fun k => by
  unfold Shown; infer_instance

/-- The events at the shown positions, in push order. -/
def shownEvents (pushed : List SerumEvent) (windows : List Window) : List SerumEvent :=
  (pushed.zipIdx.filter fun entry => Shown windows entry.2).map Prod.fst

/-- Each event of a snapshot was processed once, in push order. -/
def ExactlyOnce (s : EventSystem referenceData) : Prop :=
  ∀ i, s.client.processed i = shownEvents (s.queues i).pushed (s.windows i)

/-- A notification the client handles rightly: it has stored no sequence
number yet, or the queue holds no events. -/
def NotifyOk (s : EventSystem referenceData) : EventLabel referenceData → Prop
  | .notify i => s.client.eventQueueSequenceNumbers i = 0 ∨ (s.queues i).events = []
  | _ => True

/-! ## Shown events -/

theorem shownEvents_congr {pushed : List SerumEvent} {windows windows' : List Window}
    (h : ∀ k, k < pushed.length → (Shown windows k ↔ Shown windows' k)) :
    shownEvents pushed windows = shownEvents pushed windows' := by
  unfold shownEvents
  congr 1
  refine List.filter_congr fun entry he => decide_eq_decide.mpr (h _ ?_)
  simpa using List.snd_lt_of_mem_zipIdx he

theorem shownEvents_concat (pushed : List SerumEvent) (event : SerumEvent)
    (windows : List Window) :
    shownEvents (pushed ++ [event]) windows =
      shownEvents pushed windows ++ if Shown windows pushed.length then [event] else [] := by
  simp only [shownEvents, List.zipIdx_append, List.filter_append, List.map_append,
    List.zipIdx_singleton, Nat.zero_add]
  congr 1
  by_cases h : Shown windows pushed.length
  · simp [h]
  · simp [h]

/-- More windows show at least as many events. -/
theorem length_shownEvents_le (pushed : List SerumEvent) (windows : List Window) (w : Window) :
    (shownEvents pushed windows).length ≤ (shownEvents pushed (w :: windows)).length := by
  simp only [shownEvents, List.length_map]
  refine (List.monotone_filter_right _ fun entry he => ?_).length_le
  obtain ⟨v, hv, hk⟩ := of_decide_eq_true he
  exact decide_eq_true ⟨v, List.mem_cons_of_mem _ hv, hk⟩

/-- A window that reaches past all others shows an event more, unless it is
empty. -/
theorem length_shownEvents_lt {pushed : List SerumEvent} {windows : List Window} {popped : ℕ}
    (hpopped : popped < pushed.length) (hold : ∀ w ∈ windows, w.2 < pushed.length) :
    (shownEvents pushed windows).length <
      (shownEvents pushed ((popped, pushed.length) :: windows)).length := by
  obtain ⟨pushed, event, rfl⟩ := (List.eq_nil_or_concat' pushed).resolve_left fun h => by
    simp [h] at hpopped
  rw [List.length_append, List.length_singleton] at hpopped hold ⊢
  have hno : ¬ Shown windows pushed.length := fun ⟨w, hw, _, hk⟩ => by
    have := hold w hw
    omega
  have hyes : Shown ((popped, pushed.length + 1) :: windows) pushed.length :=
    ⟨_, List.mem_cons_self .., by simpa using Nat.le_of_lt_succ hpopped, Nat.lt_succ_self _⟩
  have hle := length_shownEvents_le pushed windows (popped, pushed.length + 1)
  rw [shownEvents_concat, shownEvents_concat, if_neg hno, if_pos hyes]
  simp only [List.length_append, List.length_nil, List.length_singleton]
  omega

/-- A single window up to the tail shows the events in the queue. -/
theorem shownEvents_window (pushed : List SerumEvent) (popped : ℕ) :
    shownEvents pushed [(popped, pushed.length)] = pushed.drop popped := by
  have hfrom : ∀ n, pushed.length ≤ n →
      shownEvents pushed [(popped, n)] = pushed.drop popped := by
    induction pushed using List.reverseRecOn with
    | nil => intro n _; rw [List.drop_nil]; rfl
    | append_singleton pushed event ih =>
      intro n hn
      rw [List.length_append, List.length_singleton] at hn
      rw [shownEvents_concat, ih n (by omega), List.drop_append]
      by_cases hp : popped ≤ pushed.length
      · have hshown : Shown [(popped, n)] pushed.length :=
          ⟨_, List.mem_singleton_self _, hp, hn⟩
        rw [if_pos hshown, Nat.sub_eq_zero_of_le hp, List.drop_zero]
      · have hshown : ¬ Shown [(popped, n)] pushed.length := fun ⟨w, hw, hk, _⟩ => by
          rw [List.mem_singleton.mp hw] at hk
          exact hp hk
        have htail : [event].drop (popped - pushed.length) = [] :=
          List.drop_eq_nil_of_le (by rw [List.length_singleton]; omega)
        rw [if_neg hshown, htail]
  exact hfrom _ (Nat.le_refl _)

/-! ## The invariant -/

/-- The end of the newest window, 0 before the first. -/
def lastPushed (windows : List Window) : ℕ := windows.head?.elim 0 Prod.snd

theorem lastPushed_le {windows : List Window} {n : ℕ} (h : ∀ w ∈ windows, w.2 ≤ n) :
    lastPushed windows ≤ n := by
  cases windows with
  | nil => exact Nat.zero_le n
  | cons w windows => exact h w (List.mem_cons_self ..)

/-- Up to the end of the newest window there is nothing new to show. -/
theorem shownEvents_again {pushed : List SerumEvent} {windows : List Window} {popped : ℕ}
    (hpopped : ∀ w ∈ windows, w.1 ≤ popped) (hend : lastPushed windows = pushed.length) :
    shownEvents pushed ((popped, pushed.length) :: windows) = shownEvents pushed windows := by
  refine shownEvents_congr fun k hk => ⟨?_, fun ⟨w, hw, hlt⟩ => ⟨w, List.mem_cons_of_mem _ hw, hlt⟩⟩
  rintro ⟨w, hw, hle, hlt⟩
  rcases List.mem_cons.mp hw with rfl | hw
  · cases windows with
    | nil => exact absurd hk (by rw [← hend]; exact Nat.not_lt_zero k)
    | cons v windows =>
      have hv : v.2 = pushed.length := hend
      exact ⟨v, List.mem_cons_self .., (hpopped v (List.mem_cons_self ..)).trans hle, hv ▸ hk⟩
  · exact ⟨w, hw, hle, hlt⟩

/-- Windows only move forward, up to the present of the queue, and the
client stores the end of the newest. -/
structure EventSystem.Inv (s : EventSystem referenceData) : Prop where
  stored : ∀ i, (s.client.eventQueueSequenceNumbers i).toNat = lastPushed (s.windows i)
  newest : ∀ i, ∀ w ∈ s.windows i, w.2 ≤ lastPushed (s.windows i)
  popped : ∀ i, ∀ w ∈ s.windows i, w.1 ≤ (s.queues i).popped
  pushed : ∀ i, ∀ w ∈ s.windows i, w.2 ≤ (s.queues i).pushed.length

theorem inv_init (queues : referenceData.PairIndex → EventQueue) :
    (EventSystem.init queues).Inv where
  stored _ := rfl
  newest _ w hw := by simp [EventSystem.init] at hw
  popped _ w hw := by simp [EventSystem.init] at hw
  pushed _ w hw := by simp [EventSystem.init] at hw

/-- What a push does to its queue. -/
theorem EventQueue.push_eq_some {queue queue' : EventQueue} {event : SerumEvent}
    (h : queue.push event = some queue') :
    queue'.pushed = queue.pushed ++ [event] ∧ queue'.popped = queue.popped := by
  unfold EventQueue.push at h
  split at h
  · obtain rfl := Option.some.inj h
    exact ⟨rfl, rfl⟩
  · cases h

/-- What a pop does to its queue. -/
theorem EventQueue.pop_eq_some {queue queue' : EventQueue} (h : queue.pop = some queue') :
    queue'.pushed = queue.pushed ∧ queue'.popped = queue.popped + 1 := by
  unfold EventQueue.pop at h
  split at h
  · obtain rfl := Option.some.inj h
    exact ⟨rfl, rfl⟩
  · cases h

/-- A queue that only grows keeps the invariant. -/
theorem EventSystem.Inv.update_queue {s : EventSystem referenceData} (h : s.Inv)
    (i : referenceData.PairIndex) {queue : EventQueue}
    (hpopped : (s.queues i).popped ≤ queue.popped)
    (hpushed : (s.queues i).pushed.length ≤ queue.pushed.length) :
    ({ s with queues := Function.update s.queues i queue } : EventSystem referenceData).Inv where
  stored := h.stored
  newest := h.newest
  popped j w hw := by
    by_cases hj : j = i
    · subst hj
      simpa using (h.popped j w hw).trans hpopped
    · simpa [Function.update_of_ne hj] using h.popped j w hw
  pushed j w hw := by
    by_cases hj : j = i
    · subst hj
      simpa using (h.pushed j w hw).trans hpushed
    · simpa [Function.update_of_ne hj] using h.pushed j w hw

theorem inv_step (s : EventSystem referenceData) (label : EventLabel referenceData)
    (s' : EventSystem referenceData) (h : s.Inv) (hstep : s.step label = some s') : s'.Inv := by
  cases label with
  | push i event =>
    obtain ⟨queue, hq, rfl⟩ := Option.map_eq_some_iff.mp hstep
    obtain ⟨hpushed, hpopped⟩ := EventQueue.push_eq_some hq
    exact h.update_queue i hpopped.ge (by rw [hpushed, List.length_append]; omega)
  | pop i =>
    obtain ⟨queue, hq, rfl⟩ := Option.map_eq_some_iff.mp hstep
    obtain ⟨hpushed, hpopped⟩ := EventQueue.pop_eq_some hq
    exact h.update_queue i (by omega) (by rw [hpushed])
  | garbled i error =>
    obtain rfl := Option.some.inj hstep
    exact h
  | notify i =>
    obtain rfl := Option.some.inj hstep
    constructor
    all_goals intro j
    all_goals by_cases hj : j = i
    · subst hj
      simpa [doOnEventQueueAccount, lastPushed, EventQueue.snapshot] using
        (s.queues j).toNat_sequenceNumber
    · simpa [doOnEventQueueAccount, Function.update_of_ne hj] using h.stored j
    · subst hj
      simpa [lastPushed] using h.pushed j
    · simpa [Function.update_of_ne hj] using h.newest j
    · subst hj
      simpa using h.popped j
    · simpa [Function.update_of_ne hj] using h.popped j
    · subst hj
      simpa using h.pushed j
    · simpa [Function.update_of_ne hj] using h.pushed j

/-! ## One step -/

/-- What a notification adds to the processed events of each pair. -/
theorem processed_notify (client : SerumMarketDataClient referenceData)
    (i j : referenceData.PairIndex) (account : SerumEventQueueAccount) :
    (doOnEventQueueAccount client i (.ok account)).processed j =
      client.processed j ++
        if i = j then
          account.events.take (min account.events.length
            (unprocessedEventCount (client.eventQueueSequenceNumbers i) account))
        else [] := by
  simp only [SerumMarketDataClient.processed, doOnEventQueueAccount, List.filter_append,
    List.map_append, List.filter_map, List.map_map]
  congr 1
  by_cases hij : i = j
  · simp [hij, Function.comp_def]
  · simp [hij, Function.comp_def]

/-- A push shows nothing by itself. -/
theorem shownEvents_push {s : EventSystem referenceData} (h : s.Inv)
    (i : referenceData.PairIndex) (event : SerumEvent) :
    shownEvents ((s.queues i).pushed ++ [event]) (s.windows i) =
      shownEvents (s.queues i).pushed (s.windows i) := by
  have hno : ¬ Shown (s.windows i) (s.queues i).pushed.length := fun ⟨w, hw, _, hk⟩ =>
    absurd hk (Nat.not_lt.mpr (h.pushed i w hw))
  rw [shownEvents_concat, if_neg hno, List.append_nil]

/-- The events of pair `i` a notification should process are those that its
window adds; the client processes them exactly when the step is `NotifyOk`. -/
theorem notify_exact {s : EventSystem referenceData} (h : s.Inv) (i : referenceData.PairIndex)
    (hgood : s.client.processed i = shownEvents (s.queues i).pushed (s.windows i)) :
    (doOnEventQueueAccount s.client i (.ok (s.queues i).snapshot)).processed i =
        shownEvents (s.queues i).pushed
          (((s.queues i).popped, (s.queues i).pushed.length) :: s.windows i) ↔
      s.client.eventQueueSequenceNumbers i = 0 ∨ (s.queues i).events = [] := by
  have hstored := h.stored i
  have hnewest := h.newest i
  have hpopped := h.popped i
  have hpushed := h.pushed i
  have hle := (s.queues i).popped_le
  have hseq := (s.queues i).toNat_sequenceNumber
  rw [processed_notify, if_pos rfl, hgood, EventQueue.snapshot, unprocessedEventCount]
  generalize s.client.eventQueueSequenceNumbers i = stored at *
  generalize hwin : s.windows i = windows at *
  by_cases hzero : stored = 0
  · -- Nothing was shown before: the whole snapshot is new, and it is all processed.
    subst hzero
    have hnone : ∀ w ∈ windows, w.2 = 0 := fun w hw => by
      have hw2 := hnewest w hw
      rw [← hstored] at hw2
      exact Nat.le_zero.mp hw2
    have hshown : ∀ k, ¬ Shown windows k := fun k ⟨w, hw, _, hk⟩ => by
      rw [hnone w hw] at hk
      exact Nat.not_lt_zero _ hk
    have hbefore : shownEvents (s.queues i).pushed windows = [] := by
      rw [shownEvents, List.filter_eq_nil_iff.mpr fun entry _ => by simpa using hshown entry.2]
      rfl
    have hafter : shownEvents (s.queues i).pushed
        (((s.queues i).popped, (s.queues i).pushed.length) :: windows) =
        (s.queues i).events := by
      rw [EventQueue.events, ← shownEvents_window]
      refine shownEvents_congr fun k _ => ?_
      simpa [Shown] using fun a b hab _ hk => absurd ⟨(a, b), hab, by assumption, hk⟩ (hshown k)
    rw [hbefore, hafter, if_pos rfl, Nat.min_self, List.take_length, List.nil_append]
    simp
  · rw [if_neg hzero, or_iff_right hzero]
    by_cases hempty : (s.queues i).events = []
    · -- The window is empty and so is the snapshot.
      have hpop : (s.queues i).pushed.length ≤ (s.queues i).popped := by
        simpa [EventQueue.events] using hempty
      rw [iff_true_right hempty, hempty, List.take_nil, List.append_nil]
      refine shownEvents_congr fun k hk => ?_
      simp only [Shown, List.mem_cons, exists_eq_or_imp]
      refine ⟨.inr, fun hor => hor.resolve_left fun hw => ?_⟩
      omega
    · -- One event is processed twice, or the one at the tail is missed.
      have hpop : (s.queues i).popped < (s.queues i).pushed.length := by
        simpa [EventQueue.events] using hempty
      refine iff_of_false (fun heq => ?_) hempty
      have hlen := congrArg List.length heq
      have hcount : 0 < (s.queues i).events.length := List.length_pos_iff.mpr hempty
      rw [List.length_append, List.length_take] at hlen
      have hdiff : (s.queues i).sequenceNumber - stored = 0 ↔
          (s.queues i).sequenceNumber = stored := by grind
      by_cases hsame : (s.queues i).sequenceNumber - stored = 0
      · have hend : lastPushed windows = (s.queues i).pushed.length := by
          rw [← hstored, ← hseq, hdiff.mp hsame]
        rw [shownEvents_again hpopped hend, if_pos hsame] at hlen
        dsimp only at hlen
        omega
      · have hend : lastPushed windows ≠ (s.queues i).pushed.length := fun hend => by
          rw [← hstored, ← hseq] at hend
          exact hsame (hdiff.mpr (UInt64.toNat_inj.mp hend).symm)
        have hlast := Nat.lt_of_le_of_ne (lastPushed_le hpushed) hend
        have hlt := length_shownEvents_lt hpop fun w hw => (hnewest w hw).trans_lt hlast
        rw [if_neg hsame] at hlen
        omega

/-- **One step** keeps `ExactlyOnce` exactly when it is `NotifyOk`. -/
theorem exactlyOnce_step (s : EventSystem referenceData) (label : EventLabel referenceData)
    (s' : EventSystem referenceData) (h : s.Inv) (hgood : ExactlyOnce s)
    (hstep : s.step label = some s') : ExactlyOnce s' ↔ NotifyOk s label := by
  cases label with
  | push i event =>
    obtain ⟨queue, hq, rfl⟩ := Option.map_eq_some_iff.mp hstep
    refine iff_of_true (fun j => ?_) trivial
    by_cases hj : j = i
    · subst hj
      simpa [(EventQueue.push_eq_some hq).1, shownEvents_push h] using hgood j
    · simpa [Function.update_of_ne hj] using hgood j
  | pop i =>
    obtain ⟨queue, hq, rfl⟩ := Option.map_eq_some_iff.mp hstep
    refine iff_of_true (fun j => ?_) trivial
    by_cases hj : j = i
    · subst hj
      simpa [(EventQueue.pop_eq_some hq).1] using hgood j
    · simpa [Function.update_of_ne hj] using hgood j
  | garbled i error =>
    obtain rfl := Option.some.inj hstep
    exact iff_of_true hgood trivial
  | notify i =>
    obtain rfl := Option.some.inj hstep
    refine Iff.trans ⟨fun hall => ?_, fun hi j => ?_⟩ (notify_exact h i (hgood i))
    · simpa using hall i
    · by_cases hj : j = i
      · subst hj
        simpa using hi
      · simpa [processed_notify, Function.update_of_ne hj, Ne.symm hj] using hgood j

theorem exactlyOnce_init (queues : referenceData.PairIndex → EventQueue) :
    ExactlyOnce (EventSystem.init queues) := fun i => by
  have hno : shownEvents (queues i).pushed [] = [] := by simp [shownEvents, Shown]
  simpa [EventSystem.init, SerumMarketDataClient.processed, SerumMarketDataClient.init] using
    hno.symm

/-- **Exactly once, in order.** Over any histories of the queues and any
snapshots of them, every event shown is processed exactly once and in push
order, in every state of the run, exactly when each notification finds no
sequence number stored or no event in the queue. -/
theorem exactlyOnce_iff (queues : referenceData.PairIndex → EventQueue)
    (labels : List (EventLabel referenceData)) (t : EventSystem referenceData)
    (hrun : run EventSystem.step (.init queues) labels = some t) :
    (∀ k s, run EventSystem.step (.init queues) (labels.take k) = some s → ExactlyOnce s) ↔
      Along EventSystem.step NotifyOk (.init queues) labels :=
  along_iff_prefixes (fun s label s' h _ _ => inv_step s label s' h) exactlyOnce_step
    (inv_init queues) (exactlyOnce_init queues) hrun

/-! ## Runs on one queue -/

def eventOfOrder (clientOrderId : UInt64) : SerumEvent where
  eventFlags := 0
  ownerSlot := 0
  feeTier := 0
  nativeQtyReleased := 0
  nativeQtyPaid := 0
  nativeFeeOrRebate := 0
  orderId := ⟨0, 0⟩
  owner := Bytes.ByteArr.fill 32 0
  clientOrderId := clientOrderId

/-- An event, a snapshot, an event, a snapshot. -/
def twoSnapshots : List (EventLabel (SerumReferenceData.onePair 6 6 1 1)) :=
  [.push SerumReferenceData.thePair (eventOfOrder 0), .notify SerumReferenceData.thePair,
    .push SerumReferenceData.thePair (eventOfOrder 1), .notify SerumReferenceData.thePair]

/-- After one snapshot of two events the queue is emptied and the client
notified again. -/
def emptiedQueue : List (EventLabel (SerumReferenceData.onePair 6 6 1 1)) :=
  [.push SerumReferenceData.thePair (eventOfOrder 0),
    .push SerumReferenceData.thePair (eventOfOrder 1), .notify SerumReferenceData.thePair,
    .pop SerumReferenceData.thePair, .pop SerumReferenceData.thePair,
    .notify SerumReferenceData.thePair]

theorem exactlyOnce_iff_emptiedQueue :
    ∃ t, run EventSystem.step (.init fun _ => .empty) emptiedQueue = some t ∧
      ∀ k s, run EventSystem.step (.init fun _ => .empty) (emptiedQueue.take k) = some s →
        ExactlyOnce s := by
  refine ⟨_, rfl, (exactlyOnce_iff _ emptiedQueue _ rfl).mpr ?_⟩
  refine (along_cons rfl).mpr ⟨trivial, (along_cons rfl).mpr ⟨trivial, (along_cons rfl).mpr
    ⟨.inl rfl, (along_cons rfl).mpr ⟨trivial, (along_cons rfl).mpr ⟨trivial,
      (along_cons rfl).mpr ⟨.inr rfl, along_nil _⟩⟩⟩⟩⟩⟩

/-- The event pushed between the two snapshots is never processed. -/
theorem exactlyOnce_fails :
    ∃ t, run EventSystem.step (.init fun _ => .empty) twoSnapshots = some t ∧
      shownEvents (t.queues SerumReferenceData.thePair).pushed
          (t.windows SerumReferenceData.thePair) =
        [eventOfOrder 0, eventOfOrder 1] ∧
      t.client.processed SerumReferenceData.thePair = [eventOfOrder 0] ∧ ¬ ExactlyOnce t := by
  refine ⟨_, rfl, rfl, rfl, fun h => ?_⟩
  have hpair := h SerumReferenceData.thePair
  exact absurd (congrArg List.length hpair) (by decide)

end Synthfi.Serum
