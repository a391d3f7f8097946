/-
Synthfi.Io.WebSocketBaseTheorems — a web socket has a single writer.

The length of the queue decides who starts a writer, the message being
written stays at the front until its write is over, and a failed write
empties the queue. `SingleWriter` ties the queue to the writer at every
suspension point, and `Accounts` says what became of each message sent: the
outcomes are in call order, one a message, and `handed` holds exactly the
messages that were not cleared unwritten. The lost ones are the queues at
the failed writes.

Without the assumption on the timer nothing of this holds: a writer that
returns on a timer error leaves the queue as it is.
-/
import Synthfi.Io.WebSocketBase

namespace Synthfi.Io.WebSocketBase

open Run

variable {α : Type}

/-! ## What is kept -/

/-- At most one writer, one exactly when something is queued, and it writes
the front. -/
structure SingleWriter (s : WebSocketBase α) : Prop where
  one : s.writers.length ≤ 1
  busy : s.writeBuffer ≠ [] ↔ s.writers ≠ []
  front : ∀ front, .writing front ∈ s.writers → front = s.writeBuffer.head?

/-- What became of a message that left the queue: its write succeeded, its
write failed, or the write of one before it did. -/
inductive Outcome where
  | written
  | failed
  | cleared
  deriving DecidableEq, Repr

/-- The messages whose write was started and is over. -/
def handedBy (outcomes : List (α × Outcome)) : List α :=
  (outcomes.filter fun outcome => outcome.2 ≠ .cleared).map Prod.fst

/-- The messages that were queued when a write failed. -/
def lostBy (outcomes : List (α × Outcome)) : List α :=
  (outcomes.filter fun outcome => outcome.2 ≠ .written).map Prod.fst

/-- The messages being written. -/
def inFlight (writers : List (DoWrite α)) : List α :=
  writers.flatMap fun
    | .writing front => front.toList
    | _ => []

/-- The outcomes account for what was sent, handed over and lost. -/
structure Accounts (s : WebSocketBase α) (outcomes : List (α × Outcome)) : Prop where
  sent : outcomes.map Prod.fst ++ s.writeBuffer = s.sent
  handed : handedBy outcomes ++ inFlight s.writers = s.handed
  lost : lostBy outcomes = s.failures.flatten

@[simp] theorem handedBy_append (a b : List (α × Outcome)) :
    handedBy (a ++ b) = handedBy a ++ handedBy b := by simp [handedBy]

@[simp] theorem lostBy_append (a b : List (α × Outcome)) :
    lostBy (a ++ b) = lostBy a ++ lostBy b := by simp [lostBy]

@[simp] theorem handedBy_cleared (messages : List α) :
    handedBy (messages.map fun message => (message, .cleared)) = [] := by
  simp [handedBy]

@[simp] theorem lostBy_cleared (messages : List α) :
    lostBy (messages.map fun message => (message, .cleared)) = messages := by
  induction messages with
  | nil => rfl
  | cons message messages ih => simpa [lostBy] using ih

/-! ## The coroutine between two suspension points -/

/-- The coroutine that continues is the only one, and it has something to
write. -/
theorem SingleWriter.eq_singleton {s : WebSocketBase α} (h : s.SingleWriter) {k : ℕ}
    {writer : DoWrite α} (hk : s.writers[k]? = some writer) :
    k = 0 ∧ s.writers = [writer] ∧ s.writeBuffer ≠ [] := by
  have hone := h.one
  have hbusy : s.writeBuffer ≠ [] := h.busy.mpr fun hnil => by simp [hnil] at hk
  cases hw : s.writers with
  | nil => simp [hw] at hk
  | cons first rest =>
    obtain rfl : rest = [] := by simpa [hw] using hone
    cases k with
    | zero => simpa [hw, hbusy] using hk
    | succ k => simp [hw] at hk

/-- The start of a write. The writer holds no message yet. -/
theorem write_kept {s : WebSocketBase α} {writer : DoWrite α} {outcomes : List (α × Outcome)}
    (hwriters : s.writers = [writer]) (hbuffer : s.writeBuffer ≠ [])
    (hsent : outcomes.map Prod.fst ++ s.writeBuffer = s.sent)
    (hhanded : handedBy outcomes = s.handed) (hlost : lostBy outcomes = s.failures.flatten) :
    (s.write 0).SingleWriter ∧ (s.write 0).Accounts outcomes := by
  refine ⟨⟨?_, ?_, ?_⟩, hsent, ?_, hlost⟩
  · simp [write, hwriters]
  · simp [write, hwriters, hbuffer]
  · simp [write, hwriters]
  · simp [write, hwriters, inFlight, hhanded]

theorem loopHead_kept {s : WebSocketBase α} {writer : DoWrite α} {outcomes : List (α × Outcome)}
    (hwriters : s.writers = [writer])
    (hsent : outcomes.map Prod.fst ++ s.writeBuffer = s.sent)
    (hhanded : handedBy outcomes = s.handed) (hlost : lostBy outcomes = s.failures.flatten) :
    (s.loopHead 0).SingleWriter ∧ (s.loopHead 0).Accounts outcomes := by
  unfold loopHead
  by_cases hbuffer : s.writeBuffer = []
  · rw [if_pos hbuffer]
    refine ⟨⟨?_, ?_, ?_⟩, hsent, ?_, hlost⟩
    · simp [hwriters]
    · simp [hwriters, hbuffer]
    · simp [hwriters]
    · simp [hwriters, inFlight, hhanded]
  · rw [if_neg hbuffer]
    by_cases hopen : s.isOpen
    · rw [if_pos hopen]
      exact write_kept hwriters hbuffer hsent hhanded hlost
    · rw [if_neg hopen]
      refine ⟨⟨?_, ?_, ?_⟩, hsent, ?_, hlost⟩
      · simp [hwriters]
      · simp [hwriters, hbuffer]
      · simp [hwriters]
      · simp [hwriters, inFlight, hhanded]

/-- A message sent starts a writer exactly when there is none. -/
theorem doSendMessage_kept {s : WebSocketBase α} {outcomes : List (α × Outcome)}
    (h : s.SingleWriter) (hacc : s.Accounts outcomes) (message : α) :
    (s.doSendMessage message).SingleWriter ∧ (s.doSendMessage message).Accounts outcomes := by
  have hsent : outcomes.map Prod.fst ++ (s.writeBuffer ++ [message]) = s.sent ++ [message] := by
    rw [← hacc.sent, List.append_assoc]
  by_cases hbuffer : s.writeBuffer = []
  · have hwriters : s.writers = [] := by
      by_contra hne
      exact h.busy.mpr hne hbuffer
    refine ⟨⟨?_, ?_, ?_⟩, hsent, ?_, hacc.lost⟩
    · simp [doSendMessage, hwriters, hbuffer]
    · simp [doSendMessage, hwriters, hbuffer]
    · simp [doSendMessage, hwriters, hbuffer]
    · simp [doSendMessage, hwriters, hbuffer, inFlight, ← hacc.handed]
  · have hwriters : (s.doSendMessage message).writers = s.writers := by
      simp [doSendMessage, hbuffer]
    refine ⟨⟨?_, ?_, fun front hfront => ?_⟩, hsent, ?_, hacc.lost⟩
    · rw [hwriters]
      exact h.one
    · rw [hwriters, ← h.busy]
      simp [doSendMessage, hbuffer]
    · rw [hwriters] at hfront
      rw [h.front front hfront]
      exact (List.head?_append_of_ne_nil _ hbuffer).symm
    · rw [hwriters]
      exact hacc.handed

/-- The end of a write: the front leaves the queue, or all of it does. -/
theorem afterWrite_kept {s : WebSocketBase α} {outcomes : List (α × Outcome)} {front : Option α}
    (h : s.SingleWriter) (hacc : s.Accounts outcomes) (hwriters : s.writers = [.writing front])
    (hbuffer : s.writeBuffer ≠ []) (failed : Bool) :
    ∃ outcomes', (s.afterWrite 0 failed).SingleWriter ∧
      (s.afterWrite 0 failed).Accounts outcomes' := by
  obtain ⟨message, rest, hqueue⟩ := List.exists_cons_of_ne_nil hbuffer
  obtain rfl : front = some message := by
    rw [h.front front (by simp [hwriters]), hqueue, List.head?_cons]
  have hsent := hacc.sent
  have hhanded := hacc.handed
  have hlost := hacc.lost
  rw [hqueue] at hsent
  simp only [hwriters, inFlight, List.flatMap_cons, List.flatMap_nil, Option.toList_some,
    List.append_nil] at hhanded
  cases failed with
  | false =>
    have hwriters' : { s with writeBuffer := s.writeBuffer.tail }.writers =
        [.writing (some message)] := hwriters
    refine ⟨outcomes ++ [(message, .written)], ?_⟩
    apply loopHead_kept hwriters'
    · simp [hqueue, ← hsent]
    · simp [← hhanded, handedBy]
    · simp [← hlost, lostBy]
  | true =>
    refine ⟨outcomes ++ (message, .failed) :: rest.map fun other => (other, .cleared), ?_⟩
    have hcleared : lostBy ((message, .failed) :: rest.map fun other => (other, .cleared)) =
        message :: rest := by
      rw [← List.singleton_append, lostBy_append, lostBy_cleared]
      simp [lostBy]
    have hkept : handedBy ((message, .failed) :: rest.map fun other => (other, .cleared)) =
        [message] := by
      rw [← List.singleton_append, handedBy_append, handedBy_cleared]
      simp [handedBy]
    refine ⟨⟨?_, ?_, ?_⟩, ?_, ?_, ?_⟩
    · simp [afterWrite, hwriters]
    · simp [afterWrite, hwriters]
    · simp [afterWrite, hwriters]
    · simp [afterWrite, ← hsent, Function.comp_def]
    · simp [afterWrite, hwriters, hkept, ← hhanded, inFlight]
    · simp [afterWrite, hcleared, hqueue, ← hlost]

/-! ## Runs -/

/-- A step of the socket. Only the timer may not end with an error. -/
theorem step_kept {s s' : WebSocketBase α} {label : Label α} {outcomes : List (α × Outcome)}
    (h : s.SingleWriter) (hacc : s.Accounts outcomes) (htimer : ∀ k, label ≠ .timer k .failed)
    (hstep : s.step label = some s') : ∃ outcomes', s'.SingleWriter ∧ s'.Accounts outcomes' := by
  cases label with
  | send message =>
    obtain rfl := Option.some.inj hstep
    exact ⟨outcomes, doSendMessage_kept h hacc message⟩
  | start k =>
    simp only [step] at hstep
    split at hstep
    · next hk =>
      obtain rfl := Option.some.inj hstep
      obtain ⟨rfl, hwriters, -⟩ := h.eq_singleton hk
      exact ⟨outcomes, loopHead_kept hwriters hacc.sent
        (by simpa [hwriters, inFlight] using hacc.handed) hacc.lost⟩
    · cases hstep
  | timer k result =>
    simp only [step] at hstep
    split at hstep
    · next hk =>
      obtain rfl := Option.some.inj hstep
      obtain ⟨rfl, hwriters, hbuffer⟩ := h.eq_singleton hk
      have hwrite := write_kept hwriters hbuffer hacc.sent
        (by simpa [hwriters, inFlight] using hacc.handed) hacc.lost
      cases result with
      | operationAborted => exact ⟨outcomes, hwrite⟩
      | timedOut => exact ⟨outcomes, hwrite⟩
      | failed => exact absurd rfl (htimer 0)
    · cases hstep
  | wrote k failed =>
    simp only [step] at hstep
    split at hstep
    · next hk =>
      obtain rfl := Option.some.inj hstep
      obtain ⟨rfl, hwriters, hbuffer⟩ := h.eq_singleton hk
      exact afterWrite_kept h hacc hwriters hbuffer failed
    · cases hstep
  | connection isOpen =>
    obtain rfl := Option.some.inj hstep
    exact ⟨outcomes, ⟨h.one, h.busy, h.front⟩, hacc.sent, hacc.handed, hacc.lost⟩

theorem run_kept {s t : WebSocketBase α} {labels : List (Label α)} {outcomes : List (α × Outcome)}
    (h : s.SingleWriter) (hacc : s.Accounts outcomes) (htimer : ∀ k, .timer k .failed ∉ labels)
    (hrun : run step s labels = some t) : ∃ outcomes', t.SingleWriter ∧ t.Accounts outcomes' := by
  induction labels generalizing s outcomes with
  | nil =>
    obtain rfl := Option.some.inj hrun
    exact ⟨outcomes, h, hacc⟩
  | cons label labels ih =>
    obtain ⟨s', hstep, hrest⟩ := run_cons_eq_some.mp hrun
    obtain ⟨outcomes', h', hacc'⟩ :=
      step_kept h hacc (fun k heq => htimer k (heq ▸ List.mem_cons_self)) hstep
    exact ih h' hacc' (fun k hmem => htimer k (List.mem_cons_of_mem _ hmem)) hrest

/-! ## The queue drains -/

/-- The steps of the writer while the timer expires and writes succeed. -/
def WriterStep : Label α → Prop
  | .start _ => True
  | .timer _ .timedOut => True
  | .wrote _ false => True
  | _ => False

theorem WriterStep.ne_timer_failed {label : Label α} (h : WriterStep label) (k : ℕ) :
    label ≠ .timer k .failed := by
  rintro rfl
  exact h

theorem loopHead_frame (s : WebSocketBase α) (k : ℕ) :
    (s.loopHead k).sent = s.sent ∧ (s.loopHead k).failures = s.failures ∧
      (s.loopHead k).writeBuffer = s.writeBuffer := by
  unfold loopHead
  split
  · exact ⟨rfl, rfl, rfl⟩
  · split <;> exact ⟨rfl, rfl, rfl⟩

/-- The writer leads from `s` to `t`, and nothing is lost on the way. -/
def Drains (s t : WebSocketBase α) : Prop :=
  ∃ labels, (∀ label ∈ labels, WriterStep label) ∧ run step s labels = some t ∧
    t.sent = s.sent ∧ t.failures = s.failures

theorem Drains.refl (s : WebSocketBase α) : Drains s s := ⟨[], by simp, rfl, rfl, rfl⟩

theorem Drains.head {s s' t : WebSocketBase α} {label : Label α} (hlabel : WriterStep label)
    (hstep : s.step label = some s') (hsent : s'.sent = s.sent)
    (hfailures : s'.failures = s.failures) (h : Drains s' t) : Drains s t := by
  obtain ⟨labels, hlabels, hrun, hsent', hfailures'⟩ := h
  refine ⟨label :: labels, List.forall_mem_cons.mpr ⟨hlabel, hlabels⟩, ?_, ?_, ?_⟩
  · exact run_cons_eq_some.mpr ⟨s', hstep, hrun⟩
  · exact hsent'.trans hsent
  · exact hfailures'.trans hfailures

/-- The steps a coroutine is away from its write. -/
def stepsToWrite : DoWrite α → ℕ
  | .spawned => 2
  | .waiting => 1
  | .writing _ => 0

/-- A bound on the steps to the end of the queue. -/
def remaining (s : WebSocketBase α) : ℕ :=
  3 * s.writeBuffer.length + s.writers.head?.elim 0 stepsToWrite

theorem remaining_write {s : WebSocketBase α} {writer : DoWrite α}
    (hwriters : s.writers = [writer]) : (s.write 0).remaining = 3 * s.writeBuffer.length := by
  simp [remaining, write, hwriters, stepsToWrite]

/-- After the loop head the writer waits at most for the timer. -/
theorem remaining_loopHead {s : WebSocketBase α} {writer : DoWrite α}
    (hwriters : s.writers = [writer]) :
    (s.loopHead 0).remaining ≤ 3 * s.writeBuffer.length + 1 := by
  unfold loopHead
  split
  · simp [remaining, hwriters]
  · split
    · simp [remaining_write hwriters]
    · simp [remaining, hwriters, stepsToWrite]

theorem exists_writerStep {s : WebSocketBase α} (h : s.SingleWriter)
    (hbuffer : s.writeBuffer ≠ []) :
    ∃ label s', WriterStep label ∧ s.step label = some s' ∧ s'.sent = s.sent ∧
      s'.failures = s.failures ∧ s'.remaining < s.remaining := by
  obtain ⟨writer, rest, hcons⟩ := List.exists_cons_of_ne_nil (h.busy.mp hbuffer)
  have hfirst : s.writers[0]? = some writer := by simp [hcons]
  obtain ⟨-, hwriters, -⟩ := h.eq_singleton hfirst
  have hlength : 0 < s.writeBuffer.length := List.length_pos_of_ne_nil hbuffer
  cases writer with
  | spawned =>
    obtain ⟨hsent, hfailures, -⟩ := loopHead_frame s 0
    refine ⟨.start 0, s.loopHead 0, trivial, by simp [step, hwriters], hsent, hfailures, ?_⟩
    have := remaining_loopHead hwriters
    simp only [remaining, hwriters, List.head?_cons, Option.elim, stepsToWrite] at this ⊢
    omega
  | waiting =>
    refine ⟨.timer 0 .timedOut, s.write 0, trivial, by simp [step, hwriters, afterTimer], rfl, rfl,
      ?_⟩
    rw [remaining_write hwriters]
    simp [remaining, hwriters, stepsToWrite]
  | writing front =>
    have hwriters' : { s with writeBuffer := s.writeBuffer.tail }.writers = [.writing front] :=
      hwriters
    obtain ⟨hsent, hfailures, -⟩ := loopHead_frame { s with writeBuffer := s.writeBuffer.tail } 0
    refine ⟨.wrote 0 false, s.afterWrite 0 false, trivial, by simp [step, hwriters], hsent,
      hfailures, ?_⟩
    have := remaining_loopHead hwriters'
    simp only [List.length_tail] at this
    have hafter : (s.afterWrite 0 false).remaining =
        ({ s with writeBuffer := s.writeBuffer.tail }.loopHead 0).remaining := rfl
    simp only [remaining, hwriters, List.head?_cons, Option.elim, stepsToWrite] at this hafter ⊢
    omega

/-- While nothing more is sent and the writes succeed, the queue empties. -/
theorem exists_drains {s : WebSocketBase α} {outcomes : List (α × Outcome)} (h : s.SingleWriter)
    (hacc : s.Accounts outcomes) : ∃ t, Drains s t ∧ t.writeBuffer = [] := by
  induction hn : s.remaining using Nat.strongRecOn generalizing s outcomes with
  | _ n ih =>
    by_cases hbuffer : s.writeBuffer = []
    · exact ⟨s, .refl s, hbuffer⟩
    · obtain ⟨label, s', hlabel, hstep, hsent, hfailures, hlt⟩ := exists_writerStep h hbuffer
      obtain ⟨outcomes', h', hacc'⟩ := step_kept h hacc hlabel.ne_timer_failed hstep
      obtain ⟨t, ht, hempty⟩ := ih _ (hn ▸ hlt) h' hacc' rfl
      exact ⟨t, ht.head hlabel hstep hsent hfailures, hempty⟩

/-! ## Single writer -/

/-- **Single writer.** In every state of every run whose timer ends only by
expiry or cancellation there is at most one writer, and one exactly when
something is queued; the messages were handed over in call order, once each,
except those queued when a write failed; and those still queued will be,
unless another write fails. -/
theorem writers_run {labels : List (Label α)} {s : WebSocketBase α}
    (htimer : ∀ k, .timer k .failed ∉ labels) (hrun : run step init labels = some s) :
    s.SingleWriter ∧ (∃ outcomes, s.Accounts outcomes) ∧
      ∃ t, Drains s t ∧ t.writeBuffer = [] ∧ ∃ outcomes, t.Accounts outcomes := by
  have hinit : (init : WebSocketBase α).SingleWriter := ⟨by simp [init], by simp [init],
    by simp [init]⟩
  have hempty : (init : WebSocketBase α).Accounts [] := ⟨rfl, rfl, rfl⟩
  obtain ⟨outcomes, h, hacc⟩ := run_kept hinit hempty htimer hrun
  obtain ⟨t, hdrains, hempty⟩ := exists_drains h hacc
  obtain ⟨labels', hlabels, hrun', hkept⟩ := hdrains
  obtain ⟨outcomes', -, hacc'⟩ := run_kept h hacc
    (fun k hmem => (hlabels _ hmem).ne_timer_failed k rfl) hrun'
  exact ⟨h, ⟨outcomes, hacc⟩, t, ⟨labels', hlabels, hrun', hkept⟩, hempty, outcomes', hacc'⟩

/-- A write that succeeds, one that fails with a message behind it, and a
message sent after it. -/
def failureBetween : List (Label ℕ) :=
  [.send 0, .start 0, .connection true, .timer 0 .operationAborted, .send 1, .send 2,
    .wrote 0 false, .wrote 0 true, .send 3, .start 0]

theorem writers_run_failureBetween :
    ∃ s, run step init failureBetween = some s ∧ s.handed = [0, 1, 3] ∧ s.failures = [[1, 2]] ∧
      s.SingleWriter := by
  have htimer : ∀ k, .timer k .failed ∉ failureBetween := by simp [failureBetween]
  exact ⟨_, rfl, rfl, rfl, (writers_run htimer rfl).1⟩

end Synthfi.Io.WebSocketBase
