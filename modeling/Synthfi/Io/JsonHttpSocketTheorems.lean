/-
Synthfi.Io.JsonHttpSocketTheorems — when a socket has a single writer.

`_isWriting` is set when a writer starts and cleared after every write, also
when the writer goes on; a writer that returns early leaves it as it is.
`SingleWriter` is what the flag is meant to give: one writer, and for every
request the fate that the labels alone decide (`account`). `singleWriter_iff` finds,
over all interleavings, the steps that keep it: a message is sent while the
flag is set or there is no writer, and a writer that ends without having
written ends with the flag cleared.
-/
import Synthfi.Io.JsonHttpSocket

namespace Synthfi.Io.JsonHttpSocket

open Run

variable {α : Type} {past : List (Label α)}

/-! ## What is kept -/

/-- What a label does to the queue and to the fates before it. A request sent
joins the queue, a write that succeeds takes the front, and one that fails
clears the queue. -/
def account (before : List α × List (α × Fate)) : Label α → List α × List (α × Fate)
  | .send request => (before.1 ++ [request], before.2)
  | .wrote _ _ true => ([], before.2 ++ before.1.map fun request => (request, .cleared))
  | .wrote _ 0 false => before
  | .wrote _ (_ + 1) false =>
    (before.1.tail, before.2 ++ before.1.head?.toList.map fun request => (request, .written))
  | _ => before

/-- What was sent has, in order, been written or cleared by a write that
failed, or is queued. -/
structure Accounts (past : List (Label α)) (s : JsonHttpSocket α) : Prop where
  fifo : s.fates.map Prod.fst ++ s.writeBuffer = s.sent
  fates : past.foldl account ([], []) = (s.writeBuffer, s.fates)

/-- At most one writer, which does with the requests what it should; no writer
leaves the flag set behind it. -/
structure SingleWriter (past : List (Label α)) (s : JsonHttpSocket α) : Prop where
  one : s.writers.length ≤ 1
  accounts : s.Accounts past
  idle : s.writers = [] → s.isWriting = false

/-- The steps that keep `SingleWriter`. -/
def StepOk (s : JsonHttpSocket α) : Label α → Prop
  | .send _ => s.isWriting = true ∨ s.writers = []
  | .timer _ .timedOut => s.isWriting = false
  | .timer _ .failed => s.isWriting = false
  | .wrote _ 0 true => s.isWriting = false
  | _ => True

instance (s : JsonHttpSocket α) (label : Label α) : Decidable (s.StepOk label) := by
  unfold StepOk
  split <;> infer_instance

/-- A writer has something to write, and it writes the front of the queue. -/
def AtFront (s : JsonHttpSocket α) : Prop :=
  ∀ writer ∈ s.writers, s.writeBuffer ≠ [] ∧
    ∀ front, writer = .writing front → front = s.writeBuffer.head?

/-! ## What became of the requests -/

theorem Accounts.step {s s' : JsonHttpSocket α} (h : s.Accounts past) {label : Label α}
    (hfifo : s'.fates.map Prod.fst ++ s'.writeBuffer = s'.sent)
    (hlabel : account (s.writeBuffer, s.fates) label = (s'.writeBuffer, s'.fates)) :
    s'.Accounts (past ++ [label]) where
  fifo := hfifo
  fates := by rw [List.foldl_append, h.fates, List.foldl_cons, List.foldl_nil, hlabel]

theorem accounts_doSendMessage {s : JsonHttpSocket α} (h : s.Accounts past) (request : α) :
    (s.doSendMessage request).Accounts (past ++ [.send request]) := by
  refine h.step ?_ rfl
  simp [doSendMessage, ← h.fifo]

/-- The end of the write of the front: the front leaves the queue, or all of
it does. -/
theorem accounts_afterWrite {s : JsonHttpSocket α} (h : s.Accounts past) (k bytesWritten : ℕ)
    (failed : Bool) :
    (s.afterWrite s.writeBuffer.head? bytesWritten failed).Accounts
      (past ++ [.wrote k bytesWritten failed]) := by
  have hcons : s.writeBuffer.head?.toList ++ s.writeBuffer.tail = s.writeBuffer := by
    cases s.writeBuffer <;> rfl
  have hfifo := h.fifo
  cases failed with
  | false =>
    cases bytesWritten with
    | zero => exact h.step (by simpa [afterWrite] using hfifo) rfl
    | succ n =>
      exact h.step (by simpa [afterWrite, Function.comp_def, hcons] using hfifo) rfl
  | true =>
    have hcleared : s.writeBuffer.head?.toList.map (fun request => (request, Fate.cleared)) ++
        s.writeBuffer.tail.map (fun request => (request, Fate.cleared)) =
        s.writeBuffer.map fun request => (request, Fate.cleared) := by
      rw [← List.map_append, hcons]
    cases bytesWritten with
    | zero => exact h.step (by simpa [afterWrite, Function.comp_def] using hfifo) rfl
    | succ n =>
      refine h.step (by simpa [afterWrite, Function.comp_def, hcons] using hfifo) ?_
      refine Prod.ext rfl ?_
      show s.fates ++ s.writeBuffer.map (fun request => (request, Fate.cleared)) =
        (s.fates ++ s.writeBuffer.head?.toList.map fun request => (request, Fate.cleared)) ++
          s.writeBuffer.tail.map fun request => (request, Fate.cleared)
      rw [List.append_assoc, hcleared]

/-! ## One writer -/

/-- A single writer is the one that continues. -/
theorem SingleWriter.eq_singleton {s : JsonHttpSocket α} (h : s.SingleWriter past) {k : ℕ}
    {writer : DoWrite α} (hk : s.writers[k]? = some writer) : k = 0 ∧ s.writers = [writer] := by
  have hone := h.one
  cases hw : s.writers with
  | nil => simp [hw] at hk
  | cons first rest =>
    obtain rfl : rest = [] := by simpa [hw] using hone
    cases k with
    | zero => simpa [hw] using hk
    | succ k => simp [hw] at hk

/-- It is replaced by what it is suspended at next. -/
theorem writers_resume {s : JsonHttpSocket α} {writer : DoWrite α} (h : s.writers = [writer])
    (next : Option (DoWrite α)) : (s.resume 0 next).writers = next.toList := by
  cases next with
  | none => simp [resume, h]
  | some next => simp [resume, h]

/-- A suspension moves nothing but the coroutine. -/
theorem resume_frame (s : JsonHttpSocket α) (k : ℕ) (next : Option (DoWrite α)) :
    (s.resume k next).writeBuffer = s.writeBuffer ∧ (s.resume k next).isWriting = s.isWriting ∧
      (s.resume k next).sent = s.sent ∧ (s.resume k next).fates = s.fates := by
  cases next with
  | none => exact ⟨rfl, rfl, rfl, rfl⟩
  | some next => exact ⟨rfl, rfl, rfl, rfl⟩

/-- After the loop head there is a writer exactly when there is something to
write. -/
theorem loopHead_eq_none {s : JsonHttpSocket α} : s.loopHead = none ↔ s.writeBuffer = [] := by
  unfold loopHead
  split
  · next h => simp [h]
  · next h => split <;> simp [h]

/-- What the single writer leaves when it is suspended or returns. -/
theorem singleWriter_resume {s : JsonHttpSocket α} {writer : DoWrite α}
    (hwriters : s.writers = [writer]) (hacc : s.Accounts past) (next : Option (DoWrite α)) :
    (s.resume 0 next).SingleWriter past ↔ (next = none → s.isWriting = false) := by
  obtain ⟨hbuffer, hflag, hsent, hfates⟩ := resume_frame s 0 next
  have hnext := writers_resume hwriters next
  constructor
  · intro h hnone
    rw [← hflag]
    exact h.idle (by rw [hnext, hnone]; rfl)
  · intro h
    refine ⟨?_, ⟨?_, ?_⟩, fun hnil => ?_⟩
    · rw [hnext]
      cases next <;> simp
    · rw [hbuffer, hsent, hfates, hacc.fifo]
    · rw [hbuffer, hfates, hacc.fates]
    · rw [hflag]
      exact h (by simpa [hnext] using hnil)

theorem atFront_resume {s : JsonHttpSocket α} {writer : DoWrite α} (hwriters : s.writers = [writer])
    {next : Option (DoWrite α)} (hbuffer : ∀ w, next = some w → s.writeBuffer ≠ [])
    (hfront : ∀ front, next = some (.writing front) → front = s.writeBuffer.head?) :
    AtFront (s.resume 0 next) := by
  intro w hw
  rw [writers_resume hwriters, Option.mem_toList] at hw
  rw [(resume_frame s 0 next).1]
  refine ⟨hbuffer w hw, fun front hwriting => hfront front ?_⟩
  rw [← hwriting]
  exact hw

theorem atFront_resume_loopHead {s : JsonHttpSocket α} {writer : DoWrite α}
    (hwriters : s.writers = [writer]) : AtFront (s.resume 0 s.loopHead) := by
  apply atFront_resume hwriters
  · intro w hw hnil
    rw [loopHead_eq_none.mpr hnil] at hw
    cases hw
  · intro front hfront
    unfold loopHead at hfront
    split at hfront
    · cases hfront
    · split at hfront
      · cases hfront
      · cases hfront
        rfl

/-! ## One step -/

theorem writers_afterWrite (s : JsonHttpSocket α) (front : Option α) (bytesWritten : ℕ)
    (failed : Bool) : (s.afterWrite front bytesWritten failed).writers = s.writers := by
  unfold afterWrite
  split <;> cases failed <;> rfl

/-- The flag matters where a write ends with an error and no bytes: the
queue is cleared and the writer returns. -/
theorem idle_afterWrite {s : JsonHttpSocket α} (hbuffer : s.writeBuffer ≠ []) (k : ℕ)
    (bytesWritten : ℕ) (failed : Bool) :
    ((s.afterWrite s.writeBuffer.head? bytesWritten failed).loopHead = none →
      (s.afterWrite s.writeBuffer.head? bytesWritten failed).isWriting = false) ↔
    s.StepOk (.wrote k bytesWritten failed) := by
  rw [loopHead_eq_none]
  cases bytesWritten with
  | zero =>
    cases failed with
    | false => simp [afterWrite, StepOk, hbuffer]
    | true => simp [afterWrite, StepOk]
  | succ n => cases failed <;> simp [afterWrite, StepOk]

theorem atFront_doSendMessage {s : JsonHttpSocket α} (h : s.AtFront) (request : α) :
    (s.doSendMessage request).AtFront := by
  intro writer hwriter
  refine ⟨by simp [doSendMessage], fun front hfront => ?_⟩
  have hold : writer ∈ s.writers := by
    simp only [doSendMessage] at hwriter
    split at hwriter
    · exact hwriter
    · simpa [hfront] using hwriter
  obtain ⟨hbuffer, hhead⟩ := h writer hold
  rw [hhead front hfront]
  exact (List.head?_append_of_ne_nil _ hbuffer).symm

/-- A message starts a writer where the flag is cleared. -/
theorem singleWriter_doSendMessage {s : JsonHttpSocket α} (h : s.SingleWriter past)
    (request : α) : (s.doSendMessage request).SingleWriter (past ++ [.send request]) ↔
      s.isWriting = true ∨ s.writers = [] := by
  have hacc := accounts_doSendMessage h.accounts request
  cases hflag : s.isWriting with
  | true =>
    have hbusy : s.writers ≠ [] := fun hnil => by simp [h.idle hnil] at hflag
    refine iff_of_true ⟨?_, hacc, fun hnil => ?_⟩ (.inl rfl)
    · simpa [doSendMessage, hflag] using h.one
    · simp [doSendMessage, hflag, hbusy] at hnil
  | false =>
    constructor
    · intro h'
      have hone := h'.one
      simp [doSendMessage, hflag] at hone
      exact .inr hone
    · intro hor
      have hnil : s.writers = [] := by simpa using hor
      refine ⟨by simp [doSendMessage, hflag, hnil], hacc, fun h' => ?_⟩
      simp [doSendMessage, hflag] at h'

/-- What a step of a socket with a single writer leads to. -/
theorem step_exact {s s' : JsonHttpSocket α} {label : Label α} (hfront : s.AtFront)
    (h : s.SingleWriter past) (hstep : s.step label = some s') :
    s'.AtFront ∧ (s'.SingleWriter (past ++ [label]) ↔ s.StepOk label) := by
  cases label with
  | send request =>
    obtain rfl := Option.some.inj hstep
    exact ⟨atFront_doSendMessage hfront request, singleWriter_doSendMessage h request⟩
  | start k =>
    simp only [step] at hstep
    split at hstep
    · next hk =>
      obtain rfl := Option.some.inj hstep
      obtain ⟨rfl, hwriters⟩ := h.eq_singleton hk
      have hwriters' : { s with isWriting := true }.writers = [.spawned] := hwriters
      have hbuffer := (hfront .spawned (by simp [hwriters])).1
      have hacc : { s with isWriting := true }.Accounts (past ++ [Label.start 0]) :=
        h.accounts.step h.accounts.fifo rfl
      refine ⟨atFront_resume_loopHead hwriters', (singleWriter_resume hwriters' hacc _).trans ?_⟩
      have hloop : s.loopHead ≠ none := fun hnone => hbuffer (loopHead_eq_none.mp hnone)
      simpa [StepOk] using hloop
    · cases hstep
  | timer k result =>
    simp only [step] at hstep
    split at hstep
    · next hk =>
      obtain rfl := Option.some.inj hstep
      obtain ⟨rfl, hwriters⟩ := h.eq_singleton hk
      have hbuffer := (hfront .waiting (by simp [hwriters])).1
      have hacc : s.Accounts (past ++ [.timer 0 result]) := h.accounts.step h.accounts.fifo rfl
      have hgone : (s.resume 0 none).AtFront ∧
          ((s.resume 0 none).SingleWriter (past ++ [.timer 0 result]) ↔ s.isWriting = false) :=
        ⟨atFront_resume hwriters (by simp) (by simp),
          (singleWriter_resume hwriters hacc none).trans (by simp)⟩
      cases result with
      | operationAborted =>
        show (s.resume 0 (some (.writing s.writeBuffer.head?))).AtFront ∧
          ((s.resume 0 (some (.writing s.writeBuffer.head?))).SingleWriter _ ↔ True)
        refine ⟨atFront_resume hwriters (fun _ _ => hbuffer) ?_,
          (singleWriter_resume hwriters hacc _).trans (by simp)⟩
        intro front hwriting
        cases hwriting
        rfl
      | timedOut => exact hgone
      | failed => exact hgone
    · cases hstep
  | wrote k bytesWritten failed =>
    simp only [step] at hstep
    split at hstep
    · next front hk =>
      obtain rfl := Option.some.inj hstep
      obtain ⟨rfl, hwriters⟩ := h.eq_singleton hk
      obtain ⟨hbuffer, hhead⟩ := hfront (.writing front) (by simp [hwriters])
      obtain rfl := hhead front rfl
      have hwriters' :=
        (writers_afterWrite s s.writeBuffer.head? bytesWritten failed).trans hwriters
      refine ⟨atFront_resume_loopHead hwriters', ?_⟩
      rw [singleWriter_resume hwriters' (accounts_afterWrite h.accounts 0 bytesWritten failed)]
      exact idle_afterWrite hbuffer 0 bytesWritten failed
    · cases hstep
  | startReconnect =>
    obtain rfl := Option.some.inj hstep
    have hacc : { s with isConnecting := true }.Accounts (past ++ [Label.startReconnect]) :=
      h.accounts.step h.accounts.fifo rfl
    exact ⟨hfront, iff_of_true ⟨h.one, hacc, h.idle⟩ trivial⟩
  | connected =>
    obtain rfl := Option.some.inj hstep
    have hacc : { s with isConnecting := false }.Accounts (past ++ [Label.connected]) :=
      h.accounts.step h.accounts.fifo rfl
    exact ⟨hfront, iff_of_true ⟨h.one, hacc, h.idle⟩ trivial⟩

/-- Two requests through one writer, and a third through the next. -/
def oneAfterAnother : List (Label ℕ) :=
  [.connected, .send 0, .start 0, .send 1, .wrote 0 90 false, .wrote 0 90 false, .send 2, .start 0,
    .wrote 0 90 false]

/-- Message 1 is being written when message 2 is sent. -/
def sendWhileWriting : List (Label ℕ) :=
  [.connected, .send 0, .start 0, .send 1, .wrote 0 90 false, .send 2, .start 1, .wrote 1 90 false,
    .wrote 0 90 false, .wrote 0 90 false]

end Synthfi.Io.JsonHttpSocket
