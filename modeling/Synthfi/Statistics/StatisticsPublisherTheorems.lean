/-
Synthfi.Statistics.StatisticsPublisherTheorems — when statistics are written
exactly once.

`WrittenOnce` says that the requests written, the one in flight and the
buffer are made of the lines accepted, each once and in order, and that
without a writer the buffer is empty, so that all lines are written. The
buffer is reset after a write as well as moved out before it, and what came
between is lost. `writtenOnce_iff` finds, over all interleavings in which no
write fails, the runs that keep it.
-/
import Synthfi.Lib.Lines
import Synthfi.Statistics.StatisticsPublisher

namespace Synthfi.Statistics

open Run Lines
open Trading (Timestamp)
open Io (TimerResult)

/-- The body of the request being written. -/
def DoWrite.body : DoWrite → Option String
  | .writing body => some body
  | _ => none

@[simp] theorem DoWrite.body_writing (body : String) : (writing body).body = some body := rfl

@[simp] theorem DoWrite.body_spawned : spawned.body = none := rfl

@[simp] theorem DoWrite.body_waiting : waiting.body = none := rfl

namespace StatisticsPublisher

variable {δ : Type} (text : NumberText δ) {s s' t : StatisticsPublisher}

/-- The bodies of the requests written and being written. -/
def requests (s : StatisticsPublisher) : List String :=
  s.written ++ s.writers.filterMap DoWrite.body

/-- The requests and what is to become the next one. -/
def bodies (s : StatisticsPublisher) : List String :=
  s.requests ++ if s.writeBuffer = "" then [] else [s.writeBuffer]

structure WrittenOnce (s : StatisticsPublisher) : Prop where
  whole : WholeLines s.accepted s.bodies
  idle : s.writers = [] → s.writeBuffer = ""

/-- The steps that keep `WrittenOnce`, apart from writes that fail. -/
def StepOk (s : StatisticsPublisher) : Label δ → Prop
  | .publishStatistics measurements _ =>
    s.writers ≠ [] ∨ (∀ measurement ∈ measurements, measurement.fields ≠ []) ∨
      ∀ measurement ∈ measurements.head?, measurement.fields = []
  | .timer _ .failed => False
  | .wrote _ _ => s.writeBuffer = ""
  | _ => True

/-- The write of a socket does not fail. -/
def Label.Succeeds : Label δ → Prop
  | .wrote _ failed => failed = false
  | _ => True

instance (s : StatisticsPublisher) (label : Label δ) : Decidable (s.StepOk label) := by
  unfold StepOk
  split <;> infer_instance

instance (label : Label δ) : Decidable label.Succeeds := by
  unfold Label.Succeeds
  split <;> infer_instance

/-- What the flag says, and what there is to write. -/
structure Consistent (s : StatisticsPublisher) : Prop where
  nonempty : ∀ body ∈ s.bodies, body ≠ ""
  one : s.writers.length ≤ 1
  flag : s.isWriting = true ↔ s.writers ≠ []
  /-- A writer that has no request yet has something to write. -/
  pending : ∀ writer ∈ s.writers, writer.body = none → s.writeBuffer ≠ ""

/-! ## Lines -/

theorem encodeMeasurement_ne_empty (measurement : InfluxMeasurement δ) (timeStamp : Timestamp) :
    encodeMeasurement text measurement timeStamp ≠ "" := by
  simp [encodeMeasurement]

theorem bodies_of_empty (h : s.writeBuffer = "") : s.bodies = s.requests := by
  simp [bodies, h]

theorem bodies_of_nonempty (h : s.writeBuffer ≠ "") : s.bodies = s.requests ++ [s.writeBuffer] := by
  simp [bodies, h]

theorem Consistent.request_ne_empty (h : s.Consistent) : ∀ body ∈ s.requests, body ≠ "" :=
  fun body hbody => h.nonempty body (List.mem_append_left _ hbody)

theorem push_writeBuffer_ne_empty {line : String} (hline : line ≠ "") :
    (s.push line).writeBuffer ≠ "" := by
  by_cases h : s.writeBuffer = "" <;> simp [push, h, hline]

/-- A line that is pushed is a text of its own or goes on the last one. -/
theorem wholeLines_push (h : WholeLines s.accepted s.bodies) {line : String} (hline : line ≠ "") :
    WholeLines (s.push line).accepted (s.push line).bodies := by
  rw [bodies_of_nonempty (push_writeBuffer_ne_empty hline)]
  by_cases hempty : s.writeBuffer = ""
  · rw [bodies_of_empty hempty] at h
    simpa [push, requests, hempty] using h.snoc line
  · rw [bodies_of_nonempty hempty] at h
    simpa [push, requests, hempty] using h.extend hempty line

theorem Consistent.push (h : s.Consistent) {line : String} (hline : line ≠ "") :
    (s.push line).Consistent where
  nonempty := by
    rw [bodies_of_nonempty (push_writeBuffer_ne_empty hline)]
    intro body hbody
    obtain hrequest | hlast := List.mem_append.mp hbody
    · exact h.request_ne_empty body hrequest
    · rw [List.mem_singleton.mp hlast]
      exact push_writeBuffer_ne_empty hline
  one := h.one
  flag := h.flag
  pending _ _ _ := push_writeBuffer_ne_empty hline

/-! ## The writer -/

/-- A single writer is the one that continues. -/
theorem Consistent.eq_singleton (h : s.Consistent) {k : ℕ} {writer : DoWrite}
    (hk : s.writers[k]? = some writer) : k = 0 ∧ s.writers = [writer] := by
  have hone := h.one
  cases hwriters : s.writers with
  | nil => simp [hwriters] at hk
  | cons first rest =>
    obtain rfl : rest = [] := by simpa [hwriters] using hone
    cases k with
    | zero => simpa [hwriters] using hk
    | succ k => simp [hwriters] at hk

/-- After a publication there is a writer. -/
theorem spawnWriter_good (h : s.Consistent) (hwhole : WholeLines s.accepted s.bodies)
    (hbuffer : s.writeBuffer ≠ "") : s.spawnWriter.Consistent ∧ s.spawnWriter.WrittenOnce := by
  unfold spawnWriter
  split
  · next hflag => exact ⟨h, hwhole, fun hnil => absurd hnil (h.flag.mp hflag)⟩
  · next hflag =>
    have hnil : s.writers = [] := by
      by_contra hne
      exact hflag (h.flag.mpr hne)
    have hbodies : bodies { s with isWriting := true, writers := s.writers ++ [.spawned] } =
        s.bodies := by
      simp [bodies, requests]
    refine ⟨⟨?_, by simp [hnil], by simp, fun _ _ _ => hbuffer⟩, ?_, by simp⟩
    · rw [hbodies]
      exact h.nonempty
    · rw [hbodies]
      exact hwhole

/-- A writer that has no request yet moves the buffer into one. -/
theorem startWrite_good (h : s.Consistent) (hgood : s.WrittenOnce) {writer : DoWrite}
    (hwriters : s.writers = [writer]) (hbody : writer.body = none) :
    (s.startWrite 0).Consistent ∧ (s.startWrite 0).WrittenOnce := by
  have hbuffer : s.writeBuffer ≠ "" := h.pending writer (by simp [hwriters]) hbody
  have hbodies : (s.startWrite 0).bodies = s.bodies := by
    simp [bodies, requests, startWrite, hwriters, hbody, hbuffer]
  refine ⟨⟨?_, by simp [startWrite, hwriters], ?_, ?_⟩, ?_, fun _ => rfl⟩
  · rw [hbodies]
    exact h.nonempty
  · simpa [startWrite, hwriters] using h.flag
  · simp [startWrite, hwriters]
  · rw [hbodies]
    exact hgood.whole

/-- A writer that is entered waits for the connection or starts to write. -/
theorem loopHead_good (h : s.Consistent) (hgood : s.WrittenOnce)
    (hwriters : s.writers = [.spawned]) :
    (s.loopHead 0).Consistent ∧ (s.loopHead 0).WrittenOnce := by
  have hbuffer : s.writeBuffer ≠ "" := h.pending .spawned (by simp [hwriters]) rfl
  have hwrite := startWrite_good h hgood hwriters rfl
  simp only [loopHead, String.isEmpty_iff, hbuffer, if_false]
  split
  · have hbodies : bodies { s with writers := s.writers.set 0 .waiting } = s.bodies := by
      simp [bodies, requests, hwriters, List.filterMap_cons]
    refine ⟨⟨?_, by simp [hwriters], ?_, ?_⟩, ?_, by simp [hwriters]⟩
    · rw [hbodies]
      exact h.nonempty
    · simpa [hwriters] using h.flag
    · intro _ _ _
      exact hbuffer
    · rw [hbodies]
      exact hgood.whole
  · exact hwrite

/-- After a write the writer ends. What the buffer held is lost, and so is
the body of a request that was not written. -/
theorem afterWrite_exact (h : s.Consistent) (hgood : s.WrittenOnce) {body : String}
    (hwriters : s.writers = [.writing body]) (failed : Bool) :
    ((s.afterWrite 0 body failed).Consistent) ∧
      ((s.afterWrite 0 body failed).WrittenOnce ↔ s.writeBuffer = "" ∧ failed = false) := by
  have hrequests : s.requests = s.written ++ [body] := by
    simp [requests, hwriters]
  have hafter : s.afterWrite 0 body failed =
      { s with
        isWriting := false
        writeBuffer := ""
        writers := []
        written := if failed then s.written else s.written ++ [body] } := by
    simp [afterWrite, loopHead, hwriters]
  have hbodies : (s.afterWrite 0 body failed).bodies =
      if failed then s.written else s.written ++ [body] := by
    simp [hafter, bodies, requests]
  have hne : ∀ body' ∈ (s.afterWrite 0 body failed).bodies, body' ≠ "" := by
    intro body' hbody'
    rw [hbodies] at hbody'
    refine h.request_ne_empty body' ?_
    rw [hrequests]
    split at hbody'
    · exact List.mem_append_left _ hbody'
    · exact hbody'
  have haccepted : (s.afterWrite 0 body failed).accepted = s.accepted := by rw [hafter]
  refine ⟨⟨hne, by simp [hafter], by simp [hafter], by simp [hafter]⟩, ?_⟩
  have hsize := hgood.whole.size_eq h.nonempty
  constructor
  · intro hgood'
    -- Sizes: nothing may be lost.
    have hsize' := hgood'.whole.size_eq hne
    rw [haccepted, ← hsize, hbodies] at hsize'
    by_cases hbuffer : s.writeBuffer = ""
    · refine ⟨hbuffer, ?_⟩
      rw [bodies_of_empty hbuffer, hrequests] at hsize'
      cases failed with
      | false => rfl
      | true => simp at hsize'
    · rw [bodies_of_nonempty hbuffer, hrequests] at hsize'
      cases failed with
      | false => simp at hsize'
      | true => simp at hsize'
  · rintro ⟨hbuffer, rfl⟩
    refine ⟨?_, fun _ => by rw [hafter]⟩
    have hwhole := hgood.whole
    rw [bodies_of_empty hbuffer, hrequests] at hwhole
    rw [hbodies, haccepted]
    simpa using hwhole

/-! ## Publications -/

/-- Nothing but lines is pushed, and at the first measurement without fields
the rest is not looked at. -/
theorem pushMeasurements_good (now : Timestamp) (measurements : List (InfluxMeasurement δ))
    (h : s.Consistent) (hwhole : WholeLines s.accepted s.bodies) :
    let s' := (pushMeasurements text now s measurements).1
    s'.Consistent ∧ WholeLines s'.accepted s'.bodies ∧ s'.writers = s.writers := by
  induction measurements generalizing s with
  | nil => exact ⟨h, hwhole, rfl⟩
  | cons measurement measurements ih =>
    have hline := encodeMeasurement_ne_empty text measurement now
    unfold pushMeasurements
    split
    · exact ⟨h, hwhole, rfl⟩
    · exact ih (h.push hline) (wholeLines_push hwhole hline)

theorem pushMeasurements_throws (s : StatisticsPublisher) (now : Timestamp)
    (measurements : List (InfluxMeasurement δ)) :
    (pushMeasurements text now s measurements).2 = none ↔
      ∀ measurement ∈ measurements, measurement.fields ≠ [] := by
  induction measurements generalizing s with
  | nil => simp [pushMeasurements]
  | cons measurement measurements ih =>
    by_cases hfields : measurement.fields = []
    · simp [pushMeasurements, hfields]
    · simp [pushMeasurements, hfields, ih]

/-- The buffer is empty afterwards only if nothing was pushed. -/
theorem pushMeasurements_writeBuffer (s : StatisticsPublisher) (now : Timestamp)
    (measurements : List (InfluxMeasurement δ)) :
    (pushMeasurements text now s measurements).1.writeBuffer = "" ↔
      s.writeBuffer = "" ∧ ∀ measurement ∈ measurements.head?, measurement.fields = [] := by
  induction measurements generalizing s with
  | nil => simp [pushMeasurements]
  | cons measurement measurements ih =>
    by_cases hfields : measurement.fields = []
    · simp [pushMeasurements, hfields]
    · have hline := encodeMeasurement_ne_empty text measurement now
      simp [pushMeasurements, hfields, ih, push_writeBuffer_ne_empty hline]

theorem doPublishStatistic_good (h : s.Consistent) (hgood : s.WrittenOnce)
    (measurement : InfluxMeasurement δ) (now : Timestamp) :
    (s.doPublishStatistic text measurement now).1.Consistent ∧
      (s.doPublishStatistic text measurement now).1.WrittenOnce := by
  have hline := encodeMeasurement_ne_empty text measurement now
  unfold doPublishStatistic
  split
  · exact ⟨h, hgood⟩
  · exact spawnWriter_good (h.push hline) (wholeLines_push hgood.whole hline)
      (push_writeBuffer_ne_empty hline)

/-- A batch that throws leaves what it has pushed to a writer at work. -/
theorem doPublishStatistics_exact (h : s.Consistent) (hgood : s.WrittenOnce)
    (measurements : List (InfluxMeasurement δ)) (now : Timestamp) :
    (s.doPublishStatistics text measurements now).1.Consistent ∧
      ((s.doPublishStatistics text measurements now).1.WrittenOnce ↔
        s.StepOk (.publishStatistics measurements now)) := by
  obtain ⟨h', hwhole', hwriters⟩ :=
    pushMeasurements_good text now measurements h hgood.whole
  have hthrows := pushMeasurements_throws text s now measurements
  have hbuffer := pushMeasurements_writeBuffer text s now measurements
  unfold doPublishStatistics
  split
  · next hempty =>
    obtain rfl : measurements = [] := List.isEmpty_iff.mp hempty
    exact ⟨h, iff_of_true hgood (.inr (.inl (by simp)))⟩
  · next hne =>
    split
    · next s' hpush =>
      rw [hpush] at h' hwhole' hthrows hbuffer
      have hall := hthrows.mp rfl
      have hpushed : s'.writeBuffer ≠ "" := by
        intro hnil
        obtain ⟨measurement, rest, rfl⟩ := List.exists_cons_of_ne_nil (by simpa using hne)
        exact hall measurement List.mem_cons_self ((hbuffer.mp hnil).2 measurement rfl)
      obtain ⟨hconsistent, hgood'⟩ := spawnWriter_good h' hwhole' hpushed
      exact ⟨hconsistent, iff_of_true hgood' (.inr (.inl hall))⟩
    · next s' error hpush =>
      rw [hpush] at h' hwhole' hthrows hbuffer hwriters
      have hnot : ¬ ∀ measurement ∈ measurements, measurement.fields ≠ [] := fun hall => by
        simpa using hthrows.mpr hall
      refine ⟨h', ?_⟩
      constructor
      · intro hgood'
        by_cases hnil : s.writers = []
        · exact .inr (.inr (hbuffer.mp (hgood'.idle (hwriters.trans hnil))).2)
        · exact .inl hnil
      · intro hok
        refine ⟨hwhole', fun hnil => hbuffer.mpr ?_⟩
        have hnil' : s.writers = [] := hwriters.symm.trans hnil
        exact ⟨hgood.idle hnil', (hok.resolve_left (not_not_intro hnil')).resolve_left hnot⟩

/-! ## Runs -/

variable {text}

/-- What a step leads to from a state where all is written once. -/
theorem step_exact {label : Label δ} (h : s.Consistent) (hgood : s.WrittenOnce)
    (hstep : step text s label = some s') :
    (s.StepOk label → s'.Consistent) ∧
      (s'.WrittenOnce ↔ s.StepOk label ∧ label.Succeeds) := by
  cases label with
  | publishStatistic measurement now =>
    cases hstep
    obtain ⟨h', hgood'⟩ := doPublishStatistic_good text h hgood (s.tagInstance measurement) now
    exact ⟨fun _ => h', iff_of_true hgood' ⟨trivial, trivial⟩⟩
  | publishStatistics measurements now =>
    cases hstep
    obtain ⟨h', hexact⟩ :=
      doPublishStatistics_exact text h hgood (measurements.map s.tagInstance) now
    refine ⟨fun _ => h', hexact.trans ?_⟩
    simp [StepOk, Label.Succeeds, tagInstance]
  | start k =>
    simp only [step] at hstep
    split at hstep
    · next hk =>
      cases hstep
      obtain ⟨rfl, hwriters⟩ := h.eq_singleton hk
      obtain ⟨h', hgood'⟩ := loopHead_good h hgood hwriters
      exact ⟨fun _ => h', iff_of_true hgood' ⟨trivial, trivial⟩⟩
    · cases hstep
  | timer k result =>
    simp only [step] at hstep
    split at hstep
    · next hk =>
      cases hstep
      obtain ⟨rfl, hwriters⟩ := h.eq_singleton hk
      obtain ⟨h', hgood'⟩ := startWrite_good h hgood hwriters rfl
      cases result with
      | operationAborted => exact ⟨fun _ => h', iff_of_true hgood' ⟨trivial, trivial⟩⟩
      | timedOut => exact ⟨fun _ => h', iff_of_true hgood' ⟨trivial, trivial⟩⟩
      | failed =>
        refine ⟨False.elim, iff_of_false (fun hgood' => ?_) fun hok => hok.1⟩
        exact h.pending .waiting (by simp [hwriters]) rfl
          (hgood'.idle (by simp [afterTimer, hwriters]))
    · cases hstep
  | wrote k failed =>
    simp only [step] at hstep
    split at hstep
    · next body hk =>
      cases hstep
      obtain ⟨rfl, hwriters⟩ := h.eq_singleton hk
      obtain ⟨h', hexact⟩ := afterWrite_exact h hgood hwriters failed
      exact ⟨fun _ => h', hexact⟩
    · cases hstep
  | startReconnect =>
    cases hstep
    exact ⟨fun _ => ⟨h.nonempty, h.one, h.flag, h.pending⟩,
      iff_of_true ⟨hgood.whole, hgood.idle⟩ ⟨trivial, trivial⟩⟩
  | connected =>
    cases hstep
    exact ⟨fun _ => ⟨h.nonempty, h.one, h.flag, h.pending⟩,
      iff_of_true ⟨hgood.whole, hgood.idle⟩ ⟨trivial, trivial⟩⟩

/-- **Written once.** Over all interleavings in which no write fails, the
accepted lines are written once, in order and none cut, in every state of a
run exactly when every step of the run is `StepOk`. -/
theorem writtenOnce_iff {instanceId : String} {labels : List (Label δ)}
    (hwrites : ∀ label ∈ labels, label.Succeeds)
    (hrun : run (step text) (init instanceId) labels = some t) :
    (∀ k u, run (step text) (init instanceId) (labels.take k) = some u → u.WrittenOnce) ↔
      Along (step text) StepOk (init instanceId) labels := by
  rw [← along_and_iff hwrites]
  refine along_iff_prefixes
    (fun u label u' (h : u.Consistent) hgood hok hstep => (step_exact h hgood hstep).1 hok.1)
    (fun _ _ _ h hgood hstep => (step_exact h hgood hstep).2) ?_ ?_ hrun
  · exact ⟨by simp [init, bodies, requests], by simp [init], by simp [init], by simp [init]⟩
  · exact ⟨wholeLines_nil, fun _ => rfl⟩

/-- Texts of numbers; the measurements below have none. -/
def decimalText : NumberText ℕ := ⟨toString, fun x => toString x.floor⟩

def upMeasurement (measurementName : String) : InfluxMeasurement ℕ :=
  ⟨measurementName, [], [("up", .bool true)]⟩

/-- A batch of two, and a third after it was written. -/
def betweenWrites : List (Label ℕ) :=
  [.connected, .publishStatistics [upMeasurement "a", upMeasurement "b"] 1, .start 0,
    .wrote 0 false, .publishStatistic (upMeasurement "c") 2, .start 0, .wrote 0 false]

theorem writtenOnce_iff_betweenWrites :
    ∃ t, run (step decimalText) (init "7") betweenWrites = some t ∧
      t.written = ["a,instance_id=7 up=true 1\nb,instance_id=7 up=true 1",
        "c,instance_id=7 up=true 2"] ∧
      ∀ k u, run (step decimalText) (init "7") (betweenWrites.take k) = some u →
        u.WrittenOnce := by
  have hwritten : (run (step decimalText) (init "7") betweenWrites).map written =
      some ["a,instance_id=7 up=true 1\nb,instance_id=7 up=true 1",
        "c,instance_id=7 up=true 2"] := by decide +kernel
  obtain ⟨t, ht, hwritten⟩ := Option.map_eq_some_iff.mp hwritten
  exact ⟨t, ht, hwritten, (writtenOnce_iff (by decide +kernel) ht).mpr (by decide +kernel)⟩

/-- The second is published while the first is being written. -/
def duringWrite : List (Label ℕ) :=
  [.connected, .publishStatistic (upMeasurement "a") 1, .start 0,
    .publishStatistic (upMeasurement "b") 2, .wrote 0 false]

/-- It is not written, and nothing is left to write it. -/
theorem writtenOnce_fails :
    ∃ t, run (step decimalText) (init "7") duringWrite = some t ∧
      t.accepted = ["a,instance_id=7 up=true 1", "b,instance_id=7 up=true 2"] ∧
      t.written = ["a,instance_id=7 up=true 1"] ∧ t.writers = [] ∧ t.writeBuffer = "" ∧
      ¬ t.WrittenOnce := by
  have hrun : run (step decimalText) (init "7") duringWrite = some
      ⟨"7", false, false, "", [], ["a,instance_id=7 up=true 1"],
        ["a,instance_id=7 up=true 1", "b,instance_id=7 up=true 2"]⟩ := by decide +kernel
  refine ⟨_, hrun, rfl, rfl, rfl, rfl, fun hgood => ?_⟩
  have hsize := hgood.whole.size_eq (by decide +kernel)
  exact absurd hsize (by decide +kernel)

end StatisticsPublisher

end Synthfi.Statistics
