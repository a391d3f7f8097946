/-
Synthfi.Statistics.PublishTheorems — when a batch is published as a whole.

The check of a measurement stands in the loop that pushes, so what a batch
leaves in the buffer are the lines before its first measurement without
fields (`pushMeasurements_eq`). `allOrNothing_iff` finds the batches of which
all is published or nothing: those without such a measurement, and those that
begin with one.
-/
import Mathlib.Data.List.TakeWhile
import Synthfi.Statistics.StatisticsPublisherTheorems

namespace Synthfi.Statistics.StatisticsPublisher

open Trading (Timestamp)

variable {δ : Type} (text : NumberText δ)

/-- What stands in the buffer before the lines to come. -/
def pendingLines (s : StatisticsPublisher) : List String :=
  if s.writeBuffer = "" then [] else [s.writeBuffer]

def batchLines (measurements : List (InfluxMeasurement δ)) (now : Timestamp) : List String :=
  measurements.map fun measurement => encodeMeasurement text measurement now

/-- A call that throws changes neither the buffer nor the flag and spawns no
writer; after any other the buffer has gained the lines of all measurements. -/
structure AllOrNothing (s : StatisticsPublisher) (measurements : List (InfluxMeasurement δ))
    (now : Timestamp) : Prop where
  nothing : (s.doPublishStatistics text measurements now).2 ≠ none →
    (s.doPublishStatistics text measurements now).1.writeBuffer = s.writeBuffer ∧
      (s.doPublishStatistics text measurements now).1.isWriting = s.isWriting ∧
      (s.doPublishStatistics text measurements now).1.writers = s.writers
  all : (s.doPublishStatistics text measurements now).2 = none →
    (s.doPublishStatistics text measurements now).1.writeBuffer =
      "\n".intercalate (s.pendingLines ++ batchLines text measurements now)

/-! ## Lines that are pushed -/

def pushLines (s : StatisticsPublisher) (lines : List String) : StatisticsPublisher :=
  lines.foldl push s

@[simp] theorem pushLines_nil (s : StatisticsPublisher) : s.pushLines [] = s := rfl

@[simp] theorem pushLines_cons (s : StatisticsPublisher) (line : String) (lines : List String) :
    s.pushLines (line :: lines) = (s.push line).pushLines lines := rfl

@[simp] theorem pushLines_isWriting (s : StatisticsPublisher) (lines : List String) :
    (s.pushLines lines).isWriting = s.isWriting := by
  induction lines generalizing s with
  | nil => rfl
  | cons line lines ih => simp [ih, push]

@[simp] theorem pushLines_writers (s : StatisticsPublisher) (lines : List String) :
    (s.pushLines lines).writers = s.writers := by
  induction lines generalizing s with
  | nil => rfl
  | cons line lines ih => simp [ih, push]

@[simp] theorem spawnWriter_writeBuffer (s : StatisticsPublisher) :
    s.spawnWriter.writeBuffer = s.writeBuffer := by
  unfold spawnWriter
  split <;> rfl

theorem intercalate_pendingLines (s : StatisticsPublisher) :
    "\n".intercalate s.pendingLines = s.writeBuffer := by
  unfold pendingLines
  split
  · next hempty => simp [hempty]
  · simp

/-- The buffer after a push, as one line more or as one text. -/
theorem intercalate_push {line : String} (hline : line ≠ "") (s : StatisticsPublisher)
    (lines : List String) :
    "\n".intercalate ((s.push line).pendingLines ++ lines) =
      "\n".intercalate (s.pendingLines ++ line :: lines) := by
  have hne := push_writeBuffer_ne_empty (s := s) hline
  rw [pendingLines, if_neg hne, pendingLines]
  by_cases hempty : s.writeBuffer = ""
  · simp [push, hempty]
  · cases lines with
    | nil => simp [push, hempty, String.intercalate_cons_of_ne_nil, String.append_assoc]
    | cons next lines =>
      simp [push, hempty, String.intercalate_cons_of_ne_nil, String.append_assoc]

/-- The buffer holds what stood in it and the lines, separated by newlines. -/
theorem pushLines_writeBuffer {lines : List String} (hlines : ∀ line ∈ lines, line ≠ "")
    (s : StatisticsPublisher) :
    (s.pushLines lines).writeBuffer = "\n".intercalate (s.pendingLines ++ lines) := by
  induction lines generalizing s with
  | nil => rw [pushLines_nil, List.append_nil, intercalate_pendingLines]
  | cons line lines ih =>
    obtain ⟨hline, hrest⟩ := List.forall_mem_cons.mp hlines
    rw [pushLines_cons, ih hrest, intercalate_push hline]

/-- The buffer grows with every line. -/
theorem length_lt_push {line : String} (hline : line ≠ "") (s : StatisticsPublisher) :
    s.writeBuffer.length < (s.push line).writeBuffer.length := by
  have hpos : 0 < line.length := Nat.pos_of_ne_zero (mt String.length_eq_zero_iff.mp hline)
  by_cases hempty : s.writeBuffer = ""
  · simpa [push, hempty] using hpos
  · simp [push, hempty, hpos]

theorem length_le_pushLines {lines : List String} (hlines : ∀ line ∈ lines, line ≠ "")
    (s : StatisticsPublisher) :
    s.writeBuffer.length ≤ (s.pushLines lines).writeBuffer.length := by
  induction lines generalizing s with
  | nil => exact le_rfl
  | cons line lines ih =>
    obtain ⟨hline, hrest⟩ := List.forall_mem_cons.mp hlines
    exact (length_lt_push hline s).le.trans (ih hrest (s.push line))

theorem pushLines_writeBuffer_eq_iff {lines : List String} (hlines : ∀ line ∈ lines, line ≠ "")
    (s : StatisticsPublisher) :
    (s.pushLines lines).writeBuffer = s.writeBuffer ↔ lines = [] := by
  constructor
  · intro hsame
    cases lines with
    | nil => rfl
    | cons line lines =>
      obtain ⟨hline, hrest⟩ := List.forall_mem_cons.mp hlines
      have hlt := length_lt_push hline s
      have hle := length_le_pushLines hrest (s.push line)
      rw [← pushLines_cons, hsame] at hle
      omega
  · rintro rfl
    rfl

/-! ## Batches -/

/-- The measurements before the first one without fields. -/
def checked (measurements : List (InfluxMeasurement δ)) : List (InfluxMeasurement δ) :=
  measurements.takeWhile fun measurement => !measurement.fields.isEmpty

theorem batchLines_ne_empty (measurements : List (InfluxMeasurement δ)) (now : Timestamp) :
    ∀ line ∈ batchLines text measurements now, line ≠ "" := by
  intro line hline
  obtain ⟨measurement, -, rfl⟩ := List.mem_map.mp hline
  exact encodeMeasurement_ne_empty text measurement now

theorem checked_eq_self_iff (measurements : List (InfluxMeasurement δ)) :
    checked measurements = measurements ↔
      ∀ measurement ∈ measurements, measurement.fields ≠ [] := by
  simp [checked, List.takeWhile_eq_self_iff]

theorem checked_eq_nil_iff (measurements : List (InfluxMeasurement δ)) :
    checked measurements = [] ↔ ∀ measurement ∈ measurements.head?, measurement.fields = [] := by
  cases measurements with
  | nil => simp [checked]
  | cons measurement measurements =>
    by_cases hfields : measurement.fields = []
    · simp [checked, hfields]
    · simp [checked, hfields]

/-- The loop pushes the lines up to the first measurement without fields. -/
theorem pushMeasurements_eq (s : StatisticsPublisher) (now : Timestamp)
    (measurements : List (InfluxMeasurement δ)) :
    (pushMeasurements text now s measurements).1 =
      s.pushLines (batchLines text (checked measurements) now) := by
  induction measurements generalizing s with
  | nil => rfl
  | cons measurement measurements ih =>
    by_cases hfields : measurement.fields = []
    · simp [pushMeasurements, checked, batchLines, hfields]
    · simpa [pushMeasurements, checked, batchLines, hfields] using
        ih (s.push (encodeMeasurement text measurement now))

/-- A call leaves what the loop leaves when that throws, and a writer besides
when it does not. -/
theorem doPublishStatistics_cases (s : StatisticsPublisher) (now : Timestamp)
    (measurements : List (InfluxMeasurement δ)) :
    (pushMeasurements text now s measurements).2 ≠ none ∧
        s.doPublishStatistics text measurements now = pushMeasurements text now s measurements ∨
      (pushMeasurements text now s measurements).2 = none ∧
        (s.doPublishStatistics text measurements now).2 = none ∧
        (s.doPublishStatistics text measurements now).1.writeBuffer =
          (pushMeasurements text now s measurements).1.writeBuffer := by
  cases measurements with
  | nil => exact .inr ⟨rfl, rfl, rfl⟩
  | cons measurement measurements =>
    simp only [doPublishStatistics, List.isEmpty_cons, Bool.false_eq_true, if_false]
    rcases pushMeasurements text now s (measurement :: measurements) with ⟨s', _ | error⟩
    · exact .inr ⟨rfl, rfl, spawnWriter_writeBuffer s'⟩
    · exact .inl ⟨Option.some_ne_none error, rfl⟩

theorem doPublishStatistics_throws (s : StatisticsPublisher) (now : Timestamp)
    (measurements : List (InfluxMeasurement δ)) :
    (s.doPublishStatistics text measurements now).2 = none ↔
      ∀ measurement ∈ measurements, measurement.fields ≠ [] := by
  rw [← pushMeasurements_throws text s now measurements]
  obtain ⟨_, heq⟩ | ⟨hloop, hnone, -⟩ := doPublishStatistics_cases text s now measurements
  · rw [heq]
  · exact iff_of_true hnone hloop

/-- A batch that throws leaves the lines it has pushed, and no writer. -/
theorem doPublishStatistics_of_throws {s : StatisticsPublisher} {now : Timestamp}
    {measurements : List (InfluxMeasurement δ)}
    (h : (s.doPublishStatistics text measurements now).2 ≠ none) :
    (s.doPublishStatistics text measurements now).1 =
      s.pushLines (batchLines text (checked measurements) now) := by
  obtain ⟨_, heq⟩ | ⟨_, hnone, -⟩ := doPublishStatistics_cases text s now measurements
  · rw [heq, pushMeasurements_eq]
  · exact absurd hnone h

/-- A batch that does not throw leaves all its lines in the buffer. -/
theorem writeBuffer_doPublishStatistics {s : StatisticsPublisher} {now : Timestamp}
    {measurements : List (InfluxMeasurement δ)}
    (h : (s.doPublishStatistics text measurements now).2 = none) :
    (s.doPublishStatistics text measurements now).1.writeBuffer =
      "\n".intercalate (s.pendingLines ++ batchLines text measurements now) := by
  have hchecked := (checked_eq_self_iff measurements).mpr
    ((doPublishStatistics_throws text s now measurements).mp h)
  obtain ⟨hthrows, heq⟩ | ⟨_, _, hbuffer⟩ := doPublishStatistics_cases text s now measurements
  · exact absurd (heq ▸ h) hthrows
  · rw [hbuffer, pushMeasurements_eq, hchecked,
      pushLines_writeBuffer (batchLines_ne_empty text measurements now)]

/-- **All or nothing.** A batch throws exactly if one of its measurements has
no field, and it is published as a whole or not at all exactly if none is
without a field or the first is. -/
theorem allOrNothing_iff (s : StatisticsPublisher) (measurements : List (InfluxMeasurement δ))
    (now : Timestamp) :
    ((s.doPublishStatistics text measurements now).2 = none ↔
      ∀ measurement ∈ measurements, measurement.fields ≠ []) ∧
    (s.AllOrNothing text measurements now ↔
      (∀ measurement ∈ measurements, measurement.fields ≠ []) ∨
        ∀ measurement ∈ measurements.head?, measurement.fields = []) := by
  have hthrows := doPublishStatistics_throws text s now measurements
  refine ⟨hthrows, ?_⟩
  by_cases hall : ∀ measurement ∈ measurements, measurement.fields ≠ []
  · have hnone := hthrows.mpr hall
    refine iff_of_true ⟨fun h => absurd hnone h, fun h => ?_⟩ (.inl hall)
    exact writeBuffer_doPublishStatistics text h
  · have hthrown := mt hthrows.mp hall
    have hstate := doPublishStatistics_of_throws text hthrown
    have hbuffer := pushLines_writeBuffer_eq_iff
      (batchLines_ne_empty text (checked measurements) now) s
    rw [batchLines, List.map_eq_nil_iff, checked_eq_nil_iff] at hbuffer
    rw [or_iff_right hall, ← hbuffer]
    constructor
    · intro h
      have hsame := (h.nothing hthrown).1
      rwa [hstate] at hsame
    · intro hsame
      refine ⟨fun _ => ?_, fun h => absurd h hthrown⟩
      rw [hstate]
      exact ⟨hsame, pushLines_isWriting s _, pushLines_writers s _⟩

/-- A batch whose second measurement has no fields. -/
def halfBatch : List (InfluxMeasurement ℕ) := [upMeasurement "a", ⟨"b", [], []⟩]

/-- The line of the first stays in the buffer, with no writer to send it. -/
theorem allOrNothing_fails :
    (doPublishStatistics decimalText (init "7") halfBatch 1).2 = some noFields ∧
      (doPublishStatistics decimalText (init "7") halfBatch 1).1.writeBuffer = "a up=true 1" ∧
      (doPublishStatistics decimalText (init "7") halfBatch 1).1.writers = [] ∧
      ¬ (init "7").AllOrNothing decimalText halfBatch 1 := by
  refine ⟨by decide +kernel, by decide +kernel, by decide +kernel, fun h => ?_⟩
  have hsame := (h.nothing (by decide +kernel)).1
  exact absurd hsame (by decide +kernel)

end Synthfi.Statistics.StatisticsPublisher
