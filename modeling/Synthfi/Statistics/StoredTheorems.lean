/-
Synthfi.Statistics.StoredTheorems — what the server reads of the statistics
published.

The server reads the body of each request that was written line by line.
Writes may fail, writers may end with lines in the buffer, and lines
published during a write are lost (`StatisticsPublisherTheorems`). In every
run, all the same,

* each line read is the whole line of one measurement, and says what that
  measurement did, with the tag of the publisher's instance,
* no measurement is read twice, and they are read in the order in which they
  were published.

`Sound` is what every step keeps: what is written, on its way and in the
buffer are whole lines, of some of the measurements. A run that loses nothing
leaves all of them at the server.
-/
import Synthfi.Statistics.LineProtocolTheorems
import Synthfi.Statistics.StatisticsPublisherTheorems

namespace Synthfi.Statistics

open Run Lines
open Trading (Timestamp)
open Io (TimerResult)

variable {δ : Type} (text : NumberText δ)

/-! ## What is published and what is read -/

/-- What the server makes of the lines of the requests. -/
def readRequests (equals : Bool) (written : List String) : List (Option Point) :=
  (written.flatMap linesOf).map (parseLine equals)

/-- What a measurement says that was published at a time. -/
def pointOf (published : InfluxMeasurement δ × Timestamp) : Point :=
  ⟨published.1.measurementName, published.1.tags,
    published.1.fields.map fun field => (field.1, fieldValue text field.2), some published.2⟩

def lineOf (published : InfluxMeasurement δ × Timestamp) : String :=
  encodeMeasurement text published.1 published.2

theorem newline_notMem_of_mem {published : List (InfluxMeasurement δ × Timestamp)}
    (h : ∀ entry ∈ published, Encodable text entry.1) :
    ∀ line ∈ published.map (lineOf text), '\n' ∉ line.toList := by
  rintro line hmem hnewline
  obtain ⟨entry, hentry, rfl⟩ := List.mem_map.mp hmem
  exact (oneLine_encodeMeasurement text (h entry hentry) entry.2 _ hnewline).1 rfl

instance (measurement : InfluxMeasurement δ) : Decidable (Encodable text measurement) :=
  decidable_of_iff
    (measurement.measurementName ≠ "" ∧ OneLine measurement.measurementName.toList ∧
      (∀ tag ∈ measurement.tags, tag.1 ≠ "" ∧ tag.2 ≠ "") ∧
      (∀ tag ∈ measurement.tags, OneLine tag.1.toList ∧ OneLine tag.2.toList) ∧
      measurement.fields ≠ [] ∧ (∀ field ∈ measurement.fields, field.1 ≠ "") ∧
      ∀ field ∈ measurement.fields, OneLine field.1.toList ∧ EncodableValue text field.2)
    ⟨fun ⟨h₁, h₂, h₃, h₄, h₅, h₆, h₇⟩ => ⟨h₁, h₂, h₃, h₄, h₅, h₆, h₇⟩,
      fun ⟨h₁, h₂, h₃, h₄, h₅, h₆, h₇⟩ => ⟨h₁, h₂, h₃, h₄, h₅, h₆, h₇⟩⟩

instance (equals : Bool) (measurement : InfluxMeasurement δ) :
    Decidable (Plain text equals measurement) :=
  decidable_of_iff
    (PlainWord (endsName equals) measurement.measurementName ∧
      (∀ tag ∈ measurement.tags, PlainWord separates tag.1 ∧ PlainWord separates tag.2) ∧
      ∀ field ∈ measurement.fields,
        PlainWord separates field.1 ∧ PlainValue (fieldValue text field.2))
    ⟨fun ⟨h₁, h₂, h₃⟩ => ⟨h₁, h₂, h₃⟩, fun ⟨h₁, h₂, h₃⟩ => ⟨h₁, h₂, h₃⟩⟩

namespace StatisticsPublisher

variable {s s' t : StatisticsPublisher}

/-- The measurements of a call. -/
def Label.measurements : Label δ → List (InfluxMeasurement δ)
  | .publishStatistic measurement _ => [measurement]
  | .publishStatistics measurements _ => measurements
  | _ => []

/-- The measurements that a call gets through, with the tag of the instance:
those in front of the first that has no fields. -/
def Label.published (instanceId : String) : Label δ → List (InfluxMeasurement δ × Timestamp)
  | .publishStatistic measurement now =>
    if measurement.fields.isEmpty then [] else [((init instanceId).tagInstance measurement, now)]
  | .publishStatistics measurements now =>
    (measurements.takeWhile fun measurement => !measurement.fields.isEmpty).map
      fun measurement => ((init instanceId).tagInstance measurement, now)
  | _ => []

/-! ## Every line accepted -/

@[simp] theorem accepted_spawnWriter : s.spawnWriter.accepted = s.accepted := by
  unfold spawnWriter
  split <;> rfl

@[simp] theorem instanceId_spawnWriter : s.spawnWriter.instanceId = s.instanceId := by
  unfold spawnWriter
  split <;> rfl

theorem pushMeasurements_accepted (now : Timestamp) (measurements : List (InfluxMeasurement δ))
    (s : StatisticsPublisher) :
    (pushMeasurements text now s measurements).1.accepted =
        s.accepted ++ (measurements.takeWhile fun measurement => !measurement.fields.isEmpty).map
          (encodeMeasurement text · now) ∧
      (pushMeasurements text now s measurements).1.instanceId = s.instanceId := by
  induction measurements generalizing s with
  | nil => simp [pushMeasurements]
  | cons measurement measurements ih =>
    unfold pushMeasurements
    split
    · next hempty => simp [hempty]
    · next hfields =>
      obtain ⟨haccepted, hinstance⟩ := ih (s.push (encodeMeasurement text measurement now))
      refine ⟨?_, hinstance⟩
      rw [haccepted]
      simp [push, hfields]

@[simp] theorem loopHead_accepted (k : ℕ) :
    (s.loopHead k).accepted = s.accepted ∧ (s.loopHead k).instanceId = s.instanceId := by
  unfold loopHead
  split
  · exact ⟨rfl, rfl⟩
  · split <;> exact ⟨rfl, rfl⟩

/-- A call adds the lines of the measurements it gets through. -/
theorem accepted_step {label : Label δ} (hstep : step text s label = some s') :
    s'.accepted = s.accepted ++ (label.published s.instanceId).map (lineOf text) ∧
      s'.instanceId = s.instanceId := by
  cases label with
  | publishStatistic measurement now =>
    cases hstep
    unfold doPublishStatistic
    by_cases hfields : measurement.fields = [] <;>
      simp [hfields, tagInstance, Label.published, push, lineOf, init]
  | publishStatistics measurements now =>
    cases hstep
    have hpush := pushMeasurements_accepted text now (measurements.map s.tagInstance) s
    have htakeWhile : (measurements.map s.tagInstance).takeWhile (fun m => !m.fields.isEmpty) =
        (measurements.takeWhile fun m => !m.fields.isEmpty).map s.tagInstance := by
      rw [List.takeWhile_map]
      rfl
    rw [htakeWhile, List.map_map] at hpush
    have hlines : ((Label.publishStatistics measurements now).published s.instanceId).map
        (lineOf text) = (measurements.takeWhile fun m => !m.fields.isEmpty).map
          ((encodeMeasurement text · now) ∘ s.tagInstance) := by
      rw [Label.published, List.map_map]
      rfl
    rw [hlines]
    unfold doPublishStatistics
    split
    · next hempty =>
      obtain rfl : measurements = [] := by simpa using hempty
      simp
    · split
      · next s₁ heq =>
        rw [heq] at hpush
        simpa using hpush
      · next s₁ error heq =>
        rw [heq] at hpush
        exact hpush
  | start k =>
    simp only [step] at hstep
    split at hstep
    · cases hstep
      simp [Label.published]
    · cases hstep
  | timer k result =>
    simp only [step] at hstep
    split at hstep
    · cases hstep
      cases result <;> simp [afterTimer, startWrite, Label.published]
    · cases hstep
  | wrote k failed =>
    simp only [step] at hstep
    split at hstep
    · cases hstep
      simp [afterWrite, Label.published]
    · cases hstep
  | startReconnect =>
    cases hstep
    simp [Label.published]
  | connected =>
    cases hstep
    simp [Label.published]

theorem accepted_of_run {labels : List (Label δ)} (hrun : run (step text) s labels = some t) :
    t.accepted =
      s.accepted ++ (labels.flatMap (Label.published s.instanceId)).map (lineOf text) := by
  induction labels generalizing s with
  | nil =>
    cases hrun
    simp
  | cons label labels ih =>
    obtain ⟨s', hstep, hrun⟩ := run_cons_eq_some.mp hrun
    obtain ⟨haccepted, hinstance⟩ := accepted_step text hstep
    rw [ih hrun, haccepted, hinstance]
    simp

theorem accepted_of_run_init {labels : List (Label δ)} {instanceId : String}
    (hrun : run (step text) (init instanceId) labels = some t) :
    t.accepted = (labels.flatMap (Label.published instanceId)).map (lineOf text) :=
  (accepted_of_run text hrun).trans (List.nil_append _)

/-! ## What every step keeps -/

/-- What is written, on its way and in the buffer. -/
structure Sound (s : StatisticsPublisher) : Prop where
  lines : SomeLines s.accepted s.bodies
  nonempty : ∀ body ∈ s.bodies, body ≠ ""
  one : s.writers.length ≤ 1
  flag : s.writers ≠ [] → s.isWriting = true
  /-- A writer that has no request yet has something to write. -/
  pending : ∀ writer ∈ s.writers, writer.body = none → s.writeBuffer ≠ ""

theorem sound_init (instanceId : String) : (init instanceId).Sound where
  lines := wholeLines_nil.someLines
  nonempty := by simp [init, bodies, requests]
  one := by simp [init]
  flag := by simp [init]
  pending := by simp [init]

theorem Sound.push (h : s.Sound) {line : String} (hline : line ≠ "") : (s.push line).Sound := by
  have hbuffer := push_writeBuffer_ne_empty (s := s) hline
  have hbodies := bodies_of_nonempty hbuffer
  refine ⟨?_, ?_, h.one, h.flag, fun _ _ _ => hbuffer⟩
  · have hsome := h.lines
    rw [hbodies]
    by_cases hempty : s.writeBuffer = ""
    · rw [bodies_of_empty hempty] at hsome
      simpa [StatisticsPublisher.push, requests, hempty] using hsome.snoc line
    · rw [bodies_of_nonempty hempty] at hsome
      simpa [StatisticsPublisher.push, requests, hempty] using hsome.extend hempty line
  · rw [hbodies]
    intro body hbody
    obtain hrequest | hlast := List.mem_append.mp hbody
    · exact h.nonempty body (List.mem_append_left _ hrequest)
    · rw [List.mem_singleton.mp hlast]
      exact hbuffer

/-- Nothing is pushed but lines; the requests stay as they are. -/
theorem Sound.of_bodies_sublist (h : s.Sound) (haccepted : s'.accepted = s.accepted)
    (hbodies : s'.bodies.Sublist s.bodies) (hone : s'.writers.length ≤ 1)
    (hflag : s'.writers ≠ [] → s'.isWriting = true)
    (hpending : ∀ writer ∈ s'.writers, writer.body = none → s'.writeBuffer ≠ "") : s'.Sound where
  lines := by
    rw [haccepted]
    exact h.lines.of_sublist hbodies
  nonempty body hbody := h.nonempty body (hbodies.subset hbody)
  one := hone
  flag := hflag
  pending := hpending

theorem Sound.spawnWriter (h : s.Sound) (hbuffer : s.writeBuffer ≠ "") : s.spawnWriter.Sound := by
  unfold StatisticsPublisher.spawnWriter
  split
  · exact h
  · next hflag =>
    have hnil : s.writers = [] := by
      by_contra hne
      exact hflag (h.flag hne)
    refine h.of_bodies_sublist rfl ?_ (by simp [hnil]) (fun _ => rfl) fun _ _ _ => hbuffer
    simp [bodies, requests]

theorem Sound.pushMeasurements (now : Timestamp) (measurements : List (InfluxMeasurement δ))
    (h : s.Sound) : (pushMeasurements text now s measurements).1.Sound := by
  induction measurements generalizing s with
  | nil => exact h
  | cons measurement measurements ih =>
    unfold StatisticsPublisher.pushMeasurements
    split
    · exact h
    · exact ih (h.push (encodeMeasurement_ne_empty text measurement now))

theorem Sound.eq_singleton (h : s.Sound) {k : ℕ} {writer : DoWrite}
    (hk : s.writers[k]? = some writer) : k = 0 ∧ s.writers = [writer] := by
  obtain ⟨hlt, rfl⟩ := List.getElem?_eq_some_iff.mp hk
  have hone := h.one
  obtain rfl : k = 0 := by omega
  obtain ⟨writer, hwriters⟩ := List.length_eq_one_iff.mp (show s.writers.length = 1 by omega)
  simp [hwriters]

/-- The buffer becomes the body of a request. -/
theorem Sound.startWrite (h : s.Sound) {writer : DoWrite} (hwriters : s.writers = [writer])
    (hbody : writer.body = none) : (s.startWrite 0).Sound := by
  have hbuffer : s.writeBuffer ≠ "" := h.pending writer (by simp [hwriters]) hbody
  have hbodies : (s.startWrite 0).bodies = s.bodies := by
    simp [bodies, requests, StatisticsPublisher.startWrite, hwriters, hbody, hbuffer]
  refine h.of_bodies_sublist rfl (hbodies ▸ List.Sublist.refl _) ?_ ?_ ?_
  · simp [StatisticsPublisher.startWrite, hwriters]
  · intro _
    exact h.flag (by simp [hwriters])
  · simp [StatisticsPublisher.startWrite, hwriters]

/-- A writer that ends without a write leaves the requests as they are. -/
theorem Sound.erase (h : s.Sound) {writer : DoWrite} (hwriters : s.writers = [writer])
    (hbody : writer.body = none) (isWriting : Bool) :
    Sound { s with isWriting := isWriting, writers := s.writers.eraseIdx 0 } := by
  refine h.of_bodies_sublist rfl ?_ (by simp [hwriters]) (by simp [hwriters]) (by simp [hwriters])
  simp [bodies, requests, hwriters, hbody]

theorem Sound.loopHead (h : s.Sound) (hwriters : s.writers = [.spawned]) :
    (s.loopHead 0).Sound := by
  unfold StatisticsPublisher.loopHead
  split
  · exact h.erase hwriters rfl false
  · split
    · refine h.of_bodies_sublist rfl ?_ (by simp [hwriters]) ?_ ?_
      · simp [bodies, requests, hwriters, List.filterMap_cons]
      · intro _
        exact h.flag (by simp [hwriters])
      · intro _ _ _
        exact h.pending .spawned (by simp [hwriters]) rfl
    · exact h.startWrite hwriters rfl

/-- The buffer is dropped, and with a write that failed its body. -/
theorem Sound.afterWrite (h : s.Sound) {body : String} (hwriters : s.writers = [.writing body])
    (failed : Bool) : (s.afterWrite 0 body failed).Sound := by
  have hafter : s.afterWrite 0 body failed =
      { s with
        isWriting := false
        writeBuffer := ""
        writers := []
        written := if failed then s.written else s.written ++ [body] } := by
    simp [StatisticsPublisher.afterWrite, StatisticsPublisher.loopHead, hwriters]
  rw [hafter]
  refine h.of_bodies_sublist rfl ?_ (by simp) (by simp) (by simp)
  have hrequests : (if failed then s.written else s.written ++ [body]).Sublist s.requests := by
    split
    · exact List.sublist_append_left _ _
    · simp [requests, hwriters]
  simpa [bodies, requests] using hrequests.trans (List.sublist_append_left _ _)

theorem Sound.step {label : Label δ} (h : s.Sound) (hstep : step text s label = some s') :
    s'.Sound := by
  cases label with
  | publishStatistic measurement now =>
    cases hstep
    have hline := encodeMeasurement_ne_empty text (s.tagInstance measurement) now
    unfold doPublishStatistic
    split
    · exact h
    · exact (h.push hline).spawnWriter (push_writeBuffer_ne_empty hline)
  | publishStatistics measurements now =>
    cases hstep
    have hpush := h.pushMeasurements text now (measurements.map s.tagInstance)
    have hthrows := pushMeasurements_throws text s now (measurements.map s.tagInstance)
    have hbuffer := pushMeasurements_writeBuffer text s now (measurements.map s.tagInstance)
    unfold doPublishStatistics
    split
    · exact h
    · next hne =>
      split
      · next s₁ heq =>
        rw [heq] at hpush hthrows hbuffer
        refine hpush.spawnWriter fun hempty => hne ?_
        -- A first measurement would have been pushed.
        have hfirst := (hbuffer.mp hempty).2
        have hall := hthrows.mp rfl
        cases hmap : measurements.map s.tagInstance with
        | nil => rfl
        | cons first rest =>
          rw [hmap] at hfirst hall
          exact absurd (hfirst first rfl) (hall first List.mem_cons_self)
      · next s₁ error heq =>
        rw [heq] at hpush
        exact hpush
  | start k =>
    simp only [StatisticsPublisher.step] at hstep
    split at hstep
    · next hk =>
      cases hstep
      obtain ⟨rfl, hwriters⟩ := h.eq_singleton hk
      exact h.loopHead hwriters
    · cases hstep
  | timer k result =>
    simp only [StatisticsPublisher.step] at hstep
    split at hstep
    · next hk =>
      cases hstep
      obtain ⟨rfl, hwriters⟩ := h.eq_singleton hk
      cases result with
      | operationAborted => exact h.startWrite hwriters rfl
      | timedOut => exact h.startWrite hwriters rfl
      | failed => exact h.erase hwriters rfl s.isWriting
    · cases hstep
  | wrote k failed =>
    simp only [StatisticsPublisher.step] at hstep
    split at hstep
    · next body hk =>
      cases hstep
      obtain ⟨rfl, hwriters⟩ := h.eq_singleton hk
      exact h.afterWrite hwriters failed
    · cases hstep
  | startReconnect =>
    cases hstep
    exact ⟨h.lines, h.nonempty, h.one, h.flag, h.pending⟩
  | connected =>
    cases hstep
    exact ⟨h.lines, h.nonempty, h.one, h.flag, h.pending⟩

/-! ## Runs -/

/-- The tag of the instance can be written and read back. -/
theorem readable_tagInstance {equals : Bool} (clock : ℤ) {measurement : InfluxMeasurement δ}
    (h : Encodable text measurement ∧ Plain text equals measurement) :
    Encodable text ((init (toString clock)).tagInstance measurement) ∧
      Plain text equals ((init (toString clock)).tagInstance measurement) := by
  obtain ⟨hencodable, hplain⟩ := h
  have hnumber := isNumber_toString_int clock
  have hline := oneLine_of_isNumber hnumber
  have hword : PlainWord separates (toString clock) := fun c hc =>
    (ne_of_inNumber ((isNumber_iff.mp hnumber).2 c hc)).1
  have hne : "instance_id" ≠ "" ∧ toString clock ≠ "" :=
    ⟨by decide +kernel, (isNumber_iff.mp hnumber).1⟩
  have hkey : OneLine "instance_id".toList ∧ PlainWord separates "instance_id" := by
    decide +kernel
  refine ⟨⟨hencodable.name_ne, hencodable.name, ?_, ?_, hencodable.fields_ne,
    hencodable.keys_ne, hencodable.fields⟩, ⟨hplain.name, ?_, hplain.fields⟩⟩
  · exact List.forall_mem_append.mpr ⟨hencodable.tags_ne, List.forall_mem_singleton.mpr hne⟩
  · exact List.forall_mem_append.mpr
      ⟨hencodable.tags, List.forall_mem_singleton.mpr ⟨hkey.1, hline⟩⟩
  · exact List.forall_mem_append.mpr
      ⟨hplain.tags, List.forall_mem_singleton.mpr ⟨hkey.2, hword⟩⟩

theorem readable_of_mem_published {equals : Bool} {clock : ℤ} {label : Label δ}
    (h : ∀ measurement ∈ label.measurements, measurement.fields ≠ [] →
      Encodable text measurement ∧ Plain text equals measurement)
    {published : InfluxMeasurement δ × Timestamp}
    (hmem : published ∈ label.published (toString clock)) :
    Encodable text published.1 ∧ Plain text equals published.1 := by
  cases label with
  | publishStatistic measurement now =>
    simp only [Label.published] at hmem
    split at hmem
    · cases hmem
    · next hfields =>
      rw [List.mem_singleton.mp hmem]
      exact readable_tagInstance text clock
        (h measurement List.mem_cons_self (by simpa using hfields))
  | publishStatistics measurements now =>
    obtain ⟨measurement, htaken, rfl⟩ := List.mem_map.mp hmem
    refine readable_tagInstance text clock
      (h measurement ((List.takeWhile_sublist _).subset htaken) ?_)
    simpa using List.mem_takeWhile_imp htaken
  | start k => cases hmem
  | timer k result => cases hmem
  | wrote k failed => cases hmem
  | startReconnect => cases hmem
  | connected => cases hmem

/-- The lines that are read are those of some of the measurements published. -/
theorem sublist_of_run {labels : List (Label δ)} {instanceId : String}
    (hlines : ∀ published ∈ labels.flatMap (Label.published instanceId),
      Encodable text published.1)
    (hrun : run (step text) (init instanceId) labels = some t) :
    (t.written.flatMap linesOf).Sublist
      ((labels.flatMap (Label.published instanceId)).map (lineOf text)) := by
  have hsound : t.Sound := invariant_run (fun _ _ _ h hstep => Sound.step text h hstep)
    (sound_init instanceId) hrun
  have hwritten : t.written.Sublist t.bodies :=
    (List.sublist_append_left _ _).trans (List.sublist_append_left _ _)
  have hsome := hsound.lines.of_sublist hwritten
  rw [accepted_of_run_init text hrun] at hsome
  exact hsome.flatMap_linesOf (fun body hbody => hsound.nonempty body (hwritten.subset hbody))
    (newline_notMem_of_mem text hlines)

/-- Where no step loses a line, those that are read are all of them. -/
theorem length_of_run {labels : List (Label δ)} {instanceId : String}
    (hlines : ∀ published ∈ labels.flatMap (Label.published instanceId),
      Encodable text published.1)
    (hok : Along (step text) (fun s label => s.StepOk label ∧ label.Succeeds) (init instanceId)
      labels)
    (hrun : run (step text) (init instanceId) labels = some t) (hidle : t.writers = []) :
    (t.written.flatMap linesOf).length =
      (labels.flatMap (Label.published instanceId)).length := by
  have hinit : (init instanceId).Consistent ∧ (init instanceId).WrittenOnce :=
    ⟨⟨by simp [init, bodies, requests], by simp [init], by simp [init], by simp [init]⟩,
      wholeLines_nil, fun _ => rfl⟩
  obtain ⟨hconsistent, honce⟩ := invariant_along
    (fun u label u' (h : u.Consistent ∧ u.WrittenOnce) hok hstep =>
      have hexact := step_exact h.1 h.2 hstep
      ⟨hexact.1 hok.1, hexact.2.mpr hok⟩) hinit hok hrun
  have hbodies : t.bodies = t.written := by
    rw [bodies_of_empty (honce.idle hidle), requests, hidle]
    simp
  have hwhole := honce.whole
  have hnonempty := hconsistent.nonempty
  rw [hbodies] at hwhole hnonempty
  rw [accepted_of_run_init text hrun] at hwhole
  rw [hwhole.flatMap_linesOf hnonempty (newline_notMem_of_mem text hlines), List.length_map]

/-- **Stored statistics.** In every run the server can read each line it gets,
and what it reads are points of measurements that were published, each at most
once and in order. Where no step loses one and no writer is at work, it has
read all of them. -/
theorem stored_of_run (equals : Bool) (clock : ℤ) {labels : List (Label δ)}
    (hmeasurements : ∀ label ∈ labels, ∀ measurement ∈ label.measurements,
      measurement.fields ≠ [] → Encodable text measurement ∧ Plain text equals measurement)
    (hrun : run (step text) (init (toString clock)) labels = some t) :
    ∃ points : List Point, readRequests equals t.written = points.map some ∧
      points.Sublist
        ((labels.flatMap (Label.published (toString clock))).map (pointOf text)) ∧
      (Along (step text) (fun s label => s.StepOk label ∧ label.Succeeds)
          (init (toString clock)) labels → t.writers = [] →
        points = (labels.flatMap (Label.published (toString clock))).map (pointOf text)) := by
  have hreadable : ∀ published ∈ labels.flatMap (Label.published (toString clock)),
      Encodable text published.1 ∧ Plain text equals published.1 := by
    intro published hmem
    obtain ⟨label, hlabel, hmem⟩ := List.mem_flatMap.mp hmem
    exact readable_of_mem_published text (hmeasurements label hlabel) hmem
  obtain ⟨kept, hkept, hread⟩ := List.sublist_map_iff.mp
    (sublist_of_run text (fun published hmem => (hreadable published hmem).1) hrun)
  refine ⟨kept.map (pointOf text), ?_, hkept.map _, fun hok hidle => ?_⟩
  · rw [readRequests, hread, List.map_map, List.map_map]
    refine List.map_congr_left fun published hmem => ?_
    obtain ⟨hencodable, hplain⟩ := hreadable published (hkept.subset hmem)
    exact parseLine_encodeMeasurement text hencodable hplain published.2
  · have hlength := length_of_run text (fun published hmem => (hreadable published hmem).1)
      hok hrun hidle
    rw [hread, List.length_map] at hlength
    rw [hkept.eq_of_length hlength]

/-- A write fails, and later one is lost that is published during a write. -/
def lossy : List (Label ℕ) :=
  [.connected, .publishStatistic (upMeasurement "a") 1, .start 0, .wrote 0 true,
    .publishStatistics [upMeasurement "b", upMeasurement "c"] 2, .start 0,
    .publishStatistic (upMeasurement "d") 3, .wrote 0 false,
    .publishStatistic (upMeasurement "e") 4, .start 0, .wrote 0 false]

def upPoint (measurementName : String) (timeStamp : Timestamp) : Point :=
  ⟨measurementName, [("instance_id", "7")], [("up", .boolean true)], some timeStamp⟩

theorem stored_of_run_lossy :
    ∃ t points, run (step decimalText) (init (toString (7 : ℤ))) lossy = some t ∧
      readRequests false t.written = points.map some ∧
      points = [upPoint "b" 2, upPoint "c" 2, upPoint "e" 4] ∧
      points.Sublist
        ((lossy.flatMap (Label.published (toString (7 : ℤ)))).map (pointOf decimalText)) := by
  have hread : (run (step decimalText) (init (toString (7 : ℤ))) lossy).map
      (fun t => readRequests false t.written) =
        some ([upPoint "b" 2, upPoint "c" 2, upPoint "e" 4].map some) := by decide +kernel
  obtain ⟨t, ht, hread⟩ := Option.map_eq_some_iff.mp hread
  have hmeasurements : ∀ label ∈ lossy, ∀ measurement ∈ label.measurements,
      measurement.fields ≠ [] →
        Encodable decimalText measurement ∧ Plain decimalText false measurement := by
    decide +kernel
  obtain ⟨points, hpoints, hsublist, -⟩ := stored_of_run decimalText false 7 hmeasurements ht
  have hinj := List.map_injective_iff.mpr (Option.some_injective Point)
  obtain rfl := hinj (hpoints.symm.trans hread)
  exact ⟨t, _, ht, hpoints, rfl, hsublist⟩

end StatisticsPublisher

end Synthfi.Statistics
