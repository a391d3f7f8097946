/-
Synthfi.Statistics.StatisticsPublisher — publishing statistics to InfluxDB
(`Statistics/StatisticsTypes.hpp`,
`Statistics/StatisticsPublisher/StatisticsPublisherImpl.{hpp,cpp}`).

All coroutines run on one strand. The state keeps the `do_write` coroutines
that are spawned and have not returned, each at its suspension point; a label
names the one that continues and how its operation ended. Connecting and
reading are left out, except for `_isConnecting`, which the writer reads. A
string that has been moved from is empty.

`written` lists the bodies of the requests written. `accepted` is a ghost:
the lines of the measurements that passed their check, as they were appended.
-/
import Synthfi.Io.JsonHttpSocket
import Synthfi.Solana.SolanaTypes
import Synthfi.Trading.Book

namespace Synthfi.Statistics

open Trading (Quantity Timestamp)
open Io (TimerResult)

/-! ## Measurements -/

/-- `InfluxDataType`, a `double` being of any type `δ`. -/
inductive InfluxDataType (δ : Type) where
  | double (value : δ)
  | uint64 (value : UInt64)
  | int64 (value : Int64)
  | bool (value : Bool)
  | string (value : String)
  | fixedFloat (value : Quantity)

structure InfluxMeasurement (δ : Type) where
  measurementName : String
  tags : List (String × String)
  fields : List (String × InfluxDataType δ)

/-- The texts that `fmt` gives to numbers that are no integers. -/
structure NumberText (δ : Type) where
  double : δ → String
  fixedFloat : Quantity → String

variable {δ : Type} (text : NumberText δ)

/-- What the visitors print after the key. -/
def encodeValue : InfluxDataType δ → String
  | .double value => text.double value
  | .uint64 value => toString value
  | .int64 value => toString value
  | .bool value => toString value
  | .string value => "\"" ++ value ++ "\""
  | .fixedFloat value => text.fixedFloat value

def encodeField (separator : String) (field : String × InfluxDataType δ) : String :=
  separator ++ field.1 ++ "=" ++ encodeValue text field.2

/-- Required first field, optional remaining fields. (`front` of no fields is
undefined; all callers check that there is one.) -/
def encodeFields : List (String × InfluxDataType δ) → String
  | [] => ""
  | first :: fields => encodeField text " " first ++ String.join (fields.map (encodeField text ","))

/-- A measurement in line protocol. -/
def encodeMeasurement (measurement : InfluxMeasurement δ) (timeStamp : Timestamp) : String :=
  measurement.measurementName ++
    String.join (measurement.tags.map fun tag => "," ++ tag.1 ++ "=" ++ tag.2) ++
    encodeFields text measurement.fields ++ " " ++ toString timeStamp

/-! ## The publisher -/

/-- A `do_write` coroutine: not entered yet, at the wait for the reconnect
timer, or at the write of a request. -/
inductive DoWrite where
  | spawned
  | waiting
  | writing (body : String)
  deriving DecidableEq, Repr

structure StatisticsPublisher where
  instanceId : String
  isConnecting : Bool
  isWriting : Bool
  writeBuffer : String
  /-- The coroutines spawned and not returned. -/
  writers : List DoWrite
  written : List String
  accepted : List String
  deriving DecidableEq, Repr

namespace StatisticsPublisher

/-- A publisher connects as soon as it is made. -/
def init (instanceId : String) : StatisticsPublisher := ⟨instanceId, true, false, "", [], [], []⟩

variable (s : StatisticsPublisher)

/-- Push a line to the write buffer. -/
def push (line : String) : StatisticsPublisher :=
  { s with
    writeBuffer := if s.writeBuffer.isEmpty then line else s.writeBuffer ++ ("\n" ++ line)
    accepted := s.accepted ++ [line] }

def spawnWriter : StatisticsPublisher :=
  if s.isWriting then s else { s with isWriting := true, writers := s.writers ++ [.spawned] }

def noFields : SynthfiError := ⟨"Measurements must have at least one field"⟩

/-- `do_publish_statistic`: the state it leaves, and what it throws. -/
def doPublishStatistic (measurement : InfluxMeasurement δ) (now : Timestamp) :
    StatisticsPublisher × Option SynthfiError :=
  if measurement.fields.isEmpty then (s, some noFields)
  else ((s.push (encodeMeasurement text measurement now)).spawnWriter, none)

/-- The loop of `do_publish_statistics`. -/
def pushMeasurements (now : Timestamp) :
    StatisticsPublisher → List (InfluxMeasurement δ) → StatisticsPublisher × Option SynthfiError
  | s, [] => (s, none)
  | s, measurement :: measurements =>
    if measurement.fields.isEmpty then (s, some noFields)
    else pushMeasurements now (s.push (encodeMeasurement text measurement now)) measurements

def doPublishStatistics (measurements : List (InfluxMeasurement δ)) (now : Timestamp) :
    StatisticsPublisher × Option SynthfiError :=
  if measurements.isEmpty then (s, none)
  else
    match pushMeasurements text now s measurements with
    | (s, none) => (s.spawnWriter, none)
    | (s, some error) => (s, some error)

/-- `measurement.tags.emplace_back( "instance_id", _instanceId )`. -/
def tagInstance (measurement : InfluxMeasurement δ) : InfluxMeasurement δ :=
  { measurement with tags := measurement.tags ++ [("instance_id", s.instanceId)] }

/-! ## The writer -/

/-- Coroutine `k` moves the buffer into a request and writes it. -/
def startWrite (k : ℕ) : StatisticsPublisher :=
  { s with writers := s.writers.set k (.writing s.writeBuffer), writeBuffer := "" }

/-- `do_write` from the head of its loop to the next `co_await`, or its end. -/
def loopHead (k : ℕ) : StatisticsPublisher :=
  if s.writeBuffer.isEmpty then { s with isWriting := false, writers := s.writers.eraseIdx k }
  else if s.isConnecting then { s with writers := s.writers.set k .waiting }
  else s.startWrite k

/-- After the wait for the reconnect timer. A wait that timed out ends
without an error. -/
def afterTimer (k : ℕ) : TimerResult → StatisticsPublisher
  | .operationAborted => s.startWrite k
  | .timedOut => s.startWrite k
  | .failed => { s with writers := s.writers.eraseIdx k }

/-- After the write. -/
def afterWrite (k : ℕ) (body : String) (failed : Bool) : StatisticsPublisher :=
  loopHead
    { s with
      -- Reset write buffer.
      writeBuffer := ""
      written := if failed then s.written else s.written ++ [body] } k

/-! ## Steps -/

inductive Label (δ : Type) where
  | publishStatistic (measurement : InfluxMeasurement δ) (now : Timestamp)
  | publishStatistics (measurements : List (InfluxMeasurement δ)) (now : Timestamp)
  /-- A spawned `do_write` is entered. -/
  | start (k : ℕ)
  | timer (k : ℕ) (result : TimerResult)
  | wrote (k : ℕ) (failed : Bool)
  /-- `start_reconnect`. -/
  | startReconnect
  /-- `do_connect` is through. -/
  | connected

def step (s : StatisticsPublisher) : Label δ → Option StatisticsPublisher
  | .publishStatistic measurement now =>
    some (s.doPublishStatistic text (s.tagInstance measurement) now).1
  | .publishStatistics measurements now =>
    some (s.doPublishStatistics text (measurements.map s.tagInstance) now).1
  | .start k =>
    match s.writers[k]? with
    | some .spawned => some (s.loopHead k)
    | _ => none
  | .timer k result =>
    match s.writers[k]? with
    | some .waiting => some (s.afterTimer k result)
    | _ => none
  | .wrote k failed =>
    match s.writers[k]? with
    | some (.writing body) => some (s.afterWrite k body failed)
    | _ => none
  | .startReconnect => some { s with isConnecting := true }
  | .connected => some { s with isConnecting := false }

end StatisticsPublisher

end Synthfi.Statistics
