/-
Synthfi.Io.JsonHttpSocket — the writer of the HTTP socket
(`Io/JsonHttpSocket/JsonHttpSocket.cpp`).

All coroutines of a socket run on one strand, so what runs between two
`co_await`s is one step, and which coroutine continues next is open. The
state keeps the suspended `do_write` coroutines, each at its suspension
point; a label names the one that continues and how its operation ended.
Connecting and reading are left out, except for `_isConnecting`, which the
writer reads.

`sent` and `fates` are ghosts: every request queued, and what became of the
requests that left the queue.
-/
import Synthfi.Lib.Run

namespace Synthfi.Io

variable {α : Type}

/-- A `do_write` coroutine: not entered yet, at the wait for the reconnect
timer, or at the write of what was the front of the queue. On an empty
`std::deque` the front is undefined, here `none`. -/
inductive DoWrite (α : Type) where
  | spawned
  | waiting
  | writing (front : Option α)
  deriving DecidableEq, Repr

inductive Fate where
  | written
  | cleared
  deriving DecidableEq, Repr

/-- How the wait for the reconnect timer ended. -/
inductive TimerResult where
  /-- Cancelled: the connection is up. -/
  | operationAborted
  | timedOut
  | failed
  deriving DecidableEq, Repr

structure JsonHttpSocket (α : Type) where
  writeBuffer : List α
  isConnecting : Bool
  isWriting : Bool
  /-- The coroutines spawned and not returned. -/
  writers : List (DoWrite α)
  sent : List α
  fates : List (α × Fate)
  deriving DecidableEq, Repr

namespace JsonHttpSocket

/-- A socket connects as soon as it is made. -/
def init : JsonHttpSocket α := ⟨[], true, false, [], [], []⟩

def doSendMessage (s : JsonHttpSocket α) (request : α) : JsonHttpSocket α :=
  { s with
    writeBuffer := s.writeBuffer ++ [request]
    sent := s.sent ++ [request]
    writers := if s.isWriting then s.writers else s.writers ++ [.spawned] }

/-- `do_write` from the head of its loop to the next `co_await`; `none` when
it returns. -/
def loopHead (s : JsonHttpSocket α) : Option (DoWrite α) :=
  if s.writeBuffer = [] then none
  else if s.isConnecting then some .waiting
  else some (.writing s.writeBuffer.head?)

/-- Coroutine `k` is suspended again, or gone. -/
def resume (s : JsonHttpSocket α) (k : ℕ) : Option (DoWrite α) → JsonHttpSocket α
  | some writer => { s with writers := s.writers.set k writer }
  | none => { s with writers := s.writers.eraseIdx k }

/-- `do_write` up to its first `co_await`. -/
def start (s : JsonHttpSocket α) (k : ℕ) : JsonHttpSocket α :=
  { s with isWriting := true }.resume k s.loopHead

/-- After the wait for the reconnect timer. -/
def afterTimer (s : JsonHttpSocket α) (k : ℕ) : TimerResult → JsonHttpSocket α
  | .operationAborted => s.resume k (some (.writing s.writeBuffer.head?))
  | .timedOut => s.resume k none
  | .failed => s.resume k none

/-- After the write of `front`, up to the end of the loop body. -/
def afterWrite (s : JsonHttpSocket α) (front : Option α) (bytesWritten : ℕ) (failed : Bool) :
    JsonHttpSocket α :=
  let s :=
    if 0 < bytesWritten then
      { s with
        writeBuffer := s.writeBuffer.tail
        isWriting := false
        fates := s.fates ++ front.toList.map fun request =>
          (request, if failed then .cleared else .written) }
    else s
  if failed then
    { s with
      writeBuffer := []
      fates := s.fates ++ s.writeBuffer.map fun request => (request, .cleared) }
  else s

inductive Label (α : Type) where
  | send (request : α)
  | start (k : ℕ)
  | timer (k : ℕ) (result : TimerResult)
  | wrote (k : ℕ) (bytesWritten : ℕ) (failed : Bool)
  /-- `start_reconnect`. -/
  | startReconnect
  /-- `do_connect` is through. -/
  | connected

def step (s : JsonHttpSocket α) : Label α → Option (JsonHttpSocket α)
  | .send request => some (s.doSendMessage request)
  | .start k =>
    match s.writers[k]? with
    | some .spawned => some (s.start k)
    | _ => none
  | .timer k result =>
    match s.writers[k]? with
    | some .waiting => some (s.afterTimer k result)
    | _ => none
  | .wrote k bytesWritten failed =>
    match s.writers[k]? with
    | some (.writing front) =>
      let s := s.afterWrite front bytesWritten failed
      some (s.resume k s.loopHead)
    | _ => none
  | .startReconnect => some { s with isConnecting := true }
  | .connected => some { s with isConnecting := false }

end JsonHttpSocket

end Synthfi.Io
