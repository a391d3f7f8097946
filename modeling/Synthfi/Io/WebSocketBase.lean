/-
Synthfi.Io.WebSocketBase — the writer of the web sockets
(`Io/WebSocket/WebSocketBase.hpp`).

As in the HTTP socket, what runs on the strand between two `co_await`s is
one step. Here no flag says that a writer is running: a message sent starts
one when it is alone in the queue. Reading and closing are left out, except
for `is_open`, which the writer reads.

`sent`, `handed` and `failures` are ghosts: the messages `do_send_message`
was called with, those an `async_write` was started with, and the queue at
each write that failed.
-/
import Synthfi.Io.JsonHttpSocket

namespace Synthfi.Io

variable {α : Type}

structure WebSocketBase (α : Type) where
  writeBuffer : List α
  isOpen : Bool
  /-- The `do_write` coroutines spawned and not returned. -/
  writers : List (DoWrite α)
  sent : List α
  handed : List α
  failures : List (List α)
  deriving DecidableEq, Repr

namespace WebSocketBase

def init : WebSocketBase α := ⟨[], false, [], [], [], []⟩

def doSendMessage (s : WebSocketBase α) (message : α) : WebSocketBase α :=
  let writeBuffer := s.writeBuffer ++ [message]
  { s with
    writeBuffer
    sent := s.sent ++ [message]
    writers := if writeBuffer.length = 1 then s.writers ++ [.spawned] else s.writers }

/-- Coroutine `k` starts the write of the front of the queue. -/
def write (s : WebSocketBase α) (k : ℕ) : WebSocketBase α :=
  { s with
    handed := s.handed ++ s.writeBuffer.head?.toList
    writers := s.writers.set k (.writing s.writeBuffer.head?) }

/-- `do_write` from the head of its loop to the next `co_await`, or to its
end. -/
def loopHead (s : WebSocketBase α) (k : ℕ) : WebSocketBase α :=
  if s.writeBuffer = [] then { s with writers := s.writers.eraseIdx k }
  else if s.isOpen then s.write k
  else { s with writers := s.writers.set k .waiting }

/-- After the wait for the reconnect timer. Only an error other than
`operation_aborted` makes the writer return. -/
def afterTimer (s : WebSocketBase α) (k : ℕ) : TimerResult → WebSocketBase α
  | .operationAborted => s.write k
  | .timedOut => s.write k
  | .failed => { s with writers := s.writers.eraseIdx k }

/-- After the write. -/
def afterWrite (s : WebSocketBase α) (k : ℕ) (failed : Bool) : WebSocketBase α :=
  if failed then
    { s with
      writeBuffer := []
      failures := s.failures ++ [s.writeBuffer]
      writers := s.writers.eraseIdx k }
  else
    { s with writeBuffer := s.writeBuffer.tail }.loopHead k

inductive Label (α : Type) where
  | send (message : α)
  | start (k : ℕ)
  | timer (k : ℕ) (result : TimerResult)
  | wrote (k : ℕ) (failed : Bool)
  /-- `is_open` changes. -/
  | connection (isOpen : Bool)
  deriving DecidableEq, Repr

def step (s : WebSocketBase α) : Label α → Option (WebSocketBase α)
  | .send message => some (s.doSendMessage message)
  | .start k =>
    match s.writers[k]? with
    | some .spawned => some (s.loopHead k)
    | _ => none
  | .timer k result =>
    match s.writers[k]? with
    | some .waiting => some (s.afterTimer k result)
    | _ => none
  | .wrote k failed =>
    match s.writers[k]? with
    | some (.writing _) => some (s.afterWrite k failed)
    | _ => none
  | .connection isOpen => some { s with isOpen }

end WebSocketBase

end Synthfi.Io
