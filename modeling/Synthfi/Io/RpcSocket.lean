/-
Synthfi.Io.RpcSocket — matching JSON-RPC responses with requests
(`Io/RpcSocket/RpcSocket.hpp`).

`do_send_request` is a coroutine on the strand of the socket; its calls are
numbered in the order they take their ids, and each is kept with the point
where it stands. Sending the message is left to the next layer and is a step
of its own. A message that `on_message` handles is a step.

The response types share one map: `ResponseType` names them and `jsonTo` is
`json_to`. `registeredAt`, `received`, `ends` and the number of the message
beside a response are ghosts.
-/
import Mathlib.Logic.Function.Basic
import Synthfi.Lib.Run

namespace Synthfi.Io

variable {ResponseType Json Error Value : Type}

/-- What a request throws. -/
inductive RpcError (Json Error : Type) where
  /-- The message had an error. -/
  | response (error : Json)
  /-- The result did not decode. -/
  | decode (error : Error)
  /-- The expiry timer failed. -/
  | timer
  /-- `SynthfiError( "Timed out" )`. -/
  | timedOut
  /-- The next layer did not take the message. -/
  | send
  deriving DecidableEq, Repr

/-- How a call ended. -/
inductive Outcome (Json Error Value : Type) where
  | returned (response : Value) (source : ℕ)
  | threw (error : RpcError Json Error)
  /-- It read an entry that is not there, or a response that was not set. -/
  | undefined
  deriving DecidableEq, Repr

inductive RequestStatus (Json Error Value : Type) where
  | sending
  | waiting
  /-- The timer was cancelled; it has not resumed yet. -/
  | cancelled
  /-- The timer expired; it has not resumed yet. -/
  | expired
  | timerFailed
  | ended (outcome : Outcome Json Error Value)
  deriving DecidableEq, Repr

namespace RequestStatus

def isSending : RequestStatus Json Error Value → Bool
  | sending => true
  | _ => false

def isWaiting : RequestStatus Json Error Value → Bool
  | waiting => true
  | _ => false

/-- It has registered and not resumed. -/
def registered : RequestStatus Json Error Value → Bool
  | sending => false
  | ended _ => false
  | _ => true

def live : RequestStatus Json Error Value → Bool
  | ended _ => false
  | _ => true

@[simp] theorem isSending_iff {status : RequestStatus Json Error Value} :
    status.isSending = true ↔ status = .sending := by
  cases status <;> simp [isSending]

@[simp] theorem isWaiting_iff {status : RequestStatus Json Error Value} :
    status.isWaiting = true ↔ status = .waiting := by
  cases status <;> simp [isWaiting]

/-- A registered call is live. -/
theorem live_of_registered {status : RequestStatus Json Error Value}
    (h : status.registered = true) : status.live = true := by
  cases status <;> simp_all [registered, live]

theorem registered_of_isWaiting {status : RequestStatus Json Error Value}
    (h : status.isWaiting = true) : status.registered = true := by
  simp [isWaiting_iff.mp h, registered]

end RequestStatus

structure Request (ResponseType Json Error Value : Type) where
  responseType : ResponseType
  id : UInt32
  registeredAt : ℕ
  status : RequestStatus Json Error Value
  deriving DecidableEq, Repr

structure PendingRequest (ResponseType Json Error Value : Type) where
  responseType : ResponseType
  response : Option (Value × ℕ)
  error : Option (RpcError Json Error)
  deriving DecidableEq, Repr

/-- The rest of a message with an id. -/
inductive Body (Json : Type) where
  | error (error : Json)
  | result (result : Json)
  /-- Neither: reading the result throws. -/
  | neither
  deriving DecidableEq, Repr

inductive Message (Json : Type) where
  /-- JSON RPC control message: no id. -/
  | control
  /-- Reading the id throws. -/
  | invalidId
  | response (id : UInt64) (body : Body Json)
  deriving DecidableEq, Repr

structure RpcSocket (ResponseType Json Error Value : Type) where
  nextRequestId : UInt32
  pendingRequests : UInt64 → Option (PendingRequest ResponseType Json Error Value)
  callCount : ℕ
  calls : ℕ → Option (Request ResponseType Json Error Value)
  received : List (Message Json)
  ends : List (ℕ × Outcome Json Error Value)

namespace RpcSocket

def init : RpcSocket ResponseType Json Error Value := ⟨0, fun _ => none, 0, fun _ => none, [], []⟩

variable (s : RpcSocket ResponseType Json Error Value)

def setStatus (c : ℕ) (call : Request ResponseType Json Error Value)
    (status : RequestStatus Json Error Value) : RpcSocket ResponseType Json Error Value :=
  { s with calls := Function.update s.calls c (some { call with status }) }

def endCall (c : ℕ) (call : Request ResponseType Json Error Value)
    (outcome : Outcome Json Error Value) : RpcSocket ResponseType Json Error Value :=
  { s.setStatus c call (.ended outcome) with ends := s.ends ++ [(c, outcome)] }

def putPending (id : UInt64) (entry : Option (PendingRequest ResponseType Json Error Value)) :
    RpcSocket ResponseType Json Error Value :=
  { s with pendingRequests := Function.update s.pendingRequests id entry }

/-! ## `do_send_request` -/

/-- A new call takes its id. -/
def issue (responseType : ResponseType) : RpcSocket ResponseType Json Error Value :=
  { s with
    nextRequestId := s.nextRequestId + 1
    callCount := s.callCount + 1
    calls := Function.update s.calls s.callCount
      (some ⟨responseType, s.nextRequestId, 0, .sending⟩) }

/-- After the message was sent, up to the wait. `emplace` keeps an entry that
is there. -/
def register (c : ℕ) (call : Request ResponseType Json Error Value) :
    RpcSocket ResponseType Json Error Value :=
  let entry := (s.pendingRequests call.id.toUInt64).getD ⟨call.responseType, none, none⟩
  (s.setStatus c { call with registeredAt := s.received.length } .waiting).putPending
    call.id.toUInt64 (some entry)

/-- After a wait that was cancelled. -/
def completed (call : Request ResponseType Json Error Value) : Outcome Json Error Value :=
  match s.pendingRequests call.id.toUInt64 with
  | none => .undefined
  | some entry =>
    match entry.error with
    | some error => .threw error
    | none =>
      match entry.response with
      | some (response, source) => .returned response source
      | none => .undefined

/-- After the wait. -/
def complete (c : ℕ) (call : Request ResponseType Json Error Value) :
    Option (RpcSocket ResponseType Json Error Value) :=
  match call.status with
  | .cancelled => some ((s.endCall c call (s.completed call)).putPending call.id.toUInt64 none)
  | .expired => some ((s.endCall c call (.threw .timedOut)).putPending call.id.toUInt64 none)
  | .timerFailed => some ((s.endCall c call (.threw .timer)).putPending call.id.toUInt64 none)
  | _ => none

/-! ## `on_message` -/

/-- `set_result` of the message with the given number. -/
def setResult (jsonTo : ResponseType → Json → Except Error Value) (source : ℕ) (result : Json)
    (entry : PendingRequest ResponseType Json Error Value) :
    PendingRequest ResponseType Json Error Value :=
  match jsonTo entry.responseType result with
  | .ok response => { entry with response := some (response, source) }
  | .error error => { entry with error := some (.decode error) }

def wake (id : UInt64) (call : Request ResponseType Json Error Value) :
    Request ResponseType Json Error Value :=
  if call.id.toUInt64 = id ∧ call.status.isWaiting then { call with status := .cancelled } else call

/-- `expiryTimer.cancel( )`: the calls that wait are woken. -/
def cancelTimer (id : UInt64) : RpcSocket ResponseType Json Error Value :=
  { s with calls := fun c => (s.calls c).map (wake id) }

def onResponse (jsonTo : ResponseType → Json → Except Error Value) (source : ℕ) (id : UInt64)
    (body : Body Json) (entry : PendingRequest ResponseType Json Error Value) :
    RpcSocket ResponseType Json Error Value :=
  match body with
  | .error error =>
    (s.putPending id (some { entry with error := some (.response error) })).cancelTimer id
  | .result result => (s.putPending id (some (setResult jsonTo source result entry))).cancelTimer id
  | .neither => s

def onMessage (jsonTo : ResponseType → Json → Except Error Value) (message : Message Json) :
    RpcSocket ResponseType Json Error Value :=
  let source := s.received.length
  let s := { s with received := s.received ++ [message] }
  match message with
  | .control => s
  | .invalidId => s
  | .response id body =>
    match s.pendingRequests id with
    | none => s
    | some entry => s.onResponse jsonTo source id body entry

/-! ## Steps -/

inductive Label (ResponseType Json : Type) where
  | issue (responseType : ResponseType)
  | sendFailed (c : ℕ)
  | register (c : ℕ)
  | message (message : Message Json)
  | expire (c : ℕ)
  | timerError (c : ℕ)
  | resume (c : ℕ)

def step (jsonTo : ResponseType → Json → Except Error Value) :
    RpcSocket ResponseType Json Error Value → Label ResponseType Json →
      Option (RpcSocket ResponseType Json Error Value)
  | s, .issue responseType => some (s.issue responseType)
  | s, .sendFailed c => (s.calls c).bind fun call =>
    if call.status.isSending then some (s.endCall c call (.threw .send)) else none
  | s, .register c => (s.calls c).bind fun call =>
    if call.status.isSending then some (s.register c call) else none
  | s, .message message => some (s.onMessage jsonTo message)
  | s, .expire c => (s.calls c).bind fun call =>
    if call.status.isWaiting then some (s.setStatus c call .expired) else none
  | s, .timerError c => (s.calls c).bind fun call =>
    if call.status.isWaiting then some (s.setStatus c call .timerFailed) else none
  | s, .resume c => (s.calls c).bind fun call => s.complete c call

end RpcSocket

end Synthfi.Io
