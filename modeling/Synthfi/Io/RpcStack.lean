/-
Synthfi.Io.RpcStack — JSON-RPC over a web socket, up to the server
(`Io/RpcSocket/RpcSocket.hpp` over `Io/WebSocket/JsonWebSocket.hpp` and
`Io/WebSocket/WebSocketBase.hpp`).

`RpcSocket` and `WebSocketBase` are the two layers of one object and run on
one strand. `do_send_request` reaches its wait without giving the strand up:
it takes an id, queues the message with the web socket and registers, in one
step. The other steps are those of the layers.

The far end is not code of this repository. A server may answer any message
whose write was started, at any time, and its answers may overtake each
other; that it answers a message once, and with what belongs to the request,
is asked of it in `StackOk`.

`call` and `answered` are ghosts: the number of the call that sent a message,
and all answers given.
-/
import Synthfi.Io.RpcSocket
import Synthfi.Io.WebSocketBase

namespace Synthfi.Io

variable {ResponseType Json Error Value : Type}

/-- What `build_rpc_request` builds. The request stands for its method and
parameters, and names the type of its response. -/
structure RpcMessage (ResponseType : Type) where
  id : UInt32
  request : ResponseType
  call : ℕ
  deriving DecidableEq, Repr

/-- An answer of the server to a message. -/
abbrev Answer (ResponseType Json : Type) := RpcMessage ResponseType × Body Json

structure RpcStack (ResponseType Json Error Value : Type) where
  rpc : RpcSocket ResponseType Json Error Value
  webSocket : WebSocketBase (RpcMessage ResponseType)
  /-- Answers on their way to the client. -/
  inFlight : List (Answer ResponseType Json)
  answered : List (Answer ResponseType Json)

namespace RpcStack

def init : RpcStack ResponseType Json Error Value := ⟨.init, .init, [], []⟩

variable (jsonTo : ResponseType → Json → Except Error Value)
  (s : RpcStack ResponseType Json Error Value)

/-- A step of the upper layer alone. -/
def rpcStep (label : RpcSocket.Label ResponseType Json) :
    Option (RpcStack ResponseType Json Error Value) :=
  (RpcSocket.step jsonTo s.rpc label).map fun rpc => { s with rpc }

/-- A step of the lower layer alone. -/
def socketStep (label : WebSocketBase.Label (RpcMessage ResponseType)) :
    Option (RpcStack ResponseType Json Error Value) :=
  (s.webSocket.step label).map fun webSocket => { s with webSocket }

/-- `do_send_request` up to its wait. -/
def doSendRequest (request : ResponseType) : Option (RpcStack ResponseType Json Error Value) := do
  let rpc ← RpcSocket.step jsonTo s.rpc (.issue request)
  let rpc ← RpcSocket.step jsonTo rpc (.register s.rpc.callCount)
  return { s with
    rpc
    webSocket := s.webSocket.doSendMessage ⟨s.rpc.nextRequestId, request, s.rpc.callCount⟩ }

/-- The server answers the message with number `k` among those handed over. -/
def answer (k : ℕ) (body : Body Json) : Option (RpcStack ResponseType Json Error Value) := do
  let message ← s.webSocket.handed[k]?
  return { s with
    inFlight := s.inFlight ++ [(message, body)]
    answered := s.answered ++ [(message, body)] }

/-- An answer arrives. -/
def deliver (k : ℕ) : Option (RpcStack ResponseType Json Error Value) := do
  let (message, body) ← s.inFlight[k]?
  return { s with
    rpc := s.rpc.onMessage jsonTo (.response message.id.toUInt64 body)
    inFlight := s.inFlight.eraseIdx k }

inductive Label (ResponseType Json : Type) where
  | request (request : ResponseType)
  | expire (c : ℕ)
  | timerError (c : ℕ)
  | resume (c : ℕ)
  /-- The writer of the web socket. -/
  | start (k : ℕ)
  | timer (k : ℕ) (result : TimerResult)
  | wrote (k : ℕ) (failed : Bool)
  | connection (isOpen : Bool)
  | answer (k : ℕ) (body : Body Json)
  | deliver (k : ℕ)
  /-- A message that answers no request. -/
  | control
  | invalidId

def step (label : Label ResponseType Json) : Option (RpcStack ResponseType Json Error Value) :=
  match label with
  | .request request => s.doSendRequest jsonTo request
  | .expire c => s.rpcStep jsonTo (.expire c)
  | .timerError c => s.rpcStep jsonTo (.timerError c)
  | .resume c => s.rpcStep jsonTo (.resume c)
  | .start k => s.socketStep (.start k)
  | .timer k result => s.socketStep (.timer k result)
  | .wrote k failed => s.socketStep (.wrote k failed)
  | .connection isOpen => s.socketStep (.connection isOpen)
  | .answer k body => s.answer k body
  | .deliver k => s.deliver jsonTo k
  | .control => s.rpcStep jsonTo (.message .control)
  | .invalidId => s.rpcStep jsonTo (.message .invalidId)

end RpcStack

end Synthfi.Io
