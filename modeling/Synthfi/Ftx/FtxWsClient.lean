/-
Synthfi.Ftx.FtxWsClient — subscriptions to order books
(`Ftx/FtxWsClient/FtxWsClientServiceImpl.{hpp,cpp}`, `Ftx/FtxTypes.hpp`).

The calls of `do_subscribe_orderbook` are coroutines on the strand of the
incoming messages, one for a market. The socket and the timers are outside:
labels name what they do. A wait ends with an error code, and expiry is no
error. `none` is an assertion that fails or a label not enabled.

Of a subscription the error is kept; its callbacks are named by the market,
and `snapshots` and `updates` list the calls made to them. `acknowledged` is
a ghost: a subscribed message for the market was handled since its entry was
registered.
-/
import Synthfi.Ftx.FtxMarketData
import Synthfi.Lib.Run
import Mathlib.Logic.Function.Basic

namespace Synthfi.Ftx

inductive FtxChannelType where
  | invalid
  | orderbook
  | trades
  | orders
  | fills
  | ticker
  deriving DecidableEq, Repr

inductive FtxResponseType where
  | invalid
  | error
  | subscribed
  | unsubscribed
  | info
  /-- `partial`, the first book. -/
  | partialBook
  | update
  deriving DecidableEq, Repr

structure SubscriptionRequest where
  channel : FtxChannelType
  market : String
  deriving DecidableEq, Repr

/-- Of an incoming message what `on_message` reads is kept: `none` is a field
that is missing or does not convert. -/
structure FtxWsMessage where
  channel : Option FtxChannelType
  type : Option FtxResponseType
  market : Option String
  data : Option FtxOrderbookMessage
  deriving DecidableEq, Repr

/-- What `async_wait` of a timer ends with. -/
inductive WaitResult where
  /-- No error. -/
  | expired
  | operationAborted
  | timedOut
  /-- Another error. -/
  | failed
  deriving DecidableEq, Repr

/-- Where a call of `do_subscribe_orderbook` stands. -/
inductive SubscribeOrderbook where
  /-- It awaits that its request is sent. -/
  | sending
  /-- It awaits its timer. -/
  | waiting
  /-- The wait has ended; it has not resumed yet. -/
  | woken (errorCode : WaitResult)
  | returned
  /-- It ended with an exception. -/
  | threw
  deriving DecidableEq, Repr

structure OrderbookSubscription where
  /-- Whether `error` holds an exception. -/
  error : Bool
  deriving DecidableEq, Repr

structure FtxWsClient where
  orderbookSubscriptions : String → Option OrderbookSubscription
  calls : String → Option SubscribeOrderbook
  sentMessages : List SubscriptionRequest
  messagesSentCounter : UInt64
  messagesReceivedCounter : UInt64
  snapshots : List (String × FtxOrderbookMessage)
  updates : List (String × FtxOrderbookMessage)
  acknowledged : String → Bool

namespace FtxWsClient

def init : FtxWsClient :=
  ⟨fun _ => none, fun _ => none, [], 0, 0, [], [], fun _ => false⟩

variable (s : FtxWsClient)

def setCall (marketName : String) (call : SubscribeOrderbook) : FtxWsClient :=
  { s with calls := Function.update s.calls marketName (some call) }

/-! ## Subscribing -/

/-- `do_subscribe_orderbook` up to its request. -/
def doSubscribeOrderbook (marketName : String) : Option FtxWsClient :=
  match s.orderbookSubscriptions marketName with
  -- A single subscriber per order book is asserted.
  | some _ => none
  | none =>
    let s := { s with
      orderbookSubscriptions :=
        Function.update s.orderbookSubscriptions marketName (some { error := false })
      sentMessages := s.sentMessages ++ [SubscriptionRequest.mk .orderbook marketName]
      acknowledged := Function.update s.acknowledged marketName false }
    some (s.setCall marketName .sending)

/-- From the sent request to the wait. -/
def requestSent (marketName : String) : Option FtxWsClient :=
  match s.orderbookSubscriptions marketName with
  | none => none
  | some _ =>
    let s := { s with messagesSentCounter := s.messagesSentCounter + 1 }
    some (s.setCall marketName .waiting)

/-- From the end of the wait on. -/
def waitEnds (marketName : String) (errorCode : WaitResult) : Option FtxWsClient :=
  if errorCode = .timedOut then some (s.setCall marketName .threw)
  else
    -- Other errors are logged.
    match s.orderbookSubscriptions marketName with
    | none => none
    | some subscription =>
      if subscription.error then
        let s := { s with
          orderbookSubscriptions := Function.update s.orderbookSubscriptions marketName none }
        some (s.setCall marketName .threw)
      else some (s.setCall marketName .returned)

/-! ## Messages -/

/-- `expiryTimer.cancel( )`, and the ghost. -/
def subscribed (marketName : String) : FtxWsClient :=
  let s := { s with acknowledged := Function.update s.acknowledged marketName true }
  if s.calls marketName = some .waiting then s.setCall marketName (.woken .operationAborted) else s

/-- The branches for a message on the order book of a subscribed market. -/
def onOrderbookMessage (marketName : String) (type : FtxResponseType)
    (data : Option FtxOrderbookMessage) : Option FtxWsClient :=
  match type, data with
  | .subscribed, _ => some (s.subscribed marketName)
  | .partialBook, some data => some { s with snapshots := s.snapshots ++ [(marketName, data)] }
  | .update, some data => some { s with updates := s.updates ++ [(marketName, data)] }
  -- An assertion. Without assertions nothing happens, as on an unsubscription.
  | .invalid, _ => none
  -- Logged: an unsubscription, an error, an info, and data that do not convert.
  | _, _ => some s

/-- `_messagesReceivedCounter.increment( 1 )`. -/
def received : FtxWsClient :=
  { s with messagesReceivedCounter := s.messagesReceivedCounter + 1 }

/-- `on_message`. What is not the order book of a market is logged. -/
def onMessage (message : FtxWsMessage) : Option FtxWsClient :=
  match message.channel, message.type, message.market with
  | some .orderbook, some type, some marketName =>
    match s.orderbookSubscriptions marketName with
    | none => some s
    | some _ => (s.onOrderbookMessage marketName type message.data).map received
  | _, _, _ => some s.received

/-! ## Steps -/

inductive Label where
  | subscribeOrderbook (marketName : String)
  | requestSent (marketName : String)
  | message (message : FtxWsMessage)
  /-- The wait of a call ends, other than by a cancellation. -/
  | timer (marketName : String) (errorCode : WaitResult)
  /-- A call resumes after its wait. -/
  | resume (marketName : String)
  deriving DecidableEq, Repr

/-- A timer that expires before its call waits ends the wait at once: `timer`
follows `requestSent`. -/
def step (s : FtxWsClient) : Label → Option FtxWsClient
  | .subscribeOrderbook marketName => s.doSubscribeOrderbook marketName
  | .requestSent marketName =>
    match s.calls marketName with
    | some .sending => s.requestSent marketName
    | _ => none
  | .message message => s.onMessage message
  | .timer marketName errorCode =>
    if s.calls marketName = some .waiting ∧ errorCode ≠ .operationAborted then
      some (s.setCall marketName (.woken errorCode))
    else none
  | .resume marketName =>
    match s.calls marketName with
    | some (.woken errorCode) => s.waitEnds marketName errorCode
    | _ => none

end FtxWsClient

end Synthfi.Ftx
