/-
Synthfi.Ftx.FtxOrderClient — sending orders to FTX
(`Ftx/FtxOrderClient/FtxOrderClientImpl.{hpp,cpp}`, `Ftx/FtxRestMessage.hpp`,
`Ftx/FtxWsMessage.hpp`).

The calls of `do_send_order` are coroutines on the strand of the order
messages. A call is named by its client order id, a reading of the clock; no
two calls read the same time. Of an order subscription the order is kept, and
`_exchangeOrderIdMap` holds the client order id its pointer leads to. The
REST client and the timers are outside: labels name what they do. `none` is
an assertion that fails, an index out of range, or a label not enabled.

`handled` is a ghost: the order messages that found their order, the last one
first. `published` lists the orders passed to `publish_order_statistic`.
-/
import Synthfi.Ftx.FtxTypes
import Synthfi.Lib.Run
import Synthfi.Trading.Order

namespace Synthfi.Ftx

open Trading

structure FtxOrderRequest where
  reduceOnly : Bool
  ioc : Bool
  postOnly : Bool
  orderType : FtxOrderType
  side : Side
  price : Price
  quantity : Quantity
  marketName : String
  /-- JSON encoded as string. -/
  clientOrderId : UInt64
  deriving DecidableEq

/-- Of an order message the fields that `on_order_message` reads are kept. -/
structure FtxOrderMessage where
  fillQuantity : Quantity
  averageFillPrice : Price
  orderStatus : FtxOrderStatus
  orderId : UInt64
  clientOrderId : UInt64
  deriving DecidableEq

/-- Where a call of `do_send_order` stands. -/
inductive SendOrder where
  /-- It awaits the answer to its request. -/
  | requesting (request : FtxOrderRequest)
  /-- It awaits its timer. -/
  | waiting
  /-- The timer was cancelled; it has not resumed yet. -/
  | cancelled
  /-- The timer expired; it has not resumed yet. -/
  | expired
  | returned (order : TrackedOrder)
  /-- It ended with an exception. -/
  | threw
  deriving DecidableEq

structure FtxOrderClient where
  referenceData : FtxReferenceData
  exchangeOrderIdMap : UInt64 → Option UInt64
  orders : UInt64 → Option TrackedOrder
  calls : UInt64 → Option SendOrder
  published : List TrackedOrder
  handled : List FtxOrderMessage

namespace FtxOrderClient

def init (referenceData : FtxReferenceData) : FtxOrderClient :=
  ⟨referenceData, fun _ => none, fun _ => none, fun _ => none, [], []⟩

variable (s : FtxOrderClient)

def setCall (clientOrderId : UInt64) (call : SendOrder) : FtxOrderClient :=
  { s with calls := Function.update s.calls clientOrderId (some call) }

/-- `_orders.erase( orderIt )`. -/
def eraseOrder (clientOrderId : UInt64) : FtxOrderClient :=
  { s with orders := Function.update s.orders clientOrderId none }

/-! ## Sending an order -/

def orderRequest (order : Order) (marketName : String) : FtxOrderRequest where
  reduceOnly := false
  ioc := true
  postOnly := false
  orderType := .limit
  side := order.side
  price := order.price
  quantity := order.quantity
  marketName := marketName
  clientOrderId := order.clientOrderId

/-- `do_send_order` up to its request, at the time `clientOrderId`. -/
def doSendOrder (clientOrderId : UInt64) (order : TrackedOrder) : Option FtxOrderClient := do
  let tradingPair ← s.referenceData.tradingPairs[order.tradingPairIndex.toNat]?
  if order.orderType = .immediateOrCancel ∧ s.calls clientOrderId = none then
    let order := { order with clientOrderId }
    let s := { s with orders := Function.update s.orders clientOrderId (some order) }
    return s.setCall clientOrderId
      (.requesting (orderRequest order.toOrder tradingPair.marketInformation.name))
  else none

/-- From the end of the wait on. -/
def returns (clientOrderId : UInt64) : Option FtxOrderClient := do
  let order ← s.orders clientOrderId
  let s := { s with
    exchangeOrderIdMap := Function.update s.exchangeOrderIdMap order.orderId none }
  return (s.eraseOrder clientOrderId).setCall clientOrderId (.returned order)

/-! ## Order messages -/

/-- What a message of any status writes to the order. -/
def report (message : FtxOrderMessage) (orderState : OrderState) (order : TrackedOrder) :
    TrackedOrder :=
  { order with
    orderState := orderState
    fillQuantity := message.fillQuantity
    averageFillPrice := some message.averageFillPrice }

/-- The order is updated and published. -/
def update (message : FtxOrderMessage) (order : TrackedOrder) : FtxOrderClient :=
  { s with
    orders := Function.update s.orders message.clientOrderId (some order)
    published := s.published ++ [order]
    handled := message :: s.handled }

/-- `expiryTimer.cancel( )`. -/
def cancelTimer (clientOrderId : UInt64) : FtxOrderClient :=
  if s.calls clientOrderId = some .waiting then s.setCall clientOrderId .cancelled else s

/-- A message for an unknown order is logged. -/
def onOrderMessage (message : FtxOrderMessage) : Option FtxOrderClient :=
  match s.orders message.clientOrderId with
  | none => some s
  | some order =>
    match message.orderStatus with
    | .NEW =>
      let order := { order with orderId := message.orderId }
      -- `emplace` leaves an element that is there as it is.
      let exchangeOrderIdMap := Function.update s.exchangeOrderIdMap message.orderId
        (some ((s.exchangeOrderIdMap message.orderId).getD message.clientOrderId))
      some ({ s with exchangeOrderIdMap }.update message (report message .NEW order))
    | .OPEN => some (s.update message (report message .OPEN order))
    | .CLOSED =>
      some ((s.update message (report message .CLOSED order)).cancelTimer message.clientOrderId)
    | .INVALID => none

/-! ## Steps -/

inductive Label where
  | sendOrder (clientOrderId : UInt64) (order : TrackedOrder)
  /-- The request is answered. -/
  | response (clientOrderId : UInt64)
  /-- The request fails. -/
  | requestError (clientOrderId : UInt64)
  | orderMessage (message : FtxOrderMessage)
  /-- The timer of a waiting call expires. -/
  | expire (clientOrderId : UInt64)
  /-- The wait of a call fails. -/
  | timerError (clientOrderId : UInt64)
  /-- A call resumes after its wait. -/
  | resume (clientOrderId : UInt64)

/-- A timer that expires before its call waits ends the wait at once: `expire`
follows `response`. -/
def step (s : FtxOrderClient) : Label → Option FtxOrderClient
  | .sendOrder clientOrderId order => s.doSendOrder clientOrderId order
  | .response clientOrderId =>
    match s.calls clientOrderId with
    | some (.requesting _) => some (s.setCall clientOrderId .waiting)
    | _ => none
  | .requestError clientOrderId =>
    match s.calls clientOrderId with
    | some (.requesting _) => some ((s.eraseOrder clientOrderId).setCall clientOrderId .threw)
    | _ => none
  | .orderMessage message => s.onOrderMessage message
  | .expire clientOrderId =>
    match s.calls clientOrderId with
    | some .waiting => some (s.setCall clientOrderId .expired)
    | _ => none
  | .timerError clientOrderId =>
    match s.calls clientOrderId with
    | some .waiting => some (s.setCall clientOrderId .threw)
    | _ => none
  | .resume clientOrderId =>
    match s.calls clientOrderId with
    | some .cancelled => s.returns clientOrderId
    | some .expired => s.returns clientOrderId
    | _ => none

end FtxOrderClient

end Synthfi.Ftx
