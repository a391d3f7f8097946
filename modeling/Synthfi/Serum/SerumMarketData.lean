/-
Synthfi.Serum.SerumMarketData — books and events of the Serum market data
client (`Serum/SerumMarketDataClient/SerumMarketDataClientImpl.cpp`).

An orderbook account replaces one side of a book: every order is converted
to a price and a quantity, the orders are sorted best-first and orders at
one price are merged. An event-queue account is a snapshot of a queue; the
client compares the sequence number of the account with the one it stored
for the pair to find the events it has not processed yet.

Each handler runs to its end without giving up the strand, so it is one
step. Converted prices are exact rationals. Statistics are not modelled.
-/
import Mathlib.Logic.Function.Basic
import Synthfi.Lib.MergeRuns
import Synthfi.Serum.SerumTypes

namespace Synthfi.Serum

open Trading

/-! ## The client -/

/-- `_books` and `_eventQueueSequenceNumbers`, with the calls made to the
book subscribers and to `do_on_event`. -/
structure SerumMarketDataClient (referenceData : SerumReferenceData) where
  books : referenceData.PairIndex → Book
  eventQueueSequenceNumbers : referenceData.PairIndex → UInt64
  onBook : List (referenceData.PairIndex × Book)
  onEvent : List (referenceData.PairIndex × SerumEvent)

variable {referenceData : SerumReferenceData}

/-- After the two `resize` calls of `do_load_market_data`. -/
def SerumMarketDataClient.init (referenceData : SerumReferenceData) :
    SerumMarketDataClient referenceData :=
  ⟨fun _ => Book.empty, fun _ => 0, [], []⟩

/-! ## Order books -/

/-- The price of an order at `limitPrice` lots. -/
def SerumReferenceData.slabPrice (referenceData : SerumReferenceData)
    (i : referenceData.PairIndex) (limitPrice : UInt64) : Price :=
  let tradingPair := referenceData.pair i
  ((limitPrice.toNat : Price) * tradingPair.serumMarketAccount.quoteLotSize.toNat *
      pow10 (referenceData.baseMint i).decimals) /
    (pow10 (referenceData.quoteMint i).decimals *
      tradingPair.serumMarketAccount.baseLotSize.toNat)

/-- The size of an order of `quantity` lots. -/
def SerumReferenceData.slabQuantity (referenceData : SerumReferenceData)
    (i : referenceData.PairIndex) (quantity : UInt64) : Quantity :=
  let tradingPair := referenceData.pair i
  ((quantity.toNat : Quantity) * tradingPair.serumMarketAccount.baseLotSize.toNat) /
    pow10 (referenceData.baseMint i).decimals

/-- Convert serum-order to synthfi-order. -/
def convertOrder (referenceData : SerumReferenceData) (i : referenceData.PairIndex)
    (order : SerumLeafNode) : PriceQuantity :=
  ⟨referenceData.slabPrice i order.key.limitPrice, referenceData.slabQuantity i order.quantity⟩

/-- The comparator of the sort: decreasing prices for bids, else increasing. -/
def sortsBefore (side : Side) (lhs rhs : PriceQuantity) : Bool :=
  if side = .bid then decide (lhs.price > rhs.price) else decide (lhs.price < rhs.price)

/-- The new side of the book. -/
def aggregateOrders (stdSort : StdSort PriceQuantity) (referenceData : SerumReferenceData)
    (i : referenceData.PairIndex) (account : SerumOrderbookAccount) : SideBook :=
  let allOrders := account.orders.map (convertOrder referenceData i)
  let allOrders := stdSort.sort (sortsBefore account.side) allOrders
  MergeRuns.mergeRuns PriceQuantity.price PriceQuantity.add allOrders

/-- `do_update_book`. The exchange time is the receive time. -/
def doUpdateBook (stdSort : StdSort PriceQuantity) (client : SerumMarketDataClient referenceData)
    (tradingPairIndex : referenceData.PairIndex) (now : Timestamp)
    (account : SerumOrderbookAccount) (doPublish : Bool) : SerumMarketDataClient referenceData :=
  let sideBook := aggregateOrders stdSort referenceData tradingPairIndex account
  let book :=
    { client.books tradingPairIndex with receiveTimestamp := now, exchangeTimestamp := now }
  let book := book.set account.side sideBook
  { client with
    books := Function.update client.books tradingPairIndex book
    onBook := if doPublish then client.onBook ++ [(tradingPairIndex, book)] else client.onBook }

/-- One call of `do_update_book`. -/
structure BookUpdate (referenceData : SerumReferenceData) where
  tradingPairIndex : referenceData.PairIndex
  now : Timestamp
  account : SerumOrderbookAccount
  doPublish : Bool

/-- The calls of `do_update_book` one after the other. -/
def doUpdateBooks (stdSort : StdSort PriceQuantity) :
    SerumMarketDataClient referenceData → List (BookUpdate referenceData) →
    SerumMarketDataClient referenceData :=
  List.foldl fun client update =>
    doUpdateBook stdSort client update.tradingPairIndex update.now update.account update.doPublish

/-! ## Event queues -/

/-- How many events of the account count as unprocessed. The comparison with
0 binds weaker than the subtraction: once a sequence number is stored, the
count is the truth value of "the two sequence numbers are equal". -/
def unprocessedEventCount (storedSequenceNumber : UInt64) (account : SerumEventQueueAccount) : ℕ :=
  if storedSequenceNumber = 0 then account.events.length
  else if account.sequenceNumber - storedSequenceNumber = 0 then 1 else 0

/-- `do_on_event_queue_account`: an account that does not decode is logged
and changes nothing. -/
def doOnEventQueueAccount (client : SerumMarketDataClient referenceData)
    (tradingPairIndex : referenceData.PairIndex)
    (decoded : Except SynthfiError SerumEventQueueAccount) : SerumMarketDataClient referenceData :=
  match decoded with
  | .error _ => client
  | .ok account =>
    let count := unprocessedEventCount (client.eventQueueSequenceNumbers tradingPairIndex) account
    { client with
      onEvent := client.onEvent ++
        (account.events.take (min account.events.length count)).map (tradingPairIndex, ·)
      eventQueueSequenceNumbers :=
        Function.update client.eventQueueSequenceNumbers tradingPairIndex account.sequenceNumber }

end Synthfi.Serum
