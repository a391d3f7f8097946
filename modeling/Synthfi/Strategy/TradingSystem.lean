/-
Synthfi.Strategy.TradingSystem — the take strategy behind its market data
clients (`Strategy/TakeStrategy/TakeStrategyImpl.cpp`,
`Serum/SerumMarketDataClient/SerumMarketDataClientImpl.cpp`,
`Ftx/FtxMarketDataClient/FtxMarketDataClientImpl.cpp`).

Each of the three runs on a strand of its own. A client calls the strategy
back from its strand: `on_serum_book` and `on_ftx_book` only spawn the handler
on the strand of the strategy, which runs what is spawned there in the order
in which it came. `posted` are all handlers spawned so far and `started` is
how many of them have run, so what is behind `started` is on its way.

The Serum client loads its books, wakes the subscribers that wait and adds
their callbacks; what it publishes before goes to nobody. An FTX book is
published only when its checksum holds. `none` is a step that is not enabled,
or one that reads past a wallet, the reference data, the books or the levels of
a book.

`accounts`, `messages` and `sent` are ghosts: the orderbook accounts and the
FTX messages that have come, and the take orders with the number of handlers
that had run.
-/
import Synthfi.Ftx.FtxMarketData
import Synthfi.Lib.LatestWrite
import Synthfi.Serum.SerumMarketData
import Synthfi.Strategy.TakeStrategy

namespace Synthfi.Strategy

open Trading Ftx Serum LatestWrite

/-- What the strategy and its clients have loaded. -/
structure TradingSystemConfig extends TakeStrategyConfig where
  serumReferenceData : SerumReferenceData

namespace TradingSystemConfig

variable (config : TradingSystemConfig)

abbrev SerumIndex := config.serumReferenceData.PairIndex

abbrev ftxPairCount : ℕ := config.ftxReferenceData.tradingPairs.length

abbrev FtxIndex := Fin config.ftxPairCount

end TradingSystemConfig

/-- A take order that was sent. -/
structure SentOrder where
  /-- How many handlers had run. -/
  started : ℕ
  tradingPairIndex : ℕ
  order : Order
  deriving DecidableEq

structure TradingSystem (config : TradingSystemConfig) where
  serumMarketData : SerumMarketDataClient config.serumReferenceData
  ftxMarketData : FtxMarketDataClient config.ftxPairCount
  /-- `_isInitialized` of the Serum client. -/
  serumLoaded : Bool
  /-- The Serum client calls the strategy back. -/
  subscribed : Bool
  strategy : TakeStrategy
  posted : List TakeStrategy.Label
  started : ℕ
  accounts : List (config.SerumIndex × SerumOrderbookAccount)
  messages : List (config.FtxIndex × FtxOrderbookMessage)
  sent : List SentOrder

namespace TradingSystem

variable {config : TradingSystemConfig}

/-- What the clients do, and the strands of the strategy. -/
inductive Event (config : TradingSystemConfig) where
  /-- `do_load_market_data` updates a book. -/
  | loadBook (update : BookUpdate config.serumReferenceData)
  /-- `do_load_market_data` is done. -/
  | serumLoaded
  /-- `do_orderbook_subscribe` of the strategy. -/
  | subscribe
  /-- `do_on_orderbook_account`, with what the account decoded to. -/
  | orderbookAccount (tradingPairIndex : config.SerumIndex) (now : Timestamp)
      (decoded : Except SynthfiError SerumOrderbookAccount)
  /-- `do_on_event_queue_account`. -/
  | eventQueueAccount (tradingPairIndex : config.SerumIndex)
      (decoded : Except SynthfiError SerumEventQueueAccount)
  | ftxMessage (event : OrderbookEvent config.ftxPairCount)
  | mangoWallet (wallet : Wallet)
  | ftxWallet (wallet : Wallet)
  /-- The next handler posted to the strategy runs. -/
  | handler
  /-- A side update that a handler has spawned runs. -/
  | bookUpdate (k : ℕ)
  | orderDone (k : ℕ) (outcome : TakeStrategy.OrderOutcome)

variable (s : TradingSystem config)

/-- A callback of the strategy: its handler is spawned. -/
def post (label : TakeStrategy.Label) : TradingSystem config :=
  { s with posted := s.posted ++ [label] }

/-- `do_update_book`, with the callbacks that it makes. -/
def doUpdateBook (stdSort : StdSort PriceQuantity) (update : BookUpdate config.serumReferenceData) :
    TradingSystem config :=
  let serumMarketData := Serum.doUpdateBook stdSort s.serumMarketData update.tradingPairIndex
    update.now update.account update.doPublish
  let s := { s with
    serumMarketData
    accounts := s.accounts ++ [(update.tradingPairIndex, update.account)] }
  if update.doPublish && s.subscribed then
    s.post (.serumBook update.tradingPairIndex (serumMarketData.books update.tradingPairIndex))
  else s

/-- The pair and the message that a handler of the FTX client is called with. -/
def messageOf {n : ℕ} : OrderbookEvent n → Fin n × FtxOrderbookMessage
  | .snapshot i _ message => (i, message)
  | .update i _ message => (i, message)

/-- A handler of the FTX client, with the callback that it makes when it has
published a book. -/
def doOnFtxMessage (asserts : Bool) (str : Price → List UInt8)
    (event : OrderbookEvent config.ftxPairCount) : Option (TradingSystem config) := do
  let ftxMarketData ← s.ftxMarketData.step asserts str event
  let published := ftxMarketData.onBook.drop s.ftxMarketData.onBook.length
  return { s with
    ftxMarketData
    messages := s.messages ++ [messageOf event]
    posted := s.posted ++ published.map fun call => .ftxBook call.1 call.2 }

/-- A side update, and the order that it sent. The reads of its loop are
checked. -/
def doBookUpdate (k : ℕ) : Option (TradingSystem config) := do
  let (tradingPairIndex, side) ← s.strategy.spawned[k]?
  let serumBook ← s.strategy.serumBooks[tradingPairIndex]?
  let ftxBook ← s.strategy.ftxBooks[tradingPairIndex]?
  if readsInside side (serumBook.get side) (ftxBook.get (sideFlip side)) then
    let strategy ← s.strategy.step config.toTakeStrategyConfig (.bookUpdate k)
    let orders := strategy.inFlight.drop s.strategy.inFlight.length
    return { s with
      strategy
      sent := s.sent ++ orders.map fun order => ⟨s.started, tradingPairIndex, order⟩ }
  else none

def step (stdSort : StdSort PriceQuantity) (asserts : Bool) (str : Price → List UInt8) :
    TradingSystem config → Event config → Option (TradingSystem config)
  | s, .loadBook update => if s.serumLoaded then none else some (s.doUpdateBook stdSort update)
  | s, .serumLoaded => some { s with serumLoaded := true }
  | s, .subscribe => if s.serumLoaded then some { s with subscribed := true } else none
  | s, .orderbookAccount _ _ (.error _) => some s
  | s, .orderbookAccount tradingPairIndex now (.ok account) =>
    some (s.doUpdateBook stdSort ⟨tradingPairIndex, now, account, true⟩)
  | s, .eventQueueAccount tradingPairIndex decoded =>
    some { s with
      serumMarketData := doOnEventQueueAccount s.serumMarketData tradingPairIndex decoded }
  | s, .ftxMessage event => s.doOnFtxMessage asserts str event
  | s, .mangoWallet wallet => some (s.post (.mangoWallet wallet))
  | s, .ftxWallet wallet => some (s.post (.ftxWallet wallet))
  | s, .handler => do
    let label ← s.posted[s.started]?
    let strategy ← s.strategy.step config.toTakeStrategyConfig label
    return { s with strategy, started := s.started + 1 }
  | s, .bookUpdate k => s.doBookUpdate k
  | s, .orderDone k outcome => do
    let strategy ← s.strategy.step config.toTakeStrategyConfig (.orderDone k outcome)
    return { s with strategy }

/-- After `run` has loaded the reference data. The books have the size of the
Serum reference data, and so have the positions. -/
def init (config : TradingSystemConfig) : TradingSystem config where
  serumMarketData := .init config.serumReferenceData
  ftxMarketData := .init config.ftxPairCount
  serumLoaded := false
  subscribed := false
  strategy := .init config.serumReferenceData.tradingPairs.length
    config.serumReferenceData.currencies.length
  posted := []
  started := 0
  accounts := []
  messages := []
  sent := []

/-! ## What was posted -/

/-- The Serum books among the handlers. -/
def serumBooks (labels : List TakeStrategy.Label) : List (ℕ × Book) :=
  labels.filterMap fun
    | .serumBook tradingPairIndex book => some (tradingPairIndex, book)
    | _ => none

/-- The FTX books among the handlers. -/
def ftxBooks (labels : List TakeStrategy.Label) : List (ℕ × Book) :=
  labels.filterMap fun
    | .ftxBook tradingPairIndex book => some (tradingPairIndex, book)
    | _ => none

/-- The handlers that have run. -/
def startedLabels : List TakeStrategy.Label := s.posted.take s.started

end TradingSystem

end Synthfi.Strategy
