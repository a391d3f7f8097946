/-
Synthfi.Ftx.FtxFeed — from the web socket to the FTX books
(`Ftx/FtxWsClient/FtxWsClientServiceImpl.{hpp,cpp}`,
`Ftx/FtxMarketDataClient/FtxMarketDataClientImpl.{hpp,cpp}`).

`do_orderbook_subscribe` of the market data client subscribes the markets of
its trading pairs one after the other, each with callbacks that are bound to
the index of the pair. A callback runs on the strand of the web socket client
and only spawns the handler; the strand of the market data client runs the
handlers in the order in which they were spawned. `posted` are all handlers
spawned so far, `started` is how many of them have run, and `handled` is a
ghost: what they were, with the times at which they ran.

The two clients are those of `FtxWsClient` and `FtxMarketData`; here is what
connects them. Loading the reference data is outside: `markets` are the names
of the pairs. `none` is an assertion that fails or a label not enabled.
-/
import Synthfi.Ftx.FtxWsClient

namespace Synthfi.Ftx

open Trading (Timestamp)

/-- The two callbacks of a subscription. -/
inductive OrderbookCallback where
  | snapshot
  | update
  deriving DecidableEq, Repr

/-- The handler of a callback that was bound to a trading pair. -/
structure OrderbookHandler (n : ℕ) where
  tradingPairIndex : Fin n
  callback : OrderbookCallback
  message : FtxOrderbookMessage
  deriving DecidableEq, Repr

/-- A handler reads the clock when it runs. -/
def OrderbookHandler.event {n : ℕ} (handler : OrderbookHandler n) (now : Timestamp) :
    OrderbookEvent n :=
  match handler.callback with
  | .snapshot => .snapshot handler.tradingPairIndex now handler.message
  | .update => .update handler.tradingPairIndex now handler.message

/-- Where `do_orderbook_subscribe` stands. -/
inductive DoOrderbookSubscribe where
  /-- It awaits the reference data. -/
  | loading
  /-- It has spawned the subscription of a pair. -/
  | spawned (i : ℕ)
  /-- It awaits that subscription, which has begun. -/
  | awaiting (i : ℕ)
  | done
  | threw
  deriving DecidableEq, Repr

structure FtxFeed (markets : List String) where
  wsClient : FtxWsClient
  /-- The pair to which the callbacks of a market's entry are bound. -/
  bound : String → Option (Fin markets.length)
  subscribing : DoOrderbookSubscribe
  posted : List (OrderbookHandler markets.length)
  started : ℕ
  client : FtxMarketDataClient markets.length
  handled : List (OrderbookEvent markets.length)

namespace FtxFeed

variable {markets : List String}

def init (markets : List String) : FtxFeed markets :=
  ⟨.init, fun _ => none, .loading, [], 0, .init _, []⟩

variable (s : FtxFeed markets)

/-! ## Subscribing -/

/-- The loop of `do_orderbook_subscribe` comes to pair `i`. -/
def subscribeNext (i : ℕ) : FtxFeed markets :=
  { s with subscribing := if i < markets.length then .spawned i else .done }

/-- The subscription of pair `i` begins on the strand of the web socket client. -/
def subscribeOrderbook (i : Fin markets.length) : Option (FtxFeed markets) := do
  let wsClient ← s.wsClient.step (.subscribeOrderbook (markets.get i))
  some
    { s with
      wsClient
      bound := Function.update s.bound (markets.get i) (some i)
      subscribing := .awaiting i }

/-- The subscription of pair `i` has ended. -/
def subscribed (i : Fin markets.length) : Option (FtxFeed markets) :=
  match s.wsClient.calls (markets.get i) with
  | some .returned => some (s.subscribeNext (i + 1))
  | some .threw => some { s with subscribing := .threw }
  | _ => none

/-! ## Messages -/

/-- The callbacks made between two states of the web socket client. -/
def callbacks (before after : FtxWsClient) :
    List (String × OrderbookCallback × FtxOrderbookMessage) :=
  (after.snapshots.drop before.snapshots.length).map (fun call => (call.1, .snapshot, call.2)) ++
    (after.updates.drop before.updates.length).map fun call => (call.1, .update, call.2)

/-- A message comes in: each callback spawns a handler for the pair it is bound to. -/
def onMessage (message : FtxWsMessage) : Option (FtxFeed markets) := do
  let wsClient ← s.wsClient.step (.message message)
  some
    { s with
      wsClient
      posted := s.posted ++ (callbacks s.wsClient wsClient).filterMap fun call =>
        (s.bound call.1).map fun i => ⟨i, call.2.1, call.2.2⟩ }

/-- The next handler runs. -/
def runHandler (asserts : Bool) (str : Trading.Price → List UInt8) (now : Timestamp) :
    Option (FtxFeed markets) := do
  let handler ← s.posted[s.started]?
  let client ← s.client.step asserts str (handler.event now)
  some
    { s with
      client
      started := s.started + 1
      handled := s.handled ++ [handler.event now] }

/-! ## Steps -/

inductive Label where
  /-- The reference data has come. -/
  | referenceData
  | subscribeOrderbook
  /-- A step of the web socket client in the call for a market. -/
  | requestSent (marketName : String)
  | timer (marketName : String) (errorCode : WaitResult)
  | resume (marketName : String)
  | subscribed
  | message (message : FtxWsMessage)
  | handler (now : Timestamp)
  deriving DecidableEq, Repr

/-- A step of the web socket client that calls no callback. -/
def wsStep (label : FtxWsClient.Label) : Option (FtxFeed markets) :=
  (s.wsClient.step label).map fun wsClient => { s with wsClient }

def step (asserts : Bool) (str : Trading.Price → List UInt8) (s : FtxFeed markets) :
    Label → Option (FtxFeed markets)
  | .referenceData => if s.subscribing = .loading then some (s.subscribeNext 0) else none
  | .subscribeOrderbook =>
    match s.subscribing with
    | .spawned i => if h : i < markets.length then s.subscribeOrderbook ⟨i, h⟩ else none
    | _ => none
  | .requestSent marketName => s.wsStep (.requestSent marketName)
  | .timer marketName errorCode => s.wsStep (.timer marketName errorCode)
  | .resume marketName => s.wsStep (.resume marketName)
  | .subscribed =>
    match s.subscribing with
    | .awaiting i => if h : i < markets.length then s.subscribed ⟨i, h⟩ else none
    | _ => none
  | .message message => s.onMessage message
  | .handler now => s.runHandler asserts str now

end FtxFeed

end Synthfi.Ftx
