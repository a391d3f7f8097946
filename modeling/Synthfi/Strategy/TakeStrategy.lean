/-
Synthfi.Strategy.TakeStrategy — taking liquidity on Serum against FTX
(`Strategy/TakeStrategy/TakeStrategyImpl.{hpp,cpp}`).

All coroutines run on one strand. A book event replaces a book and spawns
`do_book_update` for both sides; the two run later, each without a break up
to the order it sends, and wait there for the order. A wallet event runs
without a break. Vectors are read with their bounds: `none` is a read past
the end, or a label that is not enabled. Statistics are left out.

`hedges` and `largestShort` are ghosts: the hedges requested, and the largest
short position seen, since the last FTX wallet came.
-/
import Synthfi.Ftx.FtxTypes
import Synthfi.Lib.Run
import Synthfi.Serum.SerumTypes
import Synthfi.Trading.Order
import Synthfi.Trading.Wallet

namespace Synthfi.Strategy

open Trading Ftx Serum

/-- The configuration and the reference data that `run` loads. -/
structure TakeStrategyConfig where
  /-- Largest trade size in USD. -/
  maxUsdTradeSize : Quantity
  /-- Minimum profit for a trade. -/
  minUsdTradeProfit : Price
  ftxReferenceData : FtxReferenceData

structure TakeStrategy where
  isTrading : Bool
  ftxBooks : List Book
  serumBooks : List Book
  ftxWallet : Wallet
  mangoWallet : Wallet
  /-- Side updates that have been spawned and have not run. -/
  spawned : List (ℕ × Side)
  /-- Orders sent by `do_book_update` that it waits for. -/
  inFlight : List Order
  hedges : List (ℕ × Order)
  largestShort : ℕ → Quantity

/-- `Book::is_valid`. -/
def isValid (book : Book) : Bool := !(book.get .bid).isEmpty && !(book.get .ask).isEmpty

/-! ## Arbitrage -/

/-- What the loop over the two book sides accumulates. -/
structure Arbitrage where
  arbitrageQuantity : Quantity
  serumTradePrice : Price
  tradeCost : Price
  expectedProfit : Price
  totalFtxFee : Price
  totalSerumFee : Price
  deriving DecidableEq

def Arbitrage.zero : Arbitrage := ⟨0, 0, 0, 0, 0, 0⟩

/-- The prices no longer yield a profit after fees. -/
def unprofitable (side : Side) (serumPrice ftxPrice serumFee ftxFee : Price) : Bool :=
  if side = .bid then decide (serumPrice - serumFee ≤ ftxPrice + ftxFee)
  else decide (serumPrice + serumFee ≥ ftxPrice - ftxFee)

/-- One pass over a profitable pair of levels. The size of the trade is that
of the whole levels, not of what remains of them. -/
def Arbitrage.add (side : Side) (serum ftx : PriceQuantity) (arbitrage : Arbitrage) : Arbitrage :=
  let serumFee := serum.price * serumTakerFee
  let ftxFee := ftx.price * ftxTakerFee
  let levelSize := min serum.quantity ftx.quantity
  let arbitrageQuantity := arbitrage.arbitrageQuantity + levelSize
  { arbitrageQuantity := arbitrageQuantity
    serumTradePrice := serum.price
    tradeCost := arbitrage.tradeCost + levelSize * serum.price
    expectedProfit := arbitrage.expectedProfit +
      if side = .bid then (serum.price - (ftx.price + ftxFee + serumFee)) * levelSize
      else (ftx.price - (serum.price + ftxFee + serumFee)) * levelSize
    totalFtxFee := arbitrage.totalFtxFee + ftxFee * arbitrageQuantity
    totalSerumFee := arbitrage.totalSerumFee + serumFee * arbitrageQuantity }

/-- What `it->quantity( )` reads. At the end of the vector it gives `atEnd`. -/
def quantityAt (atEnd : Option Quantity) : SideBook → Option Quantity
  | [] => atEnd
  | level :: _ => some level.quantity

/-- The loop. After `++it` it reads `it->quantity( )` before it looks for the
end: `none` is such a read where nothing is given for it, or no pass left. -/
def arbitrageWalk (atEnd : Option Quantity) (side : Side) :
    ℕ → SideBook → SideBook → Quantity → Quantity → Arbitrage → Option Arbitrage
  | 0, _, _, _, _, _ => none
  | passes + 1, serum :: serumRest, ftx :: ftxRest, remainingSerum, remainingFtx, arbitrage =>
    let serumFee := serum.price * serumTakerFee
    let ftxFee := ftx.price * ftxTakerFee
    if unprofitable side serum.price ftx.price serumFee ftxFee then some arbitrage
    else
      let arbitrage := arbitrage.add side serum ftx
      if remainingSerum < remainingFtx then
        (quantityAt atEnd serumRest).bind fun nextSerum =>
          arbitrageWalk atEnd side passes serumRest (ftx :: ftxRest) nextSerum
            (remainingFtx - remainingSerum) arbitrage
      else if remainingFtx < remainingSerum then
        (quantityAt atEnd ftxRest).bind fun nextFtx =>
          arbitrageWalk atEnd side passes (serum :: serumRest) ftxRest
            (remainingSerum - remainingFtx) nextFtx arbitrage
      else
        (quantityAt atEnd serumRest).bind fun nextSerum =>
          (quantityAt atEnd ftxRest).bind fun nextFtx =>
            arbitrageWalk atEnd side passes serumRest ftxRest nextSerum nextFtx arbitrage
  | _ + 1, _, _, _, _, arbitrage => some arbitrage

/-- The loop from the best levels on. -/
def walkBooks (atEnd : Option Quantity) (side : Side) (passes : ℕ)
    (serumSideBook ftxSideBook : SideBook) : Option Arbitrage :=
  (quantityAt atEnd serumSideBook).bind fun remainingSerum =>
    (quantityAt atEnd ftxSideBook).bind fun remainingFtx =>
      arbitrageWalk atEnd side passes serumSideBook ftxSideBook remainingSerum remainingFtx .zero

/-- The arbitrage between two book sides; none when one of them is empty. Every
pass steps over a level of one side, so as many passes as there are levels are
enough. The loop goes on past a read at the end, and nothing uses what that
read: any value in place of the 0 gives the same. -/
def findArbitrage (side : Side) (serumSideBook ftxSideBook : SideBook) : Option Arbitrage :=
  if serumSideBook.isEmpty || ftxSideBook.isEmpty then none
  else
    walkBooks (some 0) side (serumSideBook.length + ftxSideBook.length) serumSideBook ftxSideBook

/-- The loop reads inside both book sides. It does not run when one of them is
empty. -/
def readsInside (side : Side) (serumSideBook ftxSideBook : SideBook) : Bool :=
  serumSideBook.isEmpty || ftxSideBook.isEmpty ||
    (walkBooks none side (serumSideBook.length + ftxSideBook.length) serumSideBook
      ftxSideBook).isSome

/-- The quotient of the greatest trade size and itself. -/
def maxTradeQuantity (config : TakeStrategyConfig) : Quantity :=
  config.maxUsdTradeSize / config.maxUsdTradeSize

def takeLiquidityOrder (config : TakeStrategyConfig) (tradingPairIndex : ℕ) (side : Side)
    (arbitrage : Arbitrage) : Order :=
  .create arbitrage.serumTradePrice (min arbitrage.arbitrageQuantity (maxTradeQuantity config)) side
    .immediateOrCancel (UInt64.ofNat tradingPairIndex)

/-! ## Hedging -/

/-- What the hedging loop does at one currency. -/
inductive HedgeDecision where
  /-- No short position. -/
  | skip
  /-- `co_return`: the currencies behind this one are not looked at. -/
  | stop
  | hedge (order : Order)

/-- The price of the last level that covers the quantity. -/
def tradePrice (quantity : Quantity) : SideBook → Price → Quantity → Price
  | [], price, _ => price
  | level :: levels, price, total =>
    if total < quantity then tradePrice quantity levels level.price (total + level.quantity)
    else price

namespace TakeStrategy

variable (config : TakeStrategyConfig) (s : TakeStrategy)

/-- One pass of the hedging loop. -/
def hedgeCurrency (currencyIndex : ℕ) (currencyName : String) : Option HedgeDecision := do
  let mangoPosition ← s.mangoWallet.positions[currencyIndex]?
  let ftxPosition ← s.ftxWallet.positions[currencyIndex]?
  let netPosition := mangoPosition + ftxPosition
  if netPosition < 0 then
    -- Don't hedge USDC quantity.
    if currencyName = "USD" then return .stop
    else
      match config.ftxReferenceData.tradingPairs.findIdx? fun tradingPair =>
          tradingPair.marketInformation.baseCurrency = currencyName with
      | none => return .stop
      | some tradingPairIndex =>
        let ftxTradingPair ← config.ftxReferenceData.tradingPairs[tradingPairIndex]?
        if -netPosition < ftxTradingPair.marketInformation.quantityIncrement then return .stop
        else
          let ftxBook ← s.ftxBooks[tradingPairIndex]?
          if isValid ftxBook then
            return .hedge <| .create (tradePrice (-netPosition) (ftxBook.get .ask) 0 0)
              (-netPosition) .bid .immediateOrCancel (UInt64.ofNat tradingPairIndex)
          else return .stop
  else return .skip

/-- The loop of `do_on_mango_wallet` over the FTX currencies: the hedges it
requests, with their currencies. -/
def hedgeLoop : List FtxCurrency → ℕ → Option (List (ℕ × Order))
  | [], _ => some []
  | currency :: currencies, currencyIndex => do
    match ← s.hedgeCurrency config currencyIndex currency.currencyName with
    | .skip => hedgeLoop currencies (currencyIndex + 1)
    | .stop => return []
    | .hedge order => return (currencyIndex, order) :: (← hedgeLoop currencies (currencyIndex + 1))

/-- The short position of a currency in the wallets at hand. -/
def shortPosition (currencyIndex : ℕ) : Quantity :=
  -(s.mangoWallet.positions.getD currencyIndex 0 + s.ftxWallet.positions.getD currencyIndex 0)

def doOnMangoWallet (mangoWallet : Wallet) : Option TakeStrategy := do
  let s := { s with mangoWallet }
  let hedges ← s.hedgeLoop config config.ftxReferenceData.currencies 0
  return { s with
    hedges := s.hedges ++ hedges
    largestShort := fun currencyIndex =>
      max (s.largestShort currencyIndex) (s.shortPosition currencyIndex) }

def doOnFtxWallet (ftxWallet : Wallet) : TakeStrategy :=
  { s with ftxWallet, hedges := [], largestShort := fun _ => 0 }

/-! ## Book updates -/

/-- `do_book_update` up to the order it waits for. -/
def doBookUpdate (tradingPairIndex : ℕ) (side : Side) : Option TakeStrategy := do
  let _ ← config.ftxReferenceData.tradingPairs[tradingPairIndex]?
  let serumBook ← s.serumBooks[tradingPairIndex]?
  let ftxBook ← s.ftxBooks[tradingPairIndex]?
  match findArbitrage side (serumBook.get side) (ftxBook.get (sideFlip side)) with
  | none => return s
  | some arbitrage =>
    if s.isTrading then return s
    else if arbitrage.expectedProfit < config.minUsdTradeProfit then return s
    else return { s with
      isTrading := true
      inFlight := s.inFlight ++ [takeLiquidityOrder config tradingPairIndex side arbitrage] }

/-- `do_on_serum_book`: both sides are spawned. -/
def doOnSerumBook (tradingPairIndex : ℕ) (book : Book) : Option TakeStrategy :=
  if tradingPairIndex < s.serumBooks.length then
    some { s with
      serumBooks := s.serumBooks.set tradingPairIndex book
      spawned := s.spawned ++ [(tradingPairIndex, .bid), (tradingPairIndex, .ask)] }
  else none

/-- `do_on_ftx_book`. -/
def doOnFtxBook (tradingPairIndex : ℕ) (book : Book) : Option TakeStrategy :=
  if tradingPairIndex < s.ftxBooks.length then
    some { s with
      ftxBooks := s.ftxBooks.set tradingPairIndex book
      spawned := s.spawned ++ [(tradingPairIndex, .bid), (tradingPairIndex, .ask)] }
  else none

/-- After the wait for an order: a statistic is published, and the coroutine
ends. When the order threw it ends at once. -/
def orderDone (k : ℕ) : Option TakeStrategy :=
  if k < s.inFlight.length then some { s with inFlight := s.inFlight.eraseIdx k } else none

/-! ## Steps -/

/-- How a sent order completes. -/
inductive OrderOutcome where
  | returned
  | threw
  deriving DecidableEq

inductive Label where
  | mangoWallet (wallet : Wallet)
  | ftxWallet (wallet : Wallet)
  | serumBook (tradingPairIndex : ℕ) (book : Book)
  | ftxBook (tradingPairIndex : ℕ) (book : Book)
  /-- A spawned side update runs. -/
  | bookUpdate (k : ℕ)
  /-- The order with number `k` among those in flight completes. -/
  | orderDone (k : ℕ) (outcome : OrderOutcome)

def step (config : TakeStrategyConfig) : TakeStrategy → Label → Option TakeStrategy
  | s, .mangoWallet wallet => s.doOnMangoWallet config wallet
  | s, .ftxWallet wallet => some (s.doOnFtxWallet wallet)
  | s, .serumBook tradingPairIndex book => s.doOnSerumBook tradingPairIndex book
  | s, .ftxBook tradingPairIndex book => s.doOnFtxBook tradingPairIndex book
  | s, .bookUpdate k => (s.spawned[k]?).bind fun update =>
    doBookUpdate config { s with spawned := s.spawned.eraseIdx k } update.1 update.2
  | s, .orderDone k _ => s.orderDone k

/-- After `run` has loaded the reference data: empty books, no positions. -/
def init (tradingPairCount currencyCount : ℕ) : TakeStrategy where
  isTrading := false
  ftxBooks := List.replicate tradingPairCount .empty
  serumBooks := List.replicate tradingPairCount .empty
  ftxWallet := ⟨List.replicate currencyCount 0, List.replicate currencyCount 0⟩
  mangoWallet := ⟨[], []⟩
  spawned := []
  inFlight := []
  hedges := []
  largestShort := fun _ => 0

end TakeStrategy

end Synthfi.Strategy
