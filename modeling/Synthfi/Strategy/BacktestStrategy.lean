/-
Synthfi.Strategy.BacktestStrategy — the arbitrages a backtest reports
(`Strategy/BacktestStrategy/BacktestStrategyImpl.cpp`).

Its `do_book_update` runs the loop of the take strategy and publishes what
the loop found with the spread of the best levels; no order is sent. A book
event replaces a book and updates both sides without a break. `none` is a
read past the end of a vector.
-/
import Synthfi.Strategy.TakeStrategy

namespace Synthfi.Strategy

open Trading Ftx Serum

/-- The `arbitrage` measurement: its two tags that vary and its fields. -/
structure ArbitrageMeasurement where
  side : Side
  tradingPairIndex : ℕ
  arbitrageQuantity : Quantity
  expectedProfit : Price
  spread : Price
  spreadWithFees : Price
  deriving DecidableEq

structure BacktestStrategy where
  ftxReferenceData : FtxReferenceData
  ftxBooks : List Book
  serumBooks : List Book
  published : List ArbitrageMeasurement

namespace BacktestStrategy

/-- The price of the first level; nothing reads it on an empty side. -/
def bestPrice (levels : SideBook) : Price := (levels.head?.map PriceQuantity.price).getD 0

/-- What an update of one side measures; nothing when a side is empty. -/
def arbitrageMeasurement (side : Side) (tradingPairIndex : ℕ)
    (serumSideBook ftxSideBook : SideBook) : Option ArbitrageMeasurement :=
  (findArbitrage side serumSideBook ftxSideBook).map fun arbitrage =>
    let serumPrice := bestPrice serumSideBook
    let ftxPrice := bestPrice ftxSideBook
    { side, tradingPairIndex
      arbitrageQuantity := arbitrage.arbitrageQuantity
      expectedProfit := arbitrage.expectedProfit
      spread := if side = .bid then ftxPrice - serumPrice else serumPrice - ftxPrice
      spreadWithFees :=
        if side = .bid then ftxPrice * (1 + ftxTakerFee) - serumPrice * (1 - serumTakerFee)
        else serumPrice * (1 + serumTakerFee) - ftxPrice * (1 - ftxTakerFee) }

variable (s : BacktestStrategy)

def doBookUpdate (side : Side) (tradingPairIndex : ℕ) : Option BacktestStrategy := do
  let _ ← s.ftxReferenceData.tradingPairs[tradingPairIndex]?
  let serumBook ← s.serumBooks[tradingPairIndex]?
  let ftxBook ← s.ftxBooks[tradingPairIndex]?
  let measurement := arbitrageMeasurement side tradingPairIndex (serumBook.get side)
    (ftxBook.get (sideFlip side))
  return { s with published := s.published ++ measurement.toList }

/-- Both sides, after a book has been replaced. -/
def doBookUpdates (tradingPairIndex : ℕ) : Option BacktestStrategy := do
  let s ← s.doBookUpdate .bid tradingPairIndex
  s.doBookUpdate .ask tradingPairIndex

def doOnSerumBook (tradingPairIndex : ℕ) (book : Book) : Option BacktestStrategy :=
  if tradingPairIndex < s.serumBooks.length then
    { s with serumBooks := s.serumBooks.set tradingPairIndex book }.doBookUpdates tradingPairIndex
  else none

def doOnFtxBook (tradingPairIndex : ℕ) (book : Book) : Option BacktestStrategy :=
  if tradingPairIndex < s.ftxBooks.length then
    { s with ftxBooks := s.ftxBooks.set tradingPairIndex book }.doBookUpdates tradingPairIndex
  else none

end BacktestStrategy

end Synthfi.Strategy
