/-
Synthfi.Mango.MangoHealth — positions and health of a Mango account
(`Mango/MangoTypes.cpp`).

A computation in `Option` is `none` where the program reads or writes past
the end of a vector, divides by zero or fails an assertion. The indices into
the arrays of an account are valid by their types. The unsigned amounts of an
open orders account wrap around.
-/
import Synthfi.Lib.CheckedVec
import Synthfi.Mango.MangoTypes

namespace Synthfi.Mango

open Trading Serum CheckedVec

/-- `std::numeric_limits< Quantity >::digits10`: `serum_to_synthfi_quantity`
asserts that a token has fewer decimals. -/
abbrev quantityDigits : ℕ := 32

/-- What the pair of a currency adds to the health components. -/
structure MarketTerm where
  spot : Quantity
  price : Price
  weight : Quantity
  quote : Quantity
  deriving DecidableEq, Repr

/-- The components of the health; the vectors have an entry for each pair. -/
structure HealthComponents where
  quoteComponent : Quantity
  spotComponent : List Quantity
  priceComponent : List Price
  weightComponent : List Quantity
  deriving DecidableEq, Repr

/-- The pair's entries are assigned. -/
def HealthComponents.assignMarket (components : HealthComponents) (tradingPairIndex : ℕ)
    (term : MarketTerm) : Option HealthComponents := do
  let priceComponent ← assign components.priceComponent tradingPairIndex term.price
  let spotComponent ← assign components.spotComponent tradingPairIndex term.spot
  let weightComponent ← assign components.weightComponent tradingPairIndex term.weight
  return ⟨components.quoteComponent + term.quote, spotComponent, priceComponent, weightComponent⟩

/-- The base position and the quote funds beside it, if all bids or if all
asks were executed. -/
def openOrdersPosition (openOrdersAccount : SerumOpenOrdersAccount) (decimals : UInt8)
    (position : Quantity) (price : Price) : Quantity × Quantity :=
  let quoteFree := serumToSynthfiQuantity
    (openOrdersAccount.nativeQuoteFree + openOrdersAccount.referrerRebatesAccrued).toNat decimals
  let quoteLocked := serumToSynthfiQuantity
    (openOrdersAccount.nativeQuoteTotal - openOrdersAccount.nativeQuoteFree).toNat decimals
  let baseFree := serumToSynthfiQuantity openOrdersAccount.nativeBaseFree.toNat decimals
  let baseLocked := serumToSynthfiQuantity
    (openOrdersAccount.nativeBaseTotal - openOrdersAccount.nativeBaseFree).toNat decimals
  let bidsBasePosition := (position + quoteLocked) / price + baseFree + baseLocked
  let asksBasePosition := position + baseFree
  -- Bids case worse if it has a higher absolute position.
  if |asksBasePosition| < |bidsBasePosition| then (bidsBasePosition, quoteFree)
  else (asksBasePosition, baseLocked * price + quoteFree + quoteLocked)

namespace MangoReferenceData

variable (mango : MangoReferenceData)

/-! ## Positions -/

def position (mangoCurrencyIndex : Fin mangoMaxTokens) : Quantity :=
  serumToSynthfiQuantity
    (mango.mangoAccount.deposits mangoCurrencyIndex *
        mango.mangoCache.depositIndex mangoCurrencyIndex -
      mango.mangoAccount.borrows mangoCurrencyIndex *
        mango.mangoCache.borrowIndex mangoCurrencyIndex)
    (mango.mangoGroup.tokenDecimals mangoCurrencyIndex)

/-- The decimals of the token are as the conversions assert. -/
def DecimalsOk (mangoCurrencyIndex : Fin mangoMaxTokens) : Prop :=
  (mango.mangoGroup.tokenDecimals mangoCurrencyIndex).toNat < quantityDigits

instance (mangoCurrencyIndex : Fin mangoMaxTokens) :
    Decidable (mango.DecimalsOk mangoCurrencyIndex) := by
  unfold DecimalsOk; infer_instance

def getPositionComponent (positionComponent : List Quantity) : Option (List Quantity) :=
  mango.currencies.zipIdx.foldlM (fun positionComponent entry =>
    (if mango.DecimalsOk entry.1.mangoCurrencyIndex then
      some (mango.position entry.1.mangoCurrencyIndex)
    else none).bind (assign positionComponent entry.2)) positionComponent

/-! ## Health -/

/-- `mangoCurrencyIndex < mangoGroup.numOracles`. -/
def HasOracle (mangoCurrencyIndex : Fin mangoMaxTokens) : Prop :=
  mangoCurrencyIndex.val < mango.mangoGroup.numOracles.toNat

instance (mangoCurrencyIndex : Fin mangoMaxTokens) :
    Decidable (mango.HasOracle mangoCurrencyIndex) := by
  unfold HasOracle; infer_instance

/-- The position of the first pair with the base currency, or the number of
pairs if there is none. -/
def findTradingPairIndex (mangoCurrencyIndex : Fin mangoMaxTokens) : ℕ :=
  mango.tradingPairs.findIdx fun mangoTradingPair =>
    mangoTradingPair.mangoBaseCurrencyIndex = mangoCurrencyIndex

/-- `tradingPairs[ tradingPairIndex ]`. -/
def findTradingPair (mangoCurrencyIndex : Fin mangoMaxTokens) : Option MangoTradingPair :=
  mango.tradingPairs[mango.findTradingPairIndex mangoCurrencyIndex]?

/-- The entries of the pair of a currency. -/
def marketTerm (mangoCurrencyIndex : Fin mangoMaxTokens) (tradingPair : MangoTradingPair)
    (position : Quantity) : MarketTerm :=
  let market := tradingPair.mangoTradingPairIndex
  let price := mango.mangoCache.price market
  let (spot, quote) :=
    -- Account for open orders.
    if mango.mangoAccount.inMarginBasket market then
      openOrdersPosition tradingPair.openOrdersAccount
        (mango.mangoGroup.tokenDecimals mangoCurrencyIndex) position price
    else (position, 0)
  { spot, price, quote
    weight :=
      if 0 < spot then mango.mangoGroup.initialAssetWeight market
      else mango.mangoGroup.initialLiabilityWeight market }

/-- Nothing is undefined between the look-up of the pair and its entries. -/
def MarketOk (mangoCurrencyIndex : Fin mangoMaxTokens) (tradingPair : MangoTradingPair) : Prop :=
  -- `Invalid mango trading pair index`.
  tradingPair.mangoTradingPairIndex.val = mangoCurrencyIndex.val ∧
    (mango.mangoAccount.inMarginBasket tradingPair.mangoTradingPairIndex = true →
      mango.DecimalsOk mangoCurrencyIndex ∧
        mango.mangoCache.price tradingPair.mangoTradingPairIndex ≠ 0)

instance (mangoCurrencyIndex : Fin mangoMaxTokens) (tradingPair : MangoTradingPair) :
    Decidable (mango.MarketOk mangoCurrencyIndex tradingPair) := by
  unfold MarketOk; infer_instance

/-- The body of the loop of `get_health_components`. -/
def addCurrency (components : HealthComponents) (mangoCurrencyIndex : Fin mangoMaxTokens)
    (position : Quantity) : Option HealthComponents :=
  if mango.HasOracle mangoCurrencyIndex then do
    let tradingPair ← mango.findTradingPair mangoCurrencyIndex
    if mango.MarketOk mangoCurrencyIndex tradingPair then
      components.assignMarket (mango.findTradingPairIndex mangoCurrencyIndex)
        (mango.marketTerm mangoCurrencyIndex tradingPair position)
    else none
  -- Quote currency is 1:1 with itself.
  else if mangoCurrencyIndex.val = mangoQuoteCurrencyIndex then
    some { components with quoteComponent := components.quoteComponent + position }
  else some components

def getHealthComponents (components : HealthComponents) (positions : List Quantity) :
    Option HealthComponents :=
  mango.currencies.zipIdx.foldlM (fun components entry =>
    positions[entry.2]?.bind (mango.addCurrency components entry.1.mangoCurrencyIndex))
    { components with quoteComponent := 0 }

def getHealthFromComponents (components : HealthComponents) : Option Quantity :=
  mango.currencies.foldlM (fun health currency =>
    if mango.HasOracle currency.mangoCurrencyIndex then do
      let tradingPairIndex := mango.findTradingPairIndex currency.mangoCurrencyIndex
      let spot ← components.spotComponent[tradingPairIndex]?
      let price ← components.priceComponent[tradingPairIndex]?
      let weight ← components.weightComponent[tradingPairIndex]?
      return health + spot * price * weight
    else some health) components.quoteComponent

end MangoReferenceData

end Synthfi.Mango
