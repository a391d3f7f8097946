/-
Synthfi.Ftx.FtxTypes — reference data of the FTX exchange
(`Ftx/FtxTypes.hpp`).

Of a market the fields that the strategy and the order client read are kept.
-/
import Synthfi.Trading.Book

namespace Synthfi.Ftx

open Trading

/-- `ftx_taker_fee`: 20 basis points, as the double 0.002. -/
def ftxTakerFee : Quantity := 1152921504606847 / 2 ^ 59

inductive FtxOrderType where
  | invalid
  | limit
  | market
  deriving DecidableEq

inductive FtxOrderStatus where
  | INVALID
  | NEW
  | OPEN
  | CLOSED
  deriving DecidableEq

structure FtxMarketInformation where
  /-- Min size step. -/
  quantityIncrement : Quantity
  /-- Base currency if spot, else null. -/
  baseCurrency : String
  /-- Name of the market. -/
  name : String
  deriving DecidableEq

structure FtxTradingPair where
  marketInformation : FtxMarketInformation
  deriving DecidableEq

structure FtxCurrency where
  currencyName : String
  deriving DecidableEq

structure FtxReferenceData where
  tradingPairs : List FtxTradingPair
  currencies : List FtxCurrency
  deriving DecidableEq

end Synthfi.Ftx
