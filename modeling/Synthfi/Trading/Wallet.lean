/-
Synthfi.Trading.Wallet — positions and available margin
(`Trading/Wallet.hpp`).
-/
import Synthfi.Trading.Book

namespace Synthfi.Trading

structure Wallet where
  positions : List Quantity
  /-- Quote quantity available for each currency. -/
  marginAvailable : List Quantity
  deriving DecidableEq

end Synthfi.Trading
