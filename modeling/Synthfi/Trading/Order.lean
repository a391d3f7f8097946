/-
Synthfi.Trading.Order — orders (`Trading/Order.hpp`).

Of the order the fields that building an exchange request reads are kept.
-/
import Mathlib.Data.Rat.Floor
import Synthfi.Trading.Book

namespace Synthfi.Trading

/-- The value of the enumerator of a side. -/
def Side.toInteger : Side → ℕ
  | .bid => 0
  | .ask => 1
  | .invalid => 2

inductive OrderType where
  | invalid
  | limit
  | immediateOrCancel
  deriving DecidableEq, Repr

inductive OrderState where
  | INVALID
  | NEW
  | OPEN
  | CLOSED
  deriving DecidableEq, Repr

structure Order where
  side : Side
  price : Price
  fillQuantity : Quantity
  remainingFillQuantity : Quantity
  orderId : UInt64
  clientOrderId : UInt64
  orderType : OrderType
  _tradingPairIndex : UInt64
  deriving DecidableEq, Repr

namespace Order

/-- The constructor. The ids start as the greatest 64-bit value. -/
def create (price : Price) (quantity : Quantity) (side : Side) (orderType : OrderType)
    (tradingPairIndex : UInt64) : Order where
  side := side
  price := price
  fillQuantity := 0
  remainingFillQuantity := quantity
  orderId := UInt64.ofNat (2 ^ 64 - 1)
  clientOrderId := UInt64.ofNat (2 ^ 64 - 1)
  orderType := orderType
  _tradingPairIndex := tradingPairIndex

def quantity (order : Order) : Quantity := order.fillQuantity + order.remainingFillQuantity

@[simp] theorem quantity_create (price : Price) (quantity : Quantity) (side : Side)
    (orderType : OrderType) (tradingPairIndex : UInt64) :
    (create price quantity side orderType tradingPairIndex).quantity = quantity :=
  zero_add quantity

/-- The accessor returns a `uint8_t`. -/
def tradingPairIndex (order : Order) : UInt8 := order._tradingPairIndex.toUInt8

end Order

/-- An order with what its exchange reports of it. -/
structure TrackedOrder extends Order where
  orderState : OrderState
  /-- A quiet NaN, here `none`, until a price is reported. -/
  averageFillPrice : Option Price
  deriving DecidableEq, Repr

/-- What the members start as. -/
def Order.tracked (order : Order) : TrackedOrder :=
  { order with orderState := .NEW, averageFillPrice := none }

/-! ## Conversion to integers -/

/-- `static_cast< uint64_t >` of a `FixedFloat`: towards zero, cut off at
the greatest 64-bit value; a negative value is converted to a signed integer
first, cut off at the least one. -/
def toUInt64 (x : ℚ) : UInt64 :=
  if x < 0 then UInt64.ofInt (max ⌈x⌉ (-2 ^ 63)) else UInt64.ofNat (min ⌊x⌋.toNat (2 ^ 64 - 1))

end Synthfi.Trading
