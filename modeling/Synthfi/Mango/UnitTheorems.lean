/-
Synthfi.Mango.UnitTheorems — prices and sizes on their way from the order
book through the reference data to an order.

The order book computes a price from two lot sizes and two decimal scales;
the order client and the price increment use the quote side only. The two
agree when one base lot is one whole base token (`WholeBaseLots`) and
nowhere else. Sizes agree on every market.
-/
import Synthfi.Mango.MangoOrder
import Synthfi.Serum.SerumMarketDataTheorems

namespace Synthfi.Mango

open Trading Solana Serum

variable {referenceData : SerumReferenceData} {i : referenceData.PairIndex}

/-! ## Integer conversion -/

/-- A nonnegative value in range is rounded down. -/
theorem toNat_toUInt64 {x : ℚ} (h0 : 0 ≤ x) (h : x < 2 ^ 64) : (toUInt64 x).toNat = ⌊x⌋.toNat := by
  have hfloor : ⌊x⌋ < 2 ^ 64 := by
    rw [Int.floor_lt]
    exact_mod_cast h
  have hnonneg : 0 ≤ ⌊x⌋ := Int.floor_nonneg.mpr h0
  have hmin : min ⌊x⌋.toNat (2 ^ 64 - 1) = ⌊x⌋.toNat := by omega
  rw [toUInt64, if_neg (not_lt.mpr h0), hmin]
  exact UInt64.toNat_ofNat_of_lt' (by simp; omega)

theorem toNat_toUInt64_natCast {n : ℕ} (h : n < 2 ^ 64) : (toUInt64 n).toNat = n := by
  have hcast : (n : ℚ) < 2 ^ 64 := by exact_mod_cast h
  rw [toNat_toUInt64 (Nat.cast_nonneg n) hcast, Int.floor_natCast, Int.toNat_natCast]

/-- Lots that were multiplied by the lot size come back. -/
theorem divUInt64_mul {lots lotSize : UInt64} (hpos : 0 < lotSize.toNat)
    (h : lots.toNat * lotSize.toNat < 2 ^ 64) :
    divUInt64 (toUInt64 ((lots.toNat * lotSize.toNat : ℕ) : ℚ)) lotSize = some lots := by
  have hne : lotSize ≠ 0 := fun h0 => by simp [h0] at hpos
  rw [divUInt64, if_neg hne, Option.some.injEq]
  apply UInt64.toNat_inj.mp
  rw [UInt64.toNat_div, toNat_toUInt64_natCast h, Nat.mul_div_cancel _ hpos]

/-! ## The three formulas -/

/-- One base lot is one whole base token. -/
def WholeBaseLots (referenceData : SerumReferenceData) (i : referenceData.PairIndex) : Prop :=
  (referenceData.pair i).serumMarketAccount.baseLotSize.toNat =
    10 ^ (referenceData.baseMint i).decimals.toNat

/-- The conversions of a market agree on an order of the book: the order
client sends its limit price and its lots, and the increments are the price
of one lot and the size of one lot, which the price and the size are
multiples of. -/
structure UnitsAgree (referenceData : SerumReferenceData) (i : referenceData.PairIndex)
    (limitPrice lots : UInt64) : Prop where
  price : serumPrice (referenceData.slabPrice i limitPrice) (referenceData.quoteMint i).decimals
    (referenceData.pair i).serumMarketAccount.quoteLotSize = some limitPrice
  quantity : serumQuantity (referenceData.slabQuantity i lots) (referenceData.baseMint i).decimals
    (referenceData.pair i).serumMarketAccount.baseLotSize = some lots
  priceIncrement : (referenceData.pair i).priceIncrement = referenceData.slabPrice i 1
  quantityIncrement : (referenceData.pair i).quantityIncrement = referenceData.slabQuantity i 1
  price_multiple : referenceData.slabPrice i limitPrice =
    limitPrice.toNat * (referenceData.pair i).priceIncrement
  quantity_multiple : referenceData.slabQuantity i lots =
    lots.toNat * (referenceData.pair i).quantityIncrement

/-- A quantity of the slab in native units. -/
theorem slabQuantity_mul (lots : UInt64) :
    referenceData.slabQuantity i lots * pow10 (referenceData.baseMint i).decimals =
      ((lots.toNat * (referenceData.pair i).serumMarketAccount.baseLotSize.toNat : ℕ) : ℚ) := by
  rw [SerumReferenceData.slabQuantity, div_mul_cancel₀ _ (pow10_ne_zero _), Nat.cast_mul]

/-- A size is a multiple of the size of one lot. -/
theorem slabQuantity_eq_mul (lots : UInt64) :
    referenceData.slabQuantity i lots = lots.toNat * referenceData.slabQuantity i 1 := by
  simp [SerumReferenceData.slabQuantity, mul_div_assoc]

/-- A price is a multiple of the price of one lot. -/
theorem slabPrice_eq_mul (limitPrice : UInt64) :
    referenceData.slabPrice i limitPrice = limitPrice.toNat * referenceData.slabPrice i 1 := by
  simp [SerumReferenceData.slabPrice, mul_div_assoc, mul_assoc]

/-- Sizes survive the way back on every market. -/
theorem serumQuantity_slabQuantity (hlots : referenceData.PositiveLots i) {lots : UInt64}
    (h : lots.toNat * (referenceData.pair i).serumMarketAccount.baseLotSize.toNat < 2 ^ 64) :
    serumQuantity (referenceData.slabQuantity i lots) (referenceData.baseMint i).decimals
      (referenceData.pair i).serumMarketAccount.baseLotSize = some lots := by
  rw [serumQuantity, slabQuantity_mul]
  exact divUInt64_mul hlots.base h

/-- The quantity increment is the quantity of one lot. -/
theorem quantityIncrement_eq {mintAddresses : List Synthfi.Core.PublicKey}
    (hloaded : LoadedPair mintAddresses referenceData i) :
    (referenceData.pair i).quantityIncrement = referenceData.slabQuantity i 1 := by
  simp [hloaded.quantityIncrement, serumToSynthfiQuantity, SerumReferenceData.slabQuantity]

/-- With whole base lots the price is the limit price in quote units. -/
theorem slabPrice_mul_of_wholeBaseLots (hwhole : WholeBaseLots referenceData i)
    (limitPrice : UInt64) :
    referenceData.slabPrice i limitPrice * pow10 (referenceData.quoteMint i).decimals =
      ((limitPrice.toNat * (referenceData.pair i).serumMarketAccount.quoteLotSize.toNat : ℕ) :
        ℚ) := by
  have hscale := pow10_ne_zero (referenceData.quoteMint i).decimals
  have hbase : ((referenceData.pair i).serumMarketAccount.baseLotSize.toNat : ℚ) =
      pow10 (referenceData.baseMint i).decimals := by
    rw [hwhole, pow10]
    push_cast
    rfl
  have hbaseScale := pow10_ne_zero (referenceData.baseMint i).decimals
  simp only [SerumReferenceData.slabPrice, hbase]
  field_simp
  push_cast
  ring

/-- With whole base lots prices survive the way back. -/
theorem serumPrice_slabPrice (hlots : referenceData.PositiveLots i)
    (hwhole : WholeBaseLots referenceData i) {limitPrice : UInt64}
    (h : referenceData.slabPrice i limitPrice * pow10 (referenceData.quoteMint i).decimals <
      2 ^ 64) :
    serumPrice (referenceData.slabPrice i limitPrice) (referenceData.quoteMint i).decimals
      (referenceData.pair i).serumMarketAccount.quoteLotSize = some limitPrice := by
  rw [slabPrice_mul_of_wholeBaseLots hwhole] at h
  rw [serumPrice, slabPrice_mul_of_wholeBaseLots hwhole]
  exact divUInt64_mul hlots.quote (by exact_mod_cast h)

/-- The price of one lot is `priceIncrement` exactly with whole base lots. -/
theorem priceIncrement_eq_iff {mintAddresses : List Synthfi.Core.PublicKey}
    (hloaded : LoadedPair mintAddresses referenceData i) (hlots : referenceData.PositiveLots i) :
    (referenceData.pair i).priceIncrement = referenceData.slabPrice i 1 ↔
      WholeBaseLots referenceData i := by
  have hscale := pow10_ne_zero (referenceData.quoteMint i).decimals
  have hbase : ((referenceData.pair i).serumMarketAccount.baseLotSize.toNat : ℚ) ≠ 0 := by
    exact_mod_cast hlots.base.ne'
  have hquote : ((referenceData.pair i).serumMarketAccount.quoteLotSize.toNat : ℚ) ≠ 0 := by
    exact_mod_cast hlots.quote.ne'
  have hone : ((1 : UInt64).toNat : ℚ) = 1 := by simp
  have hcast : ((referenceData.pair i).serumMarketAccount.baseLotSize.toNat : ℚ) =
      pow10 (referenceData.baseMint i).decimals ↔ WholeBaseLots referenceData i := by
    unfold pow10 WholeBaseLots
    exact_mod_cast Iff.rfl
  rw [hloaded.priceIncrement, serumToSynthfiPrice, SerumReferenceData.slabPrice, hone, ← hcast]
  rw [div_eq_div_iff hscale (mul_ne_zero hscale hbase), one_mul]
  constructor
  · intro h
    have h' : (referenceData.pair i).serumMarketAccount.quoteLotSize.toNat *
        pow10 (referenceData.quoteMint i).decimals *
        ((referenceData.pair i).serumMarketAccount.baseLotSize.toNat : ℚ) =
      (referenceData.pair i).serumMarketAccount.quoteLotSize.toNat *
        pow10 (referenceData.quoteMint i).decimals *
        pow10 (referenceData.baseMint i).decimals := by linarith
    exact mul_left_cancel₀ (mul_ne_zero hquote hscale) h'
  · intro h
    rw [h]
    ring

/-- **Units.** On a market the loader found, with positive lot sizes, an
order of the book comes back from the order client with its limit price and
lots, and the increments are those of the book, exactly when one base lot is
one whole base token. -/
theorem unitsAgree_iff {getMarkets getMints : AccountBatcher}
    {serumMarketAddresses mintAddresses : List Synthfi.Core.PublicKey}
    (hload : Serum.doLoadReferenceData getMarkets getMints serumMarketAddresses mintAddresses =
      .ok referenceData) (hlots : referenceData.PositiveLots i) {limitPrice lots : UInt64}
    (hprice : referenceData.slabPrice i limitPrice *
      pow10 (referenceData.quoteMint i).decimals < 2 ^ 64)
    (hquantity : referenceData.slabQuantity i lots *
      pow10 (referenceData.baseMint i).decimals < 2 ^ 64) :
    UnitsAgree referenceData i limitPrice lots ↔ WholeBaseLots referenceData i := by
  have hloaded := loadedPair_of_load hload i
  refine ⟨fun h => (priceIncrement_eq_iff hloaded hlots).mp h.priceIncrement, fun hwhole => ?_⟩
  have hincrement := (priceIncrement_eq_iff hloaded hlots).mpr hwhole
  have hsize :
      lots.toNat * (referenceData.pair i).serumMarketAccount.baseLotSize.toNat < 2 ^ 64 := by
    rw [slabQuantity_mul] at hquantity
    exact_mod_cast hquantity
  exact
    { price := serumPrice_slabPrice hlots hwhole hprice
      quantity := serumQuantity_slabQuantity hlots hsize
      priceIncrement := hincrement
      quantityIncrement := quantityIncrement_eq hloaded
      price_multiple := by rw [hincrement, slabPrice_eq_mul]
      quantity_multiple := by rw [quantityIncrement_eq hloaded, slabQuantity_eq_mul] }

/-- The market of tokens of 6 decimals with whole base lots. -/
def wholeLotsMarket : SerumReferenceData :=
  (loadOneMarket 6 6 1000000 10).toOption.get (by decide +kernel)

theorem unitsAgree_iff_wholeLotsMarket :
    UnitsAgree wholeLotsMarket ⟨0, by decide +kernel⟩ 12345 7 :=
  (unitsAgree_iff (ExceptList.eq_ok_get _) ⟨by decide +kernel, by decide +kernel⟩
    (by decide +kernel) (by decide +kernel)).mpr (by unfold WholeBaseLots; decide +kernel)

/-- A market as SOL/USDC is: 9 and 6 decimals, a tenth of a base token a
lot. -/
def tenthLotsMarket : SerumReferenceData :=
  (loadOneMarket 9 6 100000000 100).toOption.get (by decide +kernel)

/-- The order client sends ten times the limit price, and the price
increment is the tenth of the price of one lot. -/
theorem unitsAgree_fails :
    ∃ (referenceData : SerumReferenceData) (i : referenceData.PairIndex) (limitPrice lots : UInt64),
      loadOneMarket 9 6 100000000 100 = .ok referenceData ∧ referenceData.PositiveLots i ∧
      serumPrice (referenceData.slabPrice i limitPrice) (referenceData.quoteMint i).decimals
        (referenceData.pair i).serumMarketAccount.quoteLotSize = some (10 * limitPrice) ∧
      referenceData.slabPrice i 1 = 10 * (referenceData.pair i).priceIncrement ∧
      ¬ UnitsAgree referenceData i limitPrice lots := by
  refine ⟨tenthLotsMarket, ⟨0, by decide +kernel⟩, 12345, 7, ExceptList.eq_ok_get _,
    ⟨by decide +kernel, by decide +kernel⟩, by decide +kernel, by decide +kernel, fun h => ?_⟩
  exact absurd h.price (by decide +kernel)

end Synthfi.Mango
