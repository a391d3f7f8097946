/-
Synthfi.Mango.QuoteLimitTheorems — does the quote limit of an order cover
the order?

With `a` the price in lots and `b` the quantity in lots, both exact, an order
carries `⌊a⌋`, `⌊b⌋` and the quote limit `⌊(1 + fee) * a * b⌋`. Filling it
costs `⌊a⌋ * ⌊b⌋` times the quote lot size, and it is worth `a * b` times both
lot sizes over the base scale. Neither factor is in the limit: every order is
covered exactly on the markets where the first is 1 and the second at least 1.
-/
import Synthfi.Mango.MangoOrderTheorems
import Synthfi.Mango.UnitTheorems

namespace Synthfi.Mango

open Trading Solana Serum

/-! ## What an order carries -/

/-- The transaction is one instruction, with the given `limit_price`,
`max_coin_qty` and `max_native_pc_qty_including_fees`. -/
def Carries (args : TransactionArgs) (limitPrice maxCoinQty maxNativePcQty : UInt64) : Prop :=
  ∃ instruction, args.instructions = [instruction] ∧
    (instruction.items.drop 2).take 3 =
      [uint64Item limitPrice, uint64Item maxCoinQty, uint64Item maxNativePcQty]

/-- The quote limit of the transaction is at least the cost of filling its
own price and quantity, and at most the value of the order, fees included. -/
def QuoteLimitCovers (referenceData : SerumReferenceData) (i : referenceData.PairIndex)
    (order : Order) (args : TransactionArgs) : Prop :=
  let market := (referenceData.pair i).serumMarketAccount
  ∃ limitPrice maxCoinQty maxNativePcQty, Carries args limitPrice maxCoinQty maxNativePcQty ∧
    ⌊(limitPrice.toNat * market.quoteLotSize.toNat * maxCoinQty.toNat * (1 + serumTakerFee) : ℚ)⌋ ≤
      (maxNativePcQty.toNat : ℤ) ∧
    (maxNativePcQty.toNat : ℚ) ≤
      order.price * order.quantity * pow10 (referenceData.quoteMint i).decimals *
        (1 + serumTakerFee)

/-! ## Exact lots -/

variable (referenceData : SerumReferenceData) (i : referenceData.PairIndex)

/-- The price of an order in lots, before it is rounded. -/
def priceLots (order : Order) : ℚ :=
  order.price * pow10 (referenceData.quoteMint i).decimals /
    (referenceData.pair i).serumMarketAccount.quoteLotSize.toNat

/-- The quantity of an order in lots, before it is rounded. -/
def quantityLots (order : Order) : ℚ :=
  order.quantity * pow10 (referenceData.baseMint i).decimals /
    (referenceData.pair i).serumMarketAccount.baseLotSize.toNat

/-- The lots of an order with the fee. -/
def lotsWithFee (order : Order) : ℚ :=
  (1 + serumTakerFee) * priceLots referenceData i order * quantityLots referenceData i order

/-- A positive order on pair `i` whose results fit 64 bits. -/
structure SpotOrder (order : Order) : Prop where
  pair : order.tradingPairIndex.toNat = i
  price_pos : 0 < order.price
  quantity_pos : 0 < order.quantity
  price_lt : order.price * pow10 (referenceData.quoteMint i).decimals < 2 ^ 64
  quantity_lt : order.quantity * pow10 (referenceData.baseMint i).decimals < 2 ^ 64
  limit_lt : lotsWithFee referenceData i order < 2 ^ 64

/-- The lots of an order with the fee, rounded down, are at least the cost of
its whole lots, and the share of them that rounding keeps is at most the two
lot sizes over the base scale. -/
def LotsCover (order : Order) : Prop :=
  let market := (referenceData.pair i).serumMarketAccount
  market.quoteLotSize.toNat * ⌊priceLots referenceData i order⌋ *
      ⌊quantityLots referenceData i order⌋ * (1 + serumTakerFee) <
    ⌊lotsWithFee referenceData i order⌋ + 1 ∧
  ⌊lotsWithFee referenceData i order⌋ ≤
    lotsWithFee referenceData i order *
      (market.quoteLotSize.toNat * market.baseLotSize.toNat /
        pow10 (referenceData.baseMint i).decimals)

variable {referenceData i}

theorem uint64Item_injective : Function.Injective uint64Item := by
  intro a b h
  simpa [uint64Item, integralItem, UInt64.toNat_inj, ← BitVec.toNat_inj] using h

/-- An instruction carries its three amounts and no others. -/
theorem Carries.unique {args : TransactionArgs} {a b c a' b' c' : UInt64} (h : Carries args a b c)
    (h' : Carries args a' b' c') : a = a' ∧ b = b' ∧ c = c' := by
  obtain ⟨instruction, hone, hfields⟩ := h
  obtain ⟨instruction', hone', hfields'⟩ := h'
  obtain rfl : instruction = instruction' := by simpa [hone] using hone'
  simpa [hfields, uint64Item_injective.eq_iff] using hfields'

/-- Division in lots rounds the exact lots down. -/
theorem toNat_divUInt64 {x : ℚ} {lotSize lots : UInt64} (h0 : 0 ≤ x) (hlt : x < 2 ^ 64)
    (h : divUInt64 (toUInt64 x) lotSize = some lots) : (lots.toNat : ℤ) = ⌊x / lotSize.toNat⌋ := by
  have hne := ne_zero_of_divUInt64 h
  rw [divUInt64, if_neg hne, Option.some.injEq] at h
  rw [← h, UInt64.toNat_div, toNat_toUInt64 h0 hlt, Int.natCast_div,
    Int.toNat_of_nonneg (Int.floor_nonneg.mpr h0), Int.floor_div_natCast]

/-- The quote limit rounds the lots with the fee down. -/
theorem toNat_maxQuoteQuantity {order : Order} (h0 : 0 ≤ lotsWithFee referenceData i order)
    (hlt : lotsWithFee referenceData i order < 2 ^ 64) :
    ((maxQuoteQuantity order.price order.quantity (referenceData.baseMint i).decimals
      (referenceData.quoteMint i).decimals (referenceData.pair i).serumMarketAccount.baseLotSize
      (referenceData.pair i).serumMarketAccount.quoteLotSize).toNat : ℤ) =
    ⌊lotsWithFee referenceData i order⌋ := by
  have hsame : (1 + serumTakerFee) * order.price * pow10 (referenceData.quoteMint i).decimals /
      (referenceData.pair i).serumMarketAccount.quoteLotSize.toNat *
        (order.quantity * pow10 (referenceData.baseMint i).decimals /
          (referenceData.pair i).serumMarketAccount.baseLotSize.toNat) =
      lotsWithFee referenceData i order := by
    rw [lotsWithFee, priceLots, quantityLots]
    ring
  rw [maxQuoteQuantity, hsame, toNat_toUInt64 h0 hlt, Int.toNat_of_nonneg (Int.floor_nonneg.mpr h0)]

theorem one_add_serumTakerFee_pos : 0 < 1 + serumTakerFee := by
  unfold serumTakerFee
  norm_num

section Orders

variable {order : Order}

theorem SpotOrder.priceLots_nonneg (h : SpotOrder referenceData i order) :
    0 ≤ priceLots referenceData i order :=
  div_nonneg (mul_nonneg h.price_pos.le (pow10_pos _).le) (Nat.cast_nonneg _)

theorem SpotOrder.quantityLots_nonneg (h : SpotOrder referenceData i order) :
    0 ≤ quantityLots referenceData i order :=
  div_nonneg (mul_nonneg h.quantity_pos.le (pow10_pos _).le) (Nat.cast_nonneg _)

theorem SpotOrder.lotsWithFee_nonneg (h : SpotOrder referenceData i order) :
    0 ≤ lotsWithFee referenceData i order :=
  mul_nonneg (mul_nonneg one_add_serumTakerFee_pos.le h.priceLots_nonneg) h.quantityLots_nonneg

/-- What an order is worth, in terms of its lots. -/
theorem worth_eq (hlots : referenceData.PositiveLots i) (order : Order) :
    order.price * order.quantity * pow10 (referenceData.quoteMint i).decimals *
        (1 + serumTakerFee) =
      lotsWithFee referenceData i order *
        ((referenceData.pair i).serumMarketAccount.quoteLotSize.toNat *
          (referenceData.pair i).serumMarketAccount.baseLotSize.toNat /
            pow10 (referenceData.baseMint i).decimals) := by
  have hbase : ((referenceData.pair i).serumMarketAccount.baseLotSize.toNat : ℚ) ≠ 0 := by
    exact_mod_cast hlots.base.ne'
  have hquote : ((referenceData.pair i).serumMarketAccount.quoteLotSize.toNat : ℚ) ≠ 0 := by
    exact_mod_cast hlots.quote.ne'
  have hscale := pow10_ne_zero (referenceData.baseMint i).decimals
  simp only [lotsWithFee, priceLots, quantityLots]
  field_simp

end Orders

/-! ## Markets that cover every order -/

/-- A quote lot is one native unit, and a base lot at least one whole base
token. -/
@[mk_iff]
structure CoveringLots (referenceData : SerumReferenceData) (i : referenceData.PairIndex) :
    Prop where
  quote : (referenceData.pair i).serumMarketAccount.quoteLotSize.toNat = 1
  base : 10 ^ (referenceData.baseMint i).decimals.toNat ≤
    (referenceData.pair i).serumMarketAccount.baseLotSize.toNat

instance (referenceData : SerumReferenceData) (i : referenceData.PairIndex) :
    Decidable (CoveringLots referenceData i) :=
  decidable_of_iff' _ (coveringLots_iff ..)

/-- Where the lots of the market cover, those of each order do. -/
theorem LotsCover.of_coveringLots (hcovering : CoveringLots referenceData i) {order : Order}
    (horder : SpotOrder referenceData i order) : LotsCover referenceData i order := by
  have hprice := horder.priceLots_nonneg
  have hquantity := horder.quantityLots_nonneg
  have hlots := horder.lotsWithFee_nonneg
  have hbase : (pow10 (referenceData.baseMint i).decimals : ℚ) ≤
      (referenceData.pair i).serumMarketAccount.baseLotSize.toNat := by
    unfold pow10
    exact_mod_cast hcovering.base
  rw [LotsCover, hcovering.quote, Nat.cast_one, one_mul, one_mul]
  constructor
  · calc (⌊priceLots referenceData i order⌋ : ℚ) * ⌊quantityLots referenceData i order⌋ *
          (1 + serumTakerFee)
        ≤ priceLots referenceData i order * quantityLots referenceData i order *
          (1 + serumTakerFee) :=
          mul_le_mul_of_nonneg_right
            (mul_le_mul (Int.floor_le _) (Int.floor_le _)
              (Int.cast_nonneg (Int.floor_nonneg.mpr hquantity)) hprice)
            one_add_serumTakerFee_pos.le
      _ = lotsWithFee referenceData i order := by rw [lotsWithFee]; ring
      _ < ⌊lotsWithFee referenceData i order⌋ + 1 := Int.lt_floor_add_one _
  · have hshare : 1 ≤ ((referenceData.pair i).serumMarketAccount.baseLotSize.toNat : ℚ) /
        pow10 (referenceData.baseMint i).decimals := (one_le_div (pow10_pos _)).mpr hbase
    exact (Int.floor_le _).trans (le_mul_of_one_le_right hlots hshare)

/-- The order of the given lots, otherwise as `order`. -/
def orderOfLots (referenceData : SerumReferenceData) (i : referenceData.PairIndex) (order : Order)
    (price quantity : ℚ) : Order :=
  { order with
    price := price * (referenceData.pair i).serumMarketAccount.quoteLotSize.toNat /
      pow10 (referenceData.quoteMint i).decimals
    fillQuantity := 0
    remainingFillQuantity := quantity *
      (referenceData.pair i).serumMarketAccount.baseLotSize.toNat /
        pow10 (referenceData.baseMint i).decimals }

section OrderOfLots

variable (order : Order) {price quantity : ℚ}

theorem price_orderOfLots : (orderOfLots referenceData i order price quantity).price *
    pow10 (referenceData.quoteMint i).decimals =
      price * (referenceData.pair i).serumMarketAccount.quoteLotSize.toNat :=
  div_mul_cancel₀ _ (pow10_ne_zero _)

theorem quantity_orderOfLots : (orderOfLots referenceData i order price quantity).quantity *
    pow10 (referenceData.baseMint i).decimals =
      quantity * (referenceData.pair i).serumMarketAccount.baseLotSize.toNat := by
  rw [Order.quantity, orderOfLots, zero_add, div_mul_cancel₀ _ (pow10_ne_zero _)]

/-- The order of given lots has that price in lots. -/
theorem priceLots_orderOfLots (hlots : referenceData.PositiveLots i) :
    priceLots referenceData i (orderOfLots referenceData i order price quantity) = price := by
  rw [priceLots, price_orderOfLots, mul_div_cancel_right₀ _ (Nat.cast_ne_zero.mpr hlots.quote.ne')]

/-- The order of given lots has that quantity in lots. -/
theorem quantityLots_orderOfLots (hlots : referenceData.PositiveLots i) :
    quantityLots referenceData i (orderOfLots referenceData i order price quantity) =
      quantity := by
  rw [quantityLots, quantity_orderOfLots,
    mul_div_cancel_right₀ _ (Nat.cast_ne_zero.mpr hlots.base.ne')]

theorem lotsWithFee_orderOfLots (hlots : referenceData.PositiveLots i) :
    lotsWithFee referenceData i (orderOfLots referenceData i order price quantity) =
      (1 + serumTakerFee) * price * quantity := by
  rw [lotsWithFee, priceLots_orderOfLots order hlots, quantityLots_orderOfLots order hlots]

/-- Orders of at most one lot at a price of at most one lot are in range. -/
theorem spotOrder_orderOfLots (hlots : referenceData.PositiveLots i)
    (hi : order.tradingPairIndex.toNat = i) (hprice : 0 < price) (hprice1 : price ≤ 1)
    (hquantity : 0 < quantity) (hquantity1 : quantity ≤ 1) :
    SpotOrder referenceData i (orderOfLots referenceData i order price quantity) := by
  have hrange : ∀ (x : ℚ) (n : UInt64), x ≤ 1 → x * n.toNat < 2 ^ 64 := fun x n hx =>
    calc x * n.toNat ≤ n.toNat := mul_le_of_le_one_left (Nat.cast_nonneg _) hx
      _ < 2 ^ 64 := by exact_mod_cast n.toNat_lt
  have hbase : (0 : ℚ) < (referenceData.pair i).serumMarketAccount.baseLotSize.toNat := by
    exact_mod_cast hlots.base
  have hquote : (0 : ℚ) < (referenceData.pair i).serumMarketAccount.quoteLotSize.toNat := by
    exact_mod_cast hlots.quote
  refine { pair := hi, price_pos := ?_, quantity_pos := ?_, price_lt := ?_, quantity_lt := ?_,
           limit_lt := ?_ }
  · exact div_pos (mul_pos hprice hquote) (pow10_pos _)
  · rw [Order.quantity, orderOfLots, zero_add]
    exact div_pos (mul_pos hquantity hbase) (pow10_pos _)
  · rw [price_orderOfLots]
    exact hrange _ _ hprice1
  · rw [quantity_orderOfLots]
    exact hrange _ _ hquantity1
  · rw [lotsWithFee_orderOfLots order hlots]
    calc (1 + serumTakerFee) * price * quantity
        ≤ (1 + serumTakerFee) * 1 * 1 := by
          have hfee := one_add_serumTakerFee_pos
          gcongr
      _ < 2 ^ 64 := by unfold serumTakerFee; norm_num

end OrderOfLots

/-- One lot at the price of one lot: the limit is 1, the cost the quote lot
size. -/
theorem not_lotsCover_of_quoteLots (hlots : referenceData.PositiveLots i) (order : Order)
    (h : (referenceData.pair i).serumMarketAccount.quoteLotSize.toNat ≠ 1) :
    ¬ LotsCover referenceData i (orderOfLots referenceData i order 1 1) := by
  intro hcover
  have hquote := hlots.quote
  have htwo : (2 : ℚ) ≤ (referenceData.pair i).serumMarketAccount.quoteLotSize.toNat := by
    exact_mod_cast show 2 ≤ (referenceData.pair i).serumMarketAccount.quoteLotSize.toNat by omega
  have hfloor : ⌊(1 + serumTakerFee) * 1 * 1⌋ = 1 := by decide +kernel
  have hlower := hcover.1
  rw [priceLots_orderOfLots order hlots, quantityLots_orderOfLots order hlots,
    lotsWithFee_orderOfLots order hlots, hfloor, Int.floor_one] at hlower
  have hfee : (1 : ℚ) ≤ 1 + serumTakerFee := by
    unfold serumTakerFee
    norm_num
  push_cast at hlower
  nlinarith

/-- At the price of one lot, the quantity that costs one unit with the fee:
nothing is lost by rounding, and the order is worth less. -/
theorem not_lotsCover_of_baseLots (hlots : referenceData.PositiveLots i) (order : Order)
    (hquote : (referenceData.pair i).serumMarketAccount.quoteLotSize.toNat = 1)
    (h : ¬ 10 ^ (referenceData.baseMint i).decimals.toNat ≤
      (referenceData.pair i).serumMarketAccount.baseLotSize.toNat) :
    ¬ LotsCover referenceData i (orderOfLots referenceData i order 1 (1 + serumTakerFee)⁻¹) := by
  intro hcover
  have hunit : (1 + serumTakerFee) * 1 * (1 + serumTakerFee)⁻¹ = 1 := by
    rw [mul_one, mul_inv_cancel₀ one_add_serumTakerFee_pos.ne']
  have hupper := hcover.2
  rw [lotsWithFee_orderOfLots order hlots, hunit, Int.floor_one, hquote, Nat.cast_one, one_mul,
    one_mul, Int.cast_one, one_le_div (pow10_pos _), pow10] at hupper
  exact h (by exact_mod_cast hupper)

/-! ## A sent order -/

section Sent

variable {createProgramAddress : ProgramAddress} {client : MangoOrderClient} {now : UInt64}
  {order : Order} {args : TransactionArgs} {i : client.serumReferenceData.PairIndex}

/-- The three fields of a sent order are those of the three formulas. -/
theorem doSendOrder_carries (hi : order.tradingPairIndex.toNat = i)
    (h : doSendOrder createProgramAddress client now order = some args) :
    ∃ limitPrice maxCoinQty,
      serumPrice order.price (client.serumReferenceData.quoteMint i).decimals
        (client.serumReferenceData.pair i).serumMarketAccount.quoteLotSize = some limitPrice ∧
      serumQuantity order.quantity (client.serumReferenceData.baseMint i).decimals
        (client.serumReferenceData.pair i).serumMarketAccount.baseLotSize = some maxCoinQty ∧
      Carries args limitPrice maxCoinQty
        (maxQuoteQuantity order.price order.quantity
          (client.serumReferenceData.baseMint i).decimals
          (client.serumReferenceData.quoteMint i).decimals
          (client.serumReferenceData.pair i).serumMarketAccount.baseLotSize
          (client.serumReferenceData.pair i).serumMarketAccount.quoteLotSize) := by
  simp only [doSendOrder, bind, hi, client.serumReferenceData.getElem?_pair,
    client.serumReferenceData.getElem?_baseCurrency,
    client.serumReferenceData.getElem?_quoteCurrency, Option.bind_some,
    Option.bind_eq_some_iff] at h
  obtain ⟨mangoPair, -, base, -, quote, -, price, hprice, quantity, hquantity, hargs⟩ := h
  obtain rfl := Option.some.inj hargs
  exact ⟨price, quantity, hprice, hquantity, _, rfl, rfl⟩

/-- Whether an order is sent does not depend on its price and quantity. -/
theorem doSendOrder_isSome_of_sent (hi : order.tradingPairIndex.toNat = i)
    (h : doSendOrder createProgramAddress client now order = some args) {order' : Order}
    (hi' : order'.tradingPairIndex.toNat = i) :
    ∃ args', doSendOrder createProgramAddress client now order' = some args' := by
  simp only [doSendOrder, bind, hi, client.serumReferenceData.getElem?_pair,
    Option.bind_some, Option.bind_eq_some_iff] at h
  obtain ⟨mangoPair, hmango, base, hbase, quote, hquote, serumBase, -, serumQuote, -, price, hprice,
    quantity, hquantity, -⟩ := h
  exact exists_doSendOrder createProgramAddress client now i hi' hmango hbase hquote
    (ne_zero_of_divUInt64 hprice) (ne_zero_of_divUInt64 hquantity)

/-- A positive order is covered exactly when its lots are. -/
theorem quoteLimitCovers_iff_lotsCover (hlots : client.serumReferenceData.PositiveLots i)
    (horder : SpotOrder client.serumReferenceData i order)
    (h : doSendOrder createProgramAddress client now order = some args) :
    QuoteLimitCovers client.serumReferenceData i order args ↔
      LotsCover client.serumReferenceData i order := by
  obtain ⟨limitPrice, maxCoinQty, hprice, hquantity, hcarries⟩ := doSendOrder_carries horder.pair h
  have hprice' : (limitPrice.toNat : ℤ) = ⌊priceLots client.serumReferenceData i order⌋ :=
    toNat_divUInt64 (mul_nonneg horder.price_pos.le (pow10_pos _).le) horder.price_lt hprice
  have hquantity' : (maxCoinQty.toNat : ℤ) = ⌊quantityLots client.serumReferenceData i order⌋ :=
    toNat_divUInt64 (mul_nonneg horder.quantity_pos.le (pow10_pos _).le) horder.quantity_lt
      hquantity
  have hlimit := toNat_maxQuoteQuantity horder.lotsWithFee_nonneg horder.limit_lt
  have hworth := worth_eq hlots order
  generalize maxQuoteQuantity order.price order.quantity _ _ _ _ = maxNativePcQty
    at hcarries hlimit
  have hrational : ∀ n : ℕ, ((n : ℤ) : ℚ) = n := fun n => Int.cast_natCast n
  have hiff : (⌊(limitPrice.toNat *
        (client.serumReferenceData.pair i).serumMarketAccount.quoteLotSize.toNat *
          maxCoinQty.toNat * (1 + serumTakerFee) : ℚ)⌋ ≤ (maxNativePcQty.toNat : ℤ) ∧
      (maxNativePcQty.toNat : ℚ) ≤ order.price * order.quantity *
        pow10 (client.serumReferenceData.quoteMint i).decimals * (1 + serumTakerFee)) ↔
      LotsCover client.serumReferenceData i order := by
    rw [LotsCover, ← hprice', ← hquantity', ← hlimit, hworth, Int.floor_le_iff, hrational,
      hrational, hrational, mul_comm (limitPrice.toNat : ℚ)]
  constructor
  · rintro ⟨a, b, c, hcarries', hbounds⟩
    obtain ⟨rfl, rfl, rfl⟩ := hcarries'.unique hcarries
    exact hiff.mp hbounds
  · intro hcover
    exact ⟨limitPrice, maxCoinQty, maxNativePcQty, hcarries, hiff.mpr hcover⟩

end Sent

/-- **Quote limits.** On a pair of positive lot sizes that the client can
send orders on, an order is covered exactly when its lots are, and every order
is covered exactly when a quote lot is one native unit and a base lot at least
one whole base token. -/
theorem quoteLimit_iff {client : MangoOrderClient} {i : client.serumReferenceData.PairIndex}
    (hlots : client.serumReferenceData.PositiveLots i) {createProgramAddress : ProgramAddress}
    {now : UInt64} {sentOrder : Order} {sentArgs : TransactionArgs}
    (hi : sentOrder.tradingPairIndex.toNat = i)
    (hsent : doSendOrder createProgramAddress client now sentOrder = some sentArgs) :
    (∀ order args, SpotOrder client.serumReferenceData i order →
      doSendOrder createProgramAddress client now order = some args →
      (QuoteLimitCovers client.serumReferenceData i order args ↔
        LotsCover client.serumReferenceData i order)) ∧
    ((∀ order args, SpotOrder client.serumReferenceData i order →
      doSendOrder createProgramAddress client now order = some args →
      QuoteLimitCovers client.serumReferenceData i order args) ↔
    CoveringLots client.serumReferenceData i) := by
  have hone : ∀ order args, SpotOrder client.serumReferenceData i order →
      doSendOrder createProgramAddress client now order = some args →
      (QuoteLimitCovers client.serumReferenceData i order args ↔
        LotsCover client.serumReferenceData i order) := fun order args horder hargs =>
    quoteLimitCovers_iff_lotsCover hlots horder hargs
  refine ⟨hone, ?_, fun hcovering order args horder hargs =>
    (hone order args horder hargs).mpr (.of_coveringLots hcovering horder)⟩
  intro hall
  have hcovers : ∀ quantity : ℚ, 0 < quantity → quantity ≤ 1 →
      LotsCover client.serumReferenceData i
        (orderOfLots client.serumReferenceData i sentOrder 1 quantity) := by
    intro quantity hpos hle
    have horder := spotOrder_orderOfLots sentOrder hlots hi one_pos le_rfl hpos hle
    obtain ⟨args, hargs⟩ := doSendOrder_isSome_of_sent hi hsent horder.pair
    exact (hone _ args horder hargs).mp (hall _ args horder hargs)
  have hquote : (client.serumReferenceData.pair i).serumMarketAccount.quoteLotSize.toNat = 1 := by
    by_contra h
    exact not_lotsCover_of_quoteLots hlots sentOrder h (hcovers 1 one_pos le_rfl)
  refine ⟨hquote, ?_⟩
  by_contra h
  refine not_lotsCover_of_baseLots hlots sentOrder hquote h (hcovers _ ?_ ?_)
  · exact inv_pos.mpr one_add_serumTakerFee_pos
  · unfold serumTakerFee
    norm_num

/-! ## A market of unit quote lots and one of quote lots of 100 -/

/-- A base lot is one whole base token, a quote lot one native unit. -/
@[irreducible] def coveringMarket : SerumReferenceData :=
  (loadOneMarket 6 6 1000000 1).toOption.get (by decide +kernel)

@[irreducible] def coveringGroup : MangoReferenceData :=
  (doLoadReferenceData (oneMarketAnswers 2 3) (keyOf 12) coveringMarket (keyOf 13)).toOption.get
    (by decide +kernel)

def coveringClient : MangoOrderClient :=
  ⟨coveringMarket, coveringGroup, ⟨keyOf 10, keyOf 0⟩, keyOf 70, keyOf 71⟩

def coveringPair : coveringClient.serumReferenceData.PairIndex :=
  ⟨0, by show 0 < coveringMarket.tradingPairs.length; decide +kernel⟩

/-- On a market whose lots cover, every order is covered. -/
theorem quoteLimit_iff_coveringClient :
    (doSendOrder (fun key _ _ => key) coveringClient 0 anOrder).isSome ∧
      ∀ order args, SpotOrder coveringClient.serumReferenceData coveringPair order →
        doSendOrder (fun key _ _ => key) coveringClient 0 order = some args →
        QuoteLimitCovers coveringClient.serumReferenceData coveringPair order args := by
  have hlots : coveringClient.serumReferenceData.PositiveLots coveringPair :=
    ⟨by decide +kernel, by decide +kernel⟩
  have hsent : (doSendOrder (fun key _ _ => key) coveringClient 0 anOrder).isSome := by
    decide +kernel
  obtain ⟨args, hargs⟩ := Option.isSome_iff_exists.mp hsent
  exact ⟨hsent, (quoteLimit_iff hlots rfl hargs).2.mpr (by decide +kernel)⟩

/-- With quote lots of 100 the order of one token at price 1 carries the
limit 10002; the fill costs 1000299. -/
theorem quoteLimit_fails :
    loadOneMarket 6 6 1000000 100 = .ok oneMarket ∧ loadOneMarketGroup 2 3 = .ok alignedGroup ∧
    SpotOrder oneMarket (thePair alignedGroup) anOrder ∧
    ∃ args, doSendOrder (fun key _ _ => key) (clientOf alignedGroup) 0 anOrder = some args ∧
      Carries args 10000 1 10002 ∧
      ¬ QuoteLimitCovers oneMarket (thePair alignedGroup) anOrder args := by
  have hsent : (doSendOrder (fun key _ _ => key) (clientOf alignedGroup) 0 anOrder).isSome := by
    decide +kernel
  obtain ⟨args, hargs⟩ := Option.isSome_iff_exists.mp hsent
  have hcarries : Carries args 10000 1 10002 := by
    obtain ⟨limitPrice, maxCoinQty, hprice, hquantity, hcarries⟩ :=
      doSendOrder_carries (i := thePair alignedGroup) rfl hargs
    have hprice' : limitPrice = 10000 := Option.some.inj (hprice.symm.trans (by decide +kernel))
    have hquantity' : maxCoinQty = 1 := Option.some.inj (hquantity.symm.trans (by decide +kernel))
    convert hcarries using 1
    · exact hprice'.symm
    · exact hquantity'.symm
    · decide +kernel
  refine ⟨oneMarket_loaded, alignedGroup_loaded, ?_, args, hargs, hcarries, ?_⟩
  · exact ⟨rfl, by decide +kernel, by decide +kernel, by decide +kernel, by decide +kernel,
      by decide +kernel⟩
  · intro hcovers
    obtain ⟨a, b, c, hcarries', hlower, -⟩ := hcovers
    obtain ⟨rfl, rfl, rfl⟩ := hcarries'.unique hcarries
    exact absurd hlower (by decide +kernel)

end Synthfi.Mango
