/-
Synthfi.Strategy.TakeOrderTheorems — the order a book update sends.

The order has the side the loop walked, the price of the last level it walked
and the quantity it added up, cut off at a quotient that is always one. An
order takes from the other side of the book, so it takes what was walked only
if there is nothing to take; and what it may cost is bounded by the last price
alone, unless less than one unit is traded.
-/
import Synthfi.Strategy.TakeStrategyTheorems
import Synthfi.Strategy.WalkTheorems

namespace Synthfi.Strategy

open Trading Serum Ftx Matching

/-! ## What the pairs add up to -/

def totalSize : List LevelPair → Quantity
  | [] => 0
  | pair :: pairs => pairSize pair + totalSize pairs

variable {side : Side}

theorem arbitrageQuantity_foldl (pairs : List LevelPair) (arbitrage : Arbitrage) :
    (pairs.foldl (addPair side) arbitrage).arbitrageQuantity =
      arbitrage.arbitrageQuantity + totalSize pairs := by
  induction pairs generalizing arbitrage with
  | nil => simp [totalSize]
  | cons pair pairs ih =>
    rw [List.foldl_cons, ih, totalSize]
    simp only [addPair, Arbitrage.add, pairSize]
    ring

/-- The price is that of the last level walked. -/
theorem serumTradePrice_foldl (pairs : List LevelPair) (arbitrage : Arbitrage) :
    (pairs.foldl (addPair side) arbitrage).serumTradePrice =
      (pairs.getLast?.map fun pair => pair.1.1).getD arbitrage.serumTradePrice := by
  induction pairs using List.reverseRecOn generalizing arbitrage with
  | nil => rfl
  | append_singleton pairs pair => simp [addPair, Arbitrage.add]

theorem totalSize_pos {pairs : List LevelPair} (hne : pairs ≠ [])
    (h : ∀ pair ∈ pairs, 0 < pairSize pair) : 0 < totalSize pairs := by
  induction pairs with
  | nil => exact absurd rfl hne
  | cons pair pairs ih =>
    obtain ⟨hpair, hpairs⟩ := List.forall_mem_cons.mp h
    rw [totalSize]
    by_cases hnil : pairs = []
    · simpa [hnil, totalSize] using hpair
    · exact add_pos hpair (ih hnil hpairs)

theorem pairSize_pos {serum ftx : SideBook} (hserum : ∀ level ∈ serum, 0 < level.quantity)
    (hftx : ∀ level ∈ ftx, 0 < level.quantity) {pair : LevelPair}
    (h : pair ∈ facingLevels 0 0 serum ftx) : 0 < pairSize pair := by
  obtain ⟨hmem, hmem'⟩ := mem_of_mem_facing h
  obtain ⟨level, hlevel, heq⟩ := List.mem_map.mp hmem
  obtain ⟨level', hlevel', heq'⟩ := List.mem_map.mp hmem'
  rw [pairSize, ← heq, ← heq']
  exact lt_min (hserum level hlevel) (hftx level' hlevel')

/-! ## Sending -/

/-- `do_book_update` sends the order. -/
def SendsOrder (config : TakeStrategyConfig) (s : TakeStrategy) (tradingPairIndex : ℕ)
    (side : Side) (order : Order) : Prop :=
  ∃ s', s.doBookUpdate config tradingPairIndex side = some s' ∧
    s'.inFlight = s.inFlight ++ [order]

variable {config : TakeStrategyConfig} {s : TakeStrategy} {tradingPairIndex : ℕ} {order : Order}
  {serumBook ftxBook : Book}

/-- An order that is sent is made of what the loop found. -/
theorem SendsOrder.eq (h : SendsOrder config s tradingPairIndex side order)
    (hserum : s.serumBooks[tradingPairIndex]? = some serumBook)
    (hftx : s.ftxBooks[tradingPairIndex]? = some ftxBook) :
    serumBook.get side ≠ [] ∧ ftxBook.get (sideFlip side) ≠ [] ∧
      order = takeLiquidityOrder config tradingPairIndex side
        (foundArbitrage side (serumBook.get side) (ftxBook.get (sideFlip side))) := by
  obtain ⟨s', hupdate, hsent⟩ := h
  obtain rfl | ⟨-, serumBook', ftxBook', arbitrage, hserum', hftx', hfind, rfl⟩ :=
    TakeStrategy.doBookUpdate_cases hupdate
  · simp at hsent
  · obtain rfl := Option.some.inj (hserum.symm.trans hserum')
    obtain rfl := Option.some.inj (hftx.symm.trans hftx')
    obtain ⟨hne, hne', hfound⟩ := findArbitrage_eq_some.mp hfind
    have horder : takeLiquidityOrder config tradingPairIndex side arbitrage = order := by
      simpa using hsent
    exact ⟨hne, hne', by rw [← horder, hfound]⟩

theorem foundArbitrage_quantity (side : Side) (serum ftx : SideBook) :
    (foundArbitrage side serum ftx).arbitrageQuantity =
      totalSize (tradedPairs side (facingLevels 0 0 serum ftx)) := by
  rw [foundArbitrage, arbitrageQuantity_foldl]
  exact zero_add _

/-- The quotient of a number and itself. -/
theorem maxTradeQuantity_eq_one (h : config.maxUsdTradeSize ≠ 0) : maxTradeQuantity config = 1 :=
  div_self h

theorem takeLiquidityOrder_quantity (hmax : config.maxUsdTradeSize ≠ 0) (arbitrage : Arbitrage) :
    (takeLiquidityOrder config tradingPairIndex side arbitrage).quantity =
      min arbitrage.arbitrageQuantity 1 := by
  rw [takeLiquidityOrder, Order.quantity_create, maxTradeQuantity_eq_one hmax]

/-! ## What an order takes -/

/-- What an order of one side takes from the levels it meets, best first, up to
its limit: each with the quantity taken. -/
def takes (side : Side) (limit : Price) : Quantity → SideBook → List (Price × Quantity)
  | _, [] => []
  | quantity, level :: levels =>
    if 0 < quantity ∧ (if side = .bid then level.price ≤ limit else limit ≤ level.price) then
      (level.price, min quantity level.quantity) ::
        takes side limit (quantity - min quantity level.quantity) levels
    else []

/-- What an immediate-or-cancel order takes from a book: levels of the other
side. -/
def fills (book : Book) (order : Order) : List ((Side × Price) × Quantity) :=
  (takes order.side order.price order.quantity (book.get (sideFlip order.side))).map
    fun taken => ((sideFlip order.side, taken.1), taken.2)

/-- The order is filled, and from levels of the walked side alone. -/
def TakesWalked (book : Book) (walked : Side) (order : Order) : Prop :=
  depth (fills book order) = order.quantity ∧ ∀ fill ∈ fills book order, fill.1.1 = walked

/-- An order for the side that was walked takes from the other one, so it must
be for nothing. -/
theorem takesWalked_iff (hside : side ≠ .invalid) (horder : order.side = side) :
    TakesWalked serumBook side order ↔ order.quantity = 0 := by
  have hother : sideFlip side ≠ side := by
    cases side with
    | bid => decide
    | ask => decide
    | invalid => exact absurd rfl hside
  rw [TakesWalked, fills, horder]
  constructor
  · intro h
    obtain ⟨hfilled, hwalked⟩ := h
    cases htakes : takes side order.price order.quantity (serumBook.get (sideFlip side)) with
    | nil => simpa [htakes] using hfilled.symm
    | cons taken rest =>
      exact absurd (hwalked ((sideFlip side, taken.1), taken.2) (by simp [htakes])) hother
  · intro hzero
    have hnone : takes side order.price order.quantity (serumBook.get (sideFlip side)) = [] := by
      rw [hzero]
      cases serumBook.get (sideFlip side) <;> simp [takes]
    rw [hnone, hzero]
    simp

theorem tradedPairs_ne_nil_iff {serum ftx : PriceQuantity} {serumRest ftxRest : SideBook} :
    tradedPairs side (facingLevels 0 0 (serum :: serumRest) (ftx :: ftxRest)) ≠ [] ↔
      0 < unitProfit side serum.price ftx.price := by
  obtain ⟨rest, hrest⟩ := facingLevels_cons 0 0 serum ftx serumRest ftxRest
  rw [hrest]
  by_cases hprofit : 0 < pairProfit side (pairOf serum ftx)
  · rw [tradedPairs_cons_pos hprofit]
    exact iff_of_true (List.cons_ne_nil _ _) hprofit
  · rw [tradedPairs_cons_neg hprofit]
    exact iff_of_false (fun h => h rfl) hprofit

/-- Levels that hold something are walked for nothing only if the best two do
not trade at a profit. -/
theorem totalSize_tradedPairs_eq_zero_iff {serum ftx : PriceQuantity}
    {serumRest ftxRest : SideBook} (hserum : ∀ level ∈ serum :: serumRest, 0 < level.quantity)
    (hftx : ∀ level ∈ ftx :: ftxRest, 0 < level.quantity) :
    totalSize (tradedPairs side (facingLevels 0 0 (serum :: serumRest) (ftx :: ftxRest))) = 0 ↔
      unitProfit side serum.price ftx.price ≤ 0 := by
  rw [← not_lt, ← tradedPairs_ne_nil_iff, not_not]
  constructor
  · intro hzero
    by_contra hne
    refine (totalSize_pos hne fun pair hpair => ?_).ne' hzero
    exact pairSize_pos hserum hftx (List.takeWhile_subset _ hpair)
  · intro hnil
    rw [hnil, totalSize]

/-- **The order takes what was walked.** An order that a book update sends is
filled, and from the walked side alone, exactly if the pairs walked at a
profit add up to nothing. Where every level holds something that is so exactly
if the best levels do not trade at a profit. -/
theorem takesWalked_sent_iff (config : TakeStrategyConfig) (hmax : config.maxUsdTradeSize ≠ 0)
    (s : TakeStrategy) (tradingPairIndex : ℕ) (side : Side) (hside : side ≠ .invalid)
    (order : Order) (serumBook ftxBook : Book)
    (hserum : s.serumBooks[tradingPairIndex]? = some serumBook)
    (hftx : s.ftxBooks[tradingPairIndex]? = some ftxBook)
    (hsent : SendsOrder config s tradingPairIndex side order) :
    (TakesWalked serumBook side order ↔
      totalSize (tradedPairs side
        (facingLevels 0 0 (serumBook.get side) (ftxBook.get (sideFlip side)))) = 0) ∧
    ((∀ level ∈ serumBook.get side ++ ftxBook.get (sideFlip side), 0 < level.quantity) →
      (TakesWalked serumBook side order ↔
        ∀ best ∈ (serumBook.get side).head?, ∀ best' ∈ (ftxBook.get (sideFlip side)).head?,
          unitProfit side best.price best'.price ≤ 0)) := by
  obtain ⟨hne, hne', heq⟩ := hsent.eq hserum hftx
  have horder : order.side = side := by rw [heq]; rfl
  have htakes : TakesWalked serumBook side order ↔
      totalSize (tradedPairs side
        (facingLevels 0 0 (serumBook.get side) (ftxBook.get (sideFlip side)))) = 0 := by
    rw [takesWalked_iff hside horder, heq, takeLiquidityOrder_quantity hmax,
      foundArbitrage_quantity]
    constructor
    · intro hmin
      obtain hle | hle := min_choice (totalSize (tradedPairs side (facingLevels 0 0
        (serumBook.get side) (ftxBook.get (sideFlip side))))) 1
      · rw [← hle, hmin]
      · rw [hmin] at hle
        norm_num at hle
    · intro hzero
      rw [hzero]
      decide
  refine ⟨htakes, fun hpos => htakes.trans ?_⟩
  obtain ⟨hposSerum, hposFtx⟩ := List.forall_mem_append.mp hpos
  obtain ⟨best, rest, hbest⟩ := List.exists_cons_of_ne_nil hne
  obtain ⟨best', rest', hbest'⟩ := List.exists_cons_of_ne_nil hne'
  rw [hbest] at hposSerum ⊢
  rw [hbest'] at hposFtx ⊢
  simpa using totalSize_tradedPairs_eq_zero_iff hposSerum hposFtx

/-- SOL against USD, with orders sent unless they lose. -/
def solUsdAnyProfit : TakeStrategyConfig := { TakeStrategy.solUsd with minUsdTradeProfit := 0 }

/-- Both books have come, and nothing is in flight. -/
def withBooks (serumBook ftxBook : Book) : TakeStrategy :=
  { TakeStrategy.init 1 2 with serumBooks := [serumBook], ftxBooks := [ftxBook] }

theorem sendsOrder_of_inFlight
    (h : ((withBooks serumBook ftxBook).doBookUpdate config tradingPairIndex side).map
      TakeStrategy.inFlight = some [order]) :
    SendsOrder config (withBooks serumBook ftxBook) tradingPairIndex side order :=
  Option.map_eq_some_iff.mp h

/-- A bid below the offer: the order is for nothing. -/
theorem takesWalked_sent_forNothing :
    TakesWalked (TakeStrategy.bookAt 90 111) .bid (.create 0 0 .bid .immediateOrCancel 0) :=
  ((takesWalked_sent_iff solUsdAnyProfit (by decide +kernel)
    (withBooks (TakeStrategy.bookAt 90 111) (TakeStrategy.bookAt 99 100)) 0 .bid (by decide)
    (.create 0 0 .bid .immediateOrCancel 0) (TakeStrategy.bookAt 90 111)
    (TakeStrategy.bookAt 99 100) rfl rfl (sendsOrder_of_inFlight (by decide +kernel))).2
    (by decide +kernel)).mpr (by decide +kernel)

/-- A bid above the offer: the order is a bid at that price, and takes nothing
of the bids. -/
theorem takesWalked_sent_fails :
    SendsOrder TakeStrategy.solUsd
      (withBooks (TakeStrategy.deepBookAt 110 111) (TakeStrategy.deepBookAt 99 100)) 0 .bid
      (.create 110 1 .bid .immediateOrCancel 0) ∧
    fills (TakeStrategy.deepBookAt 110 111) (.create 110 1 .bid .immediateOrCancel 0) = [] ∧
    ¬ TakesWalked (TakeStrategy.deepBookAt 110 111) .bid
      (.create 110 1 .bid .immediateOrCancel 0) := by
  refine ⟨sendsOrder_of_inFlight (by decide +kernel), by decide +kernel, fun h => ?_⟩
  have hzero := (takesWalked_iff (by decide) rfl).mp h
  exact absurd hzero (by decide +kernel)

/-! ## The greatest trade size -/

/-- The pairs of levels side by side that trade at a profit. -/
def profitablePairs (side : Side) (serum ftx : SideBook) : List LevelPair :=
  (facingLevels 0 0 serum ftx).filter fun pair => 0 < pairProfit side pair

theorem lots_pairwise {side : Side} (levels : SideLevels side) :
    (lots levels.levels).Pairwise fun lot later => side.Better lot.1 later.1 :=
  List.pairwise_map.mpr levels.sorted

/-- In sorted books neither price gets better on the way. -/
theorem facingLevels_pairwise (serum : SideLevels side) (ftx : SideLevels (sideFlip side)) :
    (facingLevels 0 0 serum.levels ftx.levels).Pairwise fun pair later =>
      (later.1.1 = pair.1.1 ∨ side.Better pair.1.1 later.1.1) ∧
        pairProfit side later ≤ pairProfit side pair := by
  refine (facing_pairwise (lots_pairwise serum) (lots_pairwise ftx)).imp ?_
  intro pair later h
  have hprice : later.1.1 = pair.1.1 ∨ side.Better pair.1.1 later.1.1 :=
    h.1.imp_left (congrArg Prod.fst)
  exact ⟨hprice, unitProfit_le hprice (h.2.imp_left (congrArg Prod.fst))⟩

/-- The loop walks all pairs that trade at a profit. -/
theorem tradedPairs_eq_profitablePairs (serum : SideLevels side)
    (ftx : SideLevels (sideFlip side)) :
    tradedPairs side (facingLevels 0 0 serum.levels ftx.levels) =
      profitablePairs side serum.levels ftx.levels := by
  refine takeWhile_eq_filter ((facingLevels_pairwise serum ftx).imp ?_)
  intro pair later h hlater
  simp only [decide_eq_true_eq] at hlater ⊢
  exact hlater.trans_le h.2

/-- No pair of the list has a worse Serum price. -/
def Deepest (side : Side) (pairs : List LevelPair) (pair : LevelPair) : Prop :=
  pair ∈ pairs ∧ ∀ other ∈ pairs, ¬ side.Better pair.1.1 other.1.1

/-- The last pair is the deepest, and the deepest pairs share their price. -/
theorem deepest_iff (serum : SideLevels side) (ftx : SideLevels (sideFlip side))
    {last : LevelPair} (hlast : last ∈ (profitablePairs side serum.levels ftx.levels).getLast?) :
    Deepest side (profitablePairs side serum.levels ftx.levels) last ∧
      ∀ pair, Deepest side (profitablePairs side serum.levels ftx.levels) pair →
        pair.1.1 = last.1.1 := by
  obtain ⟨front, hfront⟩ := List.getLast?_eq_some_iff.mp hlast
  have hsorted : (profitablePairs side serum.levels ftx.levels).Pairwise fun pair later =>
      later.1.1 = pair.1.1 ∨ side.Better pair.1.1 later.1.1 :=
    ((facingLevels_pairwise serum ftx).imp And.left).filter _
  have hmem : last ∈ profitablePairs side serum.levels ftx.levels :=
    List.mem_of_getLast? hlast
  rw [hfront, List.pairwise_append] at hsorted
  have hbefore : ∀ pair ∈ profitablePairs side serum.levels ftx.levels,
      last.1.1 = pair.1.1 ∨ side.Better pair.1.1 last.1.1 := by
    intro pair hpair
    rw [hfront] at hpair
    obtain hpair | hpair := List.mem_append.mp hpair
    · exact hsorted.2.2 pair hpair last (List.mem_singleton_self last)
    · rw [List.mem_singleton.mp hpair]
      exact .inl rfl
  refine ⟨⟨hmem, fun other hother hbetter => ?_⟩, fun pair hpair => ?_⟩
  · obtain heq | hbefore := hbefore other hother
    · rw [heq] at hbetter
      exact irrefl_of side.Better _ hbetter
    · exact irrefl_of side.Better _ (trans_of side.Better hbetter hbefore)
  · obtain heq | hbetter := hbefore pair hpair.1
    · exact heq.symm
    · exact absurd hbetter (hpair.2 last hmem)

theorem price_pos_of_mem (serum : SideLevels side) (ftx : SideLevels (sideFlip side))
    {pair : LevelPair} (h : pair ∈ profitablePairs side serum.levels ftx.levels) :
    0 < pair.1.1 ∧ 0 < pairSize pair := by
  have hfacing := (List.mem_filter.mp h).1
  obtain ⟨level, hlevel, heq⟩ := List.mem_map.mp (mem_of_mem_facing hfacing).1
  exact ⟨by rw [← heq]; exact serum.price_pos level hlevel,
    pairSize_pos serum.quantity_pos ftx.quantity_pos hfacing⟩

/-- The order is for something, at a price, within the arbitrage and within the
greatest trade size. -/
structure KeepsTradeSize (config : TakeStrategyConfig) (arbitrage : Arbitrage) (order : Order) :
    Prop where
  price_pos : 0 < order.price
  quantity_pos : 0 < order.quantity
  quantity_le : order.quantity ≤ arbitrage.arbitrageQuantity
  cost_le : order.price * order.quantity ≤ config.maxUsdTradeSize

/-- An order for a part of the pairs, at most one unit, at the price of the
last of them. -/
theorem keepsTradeSize_takeLiquidityOrder_iff (hmax : 0 < config.maxUsdTradeSize)
    (serum : SideLevels side) (ftx : SideLevels (sideFlip side)) {last : LevelPair}
    (hlast : last ∈ (profitablePairs side serum.levels ftx.levels).getLast?) :
    KeepsTradeSize config (foundArbitrage side serum.levels ftx.levels)
        (takeLiquidityOrder config tradingPairIndex side
          (foundArbitrage side serum.levels ftx.levels)) ↔
      last.1.1 ≤ config.maxUsdTradeSize ∨
        last.1.1 * totalSize (profitablePairs side serum.levels ftx.levels) ≤
          config.maxUsdTradeSize := by
  have hmem := List.mem_of_getLast? hlast
  obtain ⟨hprice, -⟩ := price_pos_of_mem serum ftx hmem
  have hsize : 0 < totalSize (profitablePairs side serum.levels ftx.levels) :=
    totalSize_pos (List.ne_nil_of_mem hmem) fun pair hpair =>
      (price_pos_of_mem serum ftx hpair).2
  have harbitrage : (foundArbitrage side serum.levels ftx.levels).arbitrageQuantity =
      totalSize (profitablePairs side serum.levels ftx.levels) := by
    rw [foundArbitrage_quantity, tradedPairs_eq_profitablePairs]
  have hquantity : (takeLiquidityOrder config tradingPairIndex side
      (foundArbitrage side serum.levels ftx.levels)).quantity =
      min (totalSize (profitablePairs side serum.levels ftx.levels)) 1 := by
    rw [takeLiquidityOrder_quantity hmax.ne', harbitrage]
  have hlimit : (takeLiquidityOrder config tradingPairIndex side
      (foundArbitrage side serum.levels ftx.levels)).price = last.1.1 := by
    show (foundArbitrage side serum.levels ftx.levels).serumTradePrice = last.1.1
    rw [foundArbitrage, serumTradePrice_foldl, tradedPairs_eq_profitablePairs, hlast]
    rfl
  have hcost : last.1.1 * min (totalSize (profitablePairs side serum.levels ftx.levels)) 1 ≤
      config.maxUsdTradeSize ↔ last.1.1 ≤ config.maxUsdTradeSize ∨
        last.1.1 * totalSize (profitablePairs side serum.levels ftx.levels) ≤
          config.maxUsdTradeSize := by
    rw [mul_min_of_nonneg _ _ hprice.le, mul_one, min_le_iff, or_comm]
  rw [← hcost]
  constructor
  · intro h
    simpa only [hquantity, hlimit] using h.cost_le
  · intro h
    exact
      { price_pos := by rwa [hlimit]
        quantity_pos := by
          rw [hquantity]
          exact lt_min hsize one_pos
        quantity_le := by
          rw [hquantity, harbitrage]
          exact min_le_left _ _
        cost_le := by rwa [hquantity, hlimit] }

/-- **The greatest trade size.** An order that a book update sends keeps to it
exactly if some levels trade at a profit, and the price of the deepest of them
is within it, or so is that price times all that trades at a profit. -/
theorem keepsTradeSize_iff (config : TakeStrategyConfig) (hmax : 0 < config.maxUsdTradeSize)
    (s : TakeStrategy) (tradingPairIndex : ℕ) (side : Side) (serum : SideLevels side)
    (ftx : SideLevels (sideFlip side)) (order : Order) (arbitrage : Arbitrage)
    (serumBook ftxBook : Book)
    (hserumBook : s.serumBooks[tradingPairIndex]? = some serumBook)
    (hftxBook : s.ftxBooks[tradingPairIndex]? = some ftxBook)
    (hserum : serumBook.get side = serum.levels)
    (hftx : ftxBook.get (sideFlip side) = ftx.levels)
    (hfind : findArbitrage side serum.levels ftx.levels = some arbitrage)
    (hsent : SendsOrder config s tradingPairIndex side order) :
    KeepsTradeSize config arbitrage order ↔
      ∃ pair, Deepest side (profitablePairs side serum.levels ftx.levels) pair ∧
        (pair.1.1 ≤ config.maxUsdTradeSize ∨
          pair.1.1 * totalSize (profitablePairs side serum.levels ftx.levels) ≤
            config.maxUsdTradeSize) := by
  obtain ⟨-, -, heq⟩ := hsent.eq hserumBook hftxBook
  rw [hserum, hftx] at heq
  obtain ⟨-, -, hfound⟩ := findArbitrage_eq_some.mp hfind
  rw [heq, ← hfound]
  cases hlast : (profitablePairs side serum.levels ftx.levels).getLast? with
  | none =>
    have hnil := List.getLast?_eq_none_iff.mp hlast
    constructor
    · intro h
      have hprice : (0 : Price) < (foundArbitrage side serum.levels ftx.levels).serumTradePrice :=
        h.price_pos
      rw [foundArbitrage, serumTradePrice_foldl, tradedPairs_eq_profitablePairs, hnil] at hprice
      exact absurd hprice (lt_irrefl 0)
    · rintro ⟨pair, hdeepest, -⟩
      rw [hnil] at hdeepest
      simp [Deepest] at hdeepest
  | some last =>
    obtain ⟨hdeepest, hsame⟩ := deepest_iff serum ftx hlast
    rw [keepsTradeSize_takeLiquidityOrder_iff hmax serum ftx hlast]
    constructor
    · intro h
      exact ⟨last, hdeepest, h⟩
    · rintro ⟨pair, hpair, h⟩
      rwa [hsame pair hpair] at h

/-- Ten at one price, and one at a worse one. -/
def tenAt (side : Side) (price far : Price) (hprice : 0 < price) (hfar : 0 < far)
    (hbetter : side.Better price far) : SideLevels side where
  levels := [⟨price, 10⟩, ⟨far, 1⟩]
  nonempty := List.cons_ne_nil _ _
  sorted := List.pairwise_pair.mpr hbetter
  price_pos := by simpa using ⟨hprice, hfar⟩
  quantity_pos := by simp

/-- Where the worse prices do not trade at a profit only the two tens do. -/
theorem profitablePairs_ten {p q far far' : Price} (hprofit : 0 < unitProfit side p q)
    (hnot : ¬ 0 < unitProfit side far far') :
    profitablePairs side [⟨p, 10⟩, ⟨far, 1⟩] [⟨q, 10⟩, ⟨far', 1⟩] = [((p, 10), (q, 10))] := by
  have hfirst : facingLevels 0 0 [⟨p, 10⟩, ⟨far, 1⟩] [⟨q, 10⟩, ⟨far', 1⟩] =
      pairOf ⟨p, 10⟩ ⟨q, 10⟩ :: facingLevels (0 + 10) (0 + 10) [⟨far, 1⟩] [⟨far', 1⟩] :=
    facingLevels_of_eq rfl
  have hsecond : facingLevels (0 + 10) (0 + 10) [⟨far, 1⟩] [⟨far', 1⟩] =
      pairOf ⟨far, 1⟩ ⟨far', 1⟩ :: facingLevels (0 + 10 + 1) (0 + 10 + 1) [] [] :=
    facingLevels_of_eq rfl
  rw [profitablePairs, hfirst, hsecond]
  simp [pairOf, pairProfit, hprofit, hnot]

/-- A bid at 90 is within the 100 of the configuration. -/
theorem keepsTradeSize_ninety :
    ∃ arbitrage, findArbitrage .bid [⟨90, 10⟩, ⟨1, 1⟩] [⟨80, 10⟩, ⟨1000, 1⟩] = some arbitrage ∧
      KeepsTradeSize TakeStrategy.solUsd arbitrage (.create 90 1 .bid .immediateOrCancel 0) := by
  have hfind : findArbitrage .bid [⟨90, 10⟩, ⟨1, 1⟩] [⟨80, 10⟩, ⟨1000, 1⟩] =
      some (foundArbitrage .bid [⟨90, 10⟩, ⟨1, 1⟩] [⟨80, 10⟩, ⟨1000, 1⟩]) :=
    findArbitrage_eq_some.mpr ⟨List.cons_ne_nil _ _, List.cons_ne_nil _ _, rfl⟩
  have hpairs : profitablePairs .bid [⟨90, 10⟩, ⟨1, 1⟩] [⟨80, 10⟩, ⟨1000, 1⟩] =
      [((90, 10), (80, 10))] := profitablePairs_ten (by decide +kernel) (by decide +kernel)
  refine ⟨_, hfind, (keepsTradeSize_iff TakeStrategy.solUsd (by decide +kernel)
    (withBooks (TakeStrategy.deepBookAt 90 91) (TakeStrategy.deepBookAt 79 80)) 0 .bid
    (tenAt .bid 90 1 (by decide +kernel) (by decide +kernel) (by decide +kernel))
    (tenAt (sideFlip .bid) 80 1000 (by decide +kernel) (by decide +kernel) (by decide +kernel))
    _ _ (TakeStrategy.deepBookAt 90 91) (TakeStrategy.deepBookAt 79 80) rfl rfl rfl rfl hfind
    (sendsOrder_of_inFlight (by decide +kernel))).mpr ⟨((90, 10), (80, 10)), ?_, ?_⟩⟩
  · refine ⟨hpairs ▸ List.mem_singleton_self _, fun other hother => ?_⟩
    have hmem : other ∈ [(((90 : Price), (10 : Quantity)), ((80 : Price), (10 : Quantity)))] :=
      hpairs ▸ hother
    rw [List.mem_singleton.mp hmem]
    exact irrefl_of Side.bid.Better _
  · exact .inl (by decide +kernel)

/-- A bid at 110 for one unit is not. -/
theorem keepsTradeSize_fails :
    SendsOrder TakeStrategy.solUsd
      (withBooks (TakeStrategy.deepBookAt 110 111) (TakeStrategy.deepBookAt 99 100)) 0 .bid
      (.create 110 1 .bid .immediateOrCancel 0) ∧
    TakeStrategy.solUsd.maxUsdTradeSize = 100 ∧
    ∀ arbitrage, ¬ KeepsTradeSize TakeStrategy.solUsd arbitrage
      (.create 110 1 .bid .immediateOrCancel 0) := by
  refine ⟨sendsOrder_of_inFlight (by decide +kernel), rfl, fun arbitrage h => ?_⟩
  have hcost : ¬ (110 : Price) * (0 + 1) ≤ 100 := by decide +kernel
  exact hcost h.cost_le

end Synthfi.Strategy
