/-
Synthfi.Strategy.WalkTheorems — the walk over two books and the order sent.

The two remainders of the loop differ as the ends of the two current levels
do, so the levels that meet in it are those that lie side by side when the
depths of the two books are laid end to end. The loop is a fold over the pairs
that face each other, up to the first that trades at no profit, for levels of
any quantity.

What the strategy does with the result follows from the pairs: whether it
reads past a book, what its order takes from the book, and whether the order
keeps to the greatest trade size.
-/
import Synthfi.Lib.Facing
import Synthfi.Strategy.ArbitrageTheorems

namespace Synthfi.Strategy

open Trading Serum Ftx Matching

/-! ## The loop as a fold -/

/-- A Serum level and an FTX level, by price and quantity. -/
abbrev LevelPair := (Price × Quantity) × (Price × Quantity)

def pairProfit (side : Side) (pair : LevelPair) : Price := unitProfit side pair.1.1 pair.2.1

def pairSize (pair : LevelPair) : Quantity := min pair.1.2 pair.2.2

/-- The pairs of levels side by side, where the current levels start at `s`
and at `t`. -/
def facingLevels (s t : Quantity) (serum ftx : SideBook) : List LevelPair :=
  facing s t (lots serum) (lots ftx)

/-- Those up to the first pair that trades at no profit. -/
def tradedPairs (side : Side) (pairs : List LevelPair) : List LevelPair :=
  pairs.takeWhile fun pair => 0 < pairProfit side pair

/-- A pass of the loop at a pair. -/
def addPair (side : Side) (arbitrage : Arbitrage) (pair : LevelPair) : Arbitrage :=
  arbitrage.add side ⟨pair.1.1, pair.1.2⟩ ⟨pair.2.1, pair.2.2⟩

/-- The remainders differ as the ends of the two levels do. -/
def InStep (s t : Quantity) (serum ftx : SideBook) (remainingSerum remainingFtx : Quantity) :
    Prop :=
  ∀ level ∈ serum.head?, ∀ level' ∈ ftx.head?,
    remainingSerum - remainingFtx = s + level.quantity - (t + level'.quantity)

variable {side : Side} {serum ftx : PriceQuantity} {serumRest ftxRest : SideBook}
  {s t remainingSerum remainingFtx nextSerum nextFtx : Quantity} {atEnd : Option Quantity}

namespace InStep

theorem ends (h : InStep s t (serum :: serumRest) (ftx :: ftxRest) remainingSerum remainingFtx) :
    remainingSerum - remainingFtx = s + serum.quantity - (t + ftx.quantity) :=
  h serum rfl ftx rfl

theorem start {serum ftx : SideBook} (hserum : quantityAt atEnd serum = some remainingSerum)
    (hftx : quantityAt atEnd ftx = some remainingFtx) :
    InStep 0 0 serum ftx remainingSerum remainingFtx := by
  intro level hlevel level' hlevel'
  rw [quantityAt_eq hserum hlevel, quantityAt_eq hftx hlevel']
  ring

/-- The Serum level ends first. -/
theorem serumUp (h : InStep s t (serum :: serumRest) (ftx :: ftxRest) remainingSerum
    remainingFtx) (hnext : quantityAt atEnd serumRest = some nextSerum) :
    InStep (s + serum.quantity) t serumRest (ftx :: ftxRest) nextSerum
      (remainingFtx - remainingSerum) := by
  intro level hlevel level' hlevel'
  obtain rfl : ftx = level' := by simpa using hlevel'
  rw [quantityAt_eq hnext hlevel]
  linarith [h.ends]

/-- The FTX level ends first. -/
theorem ftxUp (h : InStep s t (serum :: serumRest) (ftx :: ftxRest) remainingSerum
    remainingFtx) (hnext : quantityAt atEnd ftxRest = some nextFtx) :
    InStep s (t + ftx.quantity) (serum :: serumRest) ftxRest (remainingSerum - remainingFtx)
      nextFtx := by
  intro level hlevel level' hlevel'
  obtain rfl : serum = level := by simpa using hlevel
  rw [quantityAt_eq hnext hlevel']
  linarith [h.ends]

/-- Both end together. -/
theorem bothUp (h : InStep s t (serum :: serumRest) (ftx :: ftxRest) remainingSerum
    remainingFtx) (heq : remainingSerum = remainingFtx)
    (hnext : quantityAt atEnd serumRest = some nextSerum)
    (hnext' : quantityAt atEnd ftxRest = some nextFtx) :
    InStep (s + serum.quantity) (t + ftx.quantity) serumRest ftxRest nextSerum nextFtx := by
  intro level hlevel level' hlevel'
  rw [quantityAt_eq hnext hlevel, quantityAt_eq hnext' hlevel']
  linarith [h.ends]

end InStep

/-- A pair that trades at a profit is traded. -/
theorem tradedPairs_cons_pos {pair : LevelPair} {pairs : List LevelPair}
    (h : 0 < pairProfit side pair) :
    tradedPairs side (pair :: pairs) = pair :: tradedPairs side pairs := by
  simp [tradedPairs, h]

theorem tradedPairs_cons_neg {pair : LevelPair} {pairs : List LevelPair}
    (h : ¬ 0 < pairProfit side pair) : tradedPairs side (pair :: pairs) = [] := by
  simp [tradedPairs, h]

/-- The two levels as a pair. -/
def pairOf (serum ftx : PriceQuantity) : LevelPair :=
  ((serum.price, serum.quantity), (ftx.price, ftx.quantity))

theorem facingLevels_of_lt (h : s + serum.quantity < t + ftx.quantity) :
    facingLevels s t (serum :: serumRest) (ftx :: ftxRest) =
      pairOf serum ftx :: facingLevels (s + serum.quantity) t serumRest (ftx :: ftxRest) :=
  facing_of_lt h

theorem facingLevels_of_gt (h : t + ftx.quantity < s + serum.quantity) :
    facingLevels s t (serum :: serumRest) (ftx :: ftxRest) =
      pairOf serum ftx :: facingLevels s (t + ftx.quantity) (serum :: serumRest) ftxRest :=
  facing_of_gt h

theorem facingLevels_of_eq (h : s + serum.quantity = t + ftx.quantity) :
    facingLevels s t (serum :: serumRest) (ftx :: ftxRest) =
      pairOf serum ftx ::
        facingLevels (s + serum.quantity) (t + ftx.quantity) serumRest ftxRest :=
  facing_of_eq h

/-- The first levels come first. -/
theorem facingLevels_cons (s t : Quantity) (serum ftx : PriceQuantity)
    (serumRest ftxRest : SideBook) : ∃ rest,
    facingLevels s t (serum :: serumRest) (ftx :: ftxRest) = pairOf serum ftx :: rest :=
  facing_cons

@[simp] theorem facingLevels_nil_left (levels : SideBook) : facingLevels s t [] levels = [] :=
  facing_nil_left

@[simp] theorem facingLevels_nil_right (levels : SideBook) : facingLevels s t levels [] = [] :=
  facing_nil_right

/-- The loop goes through the pairs that face each other, whatever a read at the
end gives, by induction on the passes. -/
theorem eq_foldl_of_walk {passes : ℕ} {serum ftx : SideBook} {arbitrage result : Arbitrage}
    (hwalk : arbitrageWalk atEnd side passes serum ftx remainingSerum remainingFtx arbitrage =
      some result)
    (h : InStep s t serum ftx remainingSerum remainingFtx) :
    result = (tradedPairs side (facingLevels s t serum ftx)).foldl (addPair side) arbitrage := by
  induction passes generalizing serum ftx s t remainingSerum remainingFtx arbitrage with
  | zero => simp [arbitrageWalk] at hwalk
  | succ passes ih =>
    cases serum with
    | nil =>
      obtain rfl := Option.some.inj (arbitrageWalk_nil_left.symm.trans hwalk)
      simp [tradedPairs]
    | cons serum serumRest =>
      cases ftx with
      | nil =>
        obtain rfl := Option.some.inj (arbitrageWalk_nil_right.symm.trans hwalk)
        simp [tradedPairs]
      | cons ftx ftxRest =>
        have hends := h.ends
        cases pass_of_walk hwalk with
        | stop hunit hfound =>
          have hprofit : ¬ 0 < pairProfit side (pairOf serum ftx) := hunit
          obtain ⟨rest, hrest⟩ := facingLevels_cons s t serum ftx serumRest ftxRest
          rw [hfound, hrest, tradedPairs_cons_neg hprofit]
          rfl
        | serumUp hunit hlt hnext hwalk =>
          have hprofit : 0 < pairProfit side (pairOf serum ftx) := hunit
          have hend : s + serum.quantity < t + ftx.quantity := by linarith
          rw [ih hwalk (h.serumUp hnext), facingLevels_of_lt hend, tradedPairs_cons_pos hprofit]
          rfl
        | bothUp hunit heq hnext hnext' hwalk =>
          have hprofit : 0 < pairProfit side (pairOf serum ftx) := hunit
          have hend : s + serum.quantity = t + ftx.quantity := by linarith
          rw [ih hwalk (h.bothUp heq hnext hnext'), facingLevels_of_eq hend,
            tradedPairs_cons_pos hprofit]
          rfl
        | ftxUp hunit hlt hnext hwalk =>
          have hprofit : 0 < pairProfit side (pairOf serum ftx) := hunit
          have hend : t + ftx.quantity < s + serum.quantity := by linarith
          rw [ih hwalk (h.ftxUp hnext), facingLevels_of_gt hend, tradedPairs_cons_pos hprofit]
          rfl

/-! ## The end of the books -/

/-- Some pair of levels side by side does not trade at a profit. -/
def MeetsUnprofitable (side : Side) (pairs : List LevelPair) : Prop :=
  ∃ pair ∈ pairs, ¬ 0 < pairProfit side pair

theorem meetsUnprofitable_cons_pos {pair : LevelPair} {pairs : List LevelPair}
    (h : 0 < pairProfit side pair) :
    MeetsUnprofitable side (pair :: pairs) ↔ MeetsUnprofitable side pairs := by
  simp [MeetsUnprofitable, h]

/-- A walk with its reads checked that ends has met an unprofitable pair, by
induction on the passes. -/
theorem meetsUnprofitable_of_walk {passes : ℕ} {arbitrage result : Arbitrage}
    (hwalk : arbitrageWalk none side passes (serum :: serumRest) (ftx :: ftxRest) remainingSerum
      remainingFtx arbitrage = some result)
    (h : InStep s t (serum :: serumRest) (ftx :: ftxRest) remainingSerum remainingFtx) :
    MeetsUnprofitable side (facingLevels s t (serum :: serumRest) (ftx :: ftxRest)) := by
  induction passes generalizing serum ftx serumRest ftxRest s t remainingSerum remainingFtx
    arbitrage with
  | zero => simp [arbitrageWalk] at hwalk
  | succ passes ih =>
    have hends := h.ends
    cases pass_of_walk hwalk with
    | stop hunit hfound =>
      have hprofit : ¬ 0 < pairProfit side (pairOf serum ftx) := hunit
      obtain ⟨rest, hrest⟩ := facingLevels_cons s t serum ftx serumRest ftxRest
      rw [hrest]
      exact ⟨_, List.mem_cons_self, hprofit⟩
    | serumUp hunit hlt hnext hwalk =>
      have hprofit : 0 < pairProfit side (pairOf serum ftx) := hunit
      have hend : s + serum.quantity < t + ftx.quantity := by linarith
      rw [facingLevels_of_lt hend, meetsUnprofitable_cons_pos hprofit]
      cases serumRest with
      | nil => cases hnext
      | cons next serumRest => exact ih hwalk (h.serumUp hnext)
    | bothUp hunit heq hnext hnext' hwalk =>
      have hprofit : 0 < pairProfit side (pairOf serum ftx) := hunit
      have hend : s + serum.quantity = t + ftx.quantity := by linarith
      rw [facingLevels_of_eq hend, meetsUnprofitable_cons_pos hprofit]
      cases serumRest with
      | nil => cases hnext
      | cons next serumRest =>
        cases ftxRest with
        | nil => cases hnext'
        | cons next' ftxRest => exact ih hwalk (h.bothUp heq hnext hnext')
    | ftxUp hunit hlt hnext hwalk =>
      have hprofit : 0 < pairProfit side (pairOf serum ftx) := hunit
      have hend : t + ftx.quantity < s + serum.quantity := by linarith
      rw [facingLevels_of_gt hend, meetsUnprofitable_cons_pos hprofit]
      cases ftxRest with
      | nil => cases hnext
      | cons next ftxRest => exact ih hwalk (h.ftxUp hnext)

/-- The walk stops inside both books if it meets an unprofitable pair, within
as many passes as there are levels. -/
theorem exists_walk_of_meetsUnprofitable {passes : ℕ} (arbitrage : Arbitrage)
    (hpasses : serumRest.length + ftxRest.length < passes)
    (h : InStep s t (serum :: serumRest) (ftx :: ftxRest) remainingSerum remainingFtx)
    (hmeets : MeetsUnprofitable side (facingLevels s t (serum :: serumRest) (ftx :: ftxRest))) :
    ∃ result, arbitrageWalk none side passes (serum :: serumRest) (ftx :: ftxRest) remainingSerum
      remainingFtx arbitrage = some result := by
  induction passes generalizing serum ftx serumRest ftxRest s t remainingSerum remainingFtx
    arbitrage with
  | zero => omega
  | succ passes ih =>
    have hends := h.ends
    by_cases hprofit : 0 < pairProfit side (pairOf serum ftx)
    · rw [arbitrageWalk_cons_pos arbitrage hprofit]
      obtain hlt | heq | hlt := lt_trichotomy remainingSerum remainingFtx
      · have hend : s + serum.quantity < t + ftx.quantity := by linarith
        rw [facingLevels_of_lt hend, meetsUnprofitable_cons_pos hprofit] at hmeets
        rw [if_pos hlt]
        cases serumRest with
        | nil => simp [MeetsUnprofitable] at hmeets
        | cons next serumRest =>
          exact ih _ (by simp only [List.length_cons] at hpasses; omega)
            (h.serumUp (quantityAt_cons none next serumRest)) hmeets
      · have hend : s + serum.quantity = t + ftx.quantity := by linarith
        rw [facingLevels_of_eq hend, meetsUnprofitable_cons_pos hprofit] at hmeets
        rw [if_neg heq.not_lt, if_neg heq.not_gt]
        cases serumRest with
        | nil => simp [MeetsUnprofitable] at hmeets
        | cons next serumRest =>
          cases ftxRest with
          | nil => simp [MeetsUnprofitable] at hmeets
          | cons next' ftxRest =>
            exact ih _ (by simp only [List.length_cons] at hpasses; omega)
              (h.bothUp heq (quantityAt_cons none next serumRest)
                (quantityAt_cons none next' ftxRest)) hmeets
      · have hend : t + ftx.quantity < s + serum.quantity := by linarith
        rw [facingLevels_of_gt hend, meetsUnprofitable_cons_pos hprofit] at hmeets
        rw [if_neg hlt.asymm, if_pos hlt]
        cases ftxRest with
        | nil => simp [MeetsUnprofitable] at hmeets
        | cons next ftxRest =>
          exact ih _ (by simp only [List.length_cons] at hpasses; omega)
            (h.ftxUp (quantityAt_cons none next ftxRest)) hmeets
    · exact ⟨arbitrage, arbitrageWalk_cons_neg arbitrage hprofit⟩

/-- What the loop finds in two books that are not empty. -/
def foundArbitrage (side : Side) (serum ftx : SideBook) : Arbitrage :=
  (tradedPairs side (facingLevels 0 0 serum ftx)).foldl (addPair side) .zero

/-- Whatever a read at the end gives, the loop finds the same. -/
theorem eq_foundArbitrage_of_walkBooks {passes : ℕ} {serum ftx : SideBook} {arbitrage : Arbitrage}
    (h : walkBooks atEnd side passes serum ftx = some arbitrage) :
    arbitrage = foundArbitrage side serum ftx := by
  obtain ⟨remainingSerum, hserum, h⟩ := Option.bind_eq_some_iff.mp h
  obtain ⟨remainingFtx, hftx, h⟩ := Option.bind_eq_some_iff.mp h
  exact eq_foldl_of_walk h (InStep.start hserum hftx)

/-- The walk over two books that are not empty finds what the pairs traded add up to. -/
theorem findArbitrage_eq_some {serum ftx : SideBook} {arbitrage : Arbitrage} :
    findArbitrage side serum ftx = some arbitrage ↔
      serum ≠ [] ∧ ftx ≠ [] ∧ foundArbitrage side serum ftx = arbitrage := by
  cases serum with
  | nil => simp [findArbitrage]
  | cons serum serumRest =>
    cases ftx with
    | nil => simp [findArbitrage]
    | cons ftx ftxRest =>
      obtain ⟨found, hwalk⟩ :=
        exists_walkBooks side 0 (List.cons_ne_nil serum serumRest) (ftx :: ftxRest)
      have hfind : findArbitrage side (serum :: serumRest) (ftx :: ftxRest) = some found := hwalk
      rw [hfind, eq_foundArbitrage_of_walkBooks hwalk]
      simp

/-- Every pass reads inside both books. -/
def WalksInside (side : Side) (serum ftx : SideBook) : Prop :=
  ∃ passes arbitrage, walkBooks none side passes serum ftx = some arbitrage

theorem InStep.cons (serum ftx : PriceQuantity) (serumRest ftxRest : SideBook) :
    InStep 0 0 (serum :: serumRest) (ftx :: ftxRest) serum.quantity ftx.quantity :=
  InStep.start (quantityAt_cons none serum serumRest) (quantityAt_cons none ftx ftxRest)

/-- As many passes as there are levels are enough. -/
theorem exists_walkBooks_iff {passes : ℕ} (hpasses : serumRest.length + ftxRest.length < passes) :
    (∃ arbitrage, walkBooks none side passes (serum :: serumRest) (ftx :: ftxRest) =
        some arbitrage) ↔
      MeetsUnprofitable side (facingLevels 0 0 (serum :: serumRest) (ftx :: ftxRest)) := by
  constructor
  · rintro ⟨arbitrage, h⟩
    exact meetsUnprofitable_of_walk h (.cons serum ftx serumRest ftxRest)
  · exact exists_walk_of_meetsUnprofitable .zero hpasses (.cons serum ftx serumRest ftxRest)

/-- A walk from the first levels stays inside exactly if it meets an unprofitable pair.
-/
theorem walksInside_cons_iff :
    WalksInside side (serum :: serumRest) (ftx :: ftxRest) ↔
      MeetsUnprofitable side (facingLevels 0 0 (serum :: serumRest) (ftx :: ftxRest)) := by
  constructor
  · rintro ⟨passes, arbitrage, h⟩
    exact meetsUnprofitable_of_walk h (.cons serum ftx serumRest ftxRest)
  · intro h
    exact ⟨_, (exists_walkBooks_iff (Nat.lt_succ_self _)).mpr h⟩

/-- The checked walk succeeds where a book is empty or an unprofitable pair is met. -/
theorem readsInside_iff {serum ftx : SideBook} :
    readsInside side serum ftx ↔
      serum = [] ∨ ftx = [] ∨ MeetsUnprofitable side (facingLevels 0 0 serum ftx) := by
  cases serum with
  | nil => simp [readsInside]
  | cons serum serumRest =>
    cases ftx with
    | nil => simp [readsInside]
    | cons ftx ftxRest =>
      have hpasses : serumRest.length + ftxRest.length <
          (serum :: serumRest).length + (ftx :: ftxRest).length := by
        simp only [List.length_cons]
        omega
      simp only [readsInside, List.isEmpty_cons, Bool.false_or, reduceCtorEq, false_or]
      rw [← exists_walkBooks_iff hpasses, Option.isSome_iff_exists]

/-- Where every level holds something, the levels side by side are those whose
ranges overlap. -/
theorem mem_facingLevels_iff {serum ftx : SideBook} (hserum : ∀ level ∈ serum, 0 < level.quantity)
    (hftx : ∀ level ∈ ftx, 0 < level.quantity) {lot lot' : Price × Quantity} :
    (lot, lot') ∈ facingLevels 0 0 serum ftx ↔ Opposite 0 0 (lots serum) (lots ftx) lot lot' := by
  have hlots : ∀ {levels : SideBook}, (∀ level ∈ levels, 0 < level.quantity) →
      ∀ lot ∈ lots levels, 0 < lot.2 := by
    intro levels h lot hlot
    obtain ⟨level, hlevel, rfl⟩ := List.mem_map.mp hlot
    exact h level hlevel
  refine mem_facing_iff (hlots hserum) (hlots hftx) ?_
  intro front hfront front' hfront'
  have hpos := hlots hserum front (List.mem_of_mem_head? hfront)
  have hpos' := hlots hftx front' (List.mem_of_mem_head? hfront')
  exact ⟨by linarith, by linarith⟩

/-- **The walk over two books.** For all pairs of books that are not empty the
loop of both strategies ends, and reads inside both books, exactly if two
levels that lie side by side do not trade at a profit. What it then finds is
what the two strategies work with. -/
theorem walksInside_iff (side : Side) (serum ftx : PriceQuantity) (serumRest ftxRest : SideBook) :
    (WalksInside side (serum :: serumRest) (ftx :: ftxRest) ↔
      ∃ pair ∈ facingLevels 0 0 (serum :: serumRest) (ftx :: ftxRest),
        pairProfit side pair ≤ 0) ∧
    ∀ passes arbitrage, walkBooks none side passes (serum :: serumRest) (ftx :: ftxRest) =
        some arbitrage →
      findArbitrage side (serum :: serumRest) (ftx :: ftxRest) = some arbitrage ∧
      ∀ tradingPairIndex, ∃ measurement,
        BacktestStrategy.arbitrageMeasurement side tradingPairIndex (serum :: serumRest)
          (ftx :: ftxRest) = some measurement ∧
        measurement.arbitrageQuantity = arbitrage.arbitrageQuantity ∧
        measurement.expectedProfit = arbitrage.expectedProfit := by
  constructor
  · rw [walksInside_cons_iff]
    simp only [MeetsUnprofitable, not_lt]
  · intro passes arbitrage h
    have hfind : findArbitrage side (serum :: serumRest) (ftx :: ftxRest) = some arbitrage :=
      findArbitrage_eq_some.mpr ⟨List.cons_ne_nil _ _, List.cons_ne_nil _ _,
        (eq_foundArbitrage_of_walkBooks h).symm⟩
    refine ⟨hfind, fun tradingPairIndex => ⟨_, by
      rw [BacktestStrategy.arbitrageMeasurement, hfind, Option.map_some], rfl, rfl⟩⟩

/-- One unit bid, and one offered below: both books are used up at a profit,
and both iterators are read at the end. -/
theorem walksInside_fails : ¬ WalksInside .bid [⟨110, 1⟩] [⟨100, 1⟩] := by
  rw [(walksInside_iff ..).1]
  have hfacing : facingLevels 0 0 [⟨110, 1⟩] [⟨100, 1⟩] = [((110, 1), (100, 1))] := by
    have hboth : facingLevels 0 0 [⟨110, 1⟩] [⟨100, 1⟩] =
        pairOf ⟨110, 1⟩ ⟨100, 1⟩ :: facingLevels (0 + 1) (0 + 1) [] [] := facingLevels_of_eq rfl
    simpa [pairOf] using hboth
  have hprofit : 0 < pairProfit .bid ((110, 1), (100, 1)) := by decide +kernel
  rw [hfacing]
  simpa using hprofit

end Synthfi.Strategy
