/-
Synthfi.Strategy.ArbitrageTheorems — the size of an arbitrage.

The loop of `do_book_update` keeps what remains of the two current levels and
steps over the one that is used up, as greedy matching does; what it adds at
each pass is the smaller of the two levels as they stood in the books.
`arbitrage_iff` finds the pairs of books for which that comes to the same:
of two levels that trade with each other, one covers a part of the depth of
its book that lies within the part the other covers.
-/
import Synthfi.Lib.Matching
import Synthfi.Strategy.BacktestStrategy

namespace Synthfi.Strategy

open Trading Serum Ftx Matching

/-! ## Books as lots -/

/-- One side of a book, best level first, with distinct prices. -/
structure SideLevels (side : Side) where
  levels : SideBook
  nonempty : levels ≠ []
  sorted : SortedVec.SortedBy side.Better PriceQuantity.price levels
  price_pos : ∀ level ∈ levels, 0 < level.price
  quantity_pos : ∀ level ∈ levels, 0 < level.quantity

def lots (levels : SideBook) : List (Price × Quantity) :=
  levels.map fun level => (level.price, level.quantity)

@[simp] theorem lots_nil : lots [] = [] := rfl

@[simp] theorem lots_cons (level : PriceQuantity) (levels : SideBook) :
    lots (level :: levels) = (level.price, level.quantity) :: lots levels := rfl

/-- The profit of one unit after both taker fees. -/
def unitProfit (side : Side) (serumPrice ftxPrice : Price) : Price :=
  let serumFee := serumPrice * serumTakerFee
  let ftxFee := ftxPrice * ftxTakerFee
  if side = .bid then serumPrice - (ftxPrice + ftxFee + serumFee)
  else ftxPrice - (serumPrice + ftxFee + serumFee)

theorem unprofitable_iff (side : Side) (serumPrice ftxPrice : Price) :
    unprofitable side serumPrice ftxPrice (serumPrice * serumTakerFee) (ftxPrice * ftxTakerFee) ↔
      ¬ 0 < unitProfit side serumPrice ftxPrice := by
  unfold unprofitable unitProfit
  split
  · simp only [decide_eq_true_eq, not_lt]
    constructor <;> intro h <;> linarith
  · simp only [decide_eq_true_eq, not_lt]
    constructor <;> intro h <;> linarith

/-- A level behind another trades at no better a profit. -/
theorem unitProfit_le {side : Side} {serum serum' ftx ftx' : Price}
    (hserum : serum' = serum ∨ side.Better serum serum')
    (hftx : ftx' = ftx ∨ (sideFlip side).Better ftx ftx') :
    unitProfit side serum' ftx' ≤ unitProfit side serum ftx := by
  unfold unitProfit serumTakerFee ftxTakerFee
  by_cases hside : side = .bid
  · simp only [Side.Better, sideFlip, hside, if_true, reduceCtorEq, if_false] at *
    obtain rfl | hserum := hserum <;> obtain rfl | hftx := hftx <;> linarith
  · simp only [Side.Better, sideFlip, hside, if_true, if_false] at *
    obtain rfl | hserum := hserum <;> obtain rfl | hftx := hftx <;> linarith

/-! ## Whole levels and what remains of them -/

/-- What the loop adds, against what is matched: never less, and the same
exactly under `aligned`. -/
def Measures (gained matched : Quantity × Price) (aligned : Prop) : Prop :=
  matched.1 ≤ gained.1 ∧ matched.2 ≤ gained.2 ∧ (gained = matched ↔ aligned)

theorem Measures.zero {aligned : Prop} (h : aligned) : Measures (0, 0) (0, 0) aligned :=
  ⟨le_rfl, le_rfl, iff_of_true rfl h⟩

/-- One pass in front of the others: the whole size counts for the part that
is matched. -/
theorem Measures.add {gained matched : Quantity × Price} {aligned front : Prop}
    {profit : Price} {whole part : Quantity} (h : Measures gained matched aligned)
    (hprofit : 0 < profit) (hpart : part ≤ whole) (hfront : front ↔ part = whole) :
    Measures (whole + gained.1, profit * whole + gained.2)
      (part + matched.1, profit * part + matched.2) (front ∧ aligned) := by
  obtain ⟨hquantity, hvalue, hexact⟩ := h
  have hmul : profit * part ≤ profit * whole := mul_le_mul_of_nonneg_left hpart hprofit.le
  refine ⟨add_le_add hpart hquantity, add_le_add hmul hvalue, ?_⟩
  rw [← hexact, hfront, Prod.mk.injEq, Prod.ext_iff]
  constructor
  · rintro ⟨hsum, hsum'⟩
    obtain rfl : part = whole := by linarith
    exact ⟨rfl, by linarith, by linarith⟩
  · rintro ⟨rfl, heq, heq'⟩
    rw [heq, heq']
    exact ⟨rfl, rfl⟩

/-- The lots of a book side when `remaining` is left of the first. -/
def cut (remaining : Quantity) : SideBook → List (Price × Quantity)
  | [] => []
  | level :: levels => (level.price, remaining) :: lots levels

/-- Where the loop stands: behind `s` of the depth of the Serum side and
behind `t` of that of the FTX side, each with what remains of its level. -/
structure Position (side : Side) (serum ftx : SideBook) (s t : Quantity)
    (remainingSerum remainingFtx : Quantity) : Prop where
  serum_sorted : SortedVec.SortedBy side.Better PriceQuantity.price serum
  ftx_sorted : SortedVec.SortedBy (sideFlip side).Better PriceQuantity.price ftx
  serum_pos : ∀ level ∈ serum, 0 < level.quantity
  ftx_pos : ∀ level ∈ ftx, 0 < level.quantity
  serum_remaining : ∀ level ∈ serum.head?, remainingSerum = s + level.quantity - max s t
  ftx_remaining : ∀ level ∈ ftx.head?, remainingFtx = t + level.quantity - max s t
  serum_lt : ∀ level ∈ serum.head?, t < s + level.quantity
  ftx_lt : ∀ level ∈ ftx.head?, s < t + level.quantity

theorem quantityAt_cons (atEnd : Option Quantity) (level : PriceQuantity) (levels : SideBook) :
    quantityAt atEnd (level :: levels) = some level.quantity := rfl

/-- What is read at a level is its quantity. -/
theorem quantityAt_eq {atEnd : Option Quantity} {levels : SideBook} {level : PriceQuantity}
    {quantity : Quantity} (h : quantityAt atEnd levels = some quantity)
    (hlevel : level ∈ levels.head?) : quantity = level.quantity := by
  obtain ⟨rest, rfl⟩ := List.head?_eq_some_iff.mp hlevel
  exact (Option.some.inj h).symm

namespace Position

variable {side : Side} {serum ftx : PriceQuantity} {serumRest ftxRest : SideBook}
  {s t remainingSerum remainingFtx nextSerum nextFtx : Quantity} {atEnd : Option Quantity}

/-- What remains is what the two levels share and what lies behind it. -/
theorem remaining (h : Position side (serum :: serumRest) (ftx :: ftxRest) s t remainingSerum
    remainingFtx) :
    remainingSerum = s + serum.quantity - max s t ∧ remainingFtx = t + ftx.quantity - max s t :=
  ⟨h.serum_remaining serum rfl, h.ftx_remaining ftx rfl⟩

/-- The Serum level is used up first. -/
theorem serumUp (h : Position side (serum :: serumRest) (ftx :: ftxRest) s t remainingSerum
    remainingFtx) (hlt : remainingSerum < remainingFtx)
    (hnext : quantityAt atEnd serumRest = some nextSerum) :
    Position side serumRest (ftx :: ftxRest) (s + serum.quantity) t nextSerum
      (remainingFtx - remainingSerum) := by
  obtain ⟨hserum, hftx⟩ := h.remaining
  have hover := h.serum_lt serum rfl
  have hrest := (List.forall_mem_cons.mp h.serum_pos).2
  refine ⟨h.serum_sorted.of_cons, h.ftx_sorted, hrest, h.ftx_pos, ?_, ?_, ?_, ?_⟩
  · intro level hlevel
    rw [quantityAt_eq hnext hlevel, max_eq_left hover.le, add_sub_cancel_left]
  · intro level hlevel
    obtain rfl : ftx = level := Option.some.inj hlevel
    rw [max_eq_left hover.le]
    linarith
  · intro level hlevel
    have hpos := hrest level (List.mem_of_head? hlevel)
    linarith
  · intro level hlevel
    obtain rfl : ftx = level := Option.some.inj hlevel
    linarith

/-- The FTX level is used up first. -/
theorem ftxUp (h : Position side (serum :: serumRest) (ftx :: ftxRest) s t remainingSerum
    remainingFtx) (hlt : remainingFtx < remainingSerum)
    (hnext : quantityAt atEnd ftxRest = some nextFtx) :
    Position side (serum :: serumRest) ftxRest s (t + ftx.quantity)
      (remainingSerum - remainingFtx) nextFtx := by
  obtain ⟨hserum, hftx⟩ := h.remaining
  have hover := h.ftx_lt ftx rfl
  have hrest := (List.forall_mem_cons.mp h.ftx_pos).2
  refine ⟨h.serum_sorted, h.ftx_sorted.of_cons, h.serum_pos, hrest, ?_, ?_, ?_, ?_⟩
  · intro level hlevel
    obtain rfl : serum = level := Option.some.inj hlevel
    rw [max_eq_right hover.le]
    linarith
  · intro level hlevel
    rw [quantityAt_eq hnext hlevel, max_eq_right hover.le, add_sub_cancel_left]
  · intro level hlevel
    obtain rfl : serum = level := Option.some.inj hlevel
    linarith
  · intro level hlevel
    have hpos := hrest level (List.mem_of_head? hlevel)
    linarith

/-- Both levels are used up at once. -/
theorem bothUp (h : Position side (serum :: serumRest) (ftx :: ftxRest) s t remainingSerum
    remainingFtx) (heq : remainingSerum = remainingFtx)
    (hnext : quantityAt atEnd serumRest = some nextSerum)
    (hnext' : quantityAt atEnd ftxRest = some nextFtx) :
    s + serum.quantity = t + ftx.quantity ∧
      Position side serumRest ftxRest (s + serum.quantity) (t + ftx.quantity) nextSerum
        nextFtx := by
  obtain ⟨hserum, hftx⟩ := h.remaining
  have hend : s + serum.quantity = t + ftx.quantity := by linarith
  have hserumRest := (List.forall_mem_cons.mp h.serum_pos).2
  have hftxRest := (List.forall_mem_cons.mp h.ftx_pos).2
  refine ⟨hend, h.serum_sorted.of_cons, h.ftx_sorted.of_cons, hserumRest, hftxRest, ?_, ?_, ?_, ?_⟩
  · intro level hlevel
    rw [quantityAt_eq hnext hlevel, hend, max_self, add_sub_cancel_left]
  · intro level hlevel
    rw [quantityAt_eq hnext' hlevel, hend, max_self, add_sub_cancel_left]
  · intro level hlevel
    have hpos := hserumRest level (List.mem_of_head? hlevel)
    linarith
  · intro level hlevel
    have hpos := hftxRest level (List.mem_of_head? hlevel)
    linarith

/-- Where the first pair does not trade at a profit, none does. -/
theorem not_pos (h : Position side (serum :: serumRest) (ftx :: ftxRest) s t remainingSerum
    remainingFtx) (hfront : ¬ 0 < unitProfit side serum.price ftx.price) :
    Aligned (unitProfit side) s t (lots (serum :: serumRest)) (lots (ftx :: ftxRest)) := by
  refine aligned_of_not_pos fun lot hlot lot' hlot' hpos => hfront (hpos.trans_le ?_)
  obtain ⟨level, hlevel, rfl⟩ := List.mem_map.mp hlot
  obtain ⟨level', hlevel', rfl⟩ := List.mem_map.mp hlot'
  apply unitProfit_le
  · obtain rfl | hmem := List.mem_cons.mp hlevel
    · exact .inl rfl
    · exact .inr (List.rel_of_pairwise_cons h.serum_sorted hmem)
  · obtain rfl | hmem := List.mem_cons.mp hlevel'
    · exact .inl rfl
    · exact .inr (List.rel_of_pairwise_cons h.ftx_sorted hmem)

end Position

/-! ## The loop -/

/-- What the loop has added to the quantity and to the profit. -/
def gained (before after : Arbitrage) : Quantity × Price :=
  (after.arbitrageQuantity - before.arbitrageQuantity, after.expectedProfit - before.expectedProfit)

theorem gained_self (arbitrage : Arbitrage) : gained arbitrage arbitrage = (0, 0) := by
  simp [gained]

/-- A pass adds the size of the whole levels. -/
theorem gained_add (side : Side) (serum ftx : PriceQuantity) (before after : Arbitrage) :
    gained before after =
      (min serum.quantity ftx.quantity + (gained (before.add side serum ftx) after).1,
        unitProfit side serum.price ftx.price * min serum.quantity ftx.quantity +
          (gained (before.add side serum ftx) after).2) := by
  refine Prod.ext ?_ ?_
  · simp only [gained, Arbitrage.add]
    ring
  · simp only [gained, Arbitrage.add, unitProfit]
    split <;> ring

@[simp] theorem cut_nil (remaining : Quantity) : cut remaining [] = [] := rfl

@[simp] theorem cut_cons (remaining : Quantity) (level : PriceQuantity) (levels : SideBook) :
    cut remaining (level :: levels) = (level.price, remaining) :: lots levels := rfl

theorem cut_quantityAt {atEnd : Option Quantity} {levels : SideBook} {quantity : Quantity}
    (h : quantityAt atEnd levels = some quantity) : cut quantity levels = lots levels := by
  cases levels with
  | nil => rfl
  | cons level levels => rw [cut_cons, quantityAt_eq h rfl, lots_cons]

theorem lots_pos {levels : SideBook} (h : ∀ level ∈ levels, 0 < level.quantity) :
    ∀ lot ∈ lots levels, 0 ≤ lot.2 := by
  intro lot hlot
  obtain ⟨level, hlevel, rfl⟩ := List.mem_map.mp hlot
  exact (h level hlevel).le

/-- The pass at a profitable pair, in front of what `h` says of the rest. -/
theorem measures_pass {side : Side} {serum ftx : PriceQuantity} {serumRest ftxRest : SideBook}
    {s t remainingSerum remainingFtx : Quantity} (before : Arbitrage) {after : Arbitrage}
    {matched : Quantity × Price} {aligned : Prop}
    (hposition : Position side (serum :: serumRest) (ftx :: ftxRest) s t remainingSerum
      remainingFtx)
    (hprofit : 0 < unitProfit side serum.price ftx.price)
    (h : Measures (gained (before.add side serum ftx) after) matched aligned) :
    Measures (gained before after)
      (min remainingSerum remainingFtx + matched.1,
        unitProfit side serum.price ftx.price * min remainingSerum remainingFtx + matched.2)
      ((0 < unitProfit side serum.price ftx.price → Fits s serum.quantity t ftx.quantity) ∧
        aligned) := by
  obtain ⟨hserum, hftx⟩ := hposition.remaining
  have hfits := fits_iff (hposition.ftx_lt ftx rfl) (hposition.serum_lt serum rfl)
  rw [← hserum, ← hftx] at hfits
  rw [gained_add side serum ftx]
  refine h.add hprofit (min_le_min ?_ ?_) ?_
  · have := le_max_left s t
    linarith
  · have := le_max_right s t
    linarith
  · rw [← hfits]
    exact ⟨fun hfront => hfront hprofit, fun hfront _ => hfront⟩

section Passes

variable {atEnd : Option Quantity} {side : Side} {passes : ℕ} {serum ftx : PriceQuantity}
  {serumRest ftxRest : SideBook} {s t remainingSerum remainingFtx : Quantity}

theorem arbitrageWalk_cons_neg (arbitrage : Arbitrage)
    (h : ¬ 0 < unitProfit side serum.price ftx.price) :
    arbitrageWalk atEnd side (passes + 1) (serum :: serumRest) (ftx :: ftxRest) remainingSerum
      remainingFtx arbitrage = some arbitrage := by
  rw [arbitrageWalk, if_pos ((unprofitable_iff side serum.price ftx.price).mpr h)]

/-- A pass at a profitable pair steps over the level with less left, or over both. -/
theorem arbitrageWalk_cons_pos (arbitrage : Arbitrage)
    (h : 0 < unitProfit side serum.price ftx.price) :
    arbitrageWalk atEnd side (passes + 1) (serum :: serumRest) (ftx :: ftxRest) remainingSerum
        remainingFtx arbitrage =
      if remainingSerum < remainingFtx then
        (quantityAt atEnd serumRest).bind fun nextSerum =>
          arbitrageWalk atEnd side passes serumRest (ftx :: ftxRest) nextSerum
            (remainingFtx - remainingSerum) (arbitrage.add side serum ftx)
      else if remainingFtx < remainingSerum then
        (quantityAt atEnd ftxRest).bind fun nextFtx =>
          arbitrageWalk atEnd side passes (serum :: serumRest) ftxRest
            (remainingSerum - remainingFtx) nextFtx (arbitrage.add side serum ftx)
      else
        (quantityAt atEnd serumRest).bind fun nextSerum =>
          (quantityAt atEnd ftxRest).bind fun nextFtx =>
            arbitrageWalk atEnd side passes serumRest ftxRest nextSerum nextFtx
              (arbitrage.add side serum ftx) := by
  rw [arbitrageWalk, if_neg fun hnot => (unprofitable_iff side serum.price ftx.price).mp hnot h]

variable (atEnd side passes serum ftx serumRest ftxRest remainingSerum remainingFtx)

/-- Everything a pass of a loop that ends in `result` can do. -/
inductive Pass (arbitrage result : Arbitrage) : Prop
  | stop (unprofitable : ¬ 0 < unitProfit side serum.price ftx.price)
      (found : result = arbitrage)
  | serumUp {nextSerum : Quantity} (profitable : 0 < unitProfit side serum.price ftx.price)
      (ends : remainingSerum < remainingFtx) (next : quantityAt atEnd serumRest = some nextSerum)
      (walk : arbitrageWalk atEnd side passes serumRest (ftx :: ftxRest) nextSerum
        (remainingFtx - remainingSerum) (arbitrage.add side serum ftx) = some result)
  | bothUp {nextSerum nextFtx : Quantity}
      (profitable : 0 < unitProfit side serum.price ftx.price)
      (ends : remainingSerum = remainingFtx) (next : quantityAt atEnd serumRest = some nextSerum)
      (next' : quantityAt atEnd ftxRest = some nextFtx)
      (walk : arbitrageWalk atEnd side passes serumRest ftxRest nextSerum nextFtx
        (arbitrage.add side serum ftx) = some result)
  | ftxUp {nextFtx : Quantity} (profitable : 0 < unitProfit side serum.price ftx.price)
      (ends : remainingFtx < remainingSerum) (next : quantityAt atEnd ftxRest = some nextFtx)
      (walk : arbitrageWalk atEnd side passes (serum :: serumRest) ftxRest
        (remainingSerum - remainingFtx) nextFtx (arbitrage.add side serum ftx) = some result)

variable {atEnd side passes serum ftx serumRest ftxRest remainingSerum remainingFtx}

theorem pass_of_walk {arbitrage result : Arbitrage}
    (hwalk : arbitrageWalk atEnd side (passes + 1) (serum :: serumRest) (ftx :: ftxRest)
      remainingSerum remainingFtx arbitrage = some result) :
    Pass atEnd side passes serum ftx serumRest ftxRest remainingSerum remainingFtx arbitrage
      result := by
  by_cases hprofit : 0 < unitProfit side serum.price ftx.price
  · rw [arbitrageWalk_cons_pos arbitrage hprofit] at hwalk
    obtain hlt | heq | hlt := lt_trichotomy remainingSerum remainingFtx
    · rw [if_pos hlt] at hwalk
      obtain ⟨nextSerum, hnext, hwalk⟩ := Option.bind_eq_some_iff.mp hwalk
      exact .serumUp hprofit hlt hnext hwalk
    · rw [if_neg heq.not_lt, if_neg heq.not_gt] at hwalk
      obtain ⟨nextSerum, hnext, hwalk⟩ := Option.bind_eq_some_iff.mp hwalk
      obtain ⟨nextFtx, hnext', hwalk⟩ := Option.bind_eq_some_iff.mp hwalk
      exact .bothUp hprofit heq hnext hnext' hwalk
    · rw [if_neg hlt.asymm, if_pos hlt] at hwalk
      obtain ⟨nextFtx, hnext, hwalk⟩ := Option.bind_eq_some_iff.mp hwalk
      exact .ftxUp hprofit hlt hnext hwalk
  · rw [arbitrageWalk_cons_neg arbitrage hprofit] at hwalk
    exact .stop hprofit (Option.some.inj hwalk).symm

end Passes

theorem arbitrageWalk_nil_left {atEnd : Option Quantity} {side : Side} {passes : ℕ}
    {ftx : SideBook} {remainingSerum remainingFtx : Quantity} {arbitrage : Arbitrage} :
    arbitrageWalk atEnd side (passes + 1) [] ftx remainingSerum remainingFtx arbitrage =
      some arbitrage := by
  rw [arbitrageWalk]
  exact nofun

theorem arbitrageWalk_nil_right {atEnd : Option Quantity} {side : Side} {passes : ℕ}
    {serum : SideBook} {remainingSerum remainingFtx : Quantity} {arbitrage : Arbitrage} :
    arbitrageWalk atEnd side (passes + 1) serum [] remainingSerum remainingFtx arbitrage =
      some arbitrage := by
  rw [arbitrageWalk]
  exact nofun

theorem quantityAt_some (quantity : Quantity) (levels : SideBook) :
    ∃ next, quantityAt (some quantity) levels = some next := by
  cases levels with
  | nil => exact ⟨quantity, rfl⟩
  | cons level levels => exact ⟨level.quantity, rfl⟩

/-- Where a read at the end gives something the loop goes to its end, by
induction on the passes: each steps over a level. -/
theorem exists_arbitrageWalk {side : Side} {passes : ℕ} {serum ftx : SideBook}
    {remainingSerum remainingFtx : Quantity} (atEnd : Quantity) (arbitrage : Arbitrage)
    (hpos : 0 < passes) (hpasses : serum.length + ftx.length ≤ passes) :
    ∃ result, arbitrageWalk (some atEnd) side passes serum ftx remainingSerum remainingFtx
      arbitrage = some result := by
  induction passes generalizing serum ftx remainingSerum remainingFtx arbitrage with
  | zero => exact absurd hpos (lt_irrefl 0)
  | succ passes ih =>
    cases serum with
    | nil => exact ⟨arbitrage, arbitrageWalk_nil_left⟩
    | cons serum serumRest =>
      cases ftx with
      | nil => exact ⟨arbitrage, arbitrageWalk_nil_right⟩
      | cons ftx ftxRest =>
        simp only [List.length_cons] at hpasses
        obtain ⟨nextSerum, hserum⟩ := quantityAt_some atEnd serumRest
        obtain ⟨nextFtx, hftx⟩ := quantityAt_some atEnd ftxRest
        by_cases hprofit : 0 < unitProfit side serum.price ftx.price
        · rw [arbitrageWalk_cons_pos arbitrage hprofit, hserum, hftx]
          split
          · exact ih _ (by omega) (by simp only [List.length_cons]; omega)
          · split
            · exact ih _ (by omega) (by simp only [List.length_cons]; omega)
            · exact ih _ (by omega) (by omega)
        · exact ⟨arbitrage, arbitrageWalk_cons_neg arbitrage hprofit⟩

/-- The loop against greedy matching of what remains, by induction on the
passes: both step over the same level at the same time. -/
theorem arbitrageWalk_measures {atEnd : Option Quantity} {side : Side} {passes : ℕ}
    {serum ftx : SideBook} {s t remainingSerum remainingFtx : Quantity}
    {arbitrage result : Arbitrage}
    (hwalk : arbitrageWalk atEnd side passes serum ftx remainingSerum remainingFtx arbitrage =
      some result)
    (h : Position side serum ftx s t remainingSerum remainingFtx) :
    Measures (gained arbitrage result)
      (greedy (unitProfit side) (cut remainingSerum serum) (cut remainingFtx ftx))
      (Aligned (unitProfit side) s t (lots serum) (lots ftx)) := by
  induction passes generalizing serum ftx s t remainingSerum remainingFtx arbitrage with
  | zero => simp [arbitrageWalk] at hwalk
  | succ passes ih =>
    cases serum with
    | nil =>
      obtain rfl := Option.some.inj (arbitrageWalk_nil_left.symm.trans hwalk)
      simpa [gained_self] using Measures.zero aligned_nil_left
    | cons serum serumRest =>
      cases ftx with
      | nil =>
        obtain rfl := Option.some.inj (arbitrageWalk_nil_right.symm.trans hwalk)
        simpa [gained_self] using Measures.zero aligned_nil_right
      | cons ftx ftxRest =>
        have hserumRest := lots_pos (List.forall_mem_cons.mp h.serum_pos).2
        have hftxRest := lots_pos (List.forall_mem_cons.mp h.ftx_pos).2
        obtain ⟨hserum, hftx⟩ := h.remaining
        cases pass_of_walk hwalk with
        | stop hprofit hfound =>
          subst hfound
          rw [gained_self, cut_cons, cut_cons, greedy_of_not_pos hprofit]
          exact .zero (h.not_pos hprofit)
        | serumUp hprofit hlt hnext hwalk =>
          have hend : s + serum.quantity < t + ftx.quantity := by linarith
          have hpass := measures_pass arbitrage h hprofit (ih hwalk (h.serumUp hlt hnext))
          rw [min_eq_left hlt.le, cut_quantityAt hnext, cut_cons] at hpass
          rw [cut_cons, cut_cons, greedy_of_lt hprofit hlt, lots_cons, lots_cons,
            aligned_cons_of_lt hftxRest hend]
          exact hpass
        | bothUp hprofit heq hnext hnext' hwalk =>
          obtain ⟨hend, hposition⟩ := h.bothUp heq hnext hnext'
          have hpass := measures_pass arbitrage h hprofit (ih hwalk hposition)
          subst heq
          rw [min_self, cut_quantityAt hnext, cut_quantityAt hnext'] at hpass
          rw [cut_cons, cut_cons, greedy_of_eq hprofit, lots_cons, lots_cons,
            aligned_cons_of_eq hserumRest hftxRest hend]
          exact hpass
        | ftxUp hprofit hlt hnext hwalk =>
          have hend : t + ftx.quantity < s + serum.quantity := by linarith
          have hpass := measures_pass arbitrage h hprofit (ih hwalk (h.ftxUp hlt hnext))
          rw [min_eq_right hlt.le, cut_quantityAt hnext, cut_cons] at hpass
          rw [cut_cons, cut_cons, greedy_of_gt hprofit hlt, lots_cons, lots_cons,
            aligned_cons_of_gt hserumRest hend]
          exact hpass

/-! ## Sizing -/

/-- The quantity of the levels that trade at a profit with one of `others`. -/
def profitableSerum (side : Side) (serum ftx : SideBook) : Quantity :=
  depth ((lots serum).filter fun lot =>
    (lots ftx).any fun other => 0 < unitProfit side lot.1 other.1)

def profitableFtx (side : Side) (serum ftx : SideBook) : Quantity :=
  depth ((lots ftx).filter fun lot =>
    (lots serum).any fun other => 0 < unitProfit side other.1 lot.1)

/-- An arbitrage as greedy matching sizes it, within the profitable levels of
either side. -/
structure Sized (side : Side) (serum ftx : SideBook) (arbitrage : Arbitrage) : Prop where
  matched : (arbitrage.arbitrageQuantity, arbitrage.expectedProfit) =
    greedy (unitProfit side) (lots serum) (lots ftx)
  serum_le : arbitrage.arbitrageQuantity ≤ profitableSerum side serum ftx
  ftx_le : arbitrage.arbitrageQuantity ≤ profitableFtx side serum ftx

/-- Greedy matching stays within the profitable levels. -/
theorem quantity_le_profitable (side : Side) {serum ftx : SideBook}
    (hserum : ∀ level ∈ serum, 0 < level.quantity) (hftx : ∀ level ∈ ftx, 0 < level.quantity) :
    (greedy (unitProfit side) (lots serum) (lots ftx)).1 ≤ profitableSerum side serum ftx ∧
      (greedy (unitProfit side) (lots serum) (lots ftx)).1 ≤ profitableFtx side serum ftx := by
  refine quantity_greedy_le
    (p := fun price => (lots ftx).any fun other => 0 < unitProfit side price other.1)
    (q := fun price => (lots serum).any fun other => 0 < unitProfit side other.1 price)
    (lots_pos hserum) (lots_pos hftx) fun lot hlot lot' hlot' hpos => ?_
  exact ⟨List.any_eq_true.mpr ⟨lot', hlot', by simpa using hpos⟩,
    List.any_eq_true.mpr ⟨lot, hlot, by simpa using hpos⟩⟩

theorem position_start {side : Side} (serum : SideLevels side) (ftx : SideLevels (sideFlip side))
    {atEnd : Option Quantity} {remainingSerum remainingFtx : Quantity}
    (hserum : quantityAt atEnd serum.levels = some remainingSerum)
    (hftx : quantityAt atEnd ftx.levels = some remainingFtx) :
    Position side serum.levels ftx.levels 0 0 remainingSerum remainingFtx := by
  refine ⟨serum.sorted, ftx.sorted, serum.quantity_pos, ftx.quantity_pos, ?_, ?_, ?_, ?_⟩
  · intro level hlevel
    simp [quantityAt_eq hserum hlevel]
  · intro level hlevel
    simp [quantityAt_eq hftx hlevel]
  · intro level hlevel
    simpa using serum.quantity_pos level (List.mem_of_head? hlevel)
  · intro level hlevel
    simpa using ftx.quantity_pos level (List.mem_of_head? hlevel)

/-- Both sides hold levels: the loop finds something. -/
theorem exists_walkBooks (side : Side) (atEnd : Quantity) {serum : SideBook} (hserum : serum ≠ [])
    (ftx : SideBook) : ∃ arbitrage,
      walkBooks (some atEnd) side (serum.length + ftx.length) serum ftx = some arbitrage := by
  obtain ⟨remainingSerum, hremaining⟩ := quantityAt_some atEnd serum
  obtain ⟨remainingFtx, hremaining'⟩ := quantityAt_some atEnd ftx
  rw [walkBooks, hremaining, hremaining']
  have hpos := List.length_pos_iff.mpr hserum
  exact exists_arbitrageWalk atEnd .zero (Nat.add_pos_left hpos _) le_rfl

/-- **Arbitrage sizing.** For all pairs of sorted sides the loop of both
strategies finds an arbitrage. It is sized as greedy matching sizes it
exactly when of any two levels that trade at a profit and share a part of the
depth of their books, one covers all the depth the other does. -/
theorem arbitrage_iff {side : Side} (serum : SideLevels side) (ftx : SideLevels (sideFlip side)) :
    ∃ arbitrage, findArbitrage side serum.levels ftx.levels = some arbitrage ∧
      (∀ tradingPairIndex, ∃ measurement,
        BacktestStrategy.arbitrageMeasurement side tradingPairIndex serum.levels ftx.levels =
            some measurement ∧
          measurement.arbitrageQuantity = arbitrage.arbitrageQuantity ∧
          measurement.expectedProfit = arbitrage.expectedProfit) ∧
      (Sized side serum.levels ftx.levels arbitrage ↔
        Aligned (unitProfit side) 0 0 (lots serum.levels) (lots ftx.levels)) := by
  have hserum : serum.levels.isEmpty = false := List.isEmpty_eq_false_iff.mpr serum.nonempty
  have hftx : ftx.levels.isEmpty = false := List.isEmpty_eq_false_iff.mpr ftx.nonempty
  obtain ⟨arbitrage, hwalk⟩ := exists_walkBooks side 0 serum.nonempty ftx.levels
  have hfind : findArbitrage side serum.levels ftx.levels = some arbitrage := by
    simpa [findArbitrage, hserum, hftx] using hwalk
  obtain ⟨remainingSerum, hremaining, hwalk⟩ := Option.bind_eq_some_iff.mp hwalk
  obtain ⟨remainingFtx, hremaining', hwalk⟩ := Option.bind_eq_some_iff.mp hwalk
  obtain ⟨-, -, hexact⟩ :=
    arbitrageWalk_measures hwalk (position_start serum ftx hremaining hremaining')
  refine ⟨_, hfind, fun tradingPairIndex => ⟨_, by
    rw [BacktestStrategy.arbitrageMeasurement, hfind, Option.map_some], rfl, rfl⟩, ?_⟩
  rw [cut_quantityAt hremaining, cut_quantityAt hremaining'] at hexact
  simp only [gained, Arbitrage.zero, sub_zero] at hexact
  rw [← hexact]
  constructor
  · exact Sized.matched
  · intro hmatched
    obtain ⟨hle, hle'⟩ := quantity_le_profitable side serum.quantity_pos ftx.quantity_pos
    rw [← hmatched] at hle hle'
    exact ⟨hmatched, hle, hle'⟩

/-- Four units bid, against three and two offered below; the levels behind them
do not trade at a profit. -/
def fourAgainstThreeAndTwo : SideLevels .bid × SideLevels .ask :=
  (⟨[⟨110, 4⟩, ⟨90, 1⟩], by decide, by unfold SortedVec.SortedBy; decide +kernel,
      by decide +kernel, by decide +kernel⟩,
    ⟨[⟨100, 3⟩, ⟨101, 2⟩, ⟨120, 1⟩], by decide, by unfold SortedVec.SortedBy; decide +kernel,
      by decide +kernel, by decide +kernel⟩)

/-- The second pass takes two units where one is left: five of four. -/
theorem arbitrage_fails :
    ∃ arbitrage, findArbitrage .bid fourAgainstThreeAndTwo.1.levels
        fourAgainstThreeAndTwo.2.levels = some arbitrage ∧
      arbitrage.arbitrageQuantity = 5 ∧
      profitableSerum .bid fourAgainstThreeAndTwo.1.levels fourAgainstThreeAndTwo.2.levels = 4 ∧
      ¬ Sized .bid fourAgainstThreeAndTwo.1.levels fourAgainstThreeAndTwo.2.levels arbitrage := by
  have hquantity : (findArbitrage .bid fourAgainstThreeAndTwo.1.levels
      fourAgainstThreeAndTwo.2.levels).map Arbitrage.arbitrageQuantity = some 5 := by decide +kernel
  have hprofitable : profitableSerum .bid fourAgainstThreeAndTwo.1.levels
      fourAgainstThreeAndTwo.2.levels = 4 := by decide +kernel
  obtain ⟨arbitrage, harbitrage, hquantity⟩ := Option.map_eq_some_iff.mp hquantity
  refine ⟨arbitrage, harbitrage, hquantity, hprofitable, fun h => ?_⟩
  have hle := h.serum_le
  rw [hquantity, hprofitable] at hle
  exact absurd hle (by decide +kernel)

end Synthfi.Strategy
