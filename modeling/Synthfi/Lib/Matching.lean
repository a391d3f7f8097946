/-
Synthfi.Lib.Matching — greedy matching of two queues of lots.

Two lists of lots, each lot with a quantity, are matched front against
front: the smaller of the two quantities is taken from both while a unit of
the pair gains something. Laid end to end, the lots of a list are ranges on
a line, and the pairs that are matched are those whose ranges overlap.

* `quantity_greedy_le` — not more is matched than the lots hold that gain
  with one of the other list.
* `Aligned` — of two gaining lots whose ranges overlap, one range lies
  within the other. The lemmas `aligned_cons_of_lt`, `aligned_cons_of_gt`
  and `aligned_cons_of_eq` step over the fronts as the matching does.
-/
import Mathlib.Algebra.Order.Field.Basic
import Mathlib.Tactic.Linarith

namespace Matching

variable {α β K : Type*} [Field K]

/-! ## Lots -/

/-- What a list of lots holds. -/
def depth : List (α × K) → K
  | [] => 0
  | lot :: lots => lot.2 + depth lots

@[simp] theorem depth_nil : depth ([] : List (α × K)) = 0 := rfl

@[simp] theorem depth_cons (lot : α × K) (lots : List (α × K)) :
    depth (lot :: lots) = lot.2 + depth lots := rfl

theorem depth_filter_cons (p : α → Bool) (lot : α × K) (lots : List (α × K)) :
    depth ((lot :: lots).filter fun lot => p lot.1) =
      (if p lot.1 then lot.2 else 0) + depth (lots.filter fun lot => p lot.1) := by
  cases hp : p lot.1 <;> simp [hp]

/-! ## Matching -/

variable [LinearOrder K]

/-- The quantity matched and what it gains. -/
def greedy (gain : α → β → K) : List (α × K) → List (β × K) → K × K
  | (a, x) :: as, (b, y) :: bs =>
    if 0 < gain a b then
      let rest :=
        if x < y then greedy gain as ((b, y - x) :: bs)
        else if y < x then greedy gain ((a, x - y) :: as) bs
        else greedy gain as bs
      (min x y + rest.1, gain a b * min x y + rest.2)
    else (0, 0)
  | _, _ => (0, 0)
termination_by as bs => as.length + bs.length

variable {gain : α → β → K} {a : α} {b : β} {x y s t : K} {as : List (α × K)} {bs : List (β × K)}

@[simp] theorem greedy_nil_left : greedy gain [] bs = (0, 0) := by
  unfold greedy; rfl

@[simp] theorem greedy_nil_right : greedy gain as [] = (0, 0) := by
  unfold greedy
  cases as <;> rfl

theorem greedy_of_not_pos (h : ¬ 0 < gain a b) :
    greedy gain ((a, x) :: as) ((b, y) :: bs) = (0, 0) := by
  rw [greedy, if_neg h]

theorem greedy_of_lt (h : 0 < gain a b) (hlt : x < y) :
    greedy gain ((a, x) :: as) ((b, y) :: bs) =
      (x + (greedy gain as ((b, y - x) :: bs)).1,
        gain a b * x + (greedy gain as ((b, y - x) :: bs)).2) := by
  rw [greedy, if_pos h, if_pos hlt, min_eq_left hlt.le]

theorem greedy_of_gt (h : 0 < gain a b) (hlt : y < x) :
    greedy gain ((a, x) :: as) ((b, y) :: bs) =
      (y + (greedy gain ((a, x - y) :: as) bs).1,
        gain a b * y + (greedy gain ((a, x - y) :: as) bs).2) := by
  rw [greedy, if_pos h, if_neg hlt.asymm, if_pos hlt, min_eq_right hlt.le]

theorem greedy_of_eq (h : 0 < gain a b) :
    greedy gain ((a, x) :: as) ((b, x) :: bs) =
      (x + (greedy gain as bs).1, gain a b * x + (greedy gain as bs).2) := by
  rw [greedy, if_pos h, if_neg (lt_irrefl x), if_neg (lt_irrefl x), min_self]

/-! ## Ranges -/

/-- The range of `x` units from `s` on lies within that of `y` units from
`t` on. -/
def Within (s x t y : K) : Prop := t ≤ s ∧ s + x ≤ t + y

/-- Where the ranges of two lots overlap, one lies within the other. -/
def Fits (s x t y : K) : Prop :=
  s < t + y → t < s + x → Within s x t y ∨ Within t y s x

/-- All gaining pairs fit, where the lots are laid end to end from `s` and
from `t` on. -/
def Aligned (gain : α → β → K) (s t : K) (as : List (α × K)) (bs : List (β × K)) : Prop :=
  ∀ (i j : ℕ) (lot : α × K) (lot' : β × K), as[i]? = some lot → bs[j]? = some lot' →
    0 < gain lot.1 lot'.1 →
      Fits (s + depth (as.take i)) lot.2 (t + depth (bs.take j)) lot'.2

theorem aligned_nil_left : Aligned gain s t [] bs := by
  intro i j lot lot' hlot
  simp at hlot

theorem aligned_nil_right : Aligned gain s t as [] := by
  intro i j lot lot' hlot hlot'
  simp at hlot'

theorem Fits.symm (h : Fits s x t y) : Fits t y s x := fun h₁ h₂ => (h h₂ h₁).symm

theorem aligned_flip : Aligned (fun b a => gain a b) t s bs as ↔ Aligned gain s t as bs := by
  constructor
  · intro h i j lot lot' hlot hlot' hgain
    exact (h j i lot' lot hlot' hlot hgain).symm
  · intro h i j lot lot' hlot hlot' hgain
    exact (h j i lot' lot hlot' hlot hgain).symm

/-- Lots that never gain are aligned. -/
theorem aligned_of_not_pos (h : ∀ lot ∈ as, ∀ lot' ∈ bs, ¬ 0 < gain lot.1 lot'.1) :
    Aligned gain s t as bs := by
  intro i j lot lot' hlot hlot' hgain
  exact absurd hgain (h lot (List.mem_of_getElem? hlot) lot' (List.mem_of_getElem? hlot'))

variable [IsStrictOrderedRing K]

/-! ## Stepping over the fronts -/

theorem depth_nonneg (h : ∀ lot ∈ as, 0 ≤ lot.2) : 0 ≤ depth as := by
  induction as with
  | nil => exact le_rfl
  | cons lot as ih =>
    obtain ⟨hlot, has⟩ := List.forall_mem_cons.mp h
    exact add_nonneg hlot (ih has)

theorem depth_take_nonneg (h : ∀ lot ∈ as, 0 ≤ lot.2) (i : ℕ) : 0 ≤ depth (as.take i) :=
  depth_nonneg fun lot hlot => h lot (List.mem_of_mem_take hlot)

/-- The lots behind the front, which ends first. -/
theorem aligned_cons_of_lt (hbs : ∀ lot ∈ bs, 0 ≤ lot.2) (h : s + x < t + y) :
    Aligned gain s t ((a, x) :: as) ((b, y) :: bs) ↔
      (0 < gain a b → Fits s x t y) ∧ Aligned gain (s + x) t as ((b, y) :: bs) := by
  constructor
  · intro hall
    refine ⟨fun hgain => ?_, fun i j lot lot' hlot hlot' hgain => ?_⟩
    · simpa using hall 0 0 (a, x) (b, y) rfl rfl hgain
    · simpa [add_assoc] using hall (i + 1) j lot lot' hlot hlot' hgain
  · rintro ⟨hfront, hrest⟩ i j lot lot' hlot hlot' hgain
    cases i with
    | zero =>
      obtain rfl : (a, x) = lot := by simpa using hlot
      cases j with
      | zero =>
        obtain rfl : (b, y) = lot' := by simpa using hlot'
        simpa using hfront hgain
      | succ j =>
        -- A later lot of the other list starts behind the front's end.
        intro _ hoverlap
        have hnonneg := depth_take_nonneg hbs j
        simp only [List.take_zero, List.take_succ_cons, depth_nil, depth_cons] at hoverlap
        linarith
    | succ i => simpa [add_assoc] using hrest i j lot lot' hlot hlot' hgain

theorem aligned_cons_of_gt (has : ∀ lot ∈ as, 0 ≤ lot.2) (h : t + y < s + x) :
    Aligned gain s t ((a, x) :: as) ((b, y) :: bs) ↔
      (0 < gain a b → Fits s x t y) ∧ Aligned gain s (t + y) ((a, x) :: as) bs := by
  rw [← aligned_flip, aligned_cons_of_lt has h, aligned_flip]
  refine and_congr_left fun _ => forall_congr' fun _ => ⟨Fits.symm, Fits.symm⟩

/-- Both fronts end at once. -/
theorem aligned_cons_of_eq (has : ∀ lot ∈ as, 0 ≤ lot.2) (hbs : ∀ lot ∈ bs, 0 ≤ lot.2)
    (h : s + x = t + y) :
    Aligned gain s t ((a, x) :: as) ((b, y) :: bs) ↔
      (0 < gain a b → Fits s x t y) ∧ Aligned gain (s + x) (t + y) as bs := by
  constructor
  · intro hall
    refine ⟨fun hgain => ?_, fun i j lot lot' hlot hlot' hgain => ?_⟩
    · simpa using hall 0 0 (a, x) (b, y) rfl rfl hgain
    · simpa [add_assoc] using hall (i + 1) (j + 1) lot lot' hlot hlot' hgain
  · rintro ⟨hfront, hrest⟩ i j lot lot' hlot hlot' hgain
    cases i with
    | zero =>
      obtain rfl : (a, x) = lot := by simpa using hlot
      cases j with
      | zero =>
        obtain rfl : (b, y) = lot' := by simpa using hlot'
        simpa using hfront hgain
      | succ j =>
        intro _ hoverlap
        have hnonneg := depth_take_nonneg hbs j
        simp only [List.take_zero, List.take_succ_cons, depth_nil, depth_cons] at hoverlap
        linarith
    | succ i =>
      cases j with
      | zero =>
        obtain rfl : (b, y) = lot' := by simpa using hlot'
        intro hoverlap _
        have hnonneg := depth_take_nonneg has i
        simp only [List.take_zero, List.take_succ_cons, depth_nil, depth_cons] at hoverlap
        linarith
      | succ j => simpa [add_assoc] using hrest i j lot lot' hlot hlot' hgain

/-- Of two overlapping ranges one lies within the other exactly when what
they share is all of the shorter one. -/
theorem fits_iff (hs : s < t + y) (ht : t < s + x) :
    Fits s x t y ↔ min (s + x - max s t) (t + y - max s t) = min x y := by
  have hfits : Fits s x t y ↔ Within s x t y ∨ Within t y s x :=
    ⟨fun h => h hs ht, fun h _ _ => h⟩
  rw [hfits]
  obtain hle | hle := le_total s t
  · rw [max_eq_right hle, add_sub_cancel_left]
    constructor
    · rintro (⟨hst, hend⟩ | ⟨-, hend⟩)
      · rw [min_eq_left (by linarith), min_eq_left (by linarith)]
        linarith
      · rw [min_eq_right (by linarith), min_eq_right (by linarith)]
    · intro hmin
      obtain hend | hend := le_total (t + y) (s + x)
      · exact .inr ⟨hle, hend⟩
      · rw [min_eq_left (by linarith)] at hmin
        have hx : min x y ≤ x := min_le_left x y
        obtain hxy | hxy := min_choice x y
        · exact .inl ⟨by linarith, hend⟩
        · exact .inr ⟨hle, by linarith⟩
  · rw [max_eq_left hle, add_sub_cancel_left]
    constructor
    · rintro (⟨-, hend⟩ | ⟨hst, hend⟩)
      · rw [min_eq_left (by linarith), min_eq_left (by linarith)]
      · rw [min_eq_right (by linarith), min_eq_right (by linarith)]
        linarith
    · intro hmin
      obtain hend | hend := le_total (s + x) (t + y)
      · exact .inl ⟨hle, hend⟩
      · rw [min_eq_right (by linarith)] at hmin
        obtain hxy | hxy := min_choice x y
        · exact .inl ⟨hle, by linarith⟩
        · exact .inr ⟨by linarith, hend⟩

/-! ## How much is matched -/

/-- Not more is matched than the lots of either list hold that gain with one
of the other. -/
theorem quantity_greedy_le {p : α → Bool} {q : β → Bool} (has : ∀ lot ∈ as, 0 ≤ lot.2)
    (hbs : ∀ lot ∈ bs, 0 ≤ lot.2)
    (hgain : ∀ lot ∈ as, ∀ lot' ∈ bs, 0 < gain lot.1 lot'.1 → p lot.1 ∧ q lot'.1) :
    (greedy gain as bs).1 ≤ depth (as.filter fun lot => p lot.1) ∧
      (greedy gain as bs).1 ≤ depth (bs.filter fun lot => q lot.1) := by
  induction as, bs using greedy.induct gain with
  | case1 a x as b y bs hpos ihlt ihgt iheq =>
    obtain ⟨hp, hq⟩ := hgain (a, x) List.mem_cons_self (b, y) List.mem_cons_self hpos
    obtain ⟨hx, has'⟩ := List.forall_mem_cons.mp has
    obtain ⟨hy, hbs'⟩ := List.forall_mem_cons.mp hbs
    have hleft : depth (((a, x) :: as).filter fun lot => p lot.1) =
        x + depth (as.filter fun lot => p lot.1) := by rw [depth_filter_cons, if_pos hp]
    have hright : depth (((b, y) :: bs).filter fun lot => q lot.1) =
        y + depth (bs.filter fun lot => q lot.1) := by rw [depth_filter_cons, if_pos hq]
    rw [hleft, hright]
    obtain hlt | rfl | hlt := lt_trichotomy x y
    · have hrest : ∀ lot' ∈ (b, y - x) :: bs, 0 ≤ lot'.2 :=
        List.forall_mem_cons.mpr ⟨sub_nonneg.mpr hlt.le, hbs'⟩
      obtain ⟨hle, hle'⟩ := ihlt has' hrest fun lot hlot => by
        obtain ⟨hfront, hbehind⟩ :=
          List.forall_mem_cons.mp (hgain lot (List.mem_cons_of_mem _ hlot))
        exact List.forall_mem_cons.mpr ⟨hfront, hbehind⟩
      rw [depth_filter_cons, if_pos hq] at hle'
      rw [greedy_of_lt hpos hlt]
      constructor <;> linarith
    · obtain ⟨hle, hle'⟩ := iheq has' hbs' fun lot hlot lot' hlot' =>
        hgain lot (List.mem_cons_of_mem _ hlot) lot' (List.mem_cons_of_mem _ hlot')
      rw [greedy_of_eq hpos]
      constructor <;> linarith
    · have hrest : ∀ lot ∈ (a, x - y) :: as, 0 ≤ lot.2 :=
        List.forall_mem_cons.mpr ⟨sub_nonneg.mpr hlt.le, has'⟩
      obtain ⟨hfront, hbehind⟩ := List.forall_mem_cons.mp hgain
      obtain ⟨hle, hle'⟩ := ihgt hrest hbs' (List.forall_mem_cons.mpr
        ⟨fun lot' hlot' => hfront lot' (List.mem_cons_of_mem _ hlot'),
          fun lot hlot lot' hlot' => hbehind lot hlot lot' (List.mem_cons_of_mem _ hlot')⟩)
      rw [depth_filter_cons, if_pos hp] at hle
      rw [greedy_of_gt hpos hlt]
      constructor <;> linarith
  | case2 a x as b y bs hpos =>
    rw [greedy_of_not_pos hpos]
    exact ⟨depth_nonneg fun lot hlot => has lot (List.mem_filter.mp hlot).1,
      depth_nonneg fun lot hlot => hbs lot (List.mem_filter.mp hlot).1⟩
  | case3 as bs hnil =>
    have hzero : greedy gain as bs = (0, 0) := by
      cases as with
      | nil => exact greedy_nil_left
      | cons lot as =>
        cases bs with
        | nil => exact greedy_nil_right
        | cons lot' bs => exact (hnil lot.1 lot.2 as lot'.1 lot'.2 bs rfl rfl).elim
    rw [hzero]
    exact ⟨depth_nonneg fun lot hlot => has lot (List.mem_filter.mp hlot).1,
      depth_nonneg fun lot hlot => hbs lot (List.mem_filter.mp hlot).1⟩

end Matching
