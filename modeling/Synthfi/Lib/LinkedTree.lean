/-
Synthfi.Lib.LinkedTree — binary trees stored as cells that name their
children.

A map from indices to cells holds anything: indices without a cell, cells
that share a child, cycles. `leavesFrom` is the plain recursion that collects
the leaves below an index. It ends exactly if every cell below is there and
none lies below itself, and it finds one leaf for every way down to one.

Where the cells below an index store a tree, the recursion finds the leaves
of that tree, and where the tree is a crit-bit tree, in the order of their
keys.
-/
import Mathlib.Data.Fintype.EquivFin
import Mathlib.Data.Nat.Bitwise
import Mathlib.Data.Set.Card
import Mathlib.Logic.Relation
import Mathlib.Order.WellFounded

namespace LinkedTree

/-- An inner cell tells its children apart by one bit. -/
inductive Cell (ι α : Type*) where
  | inner (bit : ℕ) (left right : ι)
  | leaf (value : α)
  | free

variable {ι α : Type*} (cells : ι → Option (Cell ι α))

def Child (i j : ι) : Prop :=
  ∃ bit left right, cells i = some (.inner bit left right) ∧ (j = left ∨ j = right)

/-- Reached from an index by links to children, the index itself included. -/
def Below : ι → ι → Prop := Relation.ReflTransGen (Child cells)

/-- The leaves below an index, from left to right; `none` at an index without
a cell, and when there is no fuel left. -/
def leavesFrom : ℕ → ι → Option (List α)
  | 0, _ => none
  | fuel + 1, i =>
    match cells i with
    | none => none
    | some (.inner _ left right) =>
      (leavesFrom fuel left).bind fun leaves =>
        (leavesFrom fuel right).map fun leaves' => leaves ++ leaves'
    | some (.leaf value) => some [value]
    | some .free => some []

variable {cells}

theorem leavesFrom_inner {fuel : ℕ} {i left right : ι} {bit : ℕ} {leaves : List α}
    (hi : cells i = some (.inner bit left right)) :
    leavesFrom cells (fuel + 1) i = some leaves ↔
      ∃ leavesLeft leavesRight, leavesFrom cells fuel left = some leavesLeft ∧
        leavesFrom cells fuel right = some leavesRight ∧ leaves = leavesLeft ++ leavesRight := by
  simp only [leavesFrom, hi, Option.bind_eq_some_iff, Option.map_eq_some_iff]
  constructor
  · intro h
    obtain ⟨leavesLeft, hleft, leavesRight, hright, heq⟩ := h
    exact ⟨leavesLeft, leavesRight, hleft, hright, heq.symm⟩
  · intro h
    obtain ⟨leavesLeft, leavesRight, hleft, hright, heq⟩ := h
    exact ⟨leavesLeft, hleft, leavesRight, hright, heq.symm⟩

theorem leavesFrom_succ {fuel : ℕ} {i : ι} {leaves : List α}
    (h : leavesFrom cells fuel i = some leaves) : leavesFrom cells (fuel + 1) i = some leaves := by
  induction fuel generalizing i leaves with
  | zero => simp [leavesFrom] at h
  | succ fuel ih =>
    rcases hi : cells i with _ | cell
    · simp [leavesFrom, hi] at h
    cases cell with
    | inner bit left right =>
      obtain ⟨leavesLeft, leavesRight, hleft, hright, heq⟩ := (leavesFrom_inner hi).mp h
      exact (leavesFrom_inner hi).mpr ⟨leavesLeft, leavesRight, ih hleft, ih hright, heq⟩
    | leaf value =>
      rw [leavesFrom, hi] at h ⊢
      exact h
    | free =>
      rw [leavesFrom, hi] at h ⊢
      exact h

/-- More fuel changes nothing. -/
theorem leavesFrom_mono {fuel more : ℕ} {i : ι} {leaves : List α}
    (h : leavesFrom cells fuel i = some leaves) (hle : fuel ≤ more) :
    leavesFrom cells more i = some leaves := by
  induction hle with
  | refl => exact h
  | step _ ih => exact leavesFrom_succ ih

/-! ## When the recursion ends -/

/-- The recursion from an index ends with some list. -/
def Ends (cells : ι → Option (Cell ι α)) (fuel : ℕ) (i : ι) : Prop :=
  ∃ leaves, leavesFrom cells fuel i = some leaves

theorem Ends.child {fuel : ℕ} {i j : ι} (h : Ends cells (fuel + 1) i) (hij : Child cells i j) :
    Ends cells fuel j := by
  obtain ⟨leaves, h⟩ := h
  obtain ⟨bit, left, right, hi, hj⟩ := hij
  obtain ⟨leavesLeft, leavesRight, hleft, hright, -⟩ := (leavesFrom_inner hi).mp h
  rcases hj with rfl | rfl
  · exact ⟨leavesLeft, hleft⟩
  · exact ⟨leavesRight, hright⟩

theorem Ends.cell_ne_none {fuel : ℕ} {i : ι} (h : Ends cells fuel i) : cells i ≠ none := by
  intro hi
  obtain ⟨leaves, h⟩ := h
  cases fuel with
  | zero => simp [leavesFrom] at h
  | succ fuel => simp [leavesFrom, hi] at h

theorem Ends.below {fuel : ℕ} {i j : ι} (h : Ends cells fuel i) (hij : Below cells i j) :
    ∃ fuel, Ends cells fuel j := by
  induction hij with
  | refl => exact ⟨fuel, h⟩
  | tail _ hjk ih =>
    obtain ⟨fuel, hj⟩ := ih
    cases fuel with
    | zero =>
      obtain ⟨leaves, hj⟩ := hj
      simp [leavesFrom] at hj
    | succ fuel => exact ⟨fuel, hj.child hjk⟩

/-- Each link down saves fuel, so no way leads back to where it started. -/
theorem Ends.below_lt {fuel : ℕ} {i j : ι} (h : Ends cells fuel i)
    (hij : Relation.TransGen (Child cells) i j) : ∃ less < fuel, Ends cells less j := by
  induction hij with
  | single hij =>
    cases fuel with
    | zero =>
      obtain ⟨leaves, h⟩ := h
      simp [leavesFrom] at h
    | succ fuel => exact ⟨fuel, Nat.lt_succ_self fuel, h.child hij⟩
  | tail _ hjk ih =>
    obtain ⟨less, hless, hj⟩ := ih
    cases less with
    | zero =>
      obtain ⟨leaves, hj⟩ := hj
      simp [leavesFrom] at hj
    | succ less => exact ⟨less, by omega, hj.child hjk⟩

theorem Ends.acyclic {fuel : ℕ} {i : ι} (h : Ends cells fuel i) :
    ¬ Relation.TransGen (Child cells) i i := by
  intro hcycle
  induction fuel using Nat.strong_induction_on with
  | _ fuel ih =>
    obtain ⟨less, hless, hi⟩ := h.below_lt hcycle
    exact ih less hless hi

/-- The recursion ends exactly if every cell below is there and none lies
below itself. -/
theorem exists_ends_iff [Finite ι] (i : ι) :
    (∃ fuel, Ends cells fuel i) ↔
      ∀ j, Below cells i j → cells j ≠ none ∧ ¬ Relation.TransGen (Child cells) j j := by
  constructor
  · intro h j hj
    obtain ⟨fuel, h⟩ := h
    obtain ⟨fuel', hends⟩ := h.below hj
    exact ⟨hends.cell_ne_none, hends.acyclic⟩
  · intro h
    -- among the cells below `i`, going down is well founded
    let down : {j // Below cells i j} → {j // Below cells i j} → Prop :=
      fun k j => Relation.TransGen (Child cells) j.1 k.1
    have htrans : IsTrans _ down := ⟨fun _ _ _ hkj hji => hji.trans hkj⟩
    have hirrefl : Std.Irrefl down := ⟨fun j => (h j.1 j.2).2⟩
    have hwf : WellFounded down := Finite.wellFounded_of_trans_of_irrefl down
    suffices hall : ∀ j : {j // Below cells i j}, ∃ fuel, Ends cells fuel j.1 from
      hall ⟨i, Relation.ReflTransGen.refl⟩
    intro j
    induction j using hwf.induction with
    | _ j ih =>
      rcases hj : cells j.1 with _ | cell
      · exact absurd hj (h j.1 j.2).1
      cases cell with
      | inner bit left right =>
        have hleft : Child cells j.1 left := ⟨bit, left, right, hj, .inl rfl⟩
        have hright : Child cells j.1 right := ⟨bit, left, right, hj, .inr rfl⟩
        obtain ⟨fuel, leavesLeft, hl⟩ := ih ⟨left, j.2.tail hleft⟩ (.single hleft)
        obtain ⟨fuel', leavesRight, hr⟩ := ih ⟨right, j.2.tail hright⟩ (.single hright)
        refine ⟨max fuel fuel' + 1, leavesLeft ++ leavesRight, (leavesFrom_inner hj).mpr ?_⟩
        exact ⟨leavesLeft, leavesRight, leavesFrom_mono hl (le_max_left _ _),
          leavesFrom_mono hr (le_max_right _ _), rfl⟩
      | leaf value => exact ⟨1, [value], by simp [leavesFrom, hj]⟩
      | free => exact ⟨1, [], by simp [leavesFrom, hj]⟩

/-! ## Ways down -/

/-- The left (`false`) and right (`true`) turns of a way from an index down to
a leaf. -/
inductive Way (cells : ι → Option (Cell ι α)) : ι → List Bool → Prop
  | leaf {i value} (hi : cells i = some (.leaf value)) : Way cells i []
  | left {i bit left right turns} (hi : cells i = some (.inner bit left right))
      (h : Way cells left turns) : Way cells i (false :: turns)
  | right {i bit left right turns} (hi : cells i = some (.inner bit left right))
      (h : Way cells right turns) : Way cells i (true :: turns)

/-- The ways down from an index to a leaf. -/
def ways (cells : ι → Option (Cell ι α)) (i : ι) : Set (List Bool) := {turns | Way cells i turns}

theorem ways_inner {i left right : ι} {bit : ℕ} (hi : cells i = some (.inner bit left right)) :
    ways cells i = (false :: ·) '' ways cells left ∪ (true :: ·) '' ways cells right := by
  ext turns
  simp only [ways, Set.mem_ofPred_eq, Set.mem_union, Set.mem_image]
  constructor
  · intro h
    cases h with
    | leaf hi' => simp [hi'] at hi
    | left hi' h =>
      obtain ⟨-, rfl, rfl⟩ : _ ∧ _ ∧ _ := by simpa [hi'] using hi
      exact .inl ⟨_, h, rfl⟩
    | right hi' h =>
      obtain ⟨-, rfl, rfl⟩ : _ ∧ _ ∧ _ := by simpa [hi'] using hi
      exact .inr ⟨_, h, rfl⟩
  · intro h
    rcases h with ⟨turns, h, rfl⟩ | ⟨turns, h, rfl⟩
    · exact .left hi h
    · exact .right hi h

theorem ways_leaf {i : ι} {value : α} (hi : cells i = some (.leaf value)) :
    ways cells i = {[]} := by
  ext turns
  simp only [ways, Set.mem_ofPred_eq, Set.mem_singleton_iff]
  constructor
  · intro h
    cases h with
    | leaf _ => rfl
    | left hi' _ => simp [hi'] at hi
    | right hi' _ => simp [hi'] at hi
  · intro h
    rw [h]
    exact .leaf hi

theorem ways_free {i : ι} (hi : cells i = some .free) : ways cells i = ∅ := by
  ext turns
  simp only [ways, Set.mem_ofPred_eq, Set.mem_empty_iff_false, iff_false]
  intro h
  cases h with
  | leaf hi' => simp [hi'] at hi
  | left hi' _ => simp [hi'] at hi
  | right hi' _ => simp [hi'] at hi

/-- The recursion finds a leaf for every way down. -/
theorem encard_ways {fuel : ℕ} {i : ι} {leaves : List α}
    (h : leavesFrom cells fuel i = some leaves) : (ways cells i).encard = leaves.length := by
  induction fuel generalizing i leaves with
  | zero => simp [leavesFrom] at h
  | succ fuel ih =>
    rcases hi : cells i with _ | cell
    · simp [leavesFrom, hi] at h
    cases cell with
    | inner bit left right =>
      obtain ⟨leavesLeft, leavesRight, hleft, hright, rfl⟩ := (leavesFrom_inner hi).mp h
      have hdisjoint : Disjoint ((false :: ·) '' ways cells left)
          ((true :: ·) '' ways cells right) := by
        rw [Set.disjoint_left]
        rintro turns ⟨_, _, hfalse⟩ ⟨_, _, htrue⟩
        simp [← hfalse] at htrue
      rw [ways_inner hi, Set.encard_union_eq hdisjoint,
        Function.Injective.encard_image (List.cons_injective),
        Function.Injective.encard_image (List.cons_injective), ih hleft, ih hright,
        List.length_append, Nat.cast_add]
    | leaf value =>
      have hleaves : [value] = leaves := by simpa [leavesFrom, hi] using h
      rw [ways_leaf hi, Set.encard_singleton, ← hleaves]
      rfl
    | free =>
      have hleaves : [] = leaves := by simpa [leavesFrom, hi] using h
      rw [ways_free hi, Set.encard_empty, ← hleaves]
      rfl

/-! ## Trees -/

/-- A tree with the index of every cell. -/
inductive Tree (ι α : Type*) where
  | leaf (index : ι) (value : α)
  | inner (index : ι) (bit : ℕ) (left right : Tree ι α)

namespace Tree

def index : Tree ι α → ι
  | leaf index _ => index
  | inner index .. => index

/-- The leaves from left to right, each with its index. -/
def leaves : Tree ι α → List (ι × α)
  | leaf index value => [(index, value)]
  | inner _ _ left right => left.leaves ++ right.leaves

def height : Tree ι α → ℕ
  | leaf .. => 0
  | inner _ _ left right => max left.height right.height + 1

/-- The cells hold the tree. -/
def Stored (cells : ι → Option (Cell ι α)) : Tree ι α → Prop
  | leaf index value => cells index = some (.leaf value)
  | inner index bit left right =>
    cells index = some (.inner bit left.index right.index) ∧ left.Stored cells ∧
      right.Stored cells

theorem leavesFrom_of_stored {tree : Tree ι α} (h : tree.Stored cells) {fuel : ℕ}
    (hfuel : tree.height < fuel) :
    leavesFrom cells fuel tree.index = some (tree.leaves.map Prod.snd) := by
  induction tree generalizing fuel with
  | leaf index value =>
    obtain ⟨fuel, rfl⟩ := Nat.exists_eq_add_of_lt hfuel
    have hi : cells index = some (.leaf value) := h
    simp [Tree.index, leavesFrom, hi, leaves]
  | inner index bit left right ihLeft ihRight =>
    obtain ⟨hi, hleft, hright⟩ := h
    obtain ⟨fuel, rfl⟩ := Nat.exists_eq_add_of_lt hfuel
    have hheight : max left.height right.height ≤ (left.inner index bit right).height := by
      simp [height]
    refine (leavesFrom_inner hi).mpr ⟨_, _, ihLeft hleft ?_, ihRight hright ?_, ?_⟩
    · have := le_max_left left.height right.height
      simp only [height]
      omega
    · have := le_max_right left.height right.height
      simp only [height]
      omega
    · simp [leaves]

theorem stored_leaf {tree : Tree ι α} (h : tree.Stored cells) {leaf : ι × α}
    (hleaf : leaf ∈ tree.leaves) : cells leaf.1 = some (.leaf leaf.2) := by
  induction tree with
  | leaf index value =>
    rw [leaves, List.mem_singleton] at hleaf
    rw [hleaf]
    exact h
  | inner index bit left right ihLeft ihRight =>
    rcases List.mem_append.mp hleaf with hleaf | hleaf
    · exact ihLeft h.2.1 hleaf
    · exact ihRight h.2.2 hleaf

/-- Every leaf cell below the root of a stored tree is a leaf of the tree. -/
theorem mem_leaves_of_below {tree : Tree ι α} (h : tree.Stored cells) {i : ι} {value : α}
    (hbelow : Below cells tree.index i) (hi : cells i = some (.leaf value)) :
    (i, value) ∈ tree.leaves := by
  induction tree with
  | leaf index value' =>
    have hindex : cells index = some (.leaf value') := h
    rcases Relation.ReflTransGen.cases_head hbelow with heq | ⟨j, hchild, -⟩
    · have hvalue : value = value' := by simpa [← heq, Tree.index, hindex] using hi.symm
      simp [leaves, ← heq, hvalue, Tree.index]
    · obtain ⟨bit, left, right, hinner, -⟩ := hchild
      simp [Tree.index, hindex] at hinner
  | inner index bit left right ihLeft ihRight =>
    obtain ⟨hindex, hleft, hright⟩ := h
    rcases Relation.ReflTransGen.cases_head hbelow with heq | ⟨j, hchild, hj⟩
    · simp [← heq, Tree.index, hindex] at hi
    · obtain ⟨bit', left', right', hinner, hj'⟩ := hchild
      simp only [Tree.index, hindex, Option.some.injEq, Cell.inner.injEq] at hinner
      rcases hj' with rfl | rfl
      · rw [← hinner.2.1] at hj
        exact List.mem_append_left _ (ihLeft hleft hj)
      · rw [← hinner.2.2] at hj
        exact List.mem_append_right _ (ihRight hright hj)

theorem below_of_mem_leaves {tree : Tree ι α} (h : tree.Stored cells) {leaf : ι × α}
    (hleaf : leaf ∈ tree.leaves) : Below cells tree.index leaf.1 := by
  induction tree with
  | leaf index value =>
    rw [leaves, List.mem_singleton] at hleaf
    rw [hleaf]
    exact Relation.ReflTransGen.refl
  | inner index bit left right ihLeft ihRight =>
    obtain ⟨hindex, hleft, hright⟩ := h
    rcases List.mem_append.mp hleaf with hleaf | hleaf
    · exact (ihLeft hleft hleaf).head ⟨bit, _, _, hindex, .inl rfl⟩
    · exact (ihRight hright hleaf).head ⟨bit, _, _, hindex, .inr rfl⟩

/-! ### Crit-bit trees -/

variable (key : α → ℕ) (width : ℕ)

/-- Keys of `width` bits, counted from the highest. Below an inner cell all
keys agree in the bits before its own, which tells left from right. -/
def CritBit : Tree ι α → Prop
  | leaf .. => True
  | inner _ bit left right =>
    bit < width ∧
    (∀ a ∈ left.leaves ++ right.leaves, ∀ b ∈ left.leaves ++ right.leaves,
      key a.2 >>> (width - bit) = key b.2 >>> (width - bit)) ∧
    (∀ a ∈ left.leaves, (key a.2).testBit (width - 1 - bit) = false) ∧
    (∀ b ∈ right.leaves, (key b.2).testBit (width - 1 - bit) = true) ∧
    left.CritBit ∧ right.CritBit

variable {key width}

/-- Numbers that agree above a bit are in the order of that bit. -/
theorem lt_of_testBit {a b k : ℕ} (hshift : a >>> (k + 1) = b >>> (k + 1))
    (ha : a.testBit k = false) (hb : b.testBit k = true) : a < b := by
  have hhigh : a / 2 ^ k / 2 = b / 2 ^ k / 2 := by
    simpa [Nat.shiftRight_eq_div_pow, Nat.pow_succ, Nat.div_div_eq_div_mul] using hshift
  have hlow : a / 2 ^ k % 2 = 0 := by
    simpa [Nat.testBit_eq_decide_div_mod_eq] using ha
  have hlow' : b / 2 ^ k % 2 = 1 := by
    simpa [Nat.testBit_eq_decide_div_mod_eq] using hb
  have hlt : a / 2 ^ k < b / 2 ^ k := by omega
  exact lt_of_not_ge fun hle => absurd (Nat.div_le_div_right hle) (not_le_of_gt hlt)

/-- The leaves of a crit-bit tree are in the order of their keys. -/
theorem CritBit.pairwise {tree : Tree ι α} (h : tree.CritBit key width) :
    tree.leaves.Pairwise fun a b => key a.2 < key b.2 := by
  induction tree with
  | leaf index value => exact List.pairwise_singleton _ _
  | inner index bit left right ihLeft ihRight =>
    obtain ⟨hbit, hshare, hclear, hset, hleft, hright⟩ := h
    refine List.pairwise_append.mpr ⟨ihLeft hleft, ihRight hright, ?_⟩
    intro a ha b hb
    have hshift := hshare a (List.mem_append_left _ ha) b (List.mem_append_right _ hb)
    have hsub : width - bit = width - 1 - bit + 1 := by omega
    rw [hsub] at hshift
    exact lt_of_testBit hshift (hclear a ha) (hset b hb)

/-- No cell holds two leaves of a stored crit-bit tree. -/
theorem CritBit.nodup {tree : Tree ι α} (h : tree.CritBit key width) (hstored : tree.Stored cells) :
    (tree.leaves.map Prod.fst).Nodup := by
  rw [List.Nodup, List.pairwise_map]
  refine h.pairwise.imp_of_mem ?_
  intro a b ha hb hlt heq
  have hcell := (stored_leaf hstored ha).symm.trans
    ((congrArg cells heq).trans (stored_leaf hstored hb))
  have hvalue : a.2 = b.2 := by simpa using hcell
  exact absurd hlt (by simp [hvalue])

end Tree

end LinkedTree
