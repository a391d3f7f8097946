/-
Synthfi.Lib.Facing — lots side by side.

Two lists of lots are laid end to end on a line, and of the two current lots
the one that ends first gives way to the next of its list. `facing` lists the
pairs that meet on the way, whatever the lots hold. Where they all hold
something, `mem_facing_iff` finds the pairs by their ranges: those that
overlap.
-/
import Synthfi.Lib.Matching

namespace Matching

variable {α β K : Type*} [Field K] [LinearOrder K]

/-- The pairs of lots that lie side by side, where the lots are laid end to
end from `s` and from `t` on: the list whose lot ends first steps on, and both
do where two end together. -/
def facing (s t : K) : List (α × K) → List (β × K) → List ((α × K) × (β × K))
  | lot :: as, lot' :: bs =>
    (lot, lot') ::
      if s + lot.2 < t + lot'.2 then facing (s + lot.2) t as (lot' :: bs)
      else if t + lot'.2 < s + lot.2 then facing s (t + lot'.2) (lot :: as) bs
      else facing (s + lot.2) (t + lot'.2) as bs
  | _, _ => []
termination_by as bs => as.length + bs.length

variable {s t : K} {lot : α × K} {lot' : β × K} {as : List (α × K)} {bs : List (β × K)}

@[simp] theorem facing_nil_left : facing s t ([] : List (α × K)) bs = [] := by
  unfold facing
  rfl

@[simp] theorem facing_nil_right : facing s t as ([] : List (β × K)) = [] := by
  unfold facing
  cases as <;> rfl

theorem facing_of_lt (h : s + lot.2 < t + lot'.2) :
    facing s t (lot :: as) (lot' :: bs) =
      (lot, lot') :: facing (s + lot.2) t as (lot' :: bs) := by
  rw [facing, if_pos h]

theorem facing_of_gt (h : t + lot'.2 < s + lot.2) :
    facing s t (lot :: as) (lot' :: bs) =
      (lot, lot') :: facing s (t + lot'.2) (lot :: as) bs := by
  rw [facing, if_neg h.asymm, if_pos h]

theorem facing_of_eq (h : s + lot.2 = t + lot'.2) :
    facing s t (lot :: as) (lot' :: bs) =
      (lot, lot') :: facing (s + lot.2) (t + lot'.2) as bs := by
  rw [facing, if_neg h.not_lt, if_neg h.not_gt]

/-- The two fronts face each other first. -/
theorem facing_cons : ∃ rest, facing s t (lot :: as) (lot' :: bs) = (lot, lot') :: rest := by
  rw [facing]
  exact ⟨_, rfl⟩

theorem facing_of_nil (h : ∀ lot as' lot' bs', as = lot :: as' → bs = lot' :: bs' → False) :
    facing s t as bs = [] := by
  cases as with
  | nil => exact facing_nil_left
  | cons lot as =>
    cases bs with
    | nil => exact facing_nil_right
    | cons lot' bs => exact (h lot as lot' bs rfl rfl).elim

theorem mem_of_mem_facing {pair : (α × K) × (β × K)} (h : pair ∈ facing s t as bs) :
    pair.1 ∈ as ∧ pair.2 ∈ bs := by
  induction s, t, as, bs using facing.induct with
  | case1 s t lot as lot' bs ihlt ihgt iheq =>
    obtain hlt | heq | hgt := lt_trichotomy (s + lot.2) (t + lot'.2)
    · rw [facing_of_lt hlt] at h
      obtain rfl | hrest := List.mem_cons.mp h
      · simp
      · exact ⟨List.mem_cons_of_mem _ (ihlt hrest).1, (ihlt hrest).2⟩
    · rw [facing_of_eq heq] at h
      obtain rfl | hrest := List.mem_cons.mp h
      · simp
      · exact ⟨List.mem_cons_of_mem _ (iheq hrest).1, List.mem_cons_of_mem _ (iheq hrest).2⟩
    · rw [facing_of_gt hgt] at h
      obtain rfl | hrest := List.mem_cons.mp h
      · simp
      · exact ⟨(ihgt hrest).1, List.mem_cons_of_mem _ (ihgt hrest).2⟩
  | case2 s t as bs hnil => simp [facing_of_nil hnil] at h

/-- Neither list ever steps back. -/
theorem facing_pairwise {R : α × K → α × K → Prop} {R' : β × K → β × K → Prop}
    (has : as.Pairwise R) (hbs : bs.Pairwise R') :
    (facing s t as bs).Pairwise fun pair later =>
      (later.1 = pair.1 ∨ R pair.1 later.1) ∧ (later.2 = pair.2 ∨ R' pair.2 later.2) := by
  induction s, t, as, bs using facing.induct with
  | case1 s t lot as lot' bs ihlt ihgt iheq =>
    have hfront : ∀ later ∈ lot :: as, later = lot ∨ R lot later := by
      intro later hlater
      obtain rfl | hlater := List.mem_cons.mp hlater
      · exact .inl rfl
      · exact .inr (List.rel_of_pairwise_cons has hlater)
    have hfront' : ∀ later ∈ lot' :: bs, later = lot' ∨ R' lot' later := by
      intro later hlater
      obtain rfl | hlater := List.mem_cons.mp hlater
      · exact .inl rfl
      · exact .inr (List.rel_of_pairwise_cons hbs hlater)
    obtain hlt | heq | hgt := lt_trichotomy (s + lot.2) (t + lot'.2)
    · rw [facing_of_lt hlt]
      refine List.Pairwise.cons (fun later hlater => ?_) (ihlt has.of_cons hbs)
      obtain ⟨hmem, hmem'⟩ := mem_of_mem_facing hlater
      exact ⟨hfront _ (List.mem_cons_of_mem _ hmem), hfront' _ hmem'⟩
    · rw [facing_of_eq heq]
      refine List.Pairwise.cons (fun later hlater => ?_) (iheq has.of_cons hbs.of_cons)
      obtain ⟨hmem, hmem'⟩ := mem_of_mem_facing hlater
      exact ⟨hfront _ (List.mem_cons_of_mem _ hmem), hfront' _ (List.mem_cons_of_mem _ hmem')⟩
    · rw [facing_of_gt hgt]
      refine List.Pairwise.cons (fun later hlater => ?_) (ihgt has hbs.of_cons)
      obtain ⟨hmem, hmem'⟩ := mem_of_mem_facing hlater
      exact ⟨hfront _ hmem, hfront' _ (List.mem_cons_of_mem _ hmem')⟩
  | case2 s t as bs hnil => simp [facing_of_nil hnil]

/-- Where a condition that holds of a pair holds of all pairs before it, the
pairs from the start on that meet it are all that do. -/
theorem takeWhile_eq_filter {γ : Type*} {p : γ → Bool} {pairs : List γ}
    (h : pairs.Pairwise fun pair later => p later → p pair) :
    pairs.takeWhile p = pairs.filter p := by
  induction pairs with
  | nil => rfl
  | cons pair pairs ih =>
    cases hp : p pair with
    | true => simp [hp, ih h.of_cons]
    | false =>
      have hnone : ∀ later ∈ pairs, ¬ p later := by
        intro later hlater hpos
        simpa [hp] using List.rel_of_pairwise_cons h hlater hpos
      simp [hp, List.filter_eq_nil_iff.mpr hnone]

/-! ## Ranges of the pairs -/

/-- Two ranges share a part that is not empty. -/
def Overlap (s x t y : K) : Prop := s < t + y ∧ t < s + x

/-- Some places in the lists hold the two lots, and their ranges overlap. -/
def Opposite (s t : K) (as : List (α × K)) (bs : List (β × K)) (lot : α × K) (lot' : β × K) :
    Prop :=
  ∃ i j, as[i]? = some lot ∧ bs[j]? = some lot' ∧
    Overlap (s + depth (as.take i)) lot.2 (t + depth (bs.take j)) lot'.2

variable {front a : α × K} {front' b : β × K}

theorem opposite_flip : Opposite t s bs as b a ↔ Opposite s t as bs a b := by
  constructor
  · rintro ⟨j, i, hb, ha, hover⟩
    exact ⟨i, j, ha, hb, hover.symm⟩
  · rintro ⟨i, j, ha, hb, hover⟩
    exact ⟨j, i, hb, ha, hover.symm⟩

theorem not_opposite_nil_left : ¬ Opposite s t [] bs a b := by
  rintro ⟨i, j, ha, -⟩
  simp at ha

theorem not_opposite_nil_right : ¬ Opposite s t as [] a b := by
  rintro ⟨i, j, -, hb, -⟩
  simp at hb

/-- Opposite a lot of the second list is the front of the first, or one behind
it. -/
theorem opposite_cons_left : Opposite s t (front :: as) bs a b ↔
    (a = front ∧ ∃ j, bs[j]? = some b ∧ Overlap s front.2 (t + depth (bs.take j)) b.2) ∨
      Opposite (s + front.2) t as bs a b := by
  constructor
  · rintro ⟨i, j, ha, hb, hover⟩
    cases i with
    | zero =>
      obtain rfl : front = a := by simpa using ha
      exact .inl ⟨rfl, j, hb, by simpa using hover⟩
    | succ i => exact .inr ⟨i, j, by simpa using ha, hb, by simpa [add_assoc] using hover⟩
  · rintro (⟨rfl, j, hb, hover⟩ | ⟨i, j, ha, hb, hover⟩)
    · exact ⟨0, j, by simp, hb, by simpa using hover⟩
    · exact ⟨i + 1, j, by simpa using ha, hb, by simpa [add_assoc] using hover⟩

variable [IsStrictOrderedRing K]

/-- A front that ends no later than the other list's is opposite that one
alone. -/
theorem opposite_front_iff (hbs : ∀ lot ∈ bs, 0 < lot.2) (hover : Overlap s front.2 t front'.2)
    (hle : s + front.2 ≤ t + front'.2) :
    (∃ j, (front' :: bs)[j]? = some b ∧
      Overlap s front.2 (t + depth ((front' :: bs).take j)) b.2) ↔ b = front' := by
  constructor
  · rintro ⟨j, hb, -, hstart⟩
    cases j with
    | zero => simpa using hb.symm
    | succ j =>
      have hnonneg := depth_take_nonneg (fun lot hlot => (hbs lot hlot).le) j
      simp only [List.take_succ_cons, depth_cons] at hstart
      linarith
  · rintro rfl
    exact ⟨0, by simp, by simpa using hover⟩

/-- A front that ends before the other list starts is opposite nothing. -/
theorem opposite_cons_right_of_le (has : ∀ lot ∈ as, 0 < lot.2) (hle : t + front'.2 ≤ s) :
    Opposite s t as (front' :: bs) a b ↔ Opposite s (t + front'.2) as bs a b := by
  rw [← opposite_flip, opposite_cons_left, opposite_flip]
  refine or_iff_right ?_
  rintro ⟨-, i, -, -, hstart⟩
  have hnonneg := depth_take_nonneg (fun lot hlot => (has lot hlot).le) i
  linarith

/-- Of lots that all hold something, those lie side by side whose ranges
overlap. -/
theorem mem_facing_iff (has : ∀ lot ∈ as, 0 < lot.2) (hbs : ∀ lot ∈ bs, 0 < lot.2)
    (hstart : ∀ lot ∈ as.head?, ∀ lot' ∈ bs.head?, Overlap s lot.2 t lot'.2) :
    (a, b) ∈ facing s t as bs ↔ Opposite s t as bs a b := by
  induction s, t, as, bs using facing.induct with
  | case1 s t lot as lot' bs ihlt ihgt iheq =>
    have hover := hstart lot rfl lot' rfl
    obtain ⟨hlot, has'⟩ := List.forall_mem_cons.mp has
    obtain ⟨hlot', hbs'⟩ := List.forall_mem_cons.mp hbs
    obtain hlt | heq | hgt := lt_trichotomy (s + lot.2) (t + lot'.2)
    · have hnext : ∀ next ∈ as.head?, ∀ next' ∈ (lot' :: bs).head?,
          Overlap (s + lot.2) next.2 t next'.2 := by
        intro next hnext next' hnext'
        obtain rfl : lot' = next' := by simpa using hnext'
        have hpos := has' next (List.mem_of_mem_head? hnext)
        have hend := hover.2
        exact ⟨hlt, by linarith⟩
      rw [facing_of_lt hlt, List.mem_cons, ihlt has' hbs hnext, opposite_cons_left,
        opposite_front_iff hbs' hover hlt.le, Prod.mk.injEq]
    · have hnext : ∀ next ∈ as.head?, ∀ next' ∈ bs.head?,
          Overlap (s + lot.2) next.2 (t + lot'.2) next'.2 := by
        intro next hnext next' hnext'
        have hpos := has' next (List.mem_of_mem_head? hnext)
        have hpos' := hbs' next' (List.mem_of_mem_head? hnext')
        exact ⟨by linarith, by linarith⟩
      rw [facing_of_eq heq, List.mem_cons, iheq has' hbs' hnext, opposite_cons_left,
        opposite_front_iff hbs' hover heq.le, opposite_cons_right_of_le has' heq.ge,
        Prod.mk.injEq]
    · have hnext : ∀ next ∈ (lot :: as).head?, ∀ next' ∈ bs.head?,
          Overlap s next.2 (t + lot'.2) next'.2 := by
        intro next hnext next' hnext'
        obtain rfl : lot = next := by simpa using hnext
        have hpos := hbs' next' (List.mem_of_mem_head? hnext')
        have hend := hover.1
        exact ⟨by linarith, hgt⟩
      have hcons : Opposite s t (lot :: as) (lot' :: bs) a b ↔
          (b = lot' ∧ a = lot) ∨ Opposite s (t + lot'.2) (lot :: as) bs a b := by
        rw [← opposite_flip, opposite_cons_left, opposite_front_iff has' hover.symm hgt.le,
          opposite_flip]
      rw [facing_of_gt hgt, List.mem_cons, ihgt has hbs' hnext, hcons, Prod.mk.injEq, and_comm]
  | case2 s t as bs hnil =>
    rw [facing_of_nil hnil]
    cases as with
    | nil => simpa using not_opposite_nil_left
    | cons lot as =>
      cases bs with
      | nil => simpa using not_opposite_nil_right
      | cons lot' bs => exact (hnil lot as lot' bs rfl rfl).elim

end Matching
