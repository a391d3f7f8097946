/-
Synthfi.Lib.SortedVec — binary search and in-place edits on a vector kept
sorted by a key.

`lowerBound p l first` is the halving loop of `std::lower_bound` on the
range `[first, l.length)`, for a predicate `p` that says an element lies
before the searched value. The loop is modelled, not its specification:
`lowerBound_spec` proves that on a partitioned range it returns the
partition point, and says nothing about a range that is not partitioned.

`Splits p l r` is what a caller needs of that result: `p` holds exactly
before position `r`. The three edits of a vector (`insertIdx`, `set`,
`eraseIdx`) at a position that splits a sorted vector keep it sorted, and
the membership lemmas say which records they leave.
-/
import Mathlib.Data.List.InsertIdx
import Mathlib.Order.Defs.Unbundled
import Mathlib.Tactic.Common

namespace SortedVec

variable {α κ : Type*}

/-! ## The halving loop -/

/-- One call per halving of `[first, first + len)`; `fuel` is at least
`len`, so it never runs out before `len` does. -/
def lowerBoundLoop (p : α → Bool) (l : List α) : ℕ → ℕ → ℕ → ℕ
  | 0, first, _ => first
  | fuel + 1, first, len =>
    if len = 0 then first
    else
      match l[first + len / 2]? with
      | none => first
      | some a =>
        if p a then lowerBoundLoop p l fuel (first + len / 2 + 1) (len - len / 2 - 1)
        else lowerBoundLoop p l fuel first (len / 2)

/-- `std::lower_bound( l.begin( ) + first, l.end( ), .., comp )` as a
position in `l`, where `p a` is `comp( a, value )`. -/
def lowerBound (p : α → Bool) (l : List α) (first : ℕ) : ℕ :=
  lowerBoundLoop p l (l.length - first) first (l.length - first)

/-- On the positions from `first` on, `p` holds before `r` and fails from
`r` on. -/
structure SplitsFrom (p : α → Bool) (l : List α) (first r : ℕ) : Prop where
  first_le : first ≤ r
  le_length : r ≤ l.length
  before : ∀ i a, first ≤ i → i < r → l[i]? = some a → p a = true
  after : ∀ i a, r ≤ i → l[i]? = some a → p a = false

/-- From `first` on, whatever precedes an element with `p` has `p`. -/
def PartitionedFrom (p : α → Bool) (l : List α) (first : ℕ) : Prop :=
  ∀ i j a b, first ≤ i → i ≤ j → l[i]? = some a → l[j]? = some b → p b = true → p a = true

/-- The loop invariant: everything before the current range has `p`,
everything after it does not. -/
theorem lowerBoundLoop_spec {p : α → Bool} {l : List α} {lo : ℕ}
    (hp : PartitionedFrom p l lo) (fuel : ℕ) : ∀ first len : ℕ, len ≤ fuel →
    lo ≤ first → first + len ≤ l.length →
    (∀ i a, lo ≤ i → i < first → l[i]? = some a → p a = true) →
    (∀ i a, first + len ≤ i → l[i]? = some a → p a = false) →
    SplitsFrom p l lo (lowerBoundLoop p l fuel first len) := by
  induction fuel with
  | zero =>
    intro first len hf hlo hlen hb ha
    obtain rfl : len = 0 := by omega
    exact ⟨hlo, by simpa [lowerBoundLoop] using hlen, hb, by simpa [lowerBoundLoop] using ha⟩
  | succ fuel ih =>
    intro first len hf hlo hlen hb ha
    rw [lowerBoundLoop]
    split
    · next h0 =>
      subst h0
      exact ⟨hlo, by simpa using hlen, hb, by simpa using ha⟩
    · next h0 =>
      have hmid : first + len / 2 < l.length := by omega
      rw [List.getElem?_eq_getElem hmid]
      split
      · next heq => cases heq
      · next a heq =>
        have hget : l[first + len / 2]? = some a := by
          rw [List.getElem?_eq_getElem hmid]; exact heq
        split
        · next hpa =>
          refine ih _ _ (by omega) (by omega) (by omega) (fun i b h1 h2 hi => ?_)
            (fun i b h1 hi => ha i b (by omega) hi)
          exact hp i (first + len / 2) b a h1 (by omega) hi hget hpa
        · next hpa =>
          refine ih _ _ (by omega) hlo (by omega) hb (fun i b h1 hi => ?_)
          by_contra hpb
          exact hpa (hp (first + len / 2) i a b (by omega) (by omega) hget hi
            (by simpa using hpb))

/-- On a partitioned range the search returns the partition point. -/
theorem lowerBound_spec {p : α → Bool} {l : List α} {first : ℕ}
    (hp : PartitionedFrom p l first) (hf : first ≤ l.length) :
    SplitsFrom p l first (lowerBound p l first) :=
  lowerBoundLoop_spec hp _ first _ (Nat.le_refl _) (Nat.le_refl _) (by omega)
    (fun i a h1 h2 _ => by omega)
    (fun i a h1 hi => by
      have := (List.getElem?_eq_some_iff.mp hi).1
      omega)

/-! ## Vectors sorted by a key -/

/-- The keys come in strictly `lt`-increasing order. -/
def SortedBy (lt : κ → κ → Prop) (key : α → κ) (l : List α) : Prop :=
  l.Pairwise fun a b => lt (key a) (key b)

variable {lt : κ → κ → Prop} {key : α → κ} {l : List α} {k : κ} {r : ℕ}

theorem SortedBy.lt_of_getElem? (h : SortedBy lt key l) {i j : ℕ} {a b : α}
    (hij : i < j) (hi : l[i]? = some a) (hj : l[j]? = some b) : lt (key a) (key b) := by
  obtain ⟨hi', rfl⟩ := List.getElem?_eq_some_iff.mp hi
  obtain ⟨hj', rfl⟩ := List.getElem?_eq_some_iff.mp hj
  exact List.pairwise_iff_getElem.mp h i j hi' hj' hij

/-- A key occurs at most once. -/
theorem SortedBy.eq_of_key [IsStrictOrder κ lt] (h : SortedBy lt key l) {a b : α}
    (ha : a ∈ l) (hb : b ∈ l) (hk : key a = key b) : a = b := by
  obtain ⟨i, hi⟩ := List.mem_iff_getElem?.mp ha
  obtain ⟨j, hj⟩ := List.mem_iff_getElem?.mp hb
  rcases Nat.lt_trichotomy i j with hij | rfl | hij
  · have hlt := h.lt_of_getElem? hij hi hj
    rw [hk] at hlt
    exact absurd hlt (irrefl_of lt _)
  · exact Option.some.inj (hi.symm.trans hj)
  · have hlt := h.lt_of_getElem? hij hj hi
    rw [hk] at hlt
    exact absurd hlt (irrefl_of lt _)

/-- A sorted vector is partitioned by every comparison with a fixed key. -/
theorem SortedBy.partitionedFrom [IsStrictOrder κ lt] [DecidableRel lt]
    (h : SortedBy lt key l) (k : κ) (first : ℕ) :
    PartitionedFrom (fun a => decide (lt (key a) k)) l first := by
  intro i j a b _ hij hi hj hb
  rw [decide_eq_true_eq] at hb ⊢
  rcases Nat.lt_or_eq_of_le hij with hlt | rfl
  · exact trans_of lt (h.lt_of_getElem? hlt hi hj) hb
  · exact (Option.some.inj (hi.symm.trans hj)) ▸ hb

theorem SortedBy.nodup [IsStrictOrder κ lt] (h : SortedBy lt key l) : l.Nodup := by
  refine List.Pairwise.imp ?_ h
  rintro a b hab rfl
  exact irrefl_of lt _ hab

/-- Two sorted vectors with the same records are the same vector. -/
theorem SortedBy.eq_of_mem_iff [IsStrictOrder κ lt] {l' : List α} (h : SortedBy lt key l)
    (h' : SortedBy lt key l') (hmem : ∀ a, a ∈ l ↔ a ∈ l') : l = l' := by
  refine ((List.perm_ext_iff_of_nodup h.nodup h'.nodup).mpr hmem).eq_of_pairwise ?_ h h'
  intro a b _ _ hab hba
  exact absurd (trans_of lt hab hba) (irrefl_of lt _)

/-! ## Edits at a split position -/

/-- Position `r` splits `l` at the key `k`. -/
structure Splits (lt : κ → κ → Prop) (key : α → κ) (l : List α) (k : κ) (r : ℕ) : Prop where
  le_length : r ≤ l.length
  before : ∀ a ∈ l.take r, lt (key a) k
  after : ∀ a ∈ l.drop r, ¬ lt (key a) k

theorem insertIdx_eq_take_cons_drop (a : α) : ∀ (l : List α) (r : ℕ), r ≤ l.length →
    l.insertIdx r a = l.take r ++ a :: l.drop r
  | _, 0, _ => by simp
  | [], r + 1, h => by simp at h
  | b :: l, r + 1, h => by
      rw [List.insertIdx_succ_cons, insertIdx_eq_take_cons_drop a l r (by simpa using h)]
      simp

/-- The three parts of a vector around a position that holds a record. -/
theorem eq_take_cons_drop {c : α} (hc : l[r]? = some c) :
    l = l.take r ++ c :: l.drop (r + 1) := by
  obtain ⟨hr, rfl⟩ := List.getElem?_eq_some_iff.mp hc
  rw [List.getElem_cons_drop, List.take_append_drop]

theorem set_eq_take_cons_drop {c : α} (hc : l[r]? = some c) (a : α) :
    l.set r a = l.take r ++ a :: l.drop (r + 1) := by
  rw [List.set_eq_take_append_cons_drop, if_pos (List.getElem?_eq_some_iff.mp hc).1]

theorem mem_take_iff_getElem? {a : α} : a ∈ l.take r ↔ ∃ i < r, l[i]? = some a := by
  rw [List.mem_iff_getElem?]
  refine exists_congr fun i => ?_
  rw [List.getElem?_take]
  split <;> simp [*]

/-- A search result splits the whole vector when all it skipped has `p`. -/
theorem SplitsFrom.splits [DecidableRel lt] {first : ℕ}
    (h : SplitsFrom (fun a => decide (lt (key a) k)) l first r)
    (hskip : ∀ a ∈ l.take first, lt (key a) k) : Splits lt key l k r where
  le_length := h.le_length
  before a ha := by
    obtain ⟨i, hir, hi⟩ := mem_take_iff_getElem?.mp ha
    rcases Nat.lt_or_ge i first with hlt | hge
    · exact hskip a (mem_take_iff_getElem?.mpr ⟨i, hlt, hi⟩)
    · exact of_decide_eq_true (h.before i a hge hir hi)
  after a ha := by
    obtain ⟨i, hi⟩ := List.mem_iff_getElem?.mp ha
    rw [List.getElem?_drop] at hi
    exact of_decide_eq_false (h.after (r + i) a (Nat.le_add_right r i) hi)

/-- Where the split position does not hold the key, no record does. -/
theorem Splits.key_ne [IsStrictOrder κ lt] (hs : Splits lt key l k r)
    (h : SortedBy lt key l) (hr : ∀ c, l[r]? = some c → key c ≠ k) {b : α} (hb : b ∈ l) :
    key b ≠ k := by
  obtain ⟨j, hj⟩ := List.mem_iff_getElem?.mp hb
  rcases Nat.lt_trichotomy j r with hjr | rfl | hjr
  · exact ne_of_irrefl (hs.before b (mem_take_iff_getElem?.mpr ⟨j, hjr, hj⟩))
  · exact hr b hj
  · have hlen : r < l.length := Nat.lt_trans hjr (List.getElem?_eq_some_iff.mp hj).1
    have hbefore := h.lt_of_getElem? hjr (List.getElem?_eq_getElem hlen) hj
    have hhead : (l.drop r)[0]? = some l[r] := by
      rw [List.getElem?_drop, Nat.add_zero, List.getElem?_eq_getElem hlen]
    have hafter : ¬ lt (key l[r]) k := hs.after _ (List.mem_of_getElem? hhead)
    rintro rfl
    exact hafter hbefore

theorem Splits.insertIdx [IsStrictOrder κ lt] {a : α} (hs : Splits lt key l (key a) r) :
    Splits lt key (l.insertIdx r a) (key a) r := by
  have heq := insertIdx_eq_take_cons_drop a l r hs.le_length
  have hlen : (l.take r).length = r := List.length_take_of_le hs.le_length
  refine ⟨?_, fun b hb => hs.before b ?_, fun b hb => ?_⟩
  · rw [heq, List.length_append, hlen]; exact Nat.le_add_right ..
  · rwa [heq, List.take_left' hlen] at hb
  · rw [heq, List.drop_left' hlen] at hb
    rcases List.mem_cons.mp hb with rfl | hb
    · exact irrefl_of lt _
    · exact hs.after b hb

theorem Splits.set [IsStrictOrder κ lt] {a c : α} (hs : Splits lt key l k r)
    (ha : key a = k) (hc : l[r]? = some c) : Splits lt key (l.set r a) k r := by
  subst ha
  have heq := set_eq_take_cons_drop hc a
  have hlen : (l.take r).length = r := List.length_take_of_le hs.le_length
  refine ⟨by rw [List.length_set]; exact hs.le_length, fun b hb => hs.before b ?_,
    fun b hb => ?_⟩
  · rwa [heq, List.take_left' hlen] at hb
  · rw [heq, List.drop_left' hlen] at hb
    rcases List.mem_cons.mp hb with rfl | hb
    · exact irrefl_of lt _
    · rw [← List.drop_drop] at hb
      exact hs.after b (List.mem_of_mem_drop hb)

theorem Splits.eraseIdx {c : α} (hs : Splits lt key l k r) (hc : l[r]? = some c) :
    Splits lt key (l.eraseIdx r) k r := by
  have heq : l.eraseIdx r = l.take r ++ l.drop (r + 1) := List.eraseIdx_eq_take_drop_succ ..
  have hlen : (l.take r).length = r := List.length_take_of_le hs.le_length
  have hr := (List.getElem?_eq_some_iff.mp hc).1
  refine ⟨by rw [List.length_eraseIdx_of_lt hr]; omega, fun b hb => hs.before b ?_,
    fun b hb => ?_⟩
  · rwa [heq, List.take_left' hlen] at hb
  · rw [heq, List.drop_left' hlen, ← List.drop_drop] at hb
    exact hs.after b (List.mem_of_mem_drop hb)

/-- Inserting a record whose key is new at the split position keeps the
order. -/
theorem SortedBy.insertIdx [IsStrictTotalOrder κ lt] (h : SortedBy lt key l) {a : α}
    (hs : Splits lt key l (key a) r) (hnew : ∀ b ∈ l.drop r, key b ≠ key a) :
    SortedBy lt key (l.insertIdx r a) := by
  rw [insertIdx_eq_take_cons_drop a l r hs.le_length]
  have hsplit : SortedBy lt key (l.take r ++ l.drop r) := by
    rw [List.take_append_drop]; exact h
  obtain ⟨hpre, hpost, hcross⟩ := List.pairwise_append.mp hsplit
  refine List.pairwise_append.mpr ⟨hpre, List.pairwise_cons.mpr ⟨fun b hb => ?_, hpost⟩, ?_⟩
  · rcases trichotomous_of lt (key a) (key b) with hlt | heq | hgt
    · exact hlt
    · exact absurd heq.symm (hnew b hb)
    · exact absurd hgt (hs.after b hb)
  · intro x hx b hb
    rcases List.mem_cons.mp hb with rfl | hb
    · exact hs.before x hx
    · exact hcross x hx b hb

/-- Overwriting a record by one with the same key keeps the order. -/
theorem SortedBy.set (h : SortedBy lt key l) {a c : α} (hc : l[r]? = some c)
    (hkey : key a = key c) : SortedBy lt key (l.set r a) := by
  rw [set_eq_take_cons_drop hc]
  have h' : SortedBy lt key (l.take r ++ c :: l.drop (r + 1)) := by
    rw [← eq_take_cons_drop hc]; exact h
  obtain ⟨hpre, hpost, hcross⟩ := List.pairwise_append.mp h'
  obtain ⟨hhead, htail⟩ := List.pairwise_cons.mp hpost
  refine List.pairwise_append.mpr ⟨hpre, List.pairwise_cons.mpr ⟨?_, htail⟩, ?_⟩
  · intro b hb
    rw [hkey]; exact hhead b hb
  · intro x hx b hb
    rcases List.mem_cons.mp hb with rfl | hb
    · rw [hkey]; exact hcross x hx c List.mem_cons_self
    · exact hcross x hx b (List.mem_cons_of_mem _ hb)

theorem SortedBy.eraseIdx (h : SortedBy lt key l) (r : ℕ) :
    SortedBy lt key (l.eraseIdx r) :=
  h.sublist (List.eraseIdx_sublist ..)

/-- Erasing a record leaves exactly the records with another key. -/
theorem SortedBy.mem_eraseIdx [IsStrictOrder κ lt] (h : SortedBy lt key l) {b c : α}
    (hc : l[r]? = some c) : b ∈ l.eraseIdx r ↔ b ∈ l ∧ key b ≠ key c := by
  have hcl : c ∈ l := List.mem_of_getElem? hc
  rw [List.eraseIdx_eq_take_drop_succ]
  have hl : b ∈ l ↔ b ∈ l.take r ∨ b = c ∨ b ∈ l.drop (r + 1) := by
    conv_lhs => rw [eq_take_cons_drop hc]
    simp
  have hne : b ∈ l.take r ++ l.drop (r + 1) → key b ≠ key c := by
    intro hb
    have h' : SortedBy lt key (l.take r ++ c :: l.drop (r + 1)) := by
      rw [← eq_take_cons_drop hc]; exact h
    obtain ⟨-, hpost, hcross⟩ := List.pairwise_append.mp h'
    rcases List.mem_append.mp hb with hb | hb
    · exact ne_of_irrefl (hcross b hb c List.mem_cons_self)
    · exact ne_of_irrefl' ((List.pairwise_cons.mp hpost).1 b hb)
  constructor
  · intro hb
    exact ⟨hl.mpr ((List.mem_append.mp hb).imp_right Or.inr), hne hb⟩
  · rintro ⟨hb, hk⟩
    rcases hl.mp hb with hb | rfl | hb
    · exact List.mem_append_left _ hb
    · exact absurd rfl hk
    · exact List.mem_append_right _ hb

/-- Overwriting replaces the record under its key. -/
theorem SortedBy.mem_set [IsStrictOrder κ lt] (h : SortedBy lt key l) {a b c : α}
    (hc : l[r]? = some c) : b ∈ l.set r a ↔ b = a ∨ (b ∈ l ∧ key b ≠ key c) := by
  rw [← h.mem_eraseIdx hc, set_eq_take_cons_drop hc, List.eraseIdx_eq_take_drop_succ]
  simp only [List.mem_append, List.mem_cons]
  tauto

end SortedVec
