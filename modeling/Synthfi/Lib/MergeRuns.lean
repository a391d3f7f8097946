/-
Synthfi.Lib.MergeRuns — sorting with a comparator, and merging runs of
equal keys.

`StdSort` is what `std::sort` promises and nothing more: a rearrangement in
which no element precedes one that the comparator puts before it. Which of
several equivalent elements comes first is left open, so a result proved for
every `StdSort` does not depend on the stability of the sort.

`mergeRuns` folds a list into a new one: an element with the key of the last
entry is combined into it, any other is appended. On a sorted list that
leaves one entry for each key (`mergeRuns_sortedBy`, `mem_keys_mergeRuns`)
and loses no weight (`weight_of_mem_mergeRuns`).
-/
import Mathlib.Algebra.BigOperators.Group.List.Basic
import Mathlib.Data.List.Induction
import Mathlib.Data.List.Sort
import Synthfi.Lib.SortedVec

/-! ## Sorting with a comparator -/

/-- What a comparator of `std::sort` must satisfy. -/
structure StrictWeak {α : Type*} (before : α → α → Bool) : Prop where
  asymm : ∀ a b, before a b = true → before b a = false
  cotrans : ∀ a b c, before a b = true → before a c = true ∨ before c b = true

/-- A sorting function, with what it guarantees. -/
structure StdSort (α : Type*) where
  sort : (α → α → Bool) → List α → List α
  perm : ∀ before l, (sort before l).Perm l
  sorted : ∀ before l, StrictWeak before →
    (sort before l).Pairwise fun a b => before b a = false

namespace StrictWeak

variable {α : Type*} {before : α → α → Bool}

theorem total (h : StrictWeak before) : Std.Total fun a b => before b a = false where
  total a b := by
    cases hba : before b a with
    | false => exact .inl rfl
    | true => exact .inr (h.asymm b a hba)

theorem isTrans (h : StrictWeak before) : IsTrans α fun a b => before b a = false where
  trans a b c hab hbc := by
    rw [← Bool.not_eq_true] at hab hbc ⊢
    intro hca
    rcases h.cotrans c a b hca with hcb | hba
    · exact hbc hcb
    · exact hab hba

end StrictWeak

/-- Insertion sort is one, and it evaluates. -/
def StdSort.insertionSort (α : Type*) : StdSort α where
  sort before l := l.insertionSort fun a b => before b a = false
  perm _ l := List.perm_insertionSort _ l
  sorted _ l h :=
    have := h.total
    have := h.isTrans
    List.pairwise_insertionSort _ l

namespace MergeRuns

variable {α κ M : Type*} [DecidableEq κ] [AddCommMonoid M]

/-! ## The merge loop -/

/-- One element of the input against the last entry of the result. -/
def mergeStep (key : α → κ) (combine : α → α → α) (merged : List α) (a : α) : List α :=
  match merged.getLast? with
  | none => merged ++ [a]
  | some last =>
    if key last ≠ key a then merged ++ [a] else merged.dropLast ++ [combine last a]

def mergeRuns (key : α → κ) (combine : α → α → α) (l : List α) : List α :=
  l.foldl (mergeStep key combine) []

/-- The total weight of the elements with key `k`. -/
def weightAt (key : α → κ) (weight : α → M) (l : List α) (k : κ) : M :=
  ((l.filter fun a => key a = k).map weight).sum

variable {key : α → κ} {combine : α → α → α} {weight : α → M}

theorem mergeRuns_concat (l : List α) (a : α) :
    mergeRuns key combine (l ++ [a]) = mergeStep key combine (mergeRuns key combine l) a := by
  rw [mergeRuns, List.foldl_append]; rfl

theorem weightAt_concat_self (l : List α) (a : α) :
    weightAt key weight (l ++ [a]) (key a) = weightAt key weight l (key a) + weight a := by
  simp [weightAt]

theorem weightAt_concat_of_ne {l : List α} {a : α} {k : κ} (h : key a ≠ k) :
    weightAt key weight (l ++ [a]) k = weightAt key weight l k := by
  simp [weightAt, h]

/-- A rearrangement does not change the weights. -/
theorem weightAt_perm {l l' : List α} (h : l.Perm l') (k : κ) :
    weightAt key weight l k = weightAt key weight l' k :=
  ((h.filter _).map _).sum_eq

/-- `merged` has one entry for each key of `l`, in key order, with the total
weight of that key. -/
structure Merged (lt : κ → κ → Prop) (key : α → κ) (weight : α → M) (l merged : List α) :
    Prop where
  sorted : SortedVec.SortedBy lt key merged
  keys : ∀ k, (∃ a ∈ merged, key a = k) ↔ ∃ a ∈ l, key a = k
  weights : ∀ a ∈ merged, weight a = weightAt key weight l (key a)

variable {lt : κ → κ → Prop}

theorem merged_nil : Merged lt key weight [] [] :=
  ⟨List.Pairwise.nil, fun k => by simp, by simp⟩

/-- An element whose key comes after all others opens a new entry. -/
theorem Merged.append [IsStrictOrder κ lt] {l merged : List α} (h : Merged lt key weight l merged)
    {a : α} (ha : ∀ b ∈ merged, lt (key b) (key a)) :
    Merged lt key weight (l ++ [a]) (merged ++ [a]) where
  sorted := List.pairwise_append.mpr
    ⟨h.sorted, List.pairwise_singleton .., fun b hb c hc => by
      obtain rfl := List.mem_singleton.mp hc
      exact ha b hb⟩
  keys k := by
    simp only [List.mem_append, List.mem_singleton, or_and_right, exists_or, h.keys k]
  weights b hb := by
    rcases List.mem_append.mp hb with hb | hb
    · have hne : key a ≠ key b := fun he => by
        have := ha b hb
        rw [he] at this
        exact irrefl_of lt _ this
      rw [weightAt_concat_of_ne hne]
      exact h.weights b hb
    · obtain rfl := List.mem_singleton.mp hb
      have hnone : l.filter (fun c => key c = key b) = [] := by
        rw [List.filter_eq_nil_iff]
        intro c hc hk
        obtain ⟨d, hd, hdk⟩ := (h.keys (key c)).mpr ⟨c, hc, rfl⟩
        have := ha d hd
        rw [hdk, of_decide_eq_true hk] at this
        exact irrefl_of lt _ this
      rw [weightAt_concat_self, weightAt, hnone, List.map_nil, List.sum_nil, zero_add]

/-- An element with the key of the last entry is combined into it. -/
theorem Merged.combineLast [IsStrictOrder κ lt] {l merged : List α} {last a : α}
    (h : Merged lt key weight l (merged ++ [last]))
    (hkey : ∀ b c, key (combine b c) = key b)
    (hweight : ∀ b c, weight (combine b c) = weight b + weight c) (he : key last = key a) :
    Merged lt key weight (l ++ [a]) (merged ++ [combine last a]) where
  sorted := by
    have hs := List.pairwise_append.mp h.sorted
    refine List.pairwise_append.mpr ⟨hs.1, List.pairwise_singleton .., fun b hb c hc => ?_⟩
    obtain rfl := List.mem_singleton.mp hc
    rw [hkey]
    exact hs.2.2 b hb last (List.mem_singleton_self _)
  keys k := by
    have hk := h.keys k
    simp only [List.mem_append, List.mem_singleton, or_and_right, exists_or,
      exists_eq_left, hkey] at hk ⊢
    rw [hk, ← he]
    refine ⟨.inl, fun hor => hor.elim id fun hl => hk.mp (.inr hl)⟩
  weights b hb := by
    rcases List.mem_append.mp hb with hb | hb
    · have hlt : lt (key b) (key last) :=
        (List.pairwise_append.mp h.sorted).2.2 b hb last (List.mem_singleton_self _)
      have hne : key a ≠ key b := fun hab => by
        rw [← hab, ← he] at hlt
        exact irrefl_of lt _ hlt
      rw [weightAt_concat_of_ne hne]
      exact h.weights b (List.mem_append_left _ hb)
    · obtain rfl := List.mem_singleton.mp hb
      have hl := h.weights last (List.mem_append_right _ (List.mem_singleton_self _))
      rw [hkey, hweight, hl, he, weightAt_concat_self]

/-- **The merge loop** on a sorted list. The induction is on the elements
already merged: none of them comes after the next one. -/
theorem merged_mergeRuns [IsStrictTotalOrder κ lt]
    (hkey : ∀ b c, key (combine b c) = key b)
    (hweight : ∀ b c, weight (combine b c) = weight b + weight c) {l : List α}
    (hl : l.Pairwise fun a b => ¬ lt (key b) (key a)) :
    Merged lt key weight l (mergeRuns key combine l) := by
  induction l using List.reverseRecOn with
  | nil => exact merged_nil
  | append_singleton l a ih =>
    obtain ⟨hl, -, hla⟩ := List.pairwise_append.mp hl
    have ih := ih hl
    have hle : ∀ b ∈ mergeRuns key combine l, ¬ lt (key a) (key b) := by
      intro b hb
      obtain ⟨c, hc, hcb⟩ := (ih.keys (key b)).mp ⟨b, hb, rfl⟩
      rw [← hcb]
      exact hla c hc a (List.mem_singleton_self _)
    rw [mergeRuns_concat, mergeStep]
    rcases List.eq_nil_or_concat' (mergeRuns key combine l) with hnil | ⟨merged, last, hconcat⟩
    · rw [hnil] at ih ⊢
      exact ih.append (by simp)
    · rw [hconcat] at ih hle ⊢
      rw [List.getLast?_append, List.getLast?_singleton, Option.some_or]
      split
      · next h => cases h
      · next last' h =>
        obtain rfl := Option.some.inj h
        split
        · next hne =>
          have hlt : lt (key last) (key a) :=
            (trichotomous_of lt (key last) (key a)).resolve_right fun h => h.elim hne
              (hle last (by simp))
          refine ih.append fun b hb => ?_
          rcases List.mem_append.mp hb with hb | hb
          · exact trans_of lt ((List.pairwise_append.mp ih.sorted).2.2 b hb last (by simp)) hlt
          · obtain rfl := List.mem_singleton.mp hb
            exact hlt
        · next he =>
          rw [List.dropLast_concat]
          exact ih.combineLast hkey hweight (not_not.mp he)

end MergeRuns
