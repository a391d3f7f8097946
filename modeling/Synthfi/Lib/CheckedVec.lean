/-
Synthfi.Lib.CheckedVec — loops that assign to the elements of a vector.

Reading past the end of a vector is `xs[i]? = none`; `assign` is the same for
writing, so that a loop over unchecked accesses is a computation in `Option`
that is `none` where the program's behaviour is undefined.

* `foldlM_assign` — a loop that assigns every element in order gives the
  vector of what it assigns.
* `foldlM_eq_some_iff` — a loop each pass of which is defined under a
  condition on its element is defined under the condition on all of them.
* `getElem?_assignAll_of_mem`, `getElem?_assignAll_of_notMem` — after any
  assignments that agree where they meet, a position holds what was assigned
  to it, or what it held.
-/
import Mathlib.Data.List.Basic

namespace CheckedVec

variable {α β : Type*}

def assign (items : List α) (i : ℕ) (item : α) : Option (List α) :=
  if i < items.length then some (items.set i item) else none

theorem assign_of_lt {items : List α} {i : ℕ} (h : i < items.length) (item : α) :
    assign items i item = some (items.set i item) := if_pos h

/-! ## Defined passes -/

/-- `inv` is what a pass needs of the state to be defined under `ok`. -/
theorem foldlM_eq_some_iff {σ : Type*} {step : σ → α → Option σ} {pass : σ → α → σ}
    {ok : α → Prop} {inv : σ → Prop} {items : List α} {s t : σ} (hs : inv s)
    (hstep : ∀ s, inv s → ∀ a ∈ items, ∀ s', step s a = some s' ↔ ok a ∧ s' = pass s a)
    (hinv : ∀ s, inv s → ∀ a ∈ items, ok a → inv (pass s a)) :
    items.foldlM step s = some t ↔ (∀ a ∈ items, ok a) ∧ t = items.foldl pass s := by
  induction items generalizing s with
  | nil =>
    simp only [List.foldlM_nil, Option.pure_def, Option.some.injEq, List.foldl_nil,
      List.not_mem_nil, false_implies, implies_true, true_and]
    exact eq_comm
  | cons a items ih =>
    have hrest : ∀ s, inv s → (items.foldlM step s = some t ↔
        (∀ a ∈ items, ok a) ∧ t = items.foldl pass s) := fun s hs =>
      ih hs (fun s hs a ha => hstep s hs a (List.mem_cons_of_mem _ ha))
        (fun s hs a ha => hinv s hs a (List.mem_cons_of_mem _ ha))
    simp only [List.foldlM_cons, Option.bind_eq_bind, Option.bind_eq_some_iff,
      hstep s hs a List.mem_cons_self, List.forall_mem_cons, List.foldl_cons]
    constructor
    · rintro ⟨s', ⟨hok, rfl⟩, hfold⟩
      obtain ⟨hoks, ht⟩ := (hrest _ (hinv s hs a List.mem_cons_self hok)).mp hfold
      exact ⟨⟨hok, hoks⟩, ht⟩
    · rintro ⟨⟨hok, hoks⟩, ht⟩
      exact ⟨_, ⟨hok, rfl⟩, (hrest _ (hinv s hs a List.mem_cons_self hok)).mpr ⟨hoks, ht⟩⟩

theorem mapM_eq_some_iff {f : α → Option β} {g : α → β} {ok : α → Prop} {items : List α}
    {out : List β} (hf : ∀ a ∈ items, ∀ b, f a = some b ↔ ok a ∧ b = g a) :
    items.mapM f = some out ↔ (∀ a ∈ items, ok a) ∧ out = items.map g := by
  induction items generalizing out with
  | nil =>
    simp only [List.mapM_nil, Option.pure_def, Option.some.injEq, List.map_nil, List.not_mem_nil,
      false_implies, implies_true, true_and]
    exact eq_comm
  | cons a items ih =>
    obtain ⟨ha, hitems⟩ := List.forall_mem_cons.mp hf
    simp only [List.mapM_cons, Option.bind_eq_bind, Option.bind_eq_some_iff, ha, ih hitems,
      Option.pure_def, Option.some.injEq, List.forall_mem_cons, List.map_cons]
    constructor
    · rintro ⟨b, ⟨hok, rfl⟩, rest, ⟨hoks, rfl⟩, rfl⟩
      exact ⟨⟨hok, hoks⟩, rfl⟩
    · rintro ⟨⟨hok, hoks⟩, rfl⟩
      exact ⟨_, ⟨hok, rfl⟩, _, ⟨hoks, rfl⟩, rfl⟩

theorem mapM_eq_some_map_iff {f : α → Option β} {g : α → β} {items : List α} :
    items.mapM f = some (items.map g) ↔ ∀ a ∈ items, f a = some (g a) := by
  induction items with
  | nil => simp
  | cons a items ih =>
    simp only [List.mapM_cons, Option.bind_eq_bind, Option.bind_eq_some_iff, Option.pure_def,
      Option.some.injEq, List.map_cons, List.cons.injEq, List.forall_mem_cons, ← ih]
    constructor
    · rintro ⟨b, hb, rest, hrest, rfl, rfl⟩
      exact ⟨hb, hrest⟩
    · rintro ⟨hb, hrest⟩
      exact ⟨_, hb, _, hrest, rfl, rfl⟩

theorem exists_mapM_iff {f : α → Option β} {items : List α} :
    (∃ out, items.mapM f = some out) ↔ ∀ a ∈ items, ∃ b, f a = some b := by
  induction items with
  | nil => simp
  | cons a items ih =>
    simp only [List.mapM_cons, Option.bind_eq_bind, Option.bind_eq_some_iff, Option.pure_def,
      Option.some.injEq, List.forall_mem_cons, ← ih]
    constructor
    · intro ⟨_, b, hb, rest, hrest, _⟩
      exact ⟨⟨b, hb⟩, rest, hrest⟩
    · intro ⟨⟨b, hb⟩, rest, hrest⟩
      exact ⟨_, b, hb, rest, hrest, rfl⟩

/-! ## Every element in order -/

theorem forall_mem_zipIdx_fst (items : List α) (p : α → Prop) :
    (∀ entry ∈ items.zipIdx, p entry.1) ↔ ∀ a ∈ items, p a := by
  rw [← List.forall_mem_map (f := Prod.fst) (P := p), List.zipIdx_map_fst]

theorem forall_mem_zipIdx_snd (items : List α) (p : ℕ → Prop) :
    (∀ entry ∈ items.zipIdx, p entry.2) ↔ ∀ i < items.length, p i := by
  rw [← List.forall_mem_map (f := Prod.snd) (P := p), List.zipIdx_map_snd]
  simp

theorem map_zipIdx_snd (items : List α) (f : ℕ → β) :
    (items.zipIdx.map fun entry => f entry.2) = (List.range items.length).map f := by
  rw [List.range_eq_range', ← List.zipIdx_map_snd, List.map_map]
  rfl

/-- The vector holds what the loop has assigned, and behind it as many
elements as there are passes to come. -/
theorem foldlM_assign_from (f : α × ℕ → Option β) (items : List α) (front back : List β)
    (h : back.length = items.length) :
    ((items.zipIdx front.length).foldlM
        (fun out entry => (f entry).bind (assign out entry.2)) (front ++ back)) =
      ((items.zipIdx front.length).mapM f).map (front ++ ·) := by
  induction items generalizing front back with
  | nil =>
    obtain rfl : back = [] := List.length_eq_zero_iff.mp h
    simp
  | cons item items ih =>
    obtain ⟨old, back, rfl⟩ := List.exists_cons_of_length_eq_add_one h
    rw [List.zipIdx_cons, List.foldlM_cons, List.mapM_cons]
    cases hf : f (item, front.length) with
    | none => simp
    | some new =>
      have hlt : front.length < (front ++ old :: back).length := by simp
      have hset : (front ++ old :: back).set front.length new = (front ++ [new]) ++ back := by
        simp
      have hlength : (front ++ [new]).length = front.length + 1 := by simp
      have hrest := ih (front ++ [new]) back (by simpa using h)
      rw [hlength] at hrest
      simp only [Option.bind_eq_bind, Option.bind_some, Option.pure_def, assign_of_lt hlt, hset,
        hrest]
      cases (items.zipIdx (front.length + 1)).mapM f <;> simp

theorem foldlM_assign (f : α × ℕ → Option β) (items : List α) (out : List β)
    (h : out.length = items.length) :
    items.zipIdx.foldlM (fun out entry => (f entry).bind (assign out entry.2)) out =
      items.zipIdx.mapM f := by
  have hfrom := foldlM_assign_from f items [] out h
  simpa using hfrom

/-! ## Assignments at any positions -/

/-- The assignments made one after another. -/
def assignAll (writes : List (ℕ × α)) (items : List α) : List α :=
  writes.foldl (fun items write => items.set write.1 write.2) items

@[simp] theorem assignAll_nil (items : List α) : assignAll [] items = items := rfl

@[simp] theorem assignAll_cons (write : ℕ × α) (writes : List (ℕ × α)) (items : List α) :
    assignAll (write :: writes) items = assignAll writes (items.set write.1 write.2) := rfl

@[simp] theorem length_assignAll (writes : List (ℕ × α)) (items : List α) :
    (assignAll writes items).length = items.length := by
  induction writes generalizing items with
  | nil => rfl
  | cons write writes ih => simp [ih]

/-- A position to which nothing is assigned. -/
theorem getElem?_assignAll_of_notMem {writes : List (ℕ × α)} {i : ℕ}
    (h : ∀ write ∈ writes, write.1 ≠ i) (items : List α) :
    (assignAll writes items)[i]? = items[i]? := by
  induction writes generalizing items with
  | nil => rfl
  | cons write writes ih =>
    obtain ⟨hwrite, hwrites⟩ := List.forall_mem_cons.mp h
    rw [assignAll_cons, ih hwrites, List.getElem?_set_ne hwrite]

/-- A position to which the same is assigned every time. -/
theorem getElem?_assignAll_of_mem {writes : List (ℕ × α)} {write : ℕ × α} (h : write ∈ writes)
    (hagree : ∀ other ∈ writes, other.1 = write.1 → other.2 = write.2) {items : List α}
    (hlt : write.1 < items.length) : (assignAll writes items)[write.1]? = some write.2 := by
  induction writes generalizing items with
  | nil => cases h
  | cons first writes ih =>
    obtain ⟨hfirst, hwrites⟩ := List.forall_mem_cons.mp hagree
    rw [assignAll_cons]
    by_cases hlater : ∃ other ∈ writes, other.1 = write.1
    · obtain ⟨other, hother, hindex⟩ := hlater
      have hvalue := hwrites other hother hindex
      obtain rfl : other = write := Prod.ext hindex hvalue
      exact ih hother hwrites (by simpa using hlt)
    · have hnone : ∀ other ∈ writes, other.1 ≠ write.1 := fun other hother hindex =>
        hlater ⟨other, hother, hindex⟩
      obtain rfl : write = first := by
        obtain heq | hmem := List.mem_cons.mp h
        · exact heq
        · exact absurd rfl (hnone write hmem)
      rw [getElem?_assignAll_of_notMem hnone, List.getElem?_set_self hlt]

end CheckedVec
