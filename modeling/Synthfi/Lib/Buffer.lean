/-
Synthfi.Lib.Buffer — arrays of fixed size that are filled from the front.

A write past the end is `none`, as a program's behaviour is undefined there.
`Holds n items` says what a buffer of size `n` has been filled with, and
there is one rule for each way to write: `push` and `pushAll` behind what it
holds, as long as there is room, and `assign` inside. `pushAll_append` turns a
loop of pushes into one. `Fills` says of writes that they fill the buffer or
fail for want of room; `Fills.bind` composes them.
-/
import Mathlib.Data.List.Basic

structure Buffer (α : Type*) where
  cells : List α
  /-- How many cells are filled. -/
  used : ℕ
  used_le : used ≤ cells.length

namespace Buffer

variable {α : Type*}

def ofCells (cells : List α) : Buffer α := ⟨cells, 0, Nat.zero_le _⟩

def filled (b : Buffer α) : List α := b.cells.take b.used

/-- `buffer[ used++ ] = item`. -/
def push (b : Buffer α) (item : α) : Option (Buffer α) :=
  if h : b.used < b.cells.length then
    some ⟨b.cells.set b.used item, b.used + 1, by rw [List.length_set]; exact h⟩
  else none

def pushAll (b : Buffer α) (items : List α) : Option (Buffer α) := items.foldlM push b

/-- `buffer[ i ] = item`. -/
def assign (b : Buffer α) (i : ℕ) (item : α) : Option (Buffer α) :=
  if i < b.cells.length then
    some ⟨b.cells.set i item, b.used, by rw [List.length_set]; exact b.used_le⟩
  else none

/-- The buffer has `n` cells and is filled with `items`. -/
structure Holds (b : Buffer α) (n : ℕ) (items : List α) : Prop where
  filled : b.filled = items
  cells : b.cells.length = n

variable {b : Buffer α} {n : ℕ} {items more : List α} {item : α}

/-- A buffer as it is allocated. -/
theorem holds_replicate (n : ℕ) (item : α) : (ofCells (List.replicate n item)).Holds n [] :=
  ⟨List.take_zero, List.length_replicate⟩

theorem Holds.used (h : b.Holds n items) : b.used = items.length := by
  rw [← h.filled, Buffer.filled, List.length_take, Nat.min_eq_left b.used_le]

theorem Holds.length_le (h : b.Holds n items) : items.length ≤ n := by
  rw [← h.used, ← h.cells]
  exact b.used_le

/-- A cell that is filled. -/
theorem Holds.getElem? (h : b.Holds n items) {i : ℕ} (hi : i < items.length) :
    b.cells[i]? = items[i]? := by
  rw [← h.filled, Buffer.filled, List.getElem?_take_of_lt (h.used ▸ hi)]

/-! ## Pushes -/

theorem Holds.push (h : b.Holds n items) (hroom : items.length < n) (item : α) :
    ∃ b', b.push item = some b' ∧ b'.Holds n (items ++ [item]) := by
  have hlt : b.used < b.cells.length := by
    rw [h.used, h.cells]
    exact hroom
  refine ⟨_, dif_pos hlt, ?_, ?_⟩
  · rw [← h.filled]
    simp [Buffer.filled, List.take_add_one, hlt, List.take_set_of_le]
  · simpa using h.cells

theorem Holds.push_eq_none (h : b.Holds n items) (hfull : n ≤ items.length) (item : α) :
    b.push item = none := by
  refine dif_neg ?_
  rw [h.used, h.cells]
  exact Nat.not_lt.mpr hfull

theorem Holds.pushAll (h : b.Holds n items) (more : List α)
    (hroom : items.length + more.length ≤ n) :
    ∃ b', b.pushAll more = some b' ∧ b'.Holds n (items ++ more) := by
  induction more generalizing b items with
  | nil => exact ⟨b, rfl, by simpa using h⟩
  | cons item more ih =>
    rw [List.length_cons] at hroom
    obtain ⟨b₁, hpush, h₁⟩ := h.push (by omega) item
    obtain ⟨b₂, hmore, h₂⟩ := ih h₁ (by simp; omega)
    refine ⟨b₂, ?_, by simpa using h₂⟩
    rw [Buffer.pushAll, List.foldlM_cons, hpush]
    exact hmore

theorem Holds.pushAll_eq_none (h : b.Holds n items) (hfull : n < items.length + more.length) :
    b.pushAll more = none := by
  induction more generalizing b items with
  | nil =>
    have := h.length_le
    simp at hfull
    omega
  | cons item more ih =>
    rw [List.length_cons] at hfull
    rw [Buffer.pushAll, List.foldlM_cons]
    by_cases hroom : items.length < n
    · obtain ⟨b₁, hpush, h₁⟩ := h.push hroom item
      rw [hpush]
      exact ih h₁ (by simp; omega)
    · rw [h.push_eq_none (Nat.not_lt.mp hroom) item]
      rfl

theorem pushAll_append (b : Buffer α) (items more : List α) :
    b.pushAll (items ++ more) = (b.pushAll items).bind fun b => b.pushAll more :=
  List.foldlM_append

/-! ## Assignments -/

theorem Holds.assign (h : b.Holds n items) {i : ℕ} (hi : i < items.length) (item : α) :
    ∃ b', b.assign i item = some b' ∧ b'.Holds n (items.set i item) := by
  have hlt : i < b.cells.length := by
    rw [h.cells]
    exact Nat.lt_of_lt_of_le hi h.length_le
  refine ⟨_, if_pos hlt, ?_, ?_⟩
  · rw [← h.filled]
    simp [Buffer.filled, List.take_set]
  · simpa using h.cells

/-- An assignment behind what the buffer holds. -/
theorem Holds.assign_behind (h : b.Holds n items) {i : ℕ} (hi : items.length ≤ i) (hn : i < n)
    (item : α) : ∃ b', b.assign i item = some b' ∧ b'.Holds n items := by
  have hlt : i < b.cells.length := by
    rw [h.cells]
    exact hn
  refine ⟨_, if_pos hlt, ?_, ?_⟩
  · rw [← h.filled]
    exact List.take_set_of_le (h.used ▸ hi)
  · simpa using h.cells

/-! ## Writes that fill -/

/-- The writes leave the buffer with `items`, or these do not fit. -/
def Fills (outcome : Option (Buffer α)) (n : ℕ) (items : List α) : Prop :=
  (items.length ≤ n ∧ ∃ b, outcome = some b ∧ b.Holds n items) ∨
    (n < items.length ∧ outcome = none)

theorem Holds.fills (h : b.Holds n items) : Fills (some b) n items :=
  .inl ⟨h.length_le, b, rfl, h⟩

theorem Holds.fills_pushAll (h : b.Holds n items) (more : List α) :
    Fills (b.pushAll more) n (items ++ more) := by
  by_cases hroom : items.length + more.length ≤ n
  · obtain ⟨b', hpush, h'⟩ := h.pushAll more hroom
    rw [hpush]
    exact h'.fills
  · refine .inr ⟨?_, h.pushAll_eq_none (by omega)⟩
    rw [List.length_append]
    omega

/-- More writes, which leave at least as many items. -/
theorem Fills.bind {outcome : Option (Buffer α)} {write : Buffer α → Option (Buffer α)}
    (h : Fills outcome n items) (hle : items.length ≤ more.length)
    (hwrite : ∀ b, b.Holds n items → Fills (write b) n more) :
    Fills (outcome.bind write) n more := by
  obtain ⟨-, b, rfl, hholds⟩ | ⟨hfull, rfl⟩ := h
  · exact hwrite b hholds
  · exact .inr ⟨Nat.lt_of_lt_of_le hfull hle, rfl⟩

/-- What is made of the items in the end. -/
theorem Fills.bind_filled {β : Type*} {outcome : Option (Buffer α)} (h : Fills outcome n items)
    (f : List α → β) :
    (outcome.bind fun b => some (f b.filled)) =
      if items.length ≤ n then some (f items) else none := by
  obtain ⟨hroom, b, rfl, hholds⟩ | ⟨hfull, rfl⟩ := h
  · rw [if_pos hroom, Option.bind_some, hholds.filled]
  · rw [if_neg (Nat.not_le.mpr hfull), Option.bind_none]

end Buffer
