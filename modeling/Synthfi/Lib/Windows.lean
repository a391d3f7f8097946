/-
Synthfi.Lib.Windows — a list cut into windows of one size, and a list
overwritten at a place.

`windows size xs` are the windows with their offsets: every window but the
last has `size` entries, their number is the ceiling of a division, they do
not overlap and they cover the list. `overwrite` copies entries over those
of another list from an offset on.
-/
import Mathlib.Data.List.Basic
import Mathlib.Order.Basic

namespace Windows

variable {α : Type*}

/-! ## Overwriting -/

/-- The entries of `ys` copied over those of `xs` from `offset` on. -/
def overwrite (xs : List α) (offset : ℕ) (ys : List α) : List α :=
  xs.take offset ++ (ys ++ xs.drop (offset + ys.length))

variable {xs ys : List α} {offset : ℕ}

theorem length_overwrite (h : offset + ys.length ≤ xs.length) :
    (overwrite xs offset ys).length = xs.length := by
  simp only [overwrite, List.length_append, List.length_take, List.length_drop]
  omega

/-- Every entry afterwards: one of those copied, or the one before. -/
theorem getElem?_overwrite (h : offset + ys.length ≤ xs.length) (i : ℕ) :
    (overwrite xs offset ys)[i]? =
      if offset ≤ i ∧ i < offset + ys.length then ys[i - offset]? else xs[i]? := by
  have htake : (xs.take offset).length = offset := by
    rw [List.length_take]; omega
  by_cases hbefore : i < offset
  · rw [overwrite, List.getElem?_append_left (by omega), List.getElem?_take_of_lt hbefore,
      if_neg (by omega)]
  · rw [overwrite, List.getElem?_append_right (by omega), htake]
    by_cases hin : i < offset + ys.length
    · rw [List.getElem?_append_left (by omega), if_pos ⟨by omega, hin⟩]
    · rw [List.getElem?_append_right (by omega), List.getElem?_drop, if_neg (by omega)]
      congr 1
      omega

/-! ## Windows -/

/-- How many windows `n` entries take. -/
def count (size n : ℕ) : ℕ := n / size + if 0 < n % size then 1 else 0

/-- The window with number `k` starts inside the list exactly if it is counted. -/
theorem lt_count_iff {size n k : ℕ} (hsize : 0 < size) : k < count size n ↔ k * size < n := by
  have hdiv := Nat.div_add_mod n size
  have hmod := Nat.mod_lt n hsize
  have hlt : k < n / size + 1 ↔ k * size ≤ n := by
    rw [Nat.lt_succ_iff, Nat.le_div_iff_mul_le hsize]
  rw [count]
  split
  case isTrue hrem =>
    rw [hlt]
    constructor
    · intro hle
      refine Nat.lt_of_le_of_ne hle ?_
      rintro rfl
      simp at hrem
    · exact Nat.le_of_lt
  case isFalse hrem =>
    have hdvd : size ∣ n := Nat.dvd_of_mod_eq_zero (by omega)
    rw [Nat.add_zero, Nat.lt_div_iff_mul_lt_of_dvd (by omega) hdvd]

/-- The window with number `k`, with its offset. -/
def window (size : ℕ) (xs : List α) (k : ℕ) : ℕ × List α :=
  (k * size, (xs.drop (k * size)).take size)

def windows (size : ℕ) (xs : List α) : List (ℕ × List α) :=
  (List.range (count size xs.length)).map (window size xs)

variable {size k : ℕ} {w : ℕ × List α}

theorem length_windows (size : ℕ) (xs : List α) :
    (windows size xs).length = count size xs.length := by
  simp [windows]

theorem getElem?_windows_eq_some :
    (windows size xs)[k]? = some w ↔ k < count size xs.length ∧ window size xs k = w := by
  rw [windows, List.getElem?_map]
  by_cases hk : k < count size xs.length <;> simp [hk]

/-- A window ends inside the list. -/
theorem window_le (hsize : 0 < size) (h : (windows size xs)[k]? = some w) :
    w.1 + w.2.length ≤ xs.length := by
  obtain ⟨hk, rfl⟩ := getElem?_windows_eq_some.mp h
  have hlt := (lt_count_iff hsize).mp hk
  simp only [window, List.length_take, List.length_drop]
  omega

/-- Two windows do not overlap. -/
theorem windows_disjoint {k' : ℕ} {w' : ℕ × List α} (h : (windows size xs)[k]? = some w)
    (h' : (windows size xs)[k']? = some w') (hne : k ≠ k') :
    w.1 + w.2.length ≤ w'.1 ∨ w'.1 + w'.2.length ≤ w.1 := by
  obtain ⟨-, rfl⟩ := getElem?_windows_eq_some.mp h
  obtain ⟨-, rfl⟩ := getElem?_windows_eq_some.mp h'
  simp only [window, List.length_take, List.length_drop]
  rcases Nat.lt_or_gt_of_ne hne with hlt | hlt
  · have := Nat.mul_le_mul_right size (Nat.succ_le_of_lt hlt)
    rw [Nat.succ_mul] at this
    omega
  · have := Nat.mul_le_mul_right size (Nat.succ_le_of_lt hlt)
    rw [Nat.succ_mul] at this
    omega

/-- An entry of a window is the entry of the list at its place. -/
theorem getElem?_window (h : (windows size xs)[k]? = some w) {j : ℕ} (hj : j < w.2.length) :
    w.2[j]? = xs[w.1 + j]? := by
  obtain ⟨-, rfl⟩ := getElem?_windows_eq_some.mp h
  simp only [window, List.length_take, List.length_drop] at hj ⊢
  rw [List.getElem?_take_of_lt (by omega), List.getElem?_drop]

/-- Every entry of the list is in a window. -/
theorem exists_window (hsize : 0 < size) {i : ℕ} (hi : i < xs.length) :
    ∃ (k : ℕ) (w : ℕ × List α), (windows size xs)[k]? = some w ∧
      ∃ j, j < w.2.length ∧ w.1 + j = i := by
  have hdiv := Nat.div_add_mod i size
  have hmod := Nat.mod_lt i hsize
  have hstart : i / size * size + i % size = i := by rw [Nat.mul_comm]; exact hdiv
  refine ⟨i / size, window size xs (i / size),
    getElem?_windows_eq_some.mpr ⟨(lt_count_iff hsize).mpr (by omega), rfl⟩, i % size, ?_, hstart⟩
  simp only [window, List.length_take, List.length_drop]
  omega

end Windows
