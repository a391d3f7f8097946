/-
Synthfi.Lib.PartialMap — partial maps as functions to `Option`, changed at
one key by `Function.update`.

The rules say what such a map holds after a record was put or erased;
`forall_update_some` is the frame rule: what holds of every record is asked
of the new one only.
-/
import Mathlib.Logic.Function.Basic

namespace PartialMap

variable {κ ν : Type*} [DecidableEq κ] {m : κ → Option ν} {k k' : κ} {v w : ν}

theorem update_some_eq_some :
    Function.update m k (some v) k' = some w ↔ (k' = k ∧ v = w) ∨ (k' ≠ k ∧ m k' = some w) := by
  by_cases h : k' = k
  · simp [h]
  · simp [h]

theorem update_none_eq_some :
    Function.update m k none k' = some w ↔ k' ≠ k ∧ m k' = some w := by
  by_cases h : k' = k
  · simp [h]
  · simp [h]

theorem update_some_eq_none :
    Function.update m k (some v) k' = none ↔ k' ≠ k ∧ m k' = none := by
  by_cases h : k' = k
  · simp [h]
  · simp [h]

/-- An element that is not there is not there after an erasure either. -/
theorem update_none_of_eq_none (h : m k' = none) (k : κ) : Function.update m k none k' = none := by
  by_cases hk : k' = k
  · rw [hk, Function.update_self]
  · rw [Function.update_of_ne hk, h]

theorem forall_update_some {p : κ → ν → Prop} (hp : ∀ k' w, m k' = some w → p k' w)
    (hv : p k v) : ∀ k' w, Function.update m k (some v) k' = some w → p k' w := by
  intro k' w h
  obtain ⟨rfl, rfl⟩ | ⟨-, hold⟩ := update_some_eq_some.mp h
  · exact hv
  · exact hp k' w hold

/-- `std::map::emplace`: an element that is there stays as it is. -/
def emplace (m : κ → Option ν) (k : κ) (v : ν) : κ → Option ν :=
  Function.update m k (some ((m k).getD v))

theorem emplace_eq_some :
    emplace m k v k' = some w ↔ m k' = some w ∨ (k' = k ∧ m k = none ∧ v = w) := by
  unfold emplace
  by_cases h : k' = k
  · subst h
    cases hk : m k' <;> simp
  · simp [h]

theorem emplace_of_eq_some (h : m k = some v) (v' : ν) : emplace m k v' = m := by
  funext k'
  by_cases hk : k' = k
  · subst hk
    simp [emplace, h]
  · simp [emplace, hk]

theorem emplace_eq_none : emplace m k v k' = none ↔ k' ≠ k ∧ m k' = none := by
  unfold emplace
  by_cases h : k' = k
  · simp [h]
  · simp [h]

/-- A map that holds `k` has nothing new to hold elsewhere. -/
theorem update_eq_none_of_eq_none (hk : m k = some v) (h : m k' = none) (x : Option ν) :
    Function.update m k x k' = none := by
  have hne : k' ≠ k := fun heq => by simp [heq, hk] at h
  rw [Function.update_of_ne hne, h]

end PartialMap
