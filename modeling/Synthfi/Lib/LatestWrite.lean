/-
Synthfi.Lib.LatestWrite — the last entry a log holds for a key.

A log of writes only grows. `latest` is what the last write to a key left;
`Replays` says that a list of cells holds what a log has written to its
indices, and `Replays.set` is the rule for one more write.
-/
import Mathlib.Data.List.Induction

namespace LatestWrite

variable {κ α : Type*} [DecidableEq κ] {log more : List (κ × α)} {key : κ} {item : α}

/-! ## Logs -/

/-- The item of the last entry for a key. -/
def latest (log : List (κ × α)) (key : κ) : Option α :=
  (log.reverse.find? fun entry => entry.1 = key).map Prod.snd

@[simp] theorem latest_nil (key : κ) : latest ([] : List (κ × α)) key = none := rfl

theorem latest_concat (log : List (κ × α)) (entry : κ × α) (key : κ) :
    latest (log ++ [entry]) key = if entry.1 = key then some entry.2 else latest log key := by
  rw [latest, List.reverse_append, List.reverse_singleton, List.singleton_append, List.find?_cons]
  by_cases h : entry.1 = key
  · rw [if_pos h, decide_eq_true h]; rfl
  · rw [if_neg h, decide_eq_false h]; rfl

theorem mem_of_latest (h : latest log key = some item) : (key, item) ∈ log := by
  obtain ⟨entry, hfind, rfl⟩ := Option.map_eq_some_iff.mp h
  obtain rfl : entry.1 = key := by simpa using List.find?_some hfind
  exact List.mem_reverse.mp (List.mem_of_find?_eq_some hfind)

theorem latest_map {κ' : Type*} [DecidableEq κ'] {f : κ → κ'} (hf : Function.Injective f)
    (log : List (κ × α)) (key : κ) :
    latest (log.map fun entry => (f entry.1, entry.2)) (f key) = latest log key := by
  induction log using List.reverseRecOn with
  | nil => rfl
  | append_singleton log entry ih =>
    rw [List.map_append, List.map_singleton, latest_concat, latest_concat, ih]
    simp only [hf.eq_iff]

/-! ## Cells -/

/-- The cells hold what the log has written to them, and `default` where it has
written nothing. -/
def Replays (default : α) (log : List (ℕ × α)) (cells : List α) : Prop :=
  ∀ i, i < cells.length → cells[i]? = some ((latest log i).getD default)

variable {default : α} {writes : List (ℕ × α)} {cells : List α}

theorem replays_replicate (default : α) (n : ℕ) :
    Replays default [] (List.replicate n default) := by
  intro i hi
  rw [List.length_replicate] at hi
  simp [hi]

theorem Replays.set (h : Replays default writes cells) (k : ℕ) (item : α) :
    Replays default (writes ++ [(k, item)]) (cells.set k item) := by
  intro i hi
  rw [List.length_set] at hi
  rw [latest_concat, List.getElem?_set]
  by_cases hk : k = i
  · rw [if_pos hk, if_pos hk, if_pos (hk ▸ hi)]; rfl
  · rw [if_neg hk, if_neg hk]
    exact h i hi

/-- The rule for the writes of a whole log. -/
theorem Replays.foldl_set (h : Replays default writes cells) (more : List (ℕ × α)) :
    Replays default (writes ++ more)
      (more.foldl (fun cells write => cells.set write.1 write.2) cells) := by
  induction more generalizing writes cells with
  | nil => simpa using h
  | cons write more ih =>
    rw [List.foldl_cons, ← List.singleton_append, ← List.append_assoc]
    exact ih (h.set write.1 write.2)

theorem length_foldl_set (cells : List α) (writes : List (ℕ × α)) :
    (writes.foldl (fun cells write => cells.set write.1 write.2) cells).length = cells.length := by
  induction writes generalizing cells with
  | nil => rfl
  | cons write writes ih => rw [List.foldl_cons, ih, List.length_set]

theorem Replays.eq_getD (h : Replays default writes cells) {i : ℕ} {cell : α}
    (hcell : cells[i]? = some cell) : cell = (latest writes i).getD default := by
  obtain ⟨hi, -⟩ := List.getElem?_eq_some_iff.mp hcell
  exact Option.some.inj (hcell.symm.trans (h i hi))

end LatestWrite
