/-
Synthfi.Lib.Delimited — words that end at a delimiter.

`scan` reads a word up to the first delimiter that is not escaped. An escape
counts in front of the characters that may be escaped and stands for itself in
front of any other. Where nothing is escaped the word ends at the first
delimiter of all (`scan_of_notMem`), so that what is read has none
(`scan_eq_iff`).
-/
import Mathlib.Data.List.TakeWhile

namespace Delimited

variable {α : Type*} [DecidableEq α]

/-- The word at the head of a text, with its escapes resolved, and what
follows it. -/
def scan (escape : α) (escapable stop : α → Bool) : List α → List α × List α
  | [] => ([], [])
  | [c] => if stop c then ([], [c]) else ([c], [])
  | c :: d :: text =>
    if c = escape ∧ escapable d then
      Prod.map (List.cons d) id (scan escape escapable stop text)
    else if stop c then ([], c :: d :: text)
    else Prod.map (List.cons c) id (scan escape escapable stop (d :: text))

variable {escape : α} {escapable stop : α → Bool}

theorem scan_of_notMem {text : List α} (h : escape ∉ text) :
    scan escape escapable stop text =
      (text.takeWhile fun c => !stop c, text.dropWhile fun c => !stop c) := by
  fun_induction scan escape escapable stop text with
  | case1 => rfl
  | case2 c hstop => simp [hstop]
  | case3 c hstop => simp [hstop]
  | case4 c d text hescape ih => exact absurd (hescape.1 ▸ List.mem_cons_self) h
  | case5 c d text hescape hstop => simp [hstop]
  | case6 c d text hescape hstop ih =>
    have hrest := ih fun hmem => h (List.mem_cons_of_mem c hmem)
    simp [hstop, hrest]

/-- A text without escapes is the word read, which has no delimiter, and what
begins with one. -/
theorem scan_eq_iff {text word rest : List α} (h : escape ∉ text) :
    scan escape escapable stop text = (word, rest) ↔
      text = word ++ rest ∧ (∀ c ∈ word, stop c = false) ∧ ∀ c ∈ rest.head?, stop c = true := by
  rw [scan_of_notMem h, Prod.mk.injEq]
  constructor
  · rintro ⟨rfl, rfl⟩
    refine ⟨List.takeWhile_append_dropWhile.symm, fun c hc => ?_, fun c hc => ?_⟩
    · simpa using List.mem_takeWhile_imp hc
    · have hhead := List.head?_dropWhile_not (fun c => !stop c) text
      rw [Option.mem_def.mp hc] at hhead
      simpa using hhead
  · rintro ⟨rfl, hword, hrest⟩
    have hall : ∀ c ∈ word, (!stop c) = true := by simpa using hword
    rw [List.takeWhile_append_of_pos hall, List.dropWhile_append_of_pos hall]
    cases rest with
    | nil => simp
    | cons c rest => simp [hrest c rfl]

end Delimited
