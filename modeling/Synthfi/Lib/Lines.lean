/-
Synthfi.Lib.Lines — texts made of whole lines.

`WholeLines lines bodies` says that the texts `bodies` are made of the lines
`lines`, each once and in order, no line being cut: a text is the lines of
one part, separated by newlines. Texts grow by a line at their end (`snoc`,
`extend`). A line counts in `size` with its end, so texts made of whole lines
have the size of the lines (`size_eq`): no line can be lost unnoticed. Read
again, they are the lines (`WholeLines.flatMap_linesOf`).

`SomeLines` is what is left of that when texts get lost: each line at most
once, in order, none cut.
-/
import Mathlib.Data.List.Basic
import Mathlib.Data.List.Flatten

namespace Lines

def WholeLines (lines bodies : List String) : Prop :=
  ∃ parts : List (List String), parts.flatten = lines ∧ parts.map "\n".intercalate = bodies

variable {lines bodies : List String}

theorem wholeLines_nil : WholeLines [] [] := ⟨[], rfl, rfl⟩

/-- A line becomes a text of its own. -/
theorem WholeLines.snoc (h : WholeLines lines bodies) (line : String) :
    WholeLines (lines ++ [line]) (bodies ++ [line]) := by
  obtain ⟨parts, rfl, rfl⟩ := h
  exact ⟨parts ++ [[line]], by simp, by simp⟩

/-- A line is added to the last text. -/
theorem WholeLines.extend {body : String} (h : WholeLines lines (bodies ++ [body]))
    (hbody : body ≠ "") (line : String) :
    WholeLines (lines ++ [line]) (bodies ++ [body ++ ("\n" ++ line)]) := by
  obtain ⟨parts, rfl, hparts⟩ := h
  obtain ⟨first, last, rfl, rfl, hlast⟩ := List.map_eq_append_iff.mp hparts
  obtain ⟨part, rfl, rfl⟩ := List.map_eq_singleton_iff.mp hlast
  have hpart : part ≠ [] := by
    rintro rfl
    exact hbody String.intercalate_nil
  refine ⟨first ++ [part ++ [line]], by simp, ?_⟩
  rw [List.map_append, List.map_singleton,
    String.intercalate_append_of_ne_nil hpart (List.cons_ne_nil line []),
    String.intercalate_singleton, String.append_assoc]

/-! ## Texts that get lost -/

def SomeLines (lines bodies : List String) : Prop :=
  ∃ kept : List String, kept.Sublist lines ∧ WholeLines kept bodies

theorem WholeLines.someLines (h : WholeLines lines bodies) : SomeLines lines bodies :=
  ⟨lines, List.Sublist.refl lines, h⟩

theorem SomeLines.snoc (h : SomeLines lines bodies) (line : String) :
    SomeLines (lines ++ [line]) (bodies ++ [line]) := by
  obtain ⟨kept, hkept, hwhole⟩ := h
  exact ⟨kept ++ [line], hkept.append_right [line], hwhole.snoc line⟩

theorem SomeLines.extend {body : String} (h : SomeLines lines (bodies ++ [body]))
    (hbody : body ≠ "") (line : String) :
    SomeLines (lines ++ [line]) (bodies ++ [body ++ ("\n" ++ line)]) := by
  obtain ⟨kept, hkept, hwhole⟩ := h
  exact ⟨kept ++ [line], hkept.append_right [line], hwhole.extend hbody line⟩

/-- Losing texts loses their lines. -/
theorem SomeLines.of_sublist (h : SomeLines lines bodies) {fewer : List String}
    (hfewer : fewer.Sublist bodies) : SomeLines lines fewer := by
  obtain ⟨kept, hkept, parts, rfl, rfl⟩ := h
  obtain ⟨parts', hparts, rfl⟩ := List.sublist_map_iff.mp hfewer
  exact ⟨parts'.flatten, hparts.flatten.trans hkept, parts', rfl, rfl⟩

/-! ## Reading texts -/

def linesOf (text : String) : List String := (text.toList.splitOn '\n').map String.ofList

theorem linesOf_intercalate {part : List String} (hpart : part ≠ [])
    (hlines : ∀ line ∈ part, '\n' ∉ line.toList) : linesOf ("\n".intercalate part) = part := by
  have hsplit : (['\n'].intercalate (part.map String.toList)).splitOn '\n' =
      part.map String.toList :=
    List.splitOn_intercalate '\n' (List.forall_mem_map.mpr hlines) (by simpa using hpart)
  rw [linesOf, String.toList_intercalate, show "\n".toList = ['\n'] from rfl, hsplit,
    List.map_map]
  simp [Function.comp_def]

theorem WholeLines.flatMap_linesOf (h : WholeLines lines bodies)
    (hbodies : ∀ body ∈ bodies, body ≠ "") (hlines : ∀ line ∈ lines, '\n' ∉ line.toList) :
    bodies.flatMap linesOf = lines := by
  obtain ⟨parts, rfl, rfl⟩ := h
  induction parts with
  | nil => rfl
  | cons part parts ih =>
    rw [List.map_cons] at hbodies ⊢
    obtain ⟨hpart, hparts⟩ := List.forall_mem_cons.mp hbodies
    rw [List.flatten_cons] at hlines ⊢
    obtain ⟨hfirst, hrest⟩ := List.forall_mem_append.mp hlines
    have hne : part ≠ [] := by
      rintro rfl
      exact hpart String.intercalate_nil
    rw [List.flatMap_cons, linesOf_intercalate hne hfirst, ih hrest hparts]

/-- What is read again of texts of which some got lost is some of the lines. -/
theorem SomeLines.flatMap_linesOf (h : SomeLines lines bodies)
    (hbodies : ∀ body ∈ bodies, body ≠ "") (hlines : ∀ line ∈ lines, '\n' ∉ line.toList) :
    (bodies.flatMap linesOf).Sublist lines := by
  obtain ⟨kept, hkept, hwhole⟩ := h
  rw [hwhole.flatMap_linesOf hbodies fun line hline => hlines line (hkept.subset hline)]
  exact hkept

/-! ## Sizes -/

/-- The characters of the texts, and one for the end of each. -/
def size : List String → ℕ
  | [] => 0
  | text :: texts => text.length + 1 + size texts

@[simp] theorem size_nil : size [] = 0 := rfl

@[simp] theorem size_cons (text : String) (texts : List String) :
    size (text :: texts) = text.length + 1 + size texts := rfl

@[simp] theorem size_append (texts more : List String) :
    size (texts ++ more) = size texts + size more := by
  induction texts with
  | nil => simp
  | cons text texts ih => simp [ih, Nat.add_assoc]

theorem length_intercalate {part : List String} (h : part ≠ []) :
    ("\n".intercalate part).length + 1 = size part := by
  induction part with
  | nil => exact absurd rfl h
  | cons line part ih =>
    by_cases hnil : part = []
    · simp [hnil]
    · have hlength : "\n".length = 1 := rfl
      rw [String.intercalate_cons_of_ne_nil hnil, size_cons, ← ih hnil]
      simp only [String.length_append, hlength]
      omega

/-- Texts that are made of whole lines, and of one at least, have their size. -/
theorem WholeLines.size_eq (h : WholeLines lines bodies) (hbodies : ∀ body ∈ bodies, body ≠ "") :
    size bodies = size lines := by
  obtain ⟨parts, rfl, rfl⟩ := h
  induction parts with
  | nil => rfl
  | cons part parts ih =>
    rw [List.map_cons] at hbodies ⊢
    obtain ⟨hpart, hparts⟩ := List.forall_mem_cons.mp hbodies
    have hne : part ≠ [] := by
      rintro rfl
      exact hpart String.intercalate_nil
    rw [size_cons, length_intercalate hne, ih hparts, List.flatten_cons, size_append]

end Lines
