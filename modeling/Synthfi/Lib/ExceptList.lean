/-
Synthfi.Lib.ExceptList — what a computation in `Except` that did not fail
has done: a bind ran both halves, and `mapM` succeeded at every position.
-/
import Mathlib.Data.Nat.Notation
import Mathlib.Tactic.Common

namespace ExceptList

variable {ε α β : Type}

theorem bind_eq_ok {x : Except ε α} {f : α → Except ε β} {b : β} :
    x >>= f = .ok b ↔ ∃ a, x = .ok a ∧ f a = .ok b := by
  cases x with
  | error e => simp [bind, Except.bind]
  | ok a => simp [bind, Except.bind]

/-- The value of a computation that is evaluated to be one. -/
theorem eq_ok_get {x : Except ε α} (h : x.toOption.isSome) : x = .ok (x.toOption.get h) := by
  cases x with
  | error e => simp [Except.toOption] at h
  | ok a => rfl

theorem mapM_cons_eq_ok {f : α → Except ε β} {a : α} {as : List α} {bs : List β} :
    (a :: as).mapM f = .ok bs ↔
      ∃ b bs', f a = .ok b ∧ as.mapM f = .ok bs' ∧ bs = b :: bs' := by
  simp only [List.mapM_cons, bind_eq_ok]
  constructor
  · rintro ⟨b, hb, bs', hbs, h⟩
    exact ⟨b, bs', hb, hbs, (Except.ok.inj h).symm⟩
  · rintro ⟨b, bs', hb, hbs, rfl⟩
    exact ⟨b, hb, bs', hbs, rfl⟩

theorem length_of_mapM {f : α → Except ε β} {as : List α} {bs : List β}
    (h : as.mapM f = .ok bs) : bs.length = as.length := by
  induction as generalizing bs with
  | nil =>
    obtain rfl := Except.ok.inj h
    rfl
  | cons a as ih =>
    obtain ⟨b, bs', -, hbs, rfl⟩ := mapM_cons_eq_ok.mp h
    simp [ih hbs]

/-- The result at a position is that of the element there. -/
theorem getElem?_of_mapM {f : α → Except ε β} {as : List α} {bs : List β}
    (h : as.mapM f = .ok bs) {k : ℕ} {b : β} (hb : bs[k]? = some b) :
    ∃ a, as[k]? = some a ∧ f a = .ok b := by
  induction as generalizing bs k with
  | nil =>
    obtain rfl := Except.ok.inj h
    simp at hb
  | cons a as ih =>
    obtain ⟨b', bs', hb', hbs, rfl⟩ := mapM_cons_eq_ok.mp h
    cases k with
    | zero =>
      simp only [List.getElem?_cons_zero, Option.some.injEq] at hb
      exact ⟨a, rfl, hb ▸ hb'⟩
    | succ k => exact ih hbs hb

/-- Every element has its result. -/
theorem exists_getElem?_of_mapM {f : α → Except ε β} {as : List α} {bs : List β}
    (h : as.mapM f = .ok bs) {k : ℕ} {a : α} (ha : as[k]? = some a) :
    ∃ b, bs[k]? = some b ∧ f a = .ok b := by
  have hk : k < bs.length := by
    rw [length_of_mapM h]
    exact (List.getElem?_eq_some_iff.mp ha).1
  obtain ⟨a', ha', hb⟩ := getElem?_of_mapM h (List.getElem?_eq_getElem hk)
  rw [ha, Option.some.injEq] at ha'
  exact ⟨bs[k], List.getElem?_eq_getElem hk, ha' ▸ hb⟩

end ExceptList
