/-
Synthfi.Lib.StreamParser — parsers that are fed piece by piece.

A parser takes one token after another, may reject one, and is done at the
end of its value; what is written behind the end is left alone. `write`
feeds a piece, and `write_append` says that the cuts between the pieces make
no difference.
-/
import Mathlib.Data.List.Basic
import Mathlib.Data.Nat.Notation

/-- An incremental parser. -/
structure StreamParser (τ : Type) where
  State : Type
  start : State
  /-- Take one token; `none` rejects it. -/
  feed : State → τ → Option State
  done : State → Bool

namespace StreamParser

variable {τ : Type} (parser : StreamParser τ)

/-- Write a piece, up to the end of the value. -/
def write : parser.State → List τ → Option parser.State
  | state, [] => some state
  | state, token :: tokens =>
    if parser.done state then some state
    else (parser.feed state token).bind fun state => write state tokens

variable {parser}

@[simp] theorem write_nil (state : parser.State) : parser.write state [] = some state := rfl

theorem write_of_done {state : parser.State} (h : parser.done state = true) (tokens : List τ) :
    parser.write state tokens = some state := by
  cases tokens with
  | nil => rfl
  | cons token tokens => rw [write, if_pos h]

theorem write_cons {state : parser.State} (h : parser.done state = false) (token : τ)
    (tokens : List τ) :
    parser.write state (token :: tokens) =
      (parser.feed state token).bind fun state => parser.write state tokens := by
  rw [write, h, if_neg Bool.false_ne_true]

/-- Two pieces are one. -/
theorem write_append (state : parser.State) (front back : List τ) :
    parser.write state (front ++ back) =
      (parser.write state front).bind fun state => parser.write state back := by
  induction front generalizing state with
  | nil => rfl
  | cons token tokens ih =>
    cases h : parser.done state with
    | true => rw [List.cons_append, write_of_done h, write_of_done h, Option.bind_some,
        write_of_done h]
    | false =>
      rw [List.cons_append, write_cons h, write_cons h, Option.bind_assoc]
      exact congrArg _ (funext fun state => ih state)

/-- Once done, always done. -/
theorem write_append_of_done {state end_ : parser.State} {front : List τ}
    (hwrite : parser.write state front = some end_) (hdone : parser.done end_ = true)
    (back : List τ) : parser.write state (front ++ back) = some end_ := by
  rw [write_append, hwrite, Option.bind_some, write_of_done hdone]

end StreamParser
