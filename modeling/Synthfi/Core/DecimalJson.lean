/-
Synthfi.Core.DecimalJson — JSON arrays of natural numbers.

What the key store assumes of `boost::json` can be met: arrays are written
with decimal numbers and no blanks, and read by an automaton, one byte at a
time. Other JSON values are not read.
-/
import Synthfi.Core.KeyStore

namespace Synthfi.Core.DecimalJson

open StreamParser

inductive Value where
  | number (n : ℕ)
  | array (values : List ℕ)
  deriving DecidableEq, Repr

/-! ## Writing -/

def digit (d : ℕ) : UInt8 := UInt8.ofNat (48 + d)

def comma : UInt8 := 44

def openBracket : UInt8 := 91

def closeBracket : UInt8 := 93

def decimal (byte : UInt8) : List UInt8 :=
  if byte.toNat < 10 then [digit byte.toNat]
  else if byte.toNat < 100 then [digit (byte.toNat / 10), digit (byte.toNat % 10)]
  else [digit (byte.toNat / 100), digit (byte.toNat / 10 % 10), digit (byte.toNat % 10)]

/-- What follows the first number. -/
def serializeRest : List UInt8 → List UInt8
  | [] => [closeBracket]
  | byte :: bytes => comma :: (decimal byte ++ serializeRest bytes)

def serialize : List UInt8 → List UInt8
  | [] => [openBracket, closeBracket]
  | byte :: bytes => openBracket :: (decimal byte ++ serializeRest bytes)

/-! ## Reading -/

inductive State where
  | start
  /-- After the opening bracket. -/
  | opened
  /-- In the digits of a number, the last of the values. -/
  | digits (values : List ℕ) (n : ℕ)
  | comma (values : List ℕ)
  | closed (values : List ℕ)
  deriving DecidableEq, Repr

def digitOf (byte : UInt8) : Option ℕ :=
  if 48 ≤ byte.toNat ∧ byte.toNat ≤ 57 then some (byte.toNat - 48) else none

/-- A number has no leading zeros. -/
def feed : State → UInt8 → Option State
  | .start, byte => if byte = openBracket then some .opened else none
  | .opened, byte =>
    if byte = closeBracket then some (.closed []) else (digitOf byte).map (.digits [])
  | .digits values n, byte =>
    if byte = DecimalJson.comma then some (.comma (values ++ [n]))
    else if byte = closeBracket then some (.closed (values ++ [n]))
    else if n = 0 then none
    else (digitOf byte).map fun d => .digits values (10 * n + d)
  | .comma values, byte => (digitOf byte).map (.digits values)
  | .closed _, _ => none

def done : State → Bool
  | .closed _ => true
  | _ => false

abbrev parser : StreamParser UInt8 := ⟨State, .start, feed, done⟩

def release : State → Value
  | .closed values => .array values
  | _ => .array []

def asArray : Value → Option (List Value)
  | .array values => some (values.map .number)
  | .number _ => none

def toNumber : Value → Option UInt8
  | .number n => if n < 256 then some (UInt8.ofNat n) else none
  | .array _ => none

def json : BoostJson where
  Value := Value
  serialize := serialize
  parser := parser
  release := release
  asArray := asArray
  toNumber := toNumber

/-! ## Reading what was written -/

theorem digitOf_digit : ∀ d < 10, digitOf (digit d) = some d := by decide

theorem digit_ne : ∀ d < 10, digit d ≠ comma ∧ digit d ≠ closeBracket := by decide

@[simp] theorem feed_digits {values : List ℕ} {n d : ℕ} (hn : n ≠ 0) (hd : d < 10) :
    feed (.digits values n) (digit d) = some (.digits values (10 * n + d)) := by
  simp [feed, digit_ne d hd, hn, digitOf_digit d hd]

/-- The digits of a byte, from where a number may begin. -/
theorem write_decimal {state : State} (values : List ℕ) (hdone : done state = false)
    (hfeed : ∀ d < 10, feed state (digit d) = some (.digits values d)) (byte : UInt8) :
    parser.write state (decimal byte) = some (.digits values byte.toNat) := by
  have hlt : byte.toNat < 256 := byte.toNat_lt
  have hdigits (n : ℕ) : parser.done (.digits values n) = false := rfl
  unfold decimal
  split
  · next h1 =>
    rw [write_cons hdone]
    exact congrArg (Option.bind · _) (hfeed _ h1)
  · split
    · next h1 h2 =>
      rw [write_cons hdone, show parser.feed state _ = _ from hfeed (byte.toNat / 10) (by omega),
        Option.bind_some, write_cons (hdigits _),
        show parser.feed _ _ = _ from feed_digits (by omega) (Nat.mod_lt _ (by decide)),
        Option.bind_some, write_nil, Nat.div_add_mod]
    · next h1 h2 =>
      rw [write_cons hdone, show parser.feed state _ = _ from hfeed (byte.toNat / 100) (by omega),
        Option.bind_some, write_cons (hdigits _),
        show parser.feed _ _ = _ from feed_digits (by omega) (Nat.mod_lt _ (by decide)),
        Option.bind_some, write_cons (hdigits _),
        show parser.feed _ _ = _ from feed_digits (by omega) (Nat.mod_lt _ (by decide)),
        Option.bind_some, write_nil]
      congr 2
      omega

theorem write_serializeRest (bytes : List UInt8) (values : List ℕ) (n : ℕ) :
    parser.write (.digits values n) (serializeRest bytes) =
      some (.closed (values ++ n :: bytes.map UInt8.toNat)) := by
  induction bytes generalizing values n with
  | nil => rfl
  | cons byte bytes ih =>
    have hcomma : parser.feed (.digits values n) comma = some (.comma (values ++ [n])) := rfl
    rw [serializeRest, write_cons rfl, hcomma, Option.bind_some, write_append,
      write_decimal (values ++ [n]) rfl (fun d hd => by simp [feed, digitOf_digit d hd]),
      Option.bind_some, ih, List.append_assoc]
    rfl

/-- The parser reads a whole array. -/
theorem write_serialize (bytes : List UInt8) :
    parser.write parser.start (serialize bytes) = some (.closed (bytes.map UInt8.toNat)) := by
  cases bytes with
  | nil => rfl
  | cons byte bytes =>
    have hopen : parser.feed parser.start openBracket = some .opened := rfl
    rw [serialize, write_cons rfl, hopen, Option.bind_some, write_append,
      write_decimal [] rfl
        (fun d hd => by simp [feed, digit_ne d hd, digitOf_digit d hd]),
      Option.bind_some, write_serializeRest]
    rfl

theorem toNumber_number (byte : UInt8) : toNumber (.number byte.toNat) = some byte := by
  simp [toNumber, byte.toNat_lt]

theorem map_toNumber (bytes : List UInt8) :
    ((bytes.map UInt8.toNat).map .number).map toNumber = bytes.map some := by
  rw [List.map_map, List.map_map]
  exact List.map_congr_left fun byte _ => toNumber_number byte

/-- **The reader inverts the writer.** -/
theorem inverse : json.Inverse where
  notDone := rfl
  serialize bytes := ⟨.closed (bytes.map UInt8.toNat), (bytes.map UInt8.toNat).map .number,
    write_serialize bytes, rfl, rfl, map_toNumber bytes⟩

end DecimalJson

end Synthfi.Core
