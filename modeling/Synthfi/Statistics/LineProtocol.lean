/-
Synthfi.Statistics.LineProtocol — reading a line of the InfluxDB line protocol.

This is no code of the repository: it says what the server makes of a line
that `encode_measurement` writes (the syntax is in its comment). Unescaped
commas, spaces and `=` separate, a backslash escapes them, and a string is
quoted, with a backslash in front of a quote inside. No part is empty. The
protocol has no use for an `=` behind the measurement: `equals`
says whether one that is not escaped ends the name all the same.

The text of a number is kept as it is. `fuel` bounds the numbers of tags and
of fields by the length of the line.
-/
import Synthfi.Lib.Delimited
import Synthfi.Statistics.StatisticsPublisher

namespace Synthfi.Statistics

open Delimited (scan)
open Trading (Timestamp)

inductive FieldValue where
  | string (value : String)
  | boolean (value : Bool)
  | number (text : String)
  deriving DecidableEq, Repr

/-- What a line says. -/
structure Point where
  measurementName : String
  tags : List (String × String)
  fields : List (String × FieldValue)
  timeStamp : Option Timestamp
  deriving DecidableEq, Repr

/-! ## Characters -/

def separates (c : Char) : Bool := c = ',' || c = ' ' || c = '='

def endsName (equals : Bool) (c : Char) : Bool := c = ',' || c = ' ' || (equals && c = '=')

def endsString (c : Char) : Bool := c = '"'

/-- What a backslash escapes inside a string. -/
def escapedInString (c : Char) : Bool := c = '"' || c = '\\'

/-- The characters of a number; the last two mark integers. -/
def inNumber (c : Char) : Bool :=
  c.isDigit || c = '+' || c = '-' || c = '.' || c = 'e' || c = 'E' || c = 'i' || c = 'u'

def isNumber (text : String) : Bool := !text.isEmpty && text.toList.all inNumber

/-! ## Parts -/

/-- A part that ends at a separator, and what follows it. -/
def parseWord (stop : Char → Bool) (line : List Char) : Option (String × List Char) :=
  let (word, rest) := scan '\\' stop stop line
  if word.isEmpty then none else some (String.ofList word, rest)

/-- A key, and what follows its `=`. -/
def parseKey (line : List Char) : Option (String × List Char) :=
  match parseWord separates line with
  | some (key, '=' :: rest) => some (key, rest)
  | _ => none

def parseTags : ℕ → List Char → Option (List (String × String) × List Char)
  | fuel + 1, ',' :: line => do
    let (key, line) ← parseKey line
    let (value, line) ← parseWord separates line
    let (tags, line) ← parseTags fuel line
    some ((key, value) :: tags, line)
  | _, line => some ([], line)

def parseUnquoted (word : String) : Option FieldValue :=
  if word ∈ ["t", "T", "true", "True", "TRUE"] then some (.boolean true)
  else if word ∈ ["f", "F", "false", "False", "FALSE"] then some (.boolean false)
  else if isNumber word then some (.number word)
  else none

def parseString (line : List Char) : Option (FieldValue × List Char) :=
  match scan '\\' escapedInString endsString line with
  | (value, '"' :: rest) => some (.string (String.ofList value), rest)
  | _ => none

def parseValue : List Char → Option (FieldValue × List Char)
  | '"' :: line => parseString line
  | line => do
    let (word, rest) ← parseWord separates line
    let value ← parseUnquoted word
    some (value, rest)

def parseFields : ℕ → List Char → Option (List (String × FieldValue) × List Char)
  | 0, _ => none
  | fuel + 1, line => do
    let (key, line) ← parseKey line
    let (value, line) ← parseValue line
    match line with
    | ',' :: line => do
      let (fields, line) ← parseFields fuel line
      some ((key, value) :: fields, line)
    | line => some ([(key, value)], line)

def parseNat (digits : List Char) : Option ℕ :=
  if digits.isEmpty then none
  else if digits.all Char.isDigit then some (Nat.ofDigitChars 10 digits 0)
  else none

def parseInt : List Char → Option ℤ
  | '-' :: digits => (parseNat digits).map fun n => -n
  | digits => (parseNat digits).map fun n => n

def parseTimeStamp : List Char → Option (Option Timestamp)
  | [] => some none
  | ' ' :: line => (parseInt line).map some
  | _ => none

/-! ## Lines -/

def parseLine (equals : Bool) (line : String) : Option Point := do
  let (measurementName, rest) ← parseWord (endsName equals) line.toList
  let (tags, rest) ← parseTags line.length rest
  match rest with
  | ' ' :: rest => do
    let (fields, rest) ← parseFields line.length rest
    let timeStamp ← parseTimeStamp rest
    some ⟨measurementName, tags, fields, timeStamp⟩
  | _ => none

end Synthfi.Statistics
