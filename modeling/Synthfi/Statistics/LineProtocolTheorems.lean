/-
Synthfi.Statistics.LineProtocolTheorems — which measurements are read back
from their line.

`encode_measurement` puts names, keys and values into the line as they are.
In the range considered (`Encodable`) a line has no backslash, so a reader
meets no escape: every part it reads ends at the first separator, and a string
at the first quote. What it reads is therefore `Plain`, and a measurement that
is not cannot be what comes back; one that is plain does (`encodeMeasurement_roundTrips_iff`).
-/
import Synthfi.Statistics.LineProtocol

namespace Synthfi.Statistics

open Delimited
open Trading (Timestamp)

variable {δ : Type} (text : NumberText δ)

/-! ## The range -/

/-- Neither a newline nor a backslash. -/
def OneLine (chars : List Char) : Prop := ∀ c ∈ chars, c ≠ '\n' ∧ c ≠ '\\'

/-- The texts of numbers are numbers, and strings have one line. -/
def EncodableValue : InfluxDataType δ → Prop
  | .double value => isNumber (text.double value) = true
  | .fixedFloat value => isNumber (text.fixedFloat value) = true
  | .string value => OneLine value.toList
  | _ => True

instance (chars : List Char) : Decidable (OneLine chars) :=
  List.decidableBAll (fun c => c ≠ '\n' ∧ c ≠ '\\') chars

instance : (value : InfluxDataType δ) → Decidable (EncodableValue text value)
  | .double value => inferInstanceAs (Decidable (isNumber (text.double value) = true))
  | .fixedFloat value => inferInstanceAs (Decidable (isNumber (text.fixedFloat value) = true))
  | .string value => inferInstanceAs (Decidable (OneLine value.toList))
  | .uint64 _ => .isTrue trivial
  | .int64 _ => .isTrue trivial
  | .bool _ => .isTrue trivial

structure Encodable (measurement : InfluxMeasurement δ) : Prop where
  name_ne : measurement.measurementName ≠ ""
  name : OneLine measurement.measurementName.toList
  tags_ne : ∀ tag ∈ measurement.tags, tag.1 ≠ "" ∧ tag.2 ≠ ""
  tags : ∀ tag ∈ measurement.tags, OneLine tag.1.toList ∧ OneLine tag.2.toList
  fields_ne : measurement.fields ≠ []
  keys_ne : ∀ field ∈ measurement.fields, field.1 ≠ ""
  fields : ∀ field ∈ measurement.fields, OneLine field.1.toList ∧ EncodableValue text field.2

/-- What a value is read back as. -/
def fieldValue : InfluxDataType δ → FieldValue
  | .bool value => .boolean value
  | .string value => .string value
  | value => .number (encodeValue text value)

/-- The measurement is one line, and the line says what the measurement does. -/
def RoundTrips (equals : Bool) (measurement : InfluxMeasurement δ) (timeStamp : Timestamp) :
    Prop :=
  '\n' ∉ (encodeMeasurement text measurement timeStamp).toList ∧
    parseLine equals (encodeMeasurement text measurement timeStamp) = some
      ⟨measurement.measurementName, measurement.tags,
        measurement.fields.map fun field => (field.1, fieldValue text field.2), some timeStamp⟩

/-! ## Plain parts -/

def PlainWord (stop : Char → Bool) (word : String) : Prop := ∀ c ∈ word.toList, stop c = false

/-- A string has no quote. -/
def PlainValue : FieldValue → Prop
  | .string value => PlainWord endsString value
  | _ => True

instance (stop : Char → Bool) (word : String) : Decidable (PlainWord stop word) :=
  List.decidableBAll (fun c => stop c = false) word.toList

instance : (value : FieldValue) → Decidable (PlainValue value)
  | .string value => inferInstanceAs (Decidable (PlainWord endsString value))
  | .boolean _ => .isTrue trivial
  | .number _ => .isTrue trivial

/-- No part has one of the characters at which it would end. -/
structure Plain (equals : Bool) (measurement : InfluxMeasurement δ) : Prop where
  name : PlainWord (endsName equals) measurement.measurementName
  tags : ∀ tag ∈ measurement.tags, PlainWord separates tag.1 ∧ PlainWord separates tag.2
  fields : ∀ field ∈ measurement.fields,
    PlainWord separates field.1 ∧ PlainValue (fieldValue text field.2)

/-! ## Numbers -/

/-- No character of a number has a meaning of its own. -/
theorem ne_of_inNumber {c : Char} (h : inNumber c = true) :
    separates c = false ∧ c ≠ '"' ∧ c ≠ '\n' ∧ c ≠ '\\' := by
  refine ⟨?_, ?_, ?_, ?_⟩
  · by_contra hsep
    simp only [separates, Bool.or_eq_true, decide_eq_true_eq, Bool.not_eq_false] at hsep
    obtain (rfl | rfl) | rfl := hsep <;> exact absurd h (by decide)
  · rintro rfl
    exact absurd h (by decide)
  · rintro rfl
    exact absurd h (by decide)
  · rintro rfl
    exact absurd h (by decide)

theorem inNumber_of_isDigit {c : Char} (h : c.isDigit = true) : inNumber c = true := by
  simp [inNumber, h]

theorem isNumber_iff {part : String} :
    isNumber part = true ↔ part ≠ "" ∧ ∀ c ∈ part.toList, inNumber c = true := by
  simp [isNumber]

theorem isDigit_of_mem_toDigits {n : ℕ} {c : Char} (h : c ∈ Nat.toDigits 10 n) :
    c.isDigit = true :=
  Nat.isDigit_of_mem_toDigits (by decide) (by decide) h

theorem toList_toString_nat (n : ℕ) : (toString n).toList = Nat.toDigits 10 n := by
  rw [Nat.toString_eq_repr, Nat.toList_repr]

theorem toList_toString_negSucc (n : ℕ) :
    (toString (Int.negSucc n)).toList = '-' :: Nat.toDigits 10 (n + 1) := by
  show ("-" ++ Nat.repr (n + 1)).toList = _
  rw [String.toList_append, Nat.toList_repr]
  rfl

theorem isNumber_toString_nat (n : ℕ) : isNumber (toString n) = true := by
  rw [isNumber_iff, toList_toString_nat]
  refine ⟨?_, fun c hc => inNumber_of_isDigit (isDigit_of_mem_toDigits hc)⟩
  rw [Nat.toString_eq_repr]
  exact Nat.repr_ne_empty

theorem isNumber_toString_int (z : ℤ) : isNumber (toString z) = true := by
  cases z with
  | ofNat n => exact isNumber_toString_nat n
  | negSucc n =>
    have hchars := toList_toString_negSucc n
    rw [isNumber_iff]
    constructor
    · intro hempty
      simp [hempty] at hchars
    · intro c hc
      rw [hchars, List.mem_cons] at hc
      rcases hc with rfl | hc
      · decide
      · exact inNumber_of_isDigit (isDigit_of_mem_toDigits hc)

theorem parseNat_toDigits (n : ℕ) : parseNat (Nat.toDigits 10 n) = some n := by
  have hall : (Nat.toDigits 10 n).all Char.isDigit = true :=
    List.all_eq_true.mpr fun c => isDigit_of_mem_toDigits
  rw [parseNat, hall, Nat.ofDigitChars_ten_toDigits]
  simp

theorem parseInt_toString (z : ℤ) : parseInt (toString z).toList = some z := by
  cases z with
  | ofNat n =>
    have hchars : (toString (Int.ofNat n)).toList = Nat.toDigits 10 n := toList_toString_nat n
    have hdigits := parseNat_toDigits n
    rw [hchars]
    unfold parseInt
    split
    · next digits hminus =>
      -- a digit is no sign
      have hmem : '-' ∈ Nat.toDigits 10 n := by simp [hminus]
      exact absurd (isDigit_of_mem_toDigits hmem) (by decide)
    · simp [hdigits]
  | negSucc n =>
    rw [toList_toString_negSucc, parseInt, parseNat_toDigits]
    rfl

theorem isNumber_encodeValue {value : InfluxDataType δ} (h : EncodableValue text value)
    (hnumber : fieldValue text value = .number (encodeValue text value)) :
    isNumber (encodeValue text value) = true := by
  cases value with
  | double value => exact h
  | uint64 value => exact isNumber_toString_nat value.toNat
  | int64 value => exact isNumber_toString_int value.toInt
  | bool value => cases hnumber
  | string value => cases hnumber
  | fixedFloat value => exact h

/-- A word with a letter that no number has. -/
theorem notMem_of_isNumber {word : String} (h : isNumber word = true) {words : List String}
    (hwords : ∀ other ∈ words, other.toList.all inNumber = false) : word ∉ words := by
  intro hmem
  have hall := List.all_eq_true.mpr (isNumber_iff.mp h).2
  rw [hwords word hmem] at hall
  cases hall

theorem parseUnquoted_number {word : String} (h : isNumber word = true) :
    parseUnquoted word = some (.number word) := by
  rw [parseUnquoted, if_neg (notMem_of_isNumber h (by decide +kernel)),
    if_neg (notMem_of_isNumber h (by decide +kernel)), if_pos h]

theorem parseUnquoted_bool (value : Bool) :
    parseUnquoted (toString value) = some (.boolean value) := by
  cases value <;> decide +kernel

/-! ## Words -/

theorem notMem_right {c : Char} {chars more : List Char} (h : c ∉ chars ++ more) : c ∉ more :=
  mt (List.mem_append_right chars) h

theorem parseWord_eq_some_iff {stop : Char → Bool} {line rest : List Char} {word : String}
    (h : '\\' ∉ line) :
    parseWord stop line = some (word, rest) ↔
      word ≠ "" ∧ line = word.toList ++ rest ∧ PlainWord stop word ∧
        ∀ c ∈ rest.head?, stop c = true := by
  unfold PlainWord
  have hscan : scan '\\' stop stop line = (word.toList, rest) ↔ _ := scan_eq_iff h
  rw [← hscan, parseWord]
  rcases scan '\\' stop stop line with ⟨chars, rest'⟩
  show (if chars.isEmpty then none else some (String.ofList chars, rest')) = _ ↔ _
  rw [Prod.mk.injEq]
  constructor
  · intro hword
    split at hword
    · cases hword
    · next hne =>
      cases hword
      exact ⟨by simpa using hne, String.toList_ofList.symm, rfl⟩
  · rintro ⟨hne, rfl, rfl⟩
    have hchars : word.toList.isEmpty = false := by simpa using hne
    simp [hchars]

theorem parseKey_eq_some_iff {line rest : List Char} {key : String} (h : '\\' ∉ line) :
    parseKey line = some (key, rest) ↔
      key ≠ "" ∧ line = key.toList ++ '=' :: rest ∧ PlainWord separates key := by
  have hword : parseWord separates line = some (key, '=' :: rest) ↔ _ := parseWord_eq_some_iff h
  rw [and_iff_left (show ∀ c ∈ ('=' :: rest).head?, separates c = true by simp [separates])]
    at hword
  rw [← hword, parseKey]
  constructor
  · intro hkey
    split at hkey
    · next heq =>
      cases hkey
      exact heq
    · cases hkey
  · intro heq
    rw [heq]
    rfl

/-! ## Tags -/

def tagChars (tag : String × String) : List Char :=
  ',' :: tag.1.toList ++ '=' :: tag.2.toList

/-- What ends a list of tags or of fields, or a value. -/
def AtSpace (rest : List Char) : Prop := ∀ c ∈ rest.head?, c = ' '

theorem atSpace_cons (rest : List Char) : AtSpace (' ' :: rest) := by
  intro c hc
  cases hc
  rfl

theorem AtSpace.separates {rest : List Char} (h : AtSpace rest) :
    ∀ c ∈ rest.head?, separates c = true := by
  intro c hc
  rw [h c hc]
  decide

theorem parseTags_of_atSpace {fuel : ℕ} {rest : List Char} (h : AtSpace rest) :
    parseTags fuel rest = some ([], rest) := by
  cases rest with
  | nil => cases fuel <;> rfl
  | cons c rest =>
    obtain rfl : c = ' ' := h c rfl
    cases fuel <;> rfl

/-- A tag that is plain, read from in front of the next part. -/
theorem parseTags_cons {fuel : ℕ} {tag : String × String} {rest : List Char}
    (hne : tag.1 ≠ "" ∧ tag.2 ≠ "")
    (hplain : PlainWord separates tag.1 ∧ PlainWord separates tag.2)
    (hescape : '\\' ∉ tagChars tag ++ rest) (hrest : ∀ c ∈ rest.head?, separates c = true) :
    parseTags (fuel + 1) (tagChars tag ++ rest) =
      (parseTags fuel rest).map fun result => (tag :: result.1, result.2) := by
  have hsplit : tagChars tag ++ rest = ',' :: (tag.1.toList ++ '=' :: (tag.2.toList ++ rest)) := by
    simp [tagChars]
  rw [hsplit] at hescape ⊢
  have hescape₁ := List.not_mem_of_not_mem_cons hescape
  have hescape₂ := List.not_mem_of_not_mem_cons (notMem_right hescape₁)
  have hkey : parseKey (tag.1.toList ++ '=' :: (tag.2.toList ++ rest)) =
      some (tag.1, tag.2.toList ++ rest) :=
    (parseKey_eq_some_iff hescape₁).mpr ⟨hne.1, rfl, hplain.1⟩
  have hvalue : parseWord separates (tag.2.toList ++ rest) = some (tag.2, rest) :=
    (parseWord_eq_some_iff hescape₂).mpr ⟨hne.2, rfl, hplain.2, hrest⟩
  simp only [parseTags, hkey, hvalue, Option.bind_eq_bind, Option.bind_some]
  cases parseTags fuel rest <;> rfl

/-- What follows the name, or a tag. -/
theorem head_tags {tags : List (String × String)} {rest : List Char} (hrest : AtSpace rest) :
    ∀ c ∈ (tags.flatMap tagChars ++ rest).head?, c = ',' ∨ c = ' ' := by
  intro c hc
  cases tags with
  | nil => exact .inr (hrest c hc)
  | cons tag tags => exact .inl (by simpa [tagChars] using hc.symm)

theorem parseTags_append {tags : List (String × String)} {rest : List Char} {fuel : ℕ}
    (hne : ∀ tag ∈ tags, tag.1 ≠ "" ∧ tag.2 ≠ "")
    (hplain : ∀ tag ∈ tags, PlainWord separates tag.1 ∧ PlainWord separates tag.2)
    (hescape : '\\' ∉ tags.flatMap tagChars ++ rest) (hrest : AtSpace rest)
    (hfuel : tags.length ≤ fuel) :
    parseTags fuel (tags.flatMap tagChars ++ rest) = some (tags, rest) := by
  induction tags generalizing fuel with
  | nil => exact parseTags_of_atSpace hrest
  | cons tag tags ih =>
    obtain ⟨hne₁, hne⟩ := List.forall_mem_cons.mp hne
    obtain ⟨hplain₁, hplain⟩ := List.forall_mem_cons.mp hplain
    obtain ⟨fuel, rfl⟩ := Nat.exists_eq_add_one_of_ne_zero (Nat.ne_zero_of_lt hfuel)
    rw [List.flatMap_cons, List.append_assoc] at hescape ⊢
    have hhead : ∀ c ∈ (tags.flatMap tagChars ++ rest).head?, separates c = true := by
      intro c hc
      rcases head_tags hrest c hc with rfl | rfl <;> decide
    rw [parseTags_cons hne₁ hplain₁ hescape hhead,
      ih hne hplain (notMem_right hescape) (Nat.le_of_succ_le_succ hfuel)]
    rfl

/-- Without escapes the tags that are read are plain. -/
theorem of_parseTags {fuel : ℕ} {line rest : List Char} {tags : List (String × String)}
    (hescape : '\\' ∉ line) (h : parseTags fuel line = some (tags, rest)) :
    (∀ tag ∈ tags, PlainWord separates tag.1 ∧ PlainWord separates tag.2) ∧ '\\' ∉ rest := by
  induction fuel generalizing line tags with
  | zero =>
    have hzero : parseTags 0 line = some ([], line) := rfl
    rw [hzero] at h
    cases h
    exact ⟨nofun, hescape⟩
  | succ fuel ih =>
    unfold parseTags at h
    split at h
    · next fuel' line hfuel =>
      cases hfuel
      simp only [Option.bind_eq_bind, Option.bind_eq_some_iff] at h
      obtain ⟨⟨key, line₁⟩, hkey, ⟨value, line₂⟩, hvalue, ⟨tags', line₃⟩, htags, heq⟩ := h
      cases heq
      have hescape₀ : '\\' ∉ line := List.not_mem_of_not_mem_cons hescape
      obtain ⟨-, rfl, hkeyPlain⟩ := (parseKey_eq_some_iff hescape₀).mp hkey
      have hescape₁ : '\\' ∉ line₁ := List.not_mem_of_not_mem_cons (notMem_right hescape₀)
      obtain ⟨-, rfl, hvaluePlain, -⟩ := (parseWord_eq_some_iff hescape₁).mp hvalue
      have hescape₂ : '\\' ∉ line₂ := notMem_right hescape₁
      obtain ⟨htagsPlain, hrest⟩ := ih hescape₂ htags
      exact ⟨List.forall_mem_cons.mpr ⟨⟨hkeyPlain, hvaluePlain⟩, htagsPlain⟩, hrest⟩
    · cases h
      exact ⟨nofun, hescape⟩

/-! ## Values -/

theorem parseString_eq_some_iff {line rest : List Char} {value : FieldValue} (h : '\\' ∉ line) :
    parseString line = some (value, rest) ↔
      ∃ string, value = .string string ∧ PlainWord endsString string ∧
        line = string.toList ++ '"' :: rest := by
  constructor
  · intro hstring
    unfold parseString at hstring
    split at hstring
    · next chars rest' hscan =>
      cases hstring
      obtain ⟨hline, hplain, -⟩ := (scan_eq_iff h).mp hscan
      refine ⟨_, rfl, ?_, ?_⟩
      · simpa [PlainWord] using hplain
      · simpa using hline
    · cases hstring
  · rintro ⟨string, rfl, hplain, rfl⟩
    have hscan : scan '\\' escapedInString endsString (string.toList ++ '"' :: rest) =
        (string.toList, '"' :: rest) :=
      (scan_eq_iff h).mpr ⟨rfl, hplain, by simp [endsString]⟩
    rw [parseString, hscan]
    simp

theorem parseValue_unquoted {word : String} {value : FieldValue} {rest : List Char}
    (hvalue : parseUnquoted word = some value) (hne : word ≠ "")
    (hplain : PlainWord separates word) (hquote : '"' ∉ word.toList)
    (hescape : '\\' ∉ word.toList ++ rest) (hrest : ∀ c ∈ rest.head?, separates c = true) :
    parseValue (word.toList ++ rest) = some (value, rest) := by
  have hword := (parseWord_eq_some_iff hescape).mpr ⟨hne, rfl, hplain, hrest⟩
  unfold parseValue
  split
  · next line hline =>
    -- the word begins with another character
    cases hchars : word.toList with
    | nil => exact absurd (String.toList_eq_nil_iff.mp hchars) hne
    | cons c chars =>
      rw [hchars, List.cons_append, List.cons.injEq] at hline
      exact absurd (by simp [hchars, hline.1]) hquote
  · simp [hword, hvalue]

theorem toString_bool (value : Bool) :
    toString value ≠ "" ∧ PlainWord separates (toString value) ∧
      OneLine (toString value).toList ∧ '"' ∉ (toString value).toList := by
  cases value <;> decide +kernel

def valueChars (value : InfluxDataType δ) : List Char := (encodeValue text value).toList

theorem parseValue_append {value : InfluxDataType δ} {rest : List Char}
    (hvalue : EncodableValue text value) (hplain : PlainValue (fieldValue text value))
    (hescape : '\\' ∉ valueChars text value ++ rest)
    (hrest : ∀ c ∈ rest.head?, separates c = true) :
    parseValue (valueChars text value ++ rest) = some (fieldValue text value, rest) := by
  have hnumber : isNumber (encodeValue text value) = true →
      parseValue (valueChars text value ++ rest) =
        some (.number (encodeValue text value), rest) := by
    intro h
    obtain ⟨hne, hall⟩ := isNumber_iff.mp h
    exact parseValue_unquoted (parseUnquoted_number h) hne
      (fun c hc => (ne_of_inNumber (hall c hc)).1)
      (fun hmem => (ne_of_inNumber (hall _ hmem)).2.1 rfl) hescape hrest
  cases value with
  | double value => exact hnumber (isNumber_encodeValue text hvalue rfl)
  | uint64 value => exact hnumber (isNumber_encodeValue text hvalue rfl)
  | int64 value => exact hnumber (isNumber_encodeValue text hvalue rfl)
  | fixedFloat value => exact hnumber (isNumber_encodeValue text hvalue rfl)
  | bool value =>
    obtain ⟨hne, hplain, -, hquote⟩ := toString_bool value
    exact parseValue_unquoted (parseUnquoted_bool value) hne hplain hquote hescape hrest
  | string value =>
    have hchars : valueChars text (.string value) ++ rest =
        '"' :: (value.toList ++ '"' :: rest) := by
      simp [valueChars, encodeValue]
    rw [hchars] at hescape ⊢
    exact (parseString_eq_some_iff (List.not_mem_of_not_mem_cons hescape)).mpr
      ⟨value, rfl, hplain, rfl⟩

theorem plainValue_of_parseUnquoted {word : String} {value : FieldValue}
    (h : parseUnquoted word = some value) : PlainValue value := by
  unfold parseUnquoted at h
  split at h
  · cases h
    trivial
  · split at h
    · cases h
      trivial
    · split at h
      · cases h
        trivial
      · cases h

/-- Without escapes a string that is read has no quote. -/
theorem of_parseValue {line rest : List Char} {value : FieldValue} (hescape : '\\' ∉ line)
    (h : parseValue line = some (value, rest)) : PlainValue value ∧ '\\' ∉ rest := by
  unfold parseValue at h
  split at h
  · next line =>
    have hescape₀ : '\\' ∉ line := List.not_mem_of_not_mem_cons hescape
    obtain ⟨string, rfl, hplain, rfl⟩ := (parseString_eq_some_iff hescape₀).mp h
    exact ⟨hplain, List.not_mem_of_not_mem_cons (notMem_right hescape₀)⟩
  · simp only [Option.bind_eq_bind, Option.bind_eq_some_iff] at h
    obtain ⟨⟨word, rest'⟩, hword, value', hvalue, heq⟩ := h
    cases heq
    obtain ⟨-, rfl, -, -⟩ := (parseWord_eq_some_iff hescape).mp hword
    exact ⟨plainValue_of_parseUnquoted hvalue, notMem_right hescape⟩

/-! ## Fields -/

def fieldChars (field : String × InfluxDataType δ) : List Char :=
  field.1.toList ++ '=' :: valueChars text field.2

def fieldsChars (fields : List (String × InfluxDataType δ)) : List Char :=
  fields.flatMap fun field => ',' :: fieldChars text field

/-- A field that is plain is read from in front of the next part. -/
theorem parse_fieldChars {field : String × InfluxDataType δ} {rest : List Char}
    (hne : field.1 ≠ "") (hvalue : EncodableValue text field.2)
    (hplain : PlainWord separates field.1 ∧ PlainValue (fieldValue text field.2))
    (hescape : '\\' ∉ fieldChars text field ++ rest)
    (hrest : ∀ c ∈ rest.head?, separates c = true) :
    parseKey (fieldChars text field ++ rest) =
        some (field.1, valueChars text field.2 ++ rest) ∧
      parseValue (valueChars text field.2 ++ rest) = some (fieldValue text field.2, rest) := by
  have hsplit : fieldChars text field ++ rest =
      field.1.toList ++ '=' :: (valueChars text field.2 ++ rest) := by
    simp [fieldChars]
  rw [hsplit] at hescape ⊢
  exact ⟨(parseKey_eq_some_iff hescape).mpr ⟨hne, rfl, hplain.1⟩,
    parseValue_append text hvalue hplain.2
      (List.not_mem_of_not_mem_cons (notMem_right hescape)) hrest⟩

theorem parseFields_append {first : String × InfluxDataType δ}
    {fields : List (String × InfluxDataType δ)} {rest : List Char} {fuel : ℕ}
    (hne : ∀ field ∈ first :: fields, field.1 ≠ "")
    (hvalue : ∀ field ∈ first :: fields, EncodableValue text field.2)
    (hplain : ∀ field ∈ first :: fields,
      PlainWord separates field.1 ∧ PlainValue (fieldValue text field.2))
    (hescape : '\\' ∉ fieldChars text first ++ (fieldsChars text fields ++ rest))
    (hrest : AtSpace rest) (hfuel : fields.length < fuel) :
    parseFields fuel (fieldChars text first ++ (fieldsChars text fields ++ rest)) =
      some ((first :: fields).map fun field => (field.1, fieldValue text field.2), rest) := by
  induction fields generalizing first fuel with
  | nil =>
    obtain ⟨fuel, rfl⟩ := Nat.exists_eq_add_one_of_ne_zero (Nat.ne_of_gt hfuel)
    rw [fieldsChars, List.flatMap_nil, List.nil_append] at hescape ⊢
    obtain ⟨hkey, hval⟩ := parse_fieldChars text (hne first (by simp)) (hvalue first (by simp))
      (hplain first (by simp)) hescape hrest.separates
    simp only [parseFields, hkey, hval, Option.bind_eq_bind, Option.bind_some]
    cases rest with
    | nil => rfl
    | cons c rest =>
      obtain rfl : c = ' ' := hrest c rfl
      rfl
  | cons next fields ih =>
    obtain ⟨fuel, rfl⟩ := Nat.exists_eq_add_one_of_ne_zero (Nat.ne_zero_of_lt hfuel)
    have hsplit : fieldsChars text (next :: fields) ++ rest =
        ',' :: (fieldChars text next ++ (fieldsChars text fields ++ rest)) := by
      simp [fieldsChars]
    rw [hsplit] at hescape ⊢
    obtain ⟨hkey, hval⟩ := parse_fieldChars text (hne first (by simp)) (hvalue first (by simp))
      (hplain first (by simp)) hescape (by simp [separates])
    have hmore := ih (List.forall_mem_cons.mp hne).2 (List.forall_mem_cons.mp hvalue).2
      (List.forall_mem_cons.mp hplain).2
      (List.not_mem_of_not_mem_cons (notMem_right hescape)) (Nat.lt_of_succ_lt_succ hfuel)
    simp only [parseFields, hkey, hval, hmore, Option.bind_eq_bind, Option.bind_some]
    rfl

/-- Without escapes the fields that are read are plain. -/
theorem of_parseFields {fuel : ℕ} {line rest : List Char} {fields : List (String × FieldValue)}
    (hescape : '\\' ∉ line) (h : parseFields fuel line = some (fields, rest)) :
    ∀ field ∈ fields, PlainWord separates field.1 ∧ PlainValue field.2 := by
  induction fuel generalizing line fields with
  | zero => cases h
  | succ fuel ih =>
    simp only [parseFields, Option.bind_eq_bind, Option.bind_eq_some_iff] at h
    obtain ⟨⟨key, line₁⟩, hkey, ⟨value, line₂⟩, hvalue, htail⟩ := h
    obtain ⟨-, rfl, hkeyPlain⟩ := (parseKey_eq_some_iff hescape).mp hkey
    have hescape₁ : '\\' ∉ line₁ := List.not_mem_of_not_mem_cons (notMem_right hescape)
    obtain ⟨hvaluePlain, hescape₂⟩ := of_parseValue hescape₁ hvalue
    split at htail
    · next line₃ hline =>
      obtain rfl : line₂ = ',' :: line₃ := hline
      simp only [Option.bind_eq_some_iff] at htail
      obtain ⟨⟨fields', line₄⟩, hfields, heq⟩ := htail
      cases heq
      have hescape₃ : '\\' ∉ line₃ := List.not_mem_of_not_mem_cons hescape₂
      exact List.forall_mem_cons.mpr ⟨⟨hkeyPlain, hvaluePlain⟩, ih hescape₃ hfields⟩
    · cases htail
      exact List.forall_mem_singleton.mpr ⟨hkeyPlain, hvaluePlain⟩

/-! ## Lines -/

theorem toList_encodeField (separator : String) (field : String × InfluxDataType δ) :
    (encodeField text separator field).toList = separator.toList ++ fieldChars text field := by
  simp [encodeField, fieldChars, valueChars]

theorem toList_tags (tags : List (String × String)) :
    (String.join (tags.map fun tag => "," ++ tag.1 ++ "=" ++ tag.2)).toList =
      tags.flatMap tagChars := by
  rw [String.toList_join, List.flatMap_map]
  refine List.flatMap_congr fun tag _ => ?_
  simp [tagChars]

theorem toList_fields (fields : List (String × InfluxDataType δ)) :
    (String.join (fields.map (encodeField text ","))).toList = fieldsChars text fields := by
  rw [String.toList_join, List.flatMap_map, fieldsChars]
  simp [toList_encodeField]

/-- The parts of the line of a measurement. -/
theorem toList_encodeMeasurement {measurement : InfluxMeasurement δ}
    {first : String × InfluxDataType δ} {fields : List (String × InfluxDataType δ)}
    (hfields : measurement.fields = first :: fields) (timeStamp : Timestamp) :
    (encodeMeasurement text measurement timeStamp).toList =
      measurement.measurementName.toList ++ (measurement.tags.flatMap tagChars ++
        ' ' :: (fieldChars text first ++ (fieldsChars text fields ++
          ' ' :: (toString timeStamp).toList))) := by
  simp [encodeMeasurement, encodeFields, hfields, toList_tags, toList_fields, toList_encodeField,
    -Int.toString_eq_repr, -String.toList_join]

@[simp] theorem oneLine_nil : OneLine [] := nofun

@[simp] theorem oneLine_append {chars more : List Char} :
    OneLine (chars ++ more) ↔ OneLine chars ∧ OneLine more := List.forall_mem_append

@[simp] theorem oneLine_cons {c : Char} {chars : List Char} :
    OneLine (c :: chars) ↔ (c ≠ '\n' ∧ c ≠ '\\') ∧ OneLine chars := List.forall_mem_cons

theorem oneLine_of_isNumber {part : String} (h : isNumber part = true) : OneLine part.toList :=
  fun c hc => (ne_of_inNumber ((isNumber_iff.mp h).2 c hc)).2.2

theorem oneLine_valueChars {value : InfluxDataType δ} (h : EncodableValue text value) :
    OneLine (valueChars text value) := by
  cases value with
  | double value => exact oneLine_of_isNumber (isNumber_encodeValue text h rfl)
  | uint64 value => exact oneLine_of_isNumber (isNumber_encodeValue text h rfl)
  | int64 value => exact oneLine_of_isNumber (isNumber_encodeValue text h rfl)
  | fixedFloat value => exact oneLine_of_isNumber (isNumber_encodeValue text h rfl)
  | bool value => exact (toString_bool value).2.2.1
  | string value =>
    have hvalue : OneLine value.toList := h
    simp [valueChars, encodeValue, hvalue]

theorem oneLine_encodeMeasurement {measurement : InfluxMeasurement δ}
    (h : Encodable text measurement) (timeStamp : Timestamp) :
    OneLine (encodeMeasurement text measurement timeStamp).toList := by
  have hfield : ∀ field ∈ measurement.fields, OneLine (fieldChars text field) := by
    intro field hmem
    obtain ⟨hkey, hvalue⟩ := h.fields field hmem
    simp [fieldChars, hkey, oneLine_valueChars text hvalue]
  have htags : OneLine (measurement.tags.flatMap tagChars) := by
    refine List.forall_mem_flatMap.mpr fun tag hmem => ?_
    obtain ⟨hkey, hvalue⟩ := h.tags tag hmem
    show OneLine (tagChars tag)
    simp [tagChars, hkey, hvalue]
  have htime : OneLine (toString timeStamp).toList :=
    oneLine_of_isNumber (isNumber_toString_int timeStamp)
  obtain ⟨first, fields, hfields⟩ := List.exists_cons_of_ne_nil h.fields_ne
  rw [hfields, List.forall_mem_cons] at hfield
  have hrest : OneLine (fieldsChars text fields) := by
    refine List.forall_mem_flatMap.mpr fun field hmem => ?_
    show OneLine (',' :: fieldChars text field)
    simp [hfield.2 field hmem]
  rw [toList_encodeMeasurement text hfields]
  simp [h.name, htags, hfield.1, hrest, htime, -Int.toString_eq_repr]

/-! ## Round trip -/

/-- The numbers of tags and of fields are bounded by the length of the line. -/
theorem length_parts_le {measurement : InfluxMeasurement δ} {first : String × InfluxDataType δ}
    {fields : List (String × InfluxDataType δ)} (hfields : measurement.fields = first :: fields)
    (timeStamp : Timestamp) :
    measurement.tags.length ≤ (encodeMeasurement text measurement timeStamp).length ∧
      fields.length < (encodeMeasurement text measurement timeStamp).length := by
  have htags := Bytes.length_le_of_pos tagChars measurement.tags
    fun tag _ => by simp [tagChars]
  have hrest := Bytes.length_le_of_pos (fun field => ',' :: fieldChars text field) fields
    fun field _ => by simp
  rw [← String.length_toList, toList_encodeMeasurement text hfields]
  simp only [List.length_append, List.length_cons]
  rw [fieldsChars]
  omega

theorem parseLine_encodeMeasurement {equals : Bool} {measurement : InfluxMeasurement δ}
    (h : Encodable text measurement) (hplain : Plain text equals measurement)
    (timeStamp : Timestamp) :
    parseLine equals (encodeMeasurement text measurement timeStamp) = some
      ⟨measurement.measurementName, measurement.tags,
        measurement.fields.map fun field => (field.1, fieldValue text field.2),
        some timeStamp⟩ := by
  obtain ⟨first, fields, hfields⟩ := List.exists_cons_of_ne_nil h.fields_ne
  obtain ⟨htagsFuel, hfieldsFuel⟩ := length_parts_le text hfields timeStamp
  have hescape : '\\' ∉ (encodeMeasurement text measurement timeStamp).toList := fun hmem =>
    (oneLine_encodeMeasurement text h timeStamp _ hmem).2 rfl
  rw [toList_encodeMeasurement text hfields] at hescape
  have hescapeTags := notMem_right hescape
  have hescapeFields := List.not_mem_of_not_mem_cons (notMem_right hescapeTags)
  have hname := (parseWord_eq_some_iff hescape).mpr ⟨h.name_ne, rfl, hplain.name, by
    intro c hc
    rcases head_tags (atSpace_cons _) c hc with rfl | rfl <;> rfl⟩
  have htags := parseTags_append h.tags_ne hplain.tags hescapeTags (atSpace_cons _) htagsFuel
  have hkeys := h.keys_ne
  have hvalues : ∀ field ∈ measurement.fields, EncodableValue text field.2 := fun field hmem =>
    (h.fields field hmem).2
  have hplainFields := hplain.fields
  rw [hfields] at hkeys hvalues hplainFields
  have hrest := parseFields_append text hkeys hvalues hplainFields hescapeFields
    (atSpace_cons _) hfieldsFuel
  rw [parseLine, toList_encodeMeasurement text hfields]
  simp [hname, htags, hrest, hfields, parseTimeStamp, parseInt_toString, -Int.toString_eq_repr]

theorem plain_of_parseLine {equals : Bool} {line : String} (hescape : '\\' ∉ line.toList)
    {point : Point} (h : parseLine equals line = some point) :
    PlainWord (endsName equals) point.measurementName ∧
      (∀ tag ∈ point.tags, PlainWord separates tag.1 ∧ PlainWord separates tag.2) ∧
      ∀ field ∈ point.fields, PlainWord separates field.1 ∧ PlainValue field.2 := by
  simp only [parseLine, Option.bind_eq_bind, Option.bind_eq_some_iff] at h
  obtain ⟨⟨name, rest₁⟩, hname, ⟨tags, rest₂⟩, htags, hrest⟩ := h
  obtain ⟨-, hline, hnamePlain, -⟩ := (parseWord_eq_some_iff hescape).mp hname
  rw [hline] at hescape
  obtain ⟨htagsPlain, hescape₂⟩ := of_parseTags (notMem_right hescape) htags
  split at hrest
  · next rest₃ heq =>
    obtain rfl : rest₂ = ' ' :: rest₃ := heq
    simp only [Option.bind_eq_some_iff] at hrest
    obtain ⟨⟨fields, rest₄⟩, hfields, timeStamp, -, hpoint⟩ := hrest
    cases hpoint
    exact ⟨hnamePlain, htagsPlain,
      of_parseFields (List.not_mem_of_not_mem_cons hescape₂) hfields⟩
  · cases hrest

/-- **Round trip.** A measurement in range is one line that says what the
measurement does exactly if it is plain. -/
theorem encodeMeasurement_roundTrips_iff (equals : Bool) {measurement : InfluxMeasurement δ}
    (h : Encodable text measurement) (timeStamp : Timestamp) :
    RoundTrips text equals measurement timeStamp ↔ Plain text equals measurement := by
  have hline := oneLine_encodeMeasurement text h timeStamp
  constructor
  · rintro ⟨-, hparse⟩
    obtain ⟨hname, htags, hfields⟩ :=
      plain_of_parseLine (fun hmem => (hline _ hmem).2 rfl) hparse
    exact ⟨hname, htags, List.forall_mem_map.mp hfields⟩
  · intro hplain
    exact ⟨fun hmem => (hline _ hmem).1 rfl, parseLine_encodeMeasurement text h hplain timeStamp⟩

/-- Texts of numbers; the measurements below have integers only. -/
def integerText : NumberText ℕ := ⟨toString, fun x => toString x.floor⟩

def tradeMeasurement : InfluxMeasurement ℕ where
  measurementName := "trade"
  tags := [("market", "SOL/USD")]
  fields := [("note", .string "bid, then sold = 5"), ("price", .uint64 35), ("side", .bool true)]

theorem encodeMeasurement_roundTrips_trade :
    encodeMeasurement integerText tradeMeasurement (-3) =
        "trade,market=SOL/USD note=\"bid, then sold = 5\",price=35,side=true -3" ∧
      RoundTrips integerText false tradeMeasurement (-3) ∧
      RoundTrips integerText true tradeMeasurement (-3) := by
  have hrange : Encodable integerText tradeMeasurement :=
    ⟨by decide, by decide +kernel, by decide, by decide +kernel, by simp [tradeMeasurement],
      by decide +kernel, by decide +kernel⟩
  refine ⟨by decide +kernel, ?_, ?_⟩
  · exact (encodeMeasurement_roundTrips_iff integerText false hrange (-3)).mpr
      ⟨by decide +kernel, by decide +kernel, by decide +kernel⟩
  · exact (encodeMeasurement_roundTrips_iff integerText true hrange (-3)).mpr
      ⟨by decide +kernel, by decide +kernel, by decide +kernel⟩

/-- The name of a market with a space. -/
def spacedMeasurement : InfluxMeasurement ℕ where
  measurementName := "trade"
  tags := [("market", "SOL PERP")]
  fields := [("price", .uint64 35)]

/-- Its line ends the tags at that space, and is refused. -/
theorem encodeMeasurement_roundTrips_fails :
    Encodable integerText spacedMeasurement ∧
      encodeMeasurement integerText spacedMeasurement 1 = "trade,market=SOL PERP price=35 1" ∧
      (∀ equals, parseLine equals (encodeMeasurement integerText spacedMeasurement 1) = none) ∧
      ∀ equals, ¬ RoundTrips integerText equals spacedMeasurement 1 := by
  have hrefused : ∀ equals,
      parseLine equals (encodeMeasurement integerText spacedMeasurement 1) = none := by
    decide +kernel
  refine ⟨?_, by decide +kernel, hrefused, fun equals h => ?_⟩
  · exact ⟨by decide, by decide +kernel, by decide, by decide +kernel, by simp [spacedMeasurement],
      by decide, by decide +kernel⟩
  · rw [RoundTrips, hrefused] at h
    cases h.2

end Synthfi.Statistics
