/-
Synthfi.Core.Base58TextTheorems — what texts are read as hashes and signatures.

`dec_base58` does not refuse a text. It stops at the first character outside
the alphabet and decodes the ones before it, `accepted`; what comes behind is
never looked at. Of those it gives the array whose text they are, unless they
are ones alone, which give one zero byte too many.

* `encBase58_decBase58` — the array has the accepted characters as its text.
* `base58_accepts_iff` — which texts are read back as they were, for hashes and
  for signatures, and which are decoded within the vector.
-/
import Synthfi.Core.Base58Theorems

namespace Synthfi.Core

open Bytes Util

/-! ## The characters that are read -/

/-- The characters before the first one outside the alphabet. -/
def accepted (chars : List Char) : List Char := chars.takeWhile fun c => (alphabetMap c).isSome

/-- Their digits. -/
def digitsOf (chars : List Char) : List ℕ := (accepted chars).filterMap alphabetMap

/-- The number they spell. -/
def textNumber (chars : List Char) : ℕ := value 58 (digitsOf chars)

def ones (chars : List Char) : ℕ := (chars.takeWhile (· = '1')).length

/-- A character of the alphabet is that of its digit. -/
theorem charOf_of_alphabetMap {char : Char} {digit : ℕ} (h : alphabetMap char = some digit) :
    digit < 58 ∧ charOf digit = char := by
  obtain ⟨hlt, hchar, -⟩ := List.findIdx?_eq_some_iff_getElem.mp h
  have hcharOf := getElem?_alphabet hlt
  rw [List.getElem?_eq_getElem hlt, Option.some.injEq] at hcharOf
  exact ⟨hlt, hcharOf.symm.trans (of_decide_eq_true hchar)⟩

theorem accepted_cons_of_some {char : Char} {chars : List Char} {digit : ℕ}
    (h : alphabetMap char = some digit) : accepted (char :: chars) = char :: accepted chars := by
  simp [accepted, h]

theorem accepted_cons_of_none {char : Char} {chars : List Char} (h : alphabetMap char = none) :
    accepted (char :: chars) = [] := by
  simp [accepted, h]

theorem digitsOf_cons_of_some {char : Char} {chars : List Char} {digit : ℕ}
    (h : alphabetMap char = some digit) : digitsOf (char :: chars) = digit :: digitsOf chars := by
  rw [digitsOf, accepted_cons_of_some h, List.filterMap_cons_some h, digitsOf]

theorem digitsOf_cons_of_none {char : Char} {chars : List Char} (h : alphabetMap char = none) :
    digitsOf (char :: chars) = [] := by
  rw [digitsOf, accepted_cons_of_none h, List.filterMap_nil]

theorem digitsOf_lt (chars : List Char) : ∀ digit ∈ digitsOf chars, digit < 58 := by
  intro digit hdigit
  obtain ⟨char, -, hchar⟩ := List.mem_filterMap.mp hdigit
  exact (charOf_of_alphabetMap hchar).1

/-- The accepted characters, from their digits. -/
theorem map_charOf_digitsOf (chars : List Char) : (digitsOf chars).map charOf = accepted chars := by
  induction chars with
  | nil => rfl
  | cons char chars ih =>
    cases h : alphabetMap char with
    | none => rw [digitsOf_cons_of_none h, accepted_cons_of_none h, List.map_nil]
    | some digit =>
      rw [digitsOf_cons_of_some h, accepted_cons_of_some h, List.map_cons, ih,
        (charOf_of_alphabetMap h).2]

/-- The loop of the decoder stops where the accepted characters end. -/
theorem decDigits_digitsOf (chars : List Char) (n : ℕ) :
    decDigits chars (decodedDigits n) =
      decodedDigits ((digitsOf chars).foldl (fun n digit => n * 58 + digit) n) := by
  induction chars generalizing n with
  | nil => rfl
  | cons char chars ih =>
    cases h : alphabetMap char with
    | none => rw [decDigits, h, digitsOf_cons_of_none h]; rfl
    | some digit =>
      rw [decDigits, h, digitsOf_cons_of_some h, List.foldl_cons,
        ← ih, ← mulAdd_decodedDigits (charOf_of_alphabetMap h).1]

/-- The leading ones are the leading zeros of the digits. -/
theorem ones_eq (chars : List Char) : ones chars = ((digitsOf chars).takeWhile (· = 0)).length := by
  induction chars with
  | nil => rfl
  | cons char chars ih =>
    cases h : alphabetMap char with
    | none =>
      have hne : char ≠ '1' := by
        rintro rfl
        exact absurd h (by decide)
      simp [ones, digitsOf_cons_of_none h, hne]
    | some digit =>
      obtain ⟨hlt, hchar⟩ := charOf_of_alphabetMap h
      have hone : char = '1' ↔ digit = 0 := hchar ▸ charOf_eq_one_iff hlt
      rw [digitsOf_cons_of_some h]
      by_cases hzero : digit = 0
      · have hchar' : char = '1' := hone.mpr hzero
        simp only [ones, hchar', hzero, List.takeWhile_cons_of_pos, decide_true, List.length_cons]
        exact congrArg (· + 1) ih
      · simp [ones, mt hone.mp hzero, hzero]

/-! ## What a text is decoded to -/

/-- The accepted characters are ones and then the digits of their number. -/
theorem accepted_eq (chars : List Char) :
    accepted chars = List.replicate (ones chars) '1' ++
      (Nat.digits 58 (textNumber chars)).reverse.map charOf := by
  have hzeros : (digitsOf chars).takeWhile (· = 0) = List.replicate (ones chars) 0 :=
    List.eq_replicate_iff.mpr ⟨(ones_eq chars).symm, fun digit hdigit => by
      simpa using List.mem_takeWhile_imp hdigit⟩
  calc accepted chars
      = ((digitsOf chars).takeWhile (· = 0) ++ (digitsOf chars).dropWhile (· = 0)).map charOf := by
        rw [List.takeWhile_append_dropWhile, map_charOf_digitsOf]
    _ = _ := by
        rw [List.map_append, hzeros, List.map_replicate, textNumber,
          digits_value (by decide) (digitsOf_lt chars), List.reverse_reverse]
        rfl

/-- The number is zero exactly if the accepted characters are ones alone. -/
theorem textNumber_eq_zero_iff (chars : List Char) :
    textNumber chars = 0 ↔ ∀ char ∈ accepted chars, char = '1' := by
  constructor
  · intro hzero char hmem
    rw [accepted_eq, hzero, Nat.digits_zero, List.reverse_nil, List.map_nil,
      List.append_nil] at hmem
    exact List.eq_of_mem_replicate hmem
  · intro hall
    rw [← Nat.digits_eq_nil_iff_eq_zero (b := 58), textNumber,
      digits_value (by decide) (digitsOf_lt chars), List.reverse_eq_nil_iff,
      List.dropWhile_eq_nil_iff]
    intro digit hdigit
    have hchar := hall (charOf digit) (map_charOf_digitsOf chars ▸ List.mem_map_of_mem hdigit)
    exact decide_eq_true ((charOf_eq_one_iff (digitsOf_lt chars digit hdigit)).mp hchar)

/-- The bytes of a text: a zero for each leading one, and the number, which
has one digit if it is zero. -/
theorem decBase58_eq (text : String) :
    decBase58 text = List.replicate (ones text.toList) 0 ++
      (decodedDigits (textNumber text.toList)).reverse.map UInt8.ofNat := by
  have hdigits : decDigits text.toList [0] = decodedDigits (textNumber text.toList) :=
    decDigits_digitsOf text.toList 0
  unfold decBase58
  simp only [hdigits, ← List.map_reverse, List.reverse_append, List.reverse_replicate,
    List.map_append, List.map_replicate]
  rfl

/-- Where the digits spell zero: a zero for each one, and one more. -/
theorem decBase58_of_zero {text : String} (h : textNumber text.toList = 0) :
    decBase58 text = List.replicate (ones text.toList + 1) 0 := by
  rw [decBase58_eq, h, List.replicate_succ']
  rfl

/-- How many bytes a text that is not ones alone is decoded to. -/
theorem length_decBase58 {text : String} (h : textNumber text.toList ≠ 0) :
    (decBase58 text).length =
      ones text.toList + (Nat.digits 256 (textNumber text.toList)).length := by
  rw [decBase58_eq, decodedDigits, if_neg h]
  simp

/-- The number of the decoded bytes is the one the text spells, and they have
as many leading zeros as the text has leading ones. -/
theorem decBase58_parts {text : String} (h : textNumber text.toList ≠ 0) :
    leading (decBase58 text) = ones text.toList ∧
      number (decBase58 text) = textNumber text.toList := by
  obtain ⟨first, rest, hdigits⟩ :
      ∃ first rest, (Nat.digits 256 (textNumber text.toList)).reverse = first :: rest := by
    refine List.exists_cons_of_ne_nil ?_
    rw [Ne, List.reverse_eq_nil_iff]
    exact Nat.digits_ne_nil_iff_ne_zero.mpr h
  have hlt : ∀ digit ∈ (Nat.digits 256 (textNumber text.toList)).reverse, digit < 256 :=
    fun digit hdigit => Nat.digits_lt_base (by decide) (List.mem_reverse.mp hdigit)
  have hback : ((Nat.digits 256 (textNumber text.toList)).reverse.map UInt8.ofNat).map UInt8.toNat =
      (Nat.digits 256 (textNumber text.toList)).reverse := by
    rw [List.map_map]
    have hsame : ∀ digit ∈ (Nat.digits 256 (textNumber text.toList)).reverse,
        (UInt8.toNat ∘ UInt8.ofNat) digit = id digit := fun digit hdigit =>
      UInt8.toNat_ofNat_of_lt' (hlt digit hdigit)
    rw [List.map_congr_left hsame, List.map_id]
  have hfirst : ¬ UInt8.ofNat first = 0 := by
    intro hzero
    have hmod := congrArg UInt8.toNat hzero
    rw [UInt8.toNat_ofNat_of_lt' (hlt first (by simp [hdigits]))] at hmod
    exact first_digit_ne_zero hdigits hmod
  have hbytes := decBase58_eq text
  rw [decodedDigits, if_neg h] at hbytes
  have hleading : (decBase58 text).takeWhile (· = 0) = List.replicate (ones text.toList) 0 := by
    rw [hbytes, List.takeWhile_append_of_pos (by simp), hdigits, List.map_cons,
      List.takeWhile_cons_of_neg (by simpa using hfirst), List.append_nil]
  have hsignificant : significant (decBase58 text) =
      (Nat.digits 256 (textNumber text.toList)).reverse.map UInt8.ofNat := by
    rw [significant, hbytes, List.dropWhile_append_of_pos (by simp), hdigits, List.map_cons,
      List.dropWhile_cons_of_neg (by simpa using hfirst)]
  constructor
  · rw [leading, hleading, List.length_replicate]
  · rw [number, hsignificant, hback, value_reverse_digits]

/-- **The array has the accepted characters as its text**, if they are not ones
alone. -/
theorem encBase58_decBase58 {text : String} (h : textNumber text.toList ≠ 0)
    (hmin : 4 ≤ (decBase58 text).length) (hmax : (decBase58 text).length ≤ 64) :
    (encBase58 (decBase58 text)).toList = accepted text.toList := by
  obtain ⟨hleading, hnumber⟩ := decBase58_parts h
  rw [toList_encBase58 hmin hmax, significantText, hleading, hnumber, accepted_eq]

/-- Accepted characters that are ones alone. -/
theorem accepted_of_zero {chars : List Char} (h : textNumber chars = 0) :
    accepted chars = List.replicate (ones chars) '1' := by
  rw [accepted_eq, h, Nat.digits_zero, List.reverse_nil, List.map_nil, List.append_nil]

/-- The ones and the digits behind them leave room for the bytes. -/
theorem length_digits_le_accepted (chars : List Char) :
    ones chars + (Nat.digits 256 (textNumber chars)).length ≤ (accepted chars).length := by
  have hle : (Nat.digits 256 (textNumber chars)).length ≤
      (Nat.digits 58 (textNumber chars)).length := by
    rw [Nat.digits_length_le_iff (by decide)]
    calc textNumber chars
        < 58 ^ (Nat.digits 58 (textNumber chars)).length := Nat.lt_base_pow_length_digits (by decide)
      _ ≤ 256 ^ (Nat.digits 58 (textNumber chars)).length := Nat.pow_le_pow_left (by decide) _
  rw [accepted_eq, List.length_append, List.length_replicate, List.length_map, List.length_reverse]
  omega

/-- The decoder stays within its vector unless the text is ones alone. -/
theorem decInBounds_iff (text : String) :
    decInBounds text ↔ ∃ char ∈ text.toList, char ≠ '1' := by
  have hprefix : accepted text.toList <+: text.toList := List.takeWhile_prefix _
  rw [decInBounds]
  by_cases hzero : textNumber text.toList = 0
  · rw [decBase58_of_zero hzero, List.length_replicate]
    have haccepted := accepted_of_zero hzero
    constructor
    · intro hroom
      by_contra hall
      -- ones alone are all accepted
      have hones : ∀ char ∈ text.toList, (alphabetMap char).isSome = true := by
        intro char hmem
        have hchar : char = '1' := not_not.mp fun hne => hall ⟨char, hmem, hne⟩
        rw [hchar]
        decide
      have hwhole : accepted text.toList = text.toList := List.takeWhile_eq_self_iff.mpr hones
      have hlength := congrArg List.length (hwhole.symm.trans haccepted)
      rw [List.length_replicate] at hlength
      omega
    · rintro ⟨char, hmem, hne⟩
      have hlt : (accepted text.toList).length ≠ text.toList.length := by
        intro hsame
        rw [← hprefix.eq_of_length hsame, haccepted] at hmem
        exact hne (List.eq_of_mem_replicate hmem)
      have hle := hprefix.length_le
      rw [haccepted, List.length_replicate] at hle hlt
      omega
  · rw [length_decBase58 hzero]
    refine iff_of_true ((length_digits_le_accepted _).trans hprefix.length_le) ?_
    rw [textNumber_eq_zero_iff] at hzero
    push Not at hzero
    obtain ⟨char, hmem, hne⟩ := hzero
    exact ⟨char, hprefix.subset hmem, hne⟩

/-! ## Hashes and signatures -/

/-- The accepted characters are not one short of `size` ones, and they are the
whole text, or ones alone, or they stand for other than `size` bytes. -/
def ReadBack (size : ℕ) (chars : List Char) : Prop :=
  accepted chars ≠ List.replicate (size - 1) '1' ∧
    (accepted chars = chars ∨ (∀ char ∈ accepted chars, char = '1') ∨
      ones chars + (Nat.digits 256 (textNumber chars)).length ≠ size)

/-- **What is read back.** A text of the right size is the text of its bytes under
`ReadBack` alone. -/
theorem readBack_iff {size : ℕ} (hmin : 4 ≤ size) (hmax : size ≤ 64) (text : String) :
    ((decBase58 text).length = size → encBase58 (decBase58 text) = text) ↔
      ReadBack size text.toList := by
  by_cases hzero : textNumber text.toList = 0
  · have hall := (textNumber_eq_zero_iff _).mp hzero
    have hlength : (decBase58 text).length = ones text.toList + 1 := by
      rw [decBase58_of_zero hzero, List.length_replicate]
    have hguard : ReadBack size text.toList ↔ (decBase58 text).length ≠ size := by
      rw [ReadBack, and_iff_left (.inr (.inl hall)), accepted_of_zero hzero, hlength, Ne,
        List.replicate_left_inj]
      omega
    rw [hguard]
    constructor
    · intro hback hsize
      -- the text of zeros alone is decoded to one more
      have hzeros : significant (decBase58 text) = [] := by
        rw [significant_eq_nil_iff, decBase58_of_zero hzero]
        exact fun byte hbyte => List.eq_of_mem_replicate hbyte
      have hlonger := length_decBase58_zeros (by omega) (by omega) hzeros
      rw [hback hsize] at hlonger
      omega
    · intro hne hsize
      exact absurd hsize hne
  · have hone : ¬ ∀ char ∈ accepted text.toList, char = '1' :=
      mt (textNumber_eq_zero_iff _).mpr hzero
    have hshort : accepted text.toList ≠ List.replicate (size - 1) '1' := by
      intro heq
      exact hone fun char hmem => List.eq_of_mem_replicate (heq ▸ hmem)
    rw [ReadBack, and_iff_right hshort, or_iff_right hone, ← length_decBase58 hzero]
    by_cases hsize : (decBase58 text).length = size
    · have henc := encBase58_decBase58 hzero (by omega) (by omega)
      rw [or_iff_left (not_not_intro hsize), forall_prop_of_true hsize, ← henc]
      exact String.toList_inj.symm
    · exact iff_of_true (fun h => absurd h hsize) (.inr hsize)

/-- **What is accepted.** A text that is read as a hash is the text of that
hash, exactly if it is `ReadBack`; likewise a signature. The decoder stays
within its vector exactly if the text is not ones alone. -/
theorem base58_accepts_iff (text : String) :
    (decInBounds text ↔ ∃ char ∈ text.toList, char ≠ '1') ∧
    ((∀ hash, Hash.initFromBase58 text = some hash → hash.encBase58Text = text) ↔
      ReadBack 32 text.toList) ∧
    ((∀ signature, Signature.initFromBase58 text = some signature →
        signature.encBase58Text = text) ↔ ReadBack 64 text.toList) := by
  refine ⟨decInBounds_iff text, ?_, ?_⟩
  · rw [← readBack_iff (by decide) (by decide)]
    constructor
    · intro hback hsize
      exact hback ⟨decBase58 text, hsize⟩ (dite_length_eq_some.mpr rfl)
    · intro hback hash hhash
      have hbytes := dite_length_eq_some.mp hhash
      rw [Hash.encBase58Text, ← hbytes]
      exact hback (hbytes ▸ hash.2)
  · rw [← readBack_iff (by decide) (by decide)]
    constructor
    · intro hback hsize
      exact hback ⟨decBase58 text, hsize⟩ (dite_length_eq_some.mpr rfl)
    · intro hback signature hsignature
      have hbytes := dite_length_eq_some.mp hsignature
      rw [Signature.encBase58Text, ← hbytes]
      exact hback (hbytes ▸ signature.2)

/-- An address, and the same with a mistyped end. -/
def addressText : String := "4vJ9JU1bJJE96FWSJKvHsmmFADCg4gpZQff4P3bkLKi"

/-- The second text is read as the first address. -/
theorem base58_accepts_foreign :
    Hash.initFromBase58 (addressText ++ "!x") = Hash.initFromBase58 addressText ∧
      ∃ hash, Hash.initFromBase58 (addressText ++ "!x") = some hash ∧
        hash.encBase58Text = addressText ∧ hash.encBase58Text ≠ addressText ++ "!x" := by
  refine ⟨by decide +kernel, ByteArr.fill 32 1, ?_⟩
  decide +kernel

end Synthfi.Core
