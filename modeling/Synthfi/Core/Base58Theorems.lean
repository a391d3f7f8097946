/-
Synthfi.Core.Base58Theorems — base58 text of keys, hashes and signatures.

A byte string is a number in base 256 behind its leading zeros, and its text
is the same number in base 58 behind as many ones. `value` is that number,
`mulAdd_digits` the one step both conversions repeat.

The number zero has no digit in the encoder and one in the decoder: an array
of zeros alone does not come back.
-/
import Mathlib.Data.List.DropRight
import Mathlib.Data.List.TakeWhile
import Mathlib.Data.Nat.Digits.Lemmas
import Synthfi.Core.KeyPair

namespace Synthfi.Core

open Bytes Util

/-! ## Digits of a number -/

/-- The number with the given digits, the most significant first. -/
def value (base : ℕ) (digits : List ℕ) : ℕ := digits.foldl (fun n digit => n * base + digit) 0

theorem value_eq_ofDigits (base : ℕ) (digits : List ℕ) :
    value base digits = Nat.ofDigits base digits.reverse := by
  rw [value, Nat.ofDigits_eq_foldr, List.foldr_reverse]
  simp [Nat.add_comm, Nat.mul_comm]

theorem value_reverse_digits (base n : ℕ) : value base (Nat.digits base n).reverse = n := by
  rw [value_eq_ofDigits, List.reverse_reverse, Nat.ofDigits_digits]

/-- The digits of a number are those it was given by, without leading zeros. -/
theorem digits_value {base : ℕ} (hbase : 1 < base) {digits : List ℕ}
    (hdigits : ∀ digit ∈ digits, digit < base) :
    Nat.digits base (value base digits) = (digits.dropWhile (· = 0)).reverse := by
  have hzero : value base digits = value base (digits.dropWhile (· = 0)) := by
    clear hdigits
    induction digits with
    | nil => rfl
    | cons digit digits ih =>
      by_cases h : digit = 0
      · rw [List.dropWhile_cons_of_pos (by simpa using h), ← ih]
        simp [value, h]
      · rw [List.dropWhile_cons_of_neg (by simpa using h)]
  rw [hzero, value_eq_ofDigits]
  refine Nat.digits_ofDigits base hbase _ ?_ ?_
  · intro digit hdigit
    exact hdigits digit (List.dropWhile_subset _ (List.mem_reverse.mp hdigit))
  · intro hne hlast
    have hsome : digits.dropWhile (· = 0) ≠ [] := by simpa using hne
    rw [List.getLast_reverse] at hlast
    exact of_decide_eq_false (List.head_dropWhile_not (fun d : ℕ => d = 0) hsome) hlast

/-- With enough fuel a carry is spread over its digits. -/
theorem carryDigits_eq_digits {base : ℕ} (hbase : 1 < base) :
    ∀ {fuel carry : ℕ}, carry < base ^ fuel →
      carryDigits base fuel carry = Nat.digits base carry := by
  intro fuel
  induction fuel with
  | zero =>
    intro carry h
    have hzero : carry = 0 := by simpa using h
    rw [hzero, carryDigits, Nat.digits_zero]
  | succ fuel ih =>
    intro carry h
    by_cases hcarry : carry = 0
    · simp [carryDigits, hcarry]
    · have hdiv : carry / base < base ^ fuel := by
        rw [Nat.div_lt_iff_lt_mul (by omega), ← pow_succ]
        exact h
      rw [carryDigits, if_neg hcarry, ih hdiv,
        Nat.digits_def' hbase (Nat.pos_of_ne_zero hcarry)]

/-- One step of either conversion: the digits of a number become those of its
multiple and the carry. The carry stays below the factor. -/
theorem mulAdd_digits {base factor : ℕ} (hbase : 1 < base) (hfactor : factor ≤ base ^ 32)
    (n : ℕ) : ∀ {carry : ℕ}, carry < factor →
      mulAdd base factor carry (Nat.digits base n) = Nat.digits base (n * factor + carry) := by
  induction n using Nat.strong_induction_on with
  | _ n ih =>
    intro carry hcarry
    by_cases hn : n = 0
    · have hlt : carry < base ^ 32 := by omega
      simp [hn, mulAdd, carryDigits_eq_digits hbase hlt]
    · have hpos : 0 < n * factor + carry := by
        have := Nat.mul_pos (Nat.pos_of_ne_zero hn) (show 0 < factor by omega)
        omega
      -- the whole division of the product is the product of the quotient and the next carry
      have hsplit : n * factor + carry =
          (carry + n % base * factor) + base * (n / base * factor) := by
        conv_lhs => rw [← Nat.mod_add_div n base]
        ring
      have hnext : (carry + n % base * factor) / base < factor := by
        rw [Nat.div_lt_iff_lt_mul (by omega)]
        have hmod : n % base + 1 ≤ base := Nat.mod_lt n (by omega)
        have := Nat.mul_le_mul_right factor hmod
        rw [Nat.add_mul, Nat.mul_comm base] at this
        omega
      rw [Nat.digits_def' hbase (Nat.pos_of_ne_zero hn), Nat.digits_def' hbase hpos, mulAdd,
        ih (n / base) (Nat.div_lt_self (Nat.pos_of_ne_zero hn) hbase) hnext]
      congr 1
      · rw [hsplit, Nat.add_mul_mod_self_left]
      · rw [hsplit, Nat.add_mul_div_left _ _ (by omega), Nat.add_comm]

/-! ## The loops of the two conversions -/

/-- Digits as they are kept while decoding: the number zero has one. -/
def decodedDigits (n : ℕ) : List ℕ := if n = 0 then [0] else Nat.digits 256 n

/-- One pass of the decoder: times 58, and the digit. -/
theorem mulAdd_decodedDigits {digit : ℕ} (hdigit : digit < 58) (n : ℕ) :
    mulAdd 256 58 digit (decodedDigits n) = decodedDigits (n * 58 + digit) := by
  by_cases hn : n = 0
  · -- the digit that stands for zero takes the carry
    have hmod : digit % 256 = digit := Nat.mod_eq_of_lt (by omega)
    have hdiv : digit / 256 = 0 := Nat.div_eq_of_lt (by omega)
    by_cases hzero : digit = 0
    · simp [decodedDigits, hn, hzero, mulAdd, carryDigits]
    · simp [decodedDigits, hn, hzero, mulAdd, carryDigits, hmod, hdiv,
        Nat.digits_of_lt 256 digit hzero (by omega)]
  · have hne : ¬ n * 58 + digit = 0 := by omega
    rw [decodedDigits, decodedDigits, if_neg hn, if_neg hne]
    exact mulAdd_digits (by decide) (by norm_num) n hdigit

/-- A pass of the encoder for each byte: times 256, and the byte. -/
theorem encDigits_digits (bytes : List UInt8) (n : ℕ) :
    encDigits bytes (Nat.digits 58 n) =
      Nat.digits 58 (bytes.foldl (fun n byte => n * 256 + byte.toNat) n) := by
  induction bytes generalizing n with
  | nil => rfl
  | cons byte bytes ih =>
    have hbyte : byte.toNat < 256 := byte.toNat_lt
    rw [encDigits, mulAdd_digits (by decide) (by norm_num) n hbyte, ih, List.foldl_cons]

/-- **The encoder's digits** are those of the number the bytes spell. -/
theorem encDigits_eq_digits (bytes : List UInt8) :
    encDigits bytes [] = Nat.digits 58 (value 256 (bytes.map UInt8.toNat)) := by
  rw [value, List.foldl_map, ← encDigits_digits, Nat.digits_zero]

/-- The character of a digit. -/
def charOf (digit : ℕ) : Char := alphabet.getD digit '1'

theorem getElem?_alphabet {digit : ℕ} (h : digit < 58) :
    alphabet[digit]? = some (charOf digit) := by
  have hlt : digit < alphabet.length := h
  rw [charOf, List.getD_eq_getElem?_getD, List.getElem?_eq_getElem hlt, Option.getD_some]

/-- The map of the alphabet reads back what the alphabet writes. -/
theorem alphabetMap_charOf :
    ∀ {digit : ℕ}, digit < 58 → alphabetMap (charOf digit) = some digit := by
  decide +kernel

theorem charOf_eq_one_iff : ∀ {digit : ℕ}, digit < 58 → (charOf digit = '1' ↔ digit = 0) := by
  decide +kernel

theorem decDigits_charOf {digits : List ℕ} (h : ∀ digit ∈ digits, digit < 58) (n : ℕ) :
    decDigits (digits.map charOf) (decodedDigits n) =
      decodedDigits (digits.foldl (fun n digit => n * 58 + digit) n) := by
  induction digits generalizing n with
  | nil => rfl
  | cons digit digits ih =>
    have hdigit := h digit (by simp)
    simp only [List.map_cons, decDigits, alphabetMap_charOf hdigit, mulAdd_decodedDigits hdigit,
      List.foldl_cons]
    exact ih (fun d hd => h d (by simp [hd])) _

/-- Leading ones leave the number at zero. -/
theorem decDigits_ones (k : ℕ) (chars : List Char) :
    decDigits (List.replicate k '1' ++ chars) (decodedDigits 0) =
      decDigits chars (decodedDigits 0) := by
  induction k with
  | zero => rfl
  | succ k ih =>
    have hone : alphabetMap '1' = some 0 := by decide
    rw [List.replicate_succ, List.cons_append, decDigits, hone]
    simpa [mulAdd_decodedDigits] using ih

/-! ## An array and its text

`leading` and `significant` are the two parts of an array, `number` what the
second stands for.
-/

def leading (source : List UInt8) : ℕ := (source.takeWhile (· = 0)).length

def significant (source : List UInt8) : List UInt8 := source.dropWhile (· = 0)

def number (source : List UInt8) : ℕ := value 256 ((significant source).map UInt8.toNat)

theorem replicate_leading_append (source : List UInt8) :
    List.replicate (leading source) 0 ++ significant source = source := by
  have hzeros : source.takeWhile (· = 0) = List.replicate (leading source) 0 :=
    List.eq_replicate_iff.mpr ⟨rfl, fun byte hbyte => by
      simpa using List.mem_takeWhile_imp hbyte⟩
  rw [← hzeros]
  exact List.takeWhile_append_dropWhile

theorem leading_add_length (source : List UInt8) :
    leading source + (significant source).length = source.length := by
  have h := congrArg List.length (replicate_leading_append source)
  simpa using h

theorem drop_leading (source : List UInt8) : source.drop (leading source) = significant source := by
  have h : (List.replicate (leading source) 0 ++ significant source).drop
      (List.replicate (leading source) (0 : UInt8)).length = significant source := List.drop_left
  rwa [replicate_leading_append, List.length_replicate] at h

/-- The significant bytes are the digits of their number. -/
theorem digits_number (source : List UInt8) :
    Nat.digits 256 (number source) = ((significant source).map UInt8.toNat).reverse := by
  have hbytes : ∀ digit ∈ (significant source).map UInt8.toNat, digit < 256 := by
    intro digit hdigit
    obtain ⟨byte, -, rfl⟩ := List.mem_map.mp hdigit
    exact byte.toNat_lt
  have hsame : (fun byte : UInt8 => decide (byte.toNat = 0)) = fun byte => decide (byte = 0) := by
    funext byte
    exact decide_eq_decide.mpr (UInt8.toNat_inj (b := 0))
  rw [number, digits_value (by decide) hbytes, List.dropWhile_map]
  show (((significant source).dropWhile fun byte => decide (byte.toNat = 0)).map _).reverse = _
  rw [hsame, significant, List.dropWhile_idempotent]

theorem number_eq_zero_iff (source : List UInt8) : number source = 0 ↔ significant source = [] := by
  rw [← Nat.digits_eq_nil_iff_eq_zero (b := 256), digits_number]
  simp

theorem significant_eq_nil_iff (source : List UInt8) :
    significant source = [] ↔ ∀ byte ∈ source, byte = 0 := by
  simp [significant, List.dropWhile_eq_nil_iff]

/-- Bytes of no more than 64 fit the digits reserved for them. -/
theorem length_digits_le {source : List UInt8} (h : source.length ≤ 64) :
    (Nat.digits 58 (number source)).length ≤ encSize (significant source).length := by
  have hsize : ∀ k ≤ 64, 256 ^ k ≤ 58 ^ encSize k := by decide +kernel
  have hle : (significant source).length ≤ 64 := by
    have := leading_add_length source
    omega
  rw [Nat.digits_length_le_iff (by decide)]
  calc number source
      < 256 ^ (Nat.digits 256 (number source)).length := Nat.lt_base_pow_length_digits (by decide)
    _ = 256 ^ (significant source).length := by rw [digits_number]; simp
    _ ≤ 58 ^ encSize (significant source).length := hsize _ hle

/-- A byte takes at least one digit. -/
theorem length_significant_le (source : List UInt8) :
    (significant source).length ≤ (Nat.digits 58 (number source)).length := by
  have hlen : (significant source).length = (Nat.digits 256 (number source)).length := by
    rw [digits_number]; simp
  rw [hlen, Nat.digits_length_le_iff (by decide)]
  calc number source
      < 58 ^ (Nat.digits 58 (number source)).length := Nat.lt_base_pow_length_digits (by decide)
    _ ≤ 256 ^ (Nat.digits 58 (number source)).length := Nat.pow_le_pow_left (by decide) _

/-- The characters behind the ones. -/
def significantText (source : List UInt8) : List Char :=
  (Nat.digits 58 (number source)).reverse.map charOf

theorem digit_lt {source : List UInt8} {digit : ℕ}
    (h : digit ∈ (Nat.digits 58 (number source)).reverse) : digit < 58 :=
  Nat.digits_lt_base (by decide) (List.mem_reverse.mp h)

theorem first_digit_ne_zero {base n first : ℕ} {rest : List ℕ}
    (h : (Nat.digits base n).reverse = first :: rest) : first ≠ 0 := by
  have hne : Nat.digits base n ≠ [] := by
    intro hnil
    simp [hnil] at h
  have hlast := Nat.getLast_digit_ne_zero base (Nat.digits_ne_nil_iff_ne_zero.mp hne)
  rw [List.getLast_eq_head_reverse] at hlast
  simpa only [h, List.head_cons] using hlast

theorem dropWhile_digits (n : ℕ) :
    (Nat.digits 58 n).reverse.dropWhile (· = 0) = (Nat.digits 58 n).reverse := by
  rcases hdigits : (Nat.digits 58 n).reverse with _ | ⟨first, rest⟩
  · rfl
  · simp [first_digit_ne_zero hdigits]

theorem filterMap_alphabet (source : List UInt8) :
    ((Nat.digits 58 (number source)).reverse.filterMap fun digit => alphabet[digit]?) =
      significantText source := by
  rw [significantText, ← List.filterMap_eq_map]
  exact List.filterMap_congr fun digit hdigit => getElem?_alphabet (digit_lt hdigit)

/-- The text and its end fit an array of twice the size. -/
theorem length_text_lt {source : List UInt8} (hmin : 4 ≤ source.length)
    (hmax : source.length ≤ 64) :
    leading source + (Nat.digits 58 (number source)).length + 1 ≤ 2 * source.length := by
  have hsize := length_digits_le hmax
  have hsum := leading_add_length source
  have henc : ∀ k ≤ 64, ∀ n ≤ 64, 4 ≤ n → k ≤ n → n - k + encSize k + 1 ≤ 2 * n := by
    decide +kernel
  have := henc (significant source).length (by omega) source.length hmax hmin (by omega)
  omega

/-- The text of an array that leaves room for it. -/
theorem toList_encBase58 {source : List UInt8} (hmin : 4 ≤ source.length)
    (hmax : source.length ≤ 64) :
    (encBase58 source).toList =
      List.replicate (leading source) '1' ++ significantText source := by
  have hsize := length_digits_le hmax
  have hsum := leading_add_length source
  have hroom := length_text_lt hmin hmax
  have hdigits : encDigits (source.drop (leading source)) [] = Nat.digits 58 (number source) := by
    rw [drop_leading, encDigits_eq_digits, number]
  have hlen : source.length - leading source = (significant source).length := by omega
  have hleading : (source.takeWhile (· = 0)).length = leading source := rfl
  unfold encBase58
  simp only [hleading]
  rw [hdigits, dropWhile_digits, filterMap_alphabet, hlen, if_neg (by omega),
    List.length_reverse, if_neg (by omega), String.toList_ofList]

/-- The decoder counts the ones the encoder wrote for zeros. -/
theorem takeWhile_ones (source : List UInt8) :
    (List.replicate (leading source) '1' ++ significantText source).takeWhile (· = '1') =
      List.replicate (leading source) '1' := by
  have hsig : (significantText source).takeWhile (· = '1') = [] := by
    rcases hdigits : (Nat.digits 58 (number source)).reverse with _ | ⟨first, rest⟩
    · simp [significantText, hdigits]
    · have hmem : first ∈ (Nat.digits 58 (number source)).reverse := by simp [hdigits]
      have hlt : first < 58 := digit_lt hmem
      have hchar := mt (charOf_eq_one_iff hlt).mp (first_digit_ne_zero hdigits)
      simp [significantText, hdigits, hchar]
  rw [List.takeWhile_append_of_pos (by simp), hsig, List.append_nil]

/-- What the decoder makes of the text of an array. -/
theorem decBase58_encBase58 {source : List UInt8} (hmin : 4 ≤ source.length)
    (hmax : source.length ≤ 64) :
    decBase58 (encBase58 source) =
      ((decodedDigits (number source) ++
        List.replicate (leading source) 0).map UInt8.ofNat).reverse := by
  have hdigits :
      decDigits (significantText source) (decodedDigits 0) = decodedDigits (number source) := by
    rw [significantText, decDigits_charOf fun digit => digit_lt]
    exact congrArg decodedDigits (value_reverse_digits 58 (number source))
  unfold decBase58
  simp only [toList_encBase58 hmin hmax, takeWhile_ones, List.length_replicate]
  rw [← hdigits, ← decDigits_ones (leading source)]
  rfl

/-- An array with a byte that is not zero comes back. -/
theorem decBase58_encBase58_of_ne {source : List UInt8} (hmin : 4 ≤ source.length)
    (hmax : source.length ≤ 64) (hne : significant source ≠ []) :
    decBase58 (encBase58 source) = source := by
  have hnumber := mt (number_eq_zero_iff source).mp hne
  have hbytes : ((significant source).map UInt8.toNat).map UInt8.ofNat = significant source := by
    rw [List.map_map]
    exact List.map_id'' (fun byte => UInt8.ofNat_toNat) _
  rw [decBase58_encBase58 hmin hmax, decodedDigits, if_neg hnumber, digits_number]
  simp only [List.map_append, List.map_reverse, List.reverse_append, List.reverse_reverse, hbytes,
    List.map_replicate, List.reverse_replicate]
  exact replicate_leading_append source

/-- An array of zeros alone comes back one byte longer. -/
theorem length_decBase58_zeros {source : List UInt8} (hmin : 4 ≤ source.length)
    (hmax : source.length ≤ 64) (hzeros : significant source = []) :
    (decBase58 (encBase58 source)).length = source.length + 1 := by
  have hsum := leading_add_length source
  have hnumber := (number_eq_zero_iff source).mpr hzeros
  simp only [hzeros, List.length_nil] at hsum
  rw [decBase58_encBase58 hmin hmax, decodedDigits, if_pos hnumber]
  simp
  omega

/-- The text has no fewer characters than the array has bytes. -/
theorem length_le_length_encBase58 {source : List UInt8} (hmin : 4 ≤ source.length)
    (hmax : source.length ≤ 64) : source.length ≤ (encBase58 source).toList.length := by
  have hsum := leading_add_length source
  have hle := length_significant_le source
  rw [toList_encBase58 hmin hmax, List.length_append, List.length_replicate, significantText,
    List.length_map, List.length_reverse]
  omega

/-! ## Round trip -/

/-- There is a text, it is decoded within its vector, and it gives the array. -/
def RoundTrips (source : List UInt8) : Prop :=
  encBase58 source ≠ "" ∧ decInBounds (encBase58 source) ∧
    decBase58 (encBase58 source) = source

/-- **The round trip of an array** of 4 to 64 bytes fails for zeros alone. -/
theorem roundTrips_iff {source : List UInt8} (hmin : 4 ≤ source.length)
    (hmax : source.length ≤ 64) : RoundTrips source ↔ ∃ byte ∈ source, byte ≠ 0 := by
  have hlen := length_le_length_encBase58 hmin hmax
  by_cases hzeros : significant source = []
  · have hall := (significant_eq_nil_iff source).mp hzeros
    have hlonger := length_decBase58_zeros hmin hmax hzeros
    have hne : decBase58 (encBase58 source) ≠ source := by
      intro h
      rw [h] at hlonger
      omega
    simp only [RoundTrips, hne, and_false, false_iff, not_exists, not_and, not_not]
    exact hall
  · have hback := decBase58_encBase58_of_ne hmin hmax hzeros
    have hsome : ∃ byte ∈ source, byte ≠ 0 := by
      simpa using mt (significant_eq_nil_iff source).mpr hzeros
    have htext : encBase58 source ≠ "" := by
      intro h
      have hempty : "".toList.length = 0 := rfl
      rw [h, hempty] at hlen
      omega
    simp only [RoundTrips, decInBounds, hback, hsome, iff_true]
    exact ⟨htext, hlen, trivial⟩

/-! ## Hashes and signatures -/

/-- A decoded text of the right length gives its bytes. -/
theorem dite_length_eq_some {n : ℕ} {result : List UInt8} {bytes : ByteArr n} :
    (if h : result.length = n then some (⟨result, h⟩ : ByteArr n) else none) = some bytes ↔
      result = bytes.1 := by
  by_cases h : result.length = n
  · rw [dif_pos h, Option.some.injEq, Subtype.ext_iff]
  · rw [dif_neg h]
    have hne : result ≠ bytes.1 := by
      intro heq
      exact h (heq ▸ bytes.2)
    simp [hne]

/-- Keys, hashes and signatures survive their text exactly when one of their
bytes is not zero. -/
theorem base58_round_trip_iff (hash : Hash) (signature : Signature) :
    ((RoundTrips hash.1 ∧ Hash.initFromBase58 hash.encBase58Text = some hash) ↔
      ∃ byte ∈ hash.1, byte ≠ 0) ∧
    ((RoundTrips signature.1 ∧
        Signature.initFromBase58 signature.encBase58Text = some signature) ↔
      ∃ byte ∈ signature.1, byte ≠ 0) := by
  have hhash : RoundTrips hash.1 ↔ ∃ byte ∈ hash.1, byte ≠ 0 :=
    roundTrips_iff (by simp [hash.2]) (by simp [hash.2])
  have hsignature : RoundTrips signature.1 ↔ ∃ byte ∈ signature.1, byte ≠ 0 :=
    roundTrips_iff (by simp [signature.2]) (by simp [signature.2])
  rw [← hhash, ← hsignature]
  constructor
  · exact and_iff_left_of_imp fun h => dite_length_eq_some.mpr h.2.2
  · exact and_iff_left_of_imp fun h => dite_length_eq_some.mpr h.2.2

/-- The address of the system program, which owns every plain wallet. -/
def systemProgram : PublicKey := ByteArr.fill 32 0

/-- The address of the system program is not read back, and its text is
decoded past the vector. -/
theorem base58_systemProgram :
    Hash.initFromBase58 systemProgram.encBase58Text = none ∧
      ¬ decInBounds systemProgram.encBase58Text := by
  unfold decInBounds
  decide +kernel

end Synthfi.Core
