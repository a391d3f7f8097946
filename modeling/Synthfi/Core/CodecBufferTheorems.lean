/-
Synthfi.Core.CodecBufferTheorems — which buffers of the conversions suffice.

The conversions with buffers compute what those on lists do as long as it
fits: a loop of base64 is one push of its characters or bytes, the digits of a
base58 number stand in the array in so many `places`, and those of a text at
the front of its vector. So the encoder of base58 never runs out of digits for
keys and signatures, and only two kinds of calls write past their buffer: one
byte has four characters in base64, for which two are allocated, and ones
alone are decoded to one byte more than there are ones.
-/
import Synthfi.Core.Base58TextTheorems
import Synthfi.Util.Base64Theorems
import Synthfi.Util.CodecBuffers

namespace Synthfi.Core

open Util
open Buffered (EncBase58Exit)

/-! ## Base64 -/

theorem encBase64Tail_pushAll (a3 : List UInt8) (result : Buffer Char) :
    Buffered.encBase64Tail a3 result = result.pushAll (encBase64Tail a3) := by
  simp only [Buffered.encBase64Tail, encBase64Tail]
  split
  · rfl
  · rw [Buffer.pushAll_append]
    rfl

/-- The loop pushes what the list model appends. -/
theorem encBase64Loop_pushAll (source a3 : List UInt8) (result : Buffer Char) :
    Buffered.encBase64Loop source a3 result = result.pushAll (encBase64Loop source a3) := by
  induction source generalizing a3 result with
  | nil => exact encBase64Tail_pushAll a3 result
  | cons c source ih =>
    simp only [Buffered.encBase64Loop, encBase64Loop, ih]
    split
    · rw [Buffer.pushAll_append]
      rfl
    · rfl

theorem decBase64Tail_pushAll (a4 : List Char) (result : Buffer UInt8) :
    Buffered.decBase64Tail a4 result = result.pushAll (decBase64Tail a4) := by
  simp only [Buffered.decBase64Tail, decBase64Tail]
  split <;> rfl

/-- The loop pushes what the list model appends. -/
theorem decBase64Loop_pushAll (text a4 : List Char) (result : Buffer UInt8) :
    Buffered.decBase64Loop text a4 result = result.pushAll (decBase64Loop text a4) := by
  induction text generalizing a4 result with
  | nil => exact decBase64Tail_pushAll a4 result
  | cons c text ih =>
    simp only [Buffered.decBase64Loop, decBase64Loop, ih]
    split
    · exact decBase64Tail_pushAll a4 result
    · split
      · rw [Buffer.pushAll_append]
        rfl
      · rfl

/-- Only the text of one byte has more characters than twice the bytes. -/
theorem encBase64Len_le_iff (n : ℕ) : encBase64Len n ≤ n * 2 ↔ n ≠ 1 := by
  unfold encBase64Len
  omega

/-- **The encoder of base64** stays inside its vector but for one byte. -/
theorem encBase64_buffered (source : List UInt8) :
    Buffered.encBase64 source = if source.length ≠ 1 then some (encBase64 source) else none := by
  have hempty := Buffer.holds_replicate (source.length * 2) '\x00'
  have hfits := encBase64Len_le_iff source.length
  rw [← length_encBase64Loop] at hfits
  simp only [Buffered.encBase64, encBase64Loop_pushAll]
  split
  · next hne =>
    obtain ⟨result, hpush, hresult⟩ := hempty.pushAll _ (by simpa using hfits.mpr hne)
    simp [hpush, hresult.filled, encBase64]
  · next hone =>
    have hfull := mt hfits.mp hone
    rw [hempty.pushAll_eq_none (by simpa using hfull)]
    rfl

theorem length_decBase64Tail_le (a4 : List Char) : (decBase64Tail a4).length ≤ a4.length := by
  simp only [decBase64Tail]
  split
  · simp
  · rw [List.length_take]
    omega

/-- No block gives more bytes than it has characters. -/
theorem length_decBase64Loop_le (text a4 : List Char) :
    (decBase64Loop text a4).length ≤ text.length + a4.length := by
  induction text generalizing a4 with
  | nil => simpa [decBase64Loop] using length_decBase64Tail_le a4
  | cons c text ih =>
    simp only [decBase64Loop]
    split
    · have := length_decBase64Tail_le a4
      rw [List.length_cons]
      omega
    · split
      · next hfull =>
        have hblock : (a4ToA3 ((a4 ++ [c]).map b64Lookup)).length = 3 := rfl
        have := ih []
        rw [List.length_append, List.length_singleton] at hfull
        rw [List.length_append, hblock, List.length_cons]
        simp only [List.length_nil] at this
        omega
      · have := ih (a4 ++ [c])
        simp only [List.length_append, List.length_cons, List.length_nil] at this ⊢
        omega

/-- **The decoder of base64** stays inside its vector. -/
theorem decBase64_buffered (text : String) : Buffered.decBase64 text = some (decBase64 text) := by
  have hempty := Buffer.holds_replicate text.toList.length (0 : UInt8)
  have hfits := length_decBase64Loop_le text.toList []
  obtain ⟨result, hpush, hresult⟩ := hempty.pushAll _ (by simpa using hfits)
  simp only [Buffered.decBase64, decBase64Loop_pushAll]
  simp [hpush, hresult.filled, decBase64]

/-! ## Digits in places -/

/-- The last `k` digits of a number, the most significant first. -/
def places : ℕ → ℕ → List ℕ
  | 0, _ => []
  | k + 1, n => places k (n / 58) ++ [n % 58]

@[simp] theorem length_places (k n : ℕ) : (places k n).length = k := by
  induction k generalizing n with
  | zero => rfl
  | succ k ih => simp [places, ih]

theorem places_zero (k : ℕ) : places k 0 = List.replicate k 0 := by
  induction k with
  | zero => rfl
  | succ k ih => rw [places, Nat.zero_div, Nat.zero_mod, ih, List.replicate_succ']

/-- Enough places hold all digits. -/
theorem places_eq {k n : ℕ} (h : n < 58 ^ k) :
    places k n = List.replicate (k - (Nat.digits 58 n).length) 0 ++ (Nat.digits 58 n).reverse := by
  induction k generalizing n with
  | zero =>
    obtain rfl : n = 0 := by simpa using h
    rfl
  | succ k ih =>
    by_cases hn : n = 0
    · simp [hn, places_zero]
    · have hdiv : n / 58 < 58 ^ k := by
        rw [Nat.div_lt_iff_lt_mul (by decide), ← pow_succ]
        exact h
      rw [places, ih hdiv, Nat.digits_def' (by decide) (Nat.pos_of_ne_zero hn)]
      simp

/-! ## Encoding base58 -/

theorem length_digits {n : ℕ} (h : n ≠ 0) :
    (Nat.digits 58 n).length = (Nat.digits 58 (n / 58)).length + 1 := by
  rw [Nat.digits_def' (by decide) (Nat.pos_of_ne_zero h), List.length_cons]

/-- The inner loop leaves the number that has taken up the byte: `n` is what is
left of the old one in front of the `i` digits that are done. -/
theorem addByte_places {k n carry i length : ℕ} (h : n * 256 + carry < 58 ^ k)
    (hlength : length - i = (Nat.digits 58 n).length) (done : List ℕ) :
    Buffered.addByte length k i carry (places k n ++ done) =
      some (places k (n * 256 + carry) ++ done, 0,
        i + (Nat.digits 58 (n * 256 + carry)).length) := by
  induction k generalizing n carry i done with
  | zero =>
    obtain ⟨rfl, rfl⟩ : n = 0 ∧ carry = 0 := by
      rw [pow_zero] at h
      omega
    rfl
  | succ k ih =>
    by_cases hzero : n * 256 + carry = 0
    · obtain ⟨rfl, rfl⟩ : n = 0 ∧ carry = 0 := by omega
      have hstop : ¬ (0 ≠ 0 ∨ i < length) := by
        rw [Nat.digits_zero, List.length_nil] at hlength
        omega
      rw [Buffered.addByte, if_neg hstop]
      simp
    · have hgo : carry ≠ 0 ∨ i < length := by
        by_cases hn : n = 0
        · exact .inl (by omega)
        · have := length_digits hn
          exact .inr (by omega)
      have hdigit : (places (k + 1) n ++ done)[k]? = some (n % 58) := by
        simp [places]
      have hassign :
          CheckedVec.assign (places (k + 1) n ++ done) k ((carry + 256 * (n % 58)) % 58) =
            some (places k (n / 58) ++ ((carry + 256 * (n % 58)) % 58 :: done)) := by
        rw [CheckedVec.assign_of_lt (by simp; omega)]
        simp [places]
      -- the quotient takes up the next carry
      have hdiv : (n * 256 + carry) / 58 = n / 58 * 256 + (carry + 256 * (n % 58)) / 58 := by omega
      have hmod : (n * 256 + carry) % 58 = (carry + 256 * (n % 58)) % 58 := by omega
      have hlt : n / 58 * 256 + (carry + 256 * (n % 58)) / 58 < 58 ^ k := by
        rw [← hdiv, Nat.div_lt_iff_lt_mul (by decide), ← pow_succ]
        exact h
      have hnext : length - (i + 1) = (Nat.digits 58 (n / 58)).length := by
        by_cases hn : n = 0
        · simp only [hn, Nat.digits_zero, List.length_nil, Nat.zero_div] at hlength ⊢
          omega
        · have := length_digits hn
          omega
      rw [Buffered.addByte, if_pos hgo]
      simp only [hdigit, hassign, Option.bind_eq_bind, Option.bind_some, ih hlt hnext]
      rw [places, hmod, hdiv, length_digits hzero, hdiv]
      simp [Nat.add_assoc, Nat.add_comm 1]

theorem le_foldl_bytes (bytes : List UInt8) (n : ℕ) :
    n ≤ bytes.foldl (fun n byte => n * 256 + byte.toNat) n := by
  induction bytes generalizing n with
  | nil => exact le_rfl
  | cons byte bytes ih => exact (show n ≤ n * 256 + byte.toNat by omega).trans (ih _)

/-- The outer loop, on a number that the places have room for. -/
theorem addBytes_places {size : ℕ} (bytes : List UInt8) {n : ℕ}
    (h : bytes.foldl (fun n byte => n * 256 + byte.toNat) n < 58 ^ size) :
    Buffered.addBytes size bytes (Nat.digits 58 n).length (places size n) =
      some (.ok (places size (bytes.foldl (fun n byte => n * 256 + byte.toNat) n),
        (Nat.digits 58 (bytes.foldl (fun n byte => n * 256 + byte.toNat) n)).length)) := by
  induction bytes generalizing n with
  | nil => rfl
  | cons byte bytes ih =>
    have hlt : n * 256 + byte.toNat < 58 ^ size := (le_foldl_bytes bytes _).trans_lt h
    have hbyte := addByte_places hlt (Nat.sub_zero (Nat.digits 58 n).length) []
    rw [List.append_nil, List.append_nil, Nat.zero_add] at hbyte
    rw [Buffered.addBytes, hbyte]
    exact ih h

/-- The text fits, with its end. -/
theorem writeText_eq {capacity zeros : ℕ} {digits : List ℕ} (hdigits : ∀ digit ∈ digits, digit < 58)
    (hroom : zeros + digits.length + 1 ≤ capacity) :
    Buffered.writeText capacity zeros digits =
      some (String.ofList (List.replicate zeros '1' ++ digits.map charOf)) := by
  have hchars : (digits.mapM fun digit => alphabet[digit]?) = some (digits.map charOf) :=
    CheckedVec.mapM_eq_some_map_iff.mpr fun digit hdigit => getElem?_alphabet (hdigits digit hdigit)
  have hempty := Buffer.holds_replicate capacity '\x00'
  obtain ⟨ones, hones, hholds₁⟩ := hempty.pushAll (List.replicate zeros '1') (by simp; omega)
  obtain ⟨full, hfull, hholds₂⟩ := hholds₁.pushAll (digits.map charOf) (by simp; omega)
  have hend : full.used < capacity := by
    rw [hholds₂.used]
    simp
    omega
  obtain ⟨ended, hended, hholds₃⟩ := hholds₂.assign_behind hholds₂.used.ge hend '\x00'
  simp only [Buffered.writeText, hones, hchars, hfull, hended, Option.bind_eq_bind,
    Option.bind_some, hholds₃.filled, List.nil_append]

/-- Neither exit is taken, and nothing is written past an array. -/
theorem encBase58_buffered {source : List UInt8} (hmin : 4 ≤ source.length)
    (hmax : source.length ≤ 64) :
    Buffered.encBase58 source = some (.ok (encBase58 source)) := by
  have hroom := length_text_lt hmin hmax
  have hsum := leading_add_length source
  have hleading : (source.takeWhile (· = 0)).length = leading source := rfl
  have hsize : encSize (source.length - leading source) = encSize (significant source).length := by
    congr 1
    omega
  have hlt : number source < 58 ^ encSize (significant source).length :=
    (Nat.digits_length_le_iff (by decide) _).mp (length_digits_le hmax)
  have hnumber : (significant source).foldl (fun n byte => n * 256 + byte.toNat) 0 =
      number source := by
    rw [number, value, List.foldl_map]
  have hbytes := addBytes_places (significant source) (hnumber.symm ▸ hlt)
  rw [hnumber, Nat.digits_zero, List.length_nil, places_zero] at hbytes
  have hsignificant : (places (encSize (significant source).length) (number source)).drop
      (encSize (significant source).length - (Nat.digits 58 (number source)).length) =
        (Nat.digits 58 (number source)).reverse := by
    rw [places_eq hlt]
    exact List.drop_left' (by simp)
  have hfits : leading source + (Nat.digits 58 (number source)).reverse.length + 1 ≤
      source.length * 2 := by
    rw [List.length_reverse]
    omega
  have htext := writeText_eq (fun digit => digit_lt) hfits
  simp only [Buffered.encBase58, hleading, hsize, drop_leading, hbytes, hsignificant,
    dropWhile_digits, Option.bind_eq_bind, Option.bind_some]
  rw [if_neg (Nat.not_lt.mpr hfits), htext, Option.map_some, Option.some.injEq,
    Except.ok.injEq, ← String.toList_inj, toList_encBase58 hmin hmax, String.toList_ofList]
  rfl

/-! ## Decoding base58 -/

theorem length_le_mulAdd (base factor carry : ℕ) (digits : List ℕ) :
    digits.length ≤ (mulAdd base factor carry digits).length := by
  induction digits generalizing carry with
  | nil => exact Nat.zero_le _
  | cons digit digits ih => exact Nat.succ_le_succ (ih _)

theorem length_le_decDigits (chars : List Char) (digits : List ℕ) :
    digits.length ≤ (decDigits chars digits).length := by
  induction chars generalizing digits with
  | nil => exact le_rfl
  | cons char chars ih =>
    rw [decDigits]
    split
    · exact le_rfl
    · exact (length_le_mulAdd 256 58 _ digits).trans (ih _)

/-- The product stands where the digits did, and the carry is what goes on. -/
theorem mulDigits_holds {n : ℕ} (front : List ℕ) {digits : List ℕ} {result : Buffer ℕ}
    (h : result.Holds n (front ++ digits)) (carry : ℕ) :
    ∃ result' low carry', mulAdd 256 58 carry digits = low ++ carryDigits 256 32 carry' ∧
      Buffered.mulDigits digits.length front.length carry result = some (result', carry') ∧
      result'.Holds n (front ++ low) := by
  induction digits generalizing front carry result with
  | nil => exact ⟨result, [], carry, rfl, rfl, h⟩
  | cons digit digits ih =>
    have hlt : front.length < (front ++ digit :: digits).length := by simp
    have hread : result.cells[front.length]? = some digit := by
      rw [h.getElem? hlt]
      simp
    obtain ⟨written, hwrite, hwritten⟩ := h.assign hlt ((carry + digit * 58) % 256)
    have hset : (front ++ digit :: digits).set front.length ((carry + digit * 58) % 256) =
        front ++ [(carry + digit * 58) % 256] ++ digits := by
      simp
    rw [hset] at hwritten
    obtain ⟨result', low, carry', hmul, hloop, hholds⟩ := ih _ hwritten ((carry + digit * 58) / 256)
    rw [List.length_append, List.length_singleton] at hloop
    refine ⟨result', (carry + digit * 58) % 256 :: low, carry', ?_, ?_, ?_⟩
    · rw [mulAdd, hmul, List.cons_append]
    · simp only [List.length_cons, Buffered.mulDigits, hread, hwrite, Option.bind_eq_bind,
        Option.bind_some, hloop]
    · simpa using hholds

/-- One character: the digits of the product, if there is room for them. -/
theorem decChar_fills {n : ℕ} {digits : List ℕ} {result : Buffer ℕ} (h : result.Holds n digits)
    (value : ℕ) :
    Buffer.Fills (Buffered.decChar value result) n (mulAdd 256 58 value digits) := by
  obtain ⟨result', low, carry', hmul, hloop, hholds⟩ := mulDigits_holds [] h value
  rw [← h.used, List.length_nil] at hloop
  rw [Buffered.decChar, hloop, hmul]
  exact hholds.fills_pushAll (carryDigits 256 32 carry')

/-- The loop over the characters fills the vector with the list model's digits. -/
theorem decDigits_fills {n : ℕ} (chars : List Char) {digits : List ℕ} {result : Buffer ℕ}
    (h : result.Holds n digits) :
    Buffer.Fills (Buffered.decDigits chars result) n (decDigits chars digits) := by
  induction chars generalizing digits result with
  | nil => exact h.fills
  | cons char chars ih =>
    simp only [Buffered.decDigits, decDigits]
    cases alphabetMap char with
    | none => exact h.fills
    | some value =>
      exact (decChar_fills h value).bind (length_le_decDigits chars _) fun result' h' => ih h'

/-- The entries from `c` on have changed places with those of the other end. -/
def Swapped (c : ℕ) (original items : List ℕ) : Prop :=
  ∀ j < original.length, items[j]? =
    if c ≤ j ∨ j + c < original.length then original[original.length - 1 - j]? else original[j]?

/-- The entries that are left in the middle stay. -/
theorem Swapped.eq_reverse {original items : List ℕ}
    (h : Swapped (original.length / 2 + original.length % 2) original items)
    (hlength : items.length = original.length) : items = original.reverse := by
  refine List.ext_getElem? fun j => ?_
  by_cases hj : j < original.length
  · rw [h j hj, List.getElem?_reverse hj]
    split
    · rfl
    · congr 1
      omega
  · have hreverse : original.reverse.length ≤ j := by
      rw [List.length_reverse]
      omega
    rw [List.getElem?_eq_none (by omega), List.getElem?_eq_none hreverse]

/-- One exchange. -/
theorem Swapped.swap {i : ℕ} {original items : List ℕ} (h : Swapped (i + 1) original items)
    (hi : i < original.length) (hmiddle : original.length / 2 + original.length % 2 ≤ i)
    (hlength : items.length = original.length) :
    ∃ k other, items[i]? = some k ∧ items[original.length - i - 1]? = some other ∧
      Swapped i original ((items.set i other).set (original.length - i - 1) k) := by
  have hlt : original.length - i - 1 < original.length := by omega
  have hk := h i hi
  have hother := h (original.length - i - 1) hlt
  rw [if_neg (by omega)] at hk hother
  refine ⟨_, _, hk.trans (List.getElem?_eq_getElem hi),
    hother.trans (List.getElem?_eq_getElem hlt), fun j hj => ?_⟩
  by_cases hend : original.length - i - 1 = j
  · subst hend
    rw [List.getElem?_set_self (by rw [List.length_set]; omega), if_pos (by omega),
      ← List.getElem?_eq_getElem hi]
    congr 1
    omega
  · rw [List.getElem?_set_ne hend]
    by_cases hhere : i = j
    · subst hhere
      rw [List.getElem?_set_self (by omega), if_pos (by omega), ← List.getElem?_eq_getElem hlt]
      congr 1
      omega
    · rw [List.getElem?_set_ne hhere, h j hj]
      have hsame : (i + 1 ≤ j ∨ j + (i + 1) < original.length) ↔
          (i ≤ j ∨ j + i < original.length) := by omega
      simp only [hsame]

/-- The exchanges turn the buffer around. -/
theorem swapEnds_holds {n c : ℕ} {original items : List ℕ} {result : Buffer ℕ}
    (h : result.Holds n items) (hlength : items.length = original.length)
    (hc : c ≤ original.length) (hmiddle : original.length / 2 + original.length % 2 ≤ c)
    (hswapped : Swapped c original items) :
    ∃ result', Buffered.swapEnds (original.length / 2 + original.length % 2) c result =
        some result' ∧ result'.Holds n original.reverse := by
  induction c generalizing items result with
  | zero =>
    refine ⟨result, rfl, ?_⟩
    rw [← Swapped.eq_reverse (by rwa [show original.length / 2 + original.length % 2 = 0 by omega])
      hlength]
    exact h
  | succ i ih =>
    by_cases hgo : original.length / 2 + original.length % 2 ≤ i
    · obtain ⟨k, other, hk, hother, hswapped'⟩ := hswapped.swap hc hgo hlength
      have hused := h.used
      have hlt : i < items.length := by omega
      obtain ⟨result₁, hwrite₁, h₁⟩ := h.assign hlt other
      have hlt₁ : original.length - i - 1 < (items.set i other).length := by
        rw [List.length_set]
        omega
      obtain ⟨result₂, hwrite₂, h₂⟩ := h₁.assign hlt₁ k
      have hused₁ := h₁.used
      rw [List.length_set] at hused₁
      obtain ⟨result', hloop, hresult'⟩ := ih h₂ (by simpa using hlength) (by omega) hgo hswapped'
      refine ⟨result', ?_, hresult'⟩
      rw [Buffered.swapEnds, if_pos hgo, h.getElem? hlt, hk, hused, hlength,
        h.getElem? (by omega), hother]
      simp only [Option.bind_eq_bind, Option.bind_some, hwrite₁, hused₁, hlength, hwrite₂, hloop]
    · have heq : original.length / 2 + original.length % 2 = i + 1 := by omega
      refine ⟨result, ?_, ?_⟩
      · rw [Buffered.swapEnds, if_neg hgo]
      · rw [← Swapped.eq_reverse (heq ▸ hswapped) hlength]
        exact h

/-- Swapping the ends reverses what the vector holds. -/
theorem swapEnds_reverse {n : ℕ} {items : List ℕ} {result : Buffer ℕ} (h : result.Holds n items) :
    ∃ result', Buffered.swapEnds (result.used / 2 + result.used % 2) result.used result =
      some result' ∧ result'.Holds n items.reverse := by
  rw [h.used]
  refine swapEnds_holds h rfl le_rfl (by omega) fun j hj => ?_
  rw [if_neg (by omega)]

/-- The decoder stays within its vector exactly if its result fits. -/
theorem decBase58_buffered {text : String} (h : text ≠ "") :
    Buffered.decBase58 text =
      if (decBase58 text).length ≤ text.toList.length then some (decBase58 text) else none := by
  have hpos : 0 < text.toList.length := List.length_pos_iff.mpr (mt String.toList_eq_nil_iff.mp h)
  have hempty := Buffer.holds_replicate text.toList.length 0
  obtain ⟨first, hfirst, hholds⟩ := hempty.push hpos 0
  rw [List.nil_append] at hholds
  have hdigits := decDigits_fills text.toList hholds
  have hzeros : Buffer.Fills
      ((Buffered.decDigits text.toList first).bind fun result =>
        result.pushAll (List.replicate (text.toList.takeWhile (· = '1')).length 0))
      text.toList.length
      (decDigits text.toList [0] ++
        List.replicate (text.toList.takeWhile (· = '1')).length 0) :=
    hdigits.bind (by simp) fun _ hresult => hresult.fills_pushAll _
  have hreverse := hzeros.bind List.length_reverse.ge fun result hresult => by
    obtain ⟨result', hswap, hholds'⟩ := swapEnds_reverse hresult
    exact hswap ▸ hholds'.fills
  have hbytes := hreverse.bind_filled (List.map UInt8.ofNat)
  rw [Option.bind_assoc, Option.bind_assoc] at hbytes
  simp only [Buffered.decBase58, hfirst, Option.bind_eq_bind, Option.bind_some, hbytes, decBase58,
    List.map_reverse, List.length_reverse, List.length_map]

/-! ## Calls -/

/-- A call of a conversion: keys and signatures are encoded in base58, and
texts to decode are not empty there. -/
inductive CodecCall where
  | encBase58 (source : List UInt8) (size : source.length = 32 ∨ source.length = 64)
  | decBase58 (text : String) (nonempty : text ≠ "")
  | encBase64 (source : List UInt8)
  | decBase64 (text : String)

/-- Nothing is written outside a buffer, and base58 is not given up. -/
def CodecCall.BuffersSuffice : CodecCall → Prop
  | .encBase58 source _ => ∃ text, Buffered.encBase58 source = some (.ok text)
  | .decBase58 text _ => ∃ bytes, Buffered.decBase58 text = some bytes
  | .encBase64 source => ∃ text, Buffered.encBase64 source = some text
  | .decBase64 text => ∃ bytes, Buffered.decBase64 text = some bytes

/-- Not one byte in base64, and not ones alone in base58. -/
def CodecCall.Fits : CodecCall → Prop
  | .decBase58 text _ => ∃ char ∈ text.toList, char ≠ '1'
  | .encBase64 source => source.length ≠ 1
  | _ => True

/-- **Buffers.** The buffers of a call suffice exactly if it is not the
encoding of one byte in base64 or the decoding of ones alone in base58. -/
theorem codecBuffers_iff (call : CodecCall) : call.BuffersSuffice ↔ call.Fits := by
  cases call with
  | encBase58 source size =>
    have hmin : 4 ≤ source.length := by omega
    have hmax : source.length ≤ 64 := by omega
    exact iff_of_true ⟨_, encBase58_buffered hmin hmax⟩ trivial
  | decBase58 text nonempty =>
    simp only [CodecCall.BuffersSuffice, CodecCall.Fits, decBase58_buffered nonempty,
      ← decInBounds_iff, decInBounds]
    split
    · next hfits => exact iff_of_true ⟨_, rfl⟩ hfits
    · next hfull => exact iff_of_false (by simp) hfull
  | encBase64 source =>
    simp only [CodecCall.BuffersSuffice, CodecCall.Fits, encBase64_buffered]
    split
    · next hfits => exact iff_of_true ⟨_, rfl⟩ hfits
    · next hfull => exact iff_of_false (by simp) hfull
  | decBase64 text => exact iff_of_true ⟨_, decBase64_buffered text⟩ trivial

/-- The text of the zero byte in base58, and a single byte in base64: both are
written past their buffers. -/
theorem codecBuffers_fail :
    Buffered.decBase58 "1" = none ∧ Buffered.encBase64 [0] = none ∧
      ¬ (CodecCall.decBase58 "1" (by decide)).BuffersSuffice ∧
      ¬ (CodecCall.encBase64 [0]).BuffersSuffice := by
  have hones : Buffered.decBase58 "1" = none := by decide +kernel
  have hbyte : Buffered.encBase64 [0] = none := by decide +kernel
  refine ⟨hones, hbyte, fun h => ?_, fun h => ?_⟩
  · obtain ⟨bytes, hbytes⟩ := h
    rw [hones] at hbytes
    cases hbytes
  · obtain ⟨text, htext⟩ := h
    rw [hbyte] at htext
    cases htext

end Synthfi.Core
