/-
Synthfi.Util.Base64Theorems — bytes survive their base64 text.

A block of three bytes and its four characters are the same 24 bits
(`a3ToA4_toNat`, `a4ToA3_toNat`), and the lookup inverts the alphabet. The
last block has its missing bytes as zeros in the encoder and its missing
characters as the value -1 in the decoder; they reach only bits that are cut
off.

* `base64_round_trip` — length, characters and round trip of the text of any
  bytes.
-/
import Synthfi.Util.StringEncode

namespace Synthfi.Util

/-! ## Masks and shifts of one byte -/

theorem toNat_shiftRight_and (b : UInt8) :
    ((b &&& 0xfc) >>> 2).toNat = b.toNat / 4 ∧ ((b &&& 0xf0) >>> 4).toNat = b.toNat / 16 ∧
      ((b &&& 0xc0) >>> 6).toNat = b.toNat / 64 ∧ ((b &&& 0x30) >>> 4).toNat = b.toNat / 16 % 4 ∧
      ((b &&& 0x3c) >>> 2).toNat = b.toNat / 4 % 16 := by
  have h : ∀ n < 256,
      ((UInt8.ofNat n &&& 0xfc) >>> 2).toNat = n / 4 ∧
        ((UInt8.ofNat n &&& 0xf0) >>> 4).toNat = n / 16 ∧
        ((UInt8.ofNat n &&& 0xc0) >>> 6).toNat = n / 64 ∧
        ((UInt8.ofNat n &&& 0x30) >>> 4).toNat = n / 16 % 4 ∧
        ((UInt8.ofNat n &&& 0x3c) >>> 2).toNat = n / 4 % 16 := by decide +kernel
  simpa using h b.toNat b.toNat_lt

theorem toNat_and_shiftLeft (b : UInt8) :
    ((b &&& 0x03) <<< 4).toNat = b.toNat % 4 * 16 ∧
      ((b &&& 0x0f) <<< 2).toNat = b.toNat % 16 * 4 ∧ (b &&& 0x3f).toNat = b.toNat % 64 ∧
      (b <<< 2).toNat = b.toNat % 64 * 4 ∧ ((b &&& 0xf) <<< 4).toNat = b.toNat % 16 * 16 ∧
      ((b &&& 0x3) <<< 6).toNat = b.toNat % 4 * 64 := by
  have h : ∀ n < 256,
      ((UInt8.ofNat n &&& 0x03) <<< 4).toNat = n % 4 * 16 ∧
        ((UInt8.ofNat n &&& 0x0f) <<< 2).toNat = n % 16 * 4 ∧
        (UInt8.ofNat n &&& 0x3f).toNat = n % 64 ∧ (UInt8.ofNat n <<< 2).toNat = n % 64 * 4 ∧
        ((UInt8.ofNat n &&& 0xf) <<< 4).toNat = n % 16 * 16 ∧
        ((UInt8.ofNat n &&& 0x3) <<< 6).toNat = n % 4 * 64 := by decide +kernel
  simpa using h b.toNat b.toNat_lt

/-! ## One block -/

/-- The values of three bytes are their 24 bits, six at a time. -/
theorem a3ToA4_toNat (b₀ b₁ b₂ : UInt8) :
    (a3ToA4 [b₀, b₁, b₂]).map UInt8.toNat =
      [b₀.toNat / 4, b₀.toNat % 4 * 16 + b₁.toNat / 16, b₁.toNat % 16 * 4 + b₂.toNat / 64,
        b₂.toNat % 64] := by
  have h₀ := b₀.toNat_lt
  have h₁ := b₁.toNat_lt
  have h₂ := b₂.toNat_lt
  obtain ⟨r₀, -⟩ := toNat_shiftRight_and b₀
  obtain ⟨l₀, -⟩ := toNat_and_shiftLeft b₀
  obtain ⟨-, r₁, -⟩ := toNat_shiftRight_and b₁
  obtain ⟨-, l₁, -⟩ := toNat_and_shiftLeft b₁
  obtain ⟨-, -, r₂, -⟩ := toNat_shiftRight_and b₂
  obtain ⟨-, -, l₂, -⟩ := toNat_and_shiftLeft b₂
  have hsecond : (((b₀ &&& 0x03) <<< 4) + ((b₁ &&& 0xf0) >>> 4)).toNat =
      b₀.toNat % 4 * 16 + b₁.toNat / 16 := by
    rw [UInt8.toNat_add, l₀, r₁]
    omega
  have hthird : (((b₁ &&& 0x0f) <<< 2) + ((b₂ &&& 0xc0) >>> 6)).toNat =
      b₁.toNat % 16 * 4 + b₂.toNat / 64 := by
    rw [UInt8.toNat_add, l₁, r₂]
    omega
  show [((b₀ &&& 0xfc) >>> 2).toNat, (((b₀ &&& 0x03) <<< 4) + ((b₁ &&& 0xf0) >>> 4)).toNat,
    (((b₁ &&& 0x0f) <<< 2) + ((b₂ &&& 0xc0) >>> 6)).toNat, (b₂ &&& 0x3f).toNat] = _
  rw [r₀, hsecond, hthird, l₂]

/-- The bytes of four values; of values past 63 the upper bits are lost. -/
theorem a4ToA3_toNat (v₀ v₁ v₂ v₃ : UInt8) :
    (a4ToA3 [v₀, v₁, v₂, v₃]).map UInt8.toNat =
      [v₀.toNat % 64 * 4 + v₁.toNat / 16 % 4, v₁.toNat % 16 * 16 + v₂.toNat / 4 % 16,
        (v₂.toNat % 4 * 64 + v₃.toNat) % 256] := by
  obtain ⟨-, -, -, l₀, -⟩ := toNat_and_shiftLeft v₀
  obtain ⟨-, -, -, r₁, -⟩ := toNat_shiftRight_and v₁
  obtain ⟨-, -, -, -, l₁, -⟩ := toNat_and_shiftLeft v₁
  obtain ⟨-, -, -, -, r₂⟩ := toNat_shiftRight_and v₂
  obtain ⟨-, -, -, -, -, l₂⟩ := toNat_and_shiftLeft v₂
  have hfirst : ((v₀ <<< 2) + ((v₁ &&& 0x30) >>> 4)).toNat =
      v₀.toNat % 64 * 4 + v₁.toNat / 16 % 4 := by
    rw [UInt8.toNat_add, l₀, r₁]
    omega
  have hsecond : (((v₁ &&& 0xf) <<< 4) + ((v₂ &&& 0x3c) >>> 2)).toNat =
      v₁.toNat % 16 * 16 + v₂.toNat / 4 % 16 := by
    rw [UInt8.toNat_add, l₁, r₂]
    omega
  show [((v₀ <<< 2) + ((v₁ &&& 0x30) >>> 4)).toNat,
    (((v₁ &&& 0xf) <<< 4) + ((v₂ &&& 0x3c) >>> 2)).toNat, (((v₂ &&& 0x3) <<< 6) + v₃).toNat] = _
  rw [hfirst, hsecond, UInt8.toNat_add, l₂]

/-- Every value is the lookup of its character, which is not the padding. -/
theorem b64Lookup_b64Char {v : UInt8} (hv : v.toNat < 64) :
    b64Char v ∈ b64Alphabet ∧ b64Char v ≠ '=' ∧ b64Lookup (b64Char v) = v := by
  have h : ∀ n < 64, b64Char (UInt8.ofNat n) ∈ b64Alphabet ∧ b64Char (UInt8.ofNat n) ≠ '=' ∧
      b64Lookup (b64Char (UInt8.ofNat n)) = UInt8.ofNat n := by decide +kernel
  simpa using h v.toNat hv

/-- Bytes are equal if their numbers are. -/
theorem eq_of_map_toNat {xs ys : List UInt8} (h : xs.map UInt8.toNat = ys.map UInt8.toNat) :
    xs = ys :=
  (List.map_inj_right fun _ _ => UInt8.toNat_inj.mp).mp h

/-- **One block.** Its four values are below 64 and give the bytes back, and so
many of them as there are without the last values, whatever stands there. -/
theorem block_round_trip (b₀ b₁ b₂ : UInt8) :
    ∃ v₀ v₁ v₂ v₃, a3ToA4 [b₀, b₁, b₂] = [v₀, v₁, v₂, v₃] ∧
      (v₀.toNat < 64 ∧ v₁.toNat < 64 ∧ v₂.toNat < 64 ∧ v₃.toNat < 64) ∧
      a4ToA3 [v₀, v₁, v₂, v₃] = [b₀, b₁, b₂] ∧
      (∀ w₃, (a4ToA3 [v₀, v₁, v₂, w₃]).take 2 = [b₀, b₁]) ∧
      ∀ w₂ w₃, (a4ToA3 [v₀, v₁, w₂, w₃]).take 1 = [b₀] := by
  obtain ⟨v₀, v₁, v₂, v₃, hvalues⟩ : ∃ v₀ v₁ v₂ v₃, a3ToA4 [b₀, b₁, b₂] = [v₀, v₁, v₂, v₃] :=
    ⟨_, _, _, _, rfl⟩
  have hnumbers := a3ToA4_toNat b₀ b₁ b₂
  rw [hvalues] at hnumbers
  simp only [List.map_cons, List.map_nil, List.cons.injEq, and_true] at hnumbers
  obtain ⟨h₀, h₁, h₂, h₃⟩ := hnumbers
  have hb₀ := b₀.toNat_lt
  have hb₁ := b₁.toNat_lt
  have hb₂ := b₂.toNat_lt
  -- each byte is put together from its parts in two neighbouring values
  have hfirst : v₀.toNat % 64 * 4 + v₁.toNat / 16 % 4 = b₀.toNat := by omega
  have hsecond : v₁.toNat % 16 * 16 + v₂.toNat / 4 % 16 = b₁.toNat := by omega
  have hthird : (v₂.toNat % 4 * 64 + v₃.toNat) % 256 = b₂.toNat := by omega
  refine ⟨v₀, v₁, v₂, v₃, hvalues, by omega, ?_, fun w₃ => ?_, fun w₂ w₃ => ?_⟩
  · apply eq_of_map_toNat
    rw [a4ToA3_toNat, hfirst, hsecond, hthird]
    rfl
  · apply eq_of_map_toNat
    rw [List.map_take, a4ToA3_toNat, hfirst, hsecond]
    rfl
  · apply eq_of_map_toNat
    rw [List.map_take, a4ToA3_toNat, hfirst]
    rfl

/-! ## Texts -/

/-- Induction over the blocks of a byte string, the last of which is not full. -/
@[elab_as_elim] theorem blockInduction {motive : List UInt8 → Prop} (nil : motive [])
    (one : ∀ b₀, motive [b₀]) (two : ∀ b₀ b₁, motive [b₀, b₁])
    (block : ∀ b₀ b₁ b₂ source, motive source → motive (b₀ :: b₁ :: b₂ :: source)) :
    ∀ source, motive source
  | [] => nil
  | [b₀] => one b₀
  | [b₀, b₁] => two b₀ b₁
  | b₀ :: b₁ :: b₂ :: source =>
    block b₀ b₁ b₂ source (blockInduction nil one two block source)

theorem encBase64Loop_one (b₀ : UInt8) :
    encBase64Loop [b₀] [] = ((a3ToA4 [b₀, 0, 0]).take 2).map b64Char ++ ['=', '='] := rfl

theorem encBase64Loop_two (b₀ b₁ : UInt8) :
    encBase64Loop [b₀, b₁] [] = ((a3ToA4 [b₀, b₁, 0]).take 3).map b64Char ++ ['='] := rfl

theorem encBase64Loop_block (b₀ b₁ b₂ : UInt8) (source : List UInt8) :
    encBase64Loop (b₀ :: b₁ :: b₂ :: source) [] =
      (a3ToA4 [b₀, b₁, b₂]).map b64Char ++ encBase64Loop source [] := rfl

theorem decBase64Loop_block {c₀ c₁ c₂ c₃ : Char} (h₀ : c₀ ≠ '=') (h₁ : c₁ ≠ '=') (h₂ : c₂ ≠ '=')
    (h₃ : c₃ ≠ '=') (text : List Char) :
    decBase64Loop (c₀ :: c₁ :: c₂ :: c₃ :: text) [] =
      a4ToA3 ([c₀, c₁, c₂, c₃].map b64Lookup) ++ decBase64Loop text [] := by
  simp [decBase64Loop, h₀, h₁, h₂, h₃]

/-- The last block is looked up as far as there are characters. -/
theorem decBase64Loop_one {c₀ c₁ : Char} (h₀ : c₀ ≠ '=') (h₁ : c₁ ≠ '=') (text : List Char) :
    decBase64Loop (c₀ :: c₁ :: '=' :: text) [] =
      (a4ToA3 [b64Lookup c₀, b64Lookup c₁, -1, -1]).take 1 := by
  simp only [decBase64Loop, if_neg h₀, if_neg h₁]
  rfl

theorem decBase64Loop_two {c₀ c₁ c₂ : Char} (h₀ : c₀ ≠ '=') (h₁ : c₁ ≠ '=') (h₂ : c₂ ≠ '=')
    (text : List Char) :
    decBase64Loop (c₀ :: c₁ :: c₂ :: '=' :: text) [] =
      (a4ToA3 [b64Lookup c₀, b64Lookup c₁, b64Lookup c₂, -1]).take 2 := by
  simp only [decBase64Loop, if_neg h₀, if_neg h₁, if_neg h₂]
  rfl

theorem encBase64Len_add_three (n : ℕ) : encBase64Len (n + 3) = encBase64Len n + 4 := by
  unfold encBase64Len
  omega

theorem length_encBase64Loop (source : List UInt8) :
    (encBase64Loop source []).length = encBase64Len source.length := by
  induction source using blockInduction with
  | nil => rfl
  | one b₀ =>
    show 4 = encBase64Len 1
    decide
  | two b₀ b₁ =>
    show 4 = encBase64Len 2
    decide
  | block b₀ b₁ b₂ source ih =>
    rw [encBase64Loop_block, List.length_append, ih]
    show 4 + _ = encBase64Len (source.length + 3)
    rw [encBase64Len_add_three, Nat.add_comm]

/-- Characters of the alphabet, with at most two `=` behind them. -/
def Padded (text : List Char) : Prop :=
  ∃ body pads, text = body ++ List.replicate pads '=' ∧ pads ≤ 2 ∧ ∀ char ∈ body, char ∈ b64Alphabet

/-- Characters of a block in front of such a text. -/
theorem Padded.append {text : List Char} (h : Padded text) {chars : List Char}
    (hchars : ∀ char ∈ chars, char ∈ b64Alphabet) : Padded (chars ++ text) := by
  obtain ⟨body, pads, rfl, hpads, hbody⟩ := h
  refine ⟨chars ++ body, pads, (List.append_assoc ..).symm, hpads, fun char hmem => ?_⟩
  exact (List.mem_append.mp hmem).elim (hchars char) (hbody char)

theorem mem_alphabet_of_values {values : List UInt8} (h : ∀ v ∈ values, v.toNat < 64) :
    ∀ char ∈ values.map b64Char, char ∈ b64Alphabet := by
  intro char hmem
  obtain ⟨v, hv, rfl⟩ := List.mem_map.mp hmem
  exact (b64Lookup_b64Char (h v hv)).1

theorem padded_encBase64Loop (source : List UInt8) : Padded (encBase64Loop source []) := by
  induction source using blockInduction with
  | nil => exact ⟨[], 0, rfl, by decide, nofun⟩
  | one b₀ =>
    obtain ⟨v₀, v₁, v₂, v₃, hvalues, hlt, -⟩ := block_round_trip b₀ 0 0
    rw [encBase64Loop_one, hvalues]
    exact ⟨_, 2, rfl, by decide, mem_alphabet_of_values (by simp; omega)⟩
  | two b₀ b₁ =>
    obtain ⟨v₀, v₁, v₂, v₃, hvalues, hlt, -⟩ := block_round_trip b₀ b₁ 0
    rw [encBase64Loop_two, hvalues]
    exact ⟨_, 1, rfl, by decide, mem_alphabet_of_values (by simp; omega)⟩
  | block b₀ b₁ b₂ source ih =>
    obtain ⟨v₀, v₁, v₂, v₃, hvalues, hlt, -⟩ := block_round_trip b₀ b₁ b₂
    rw [encBase64Loop_block, hvalues]
    exact ih.append (mem_alphabet_of_values (by simp; omega))

theorem decBase64Loop_encBase64Loop (source : List UInt8) :
    decBase64Loop (encBase64Loop source []) [] = source := by
  induction source using blockInduction with
  | nil => rfl
  | one b₀ =>
    obtain ⟨v₀, v₁, v₂, v₃, hvalues, ⟨hv₀, hv₁, -⟩, -, -, hone⟩ := block_round_trip b₀ 0 0
    obtain ⟨-, hne₀, hback₀⟩ := b64Lookup_b64Char hv₀
    obtain ⟨-, hne₁, hback₁⟩ := b64Lookup_b64Char hv₁
    rw [encBase64Loop_one, hvalues]
    show decBase64Loop (b64Char v₀ :: b64Char v₁ :: '=' :: _) [] = _
    rw [decBase64Loop_one hne₀ hne₁, hback₀, hback₁, hone]
  | two b₀ b₁ =>
    obtain ⟨v₀, v₁, v₂, v₃, hvalues, ⟨hv₀, hv₁, hv₂, -⟩, -, htwo, -⟩ := block_round_trip b₀ b₁ 0
    obtain ⟨-, hne₀, hback₀⟩ := b64Lookup_b64Char hv₀
    obtain ⟨-, hne₁, hback₁⟩ := b64Lookup_b64Char hv₁
    obtain ⟨-, hne₂, hback₂⟩ := b64Lookup_b64Char hv₂
    rw [encBase64Loop_two, hvalues]
    show decBase64Loop (b64Char v₀ :: b64Char v₁ :: b64Char v₂ :: '=' :: _) [] = _
    rw [decBase64Loop_two hne₀ hne₁ hne₂, hback₀, hback₁, hback₂, htwo]
  | block b₀ b₁ b₂ source ih =>
    obtain ⟨v₀, v₁, v₂, v₃, hvalues, ⟨hv₀, hv₁, hv₂, hv₃⟩, hall, -⟩ := block_round_trip b₀ b₁ b₂
    obtain ⟨-, hne₀, hback₀⟩ := b64Lookup_b64Char hv₀
    obtain ⟨-, hne₁, hback₁⟩ := b64Lookup_b64Char hv₁
    obtain ⟨-, hne₂, hback₂⟩ := b64Lookup_b64Char hv₂
    obtain ⟨-, hne₃, hback₃⟩ := b64Lookup_b64Char hv₃
    rw [encBase64Loop_block, hvalues]
    show decBase64Loop (b64Char v₀ :: b64Char v₁ :: b64Char v₂ :: b64Char v₃ ::
      encBase64Loop source []) [] = _
    rw [decBase64Loop_block hne₀ hne₁ hne₂ hne₃, ih]
    simp only [List.map_cons, List.map_nil, hback₀, hback₁, hback₂, hback₃, hall]
    rfl

/-- **Base64.** The text of any bytes has the length announced, is made of
characters of the alphabet with at most two `=` behind them, and gives the
bytes back. -/
theorem base64_round_trip (source : List UInt8) :
    (encBase64 source).length = encBase64Len source.length ∧ Padded (encBase64 source).toList ∧
      decBase64 (encBase64 source) = source := by
  have hchars : (encBase64 source).toList = encBase64Loop source [] := String.toList_ofList
  rw [← String.length_toList, decBase64, hchars]
  exact ⟨length_encBase64Loop source, padded_encBase64Loop source,
    decBase64Loop_encBase64Loop source⟩

end Synthfi.Util
