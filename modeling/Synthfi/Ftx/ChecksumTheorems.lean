/-
Synthfi.Ftx.ChecksumTheorems — the orderbook checksum is the CRC-32 of the
documented text.

The register of the loop is a polynomial of 32 coefficients with its lowest
bit the highest (`register`). One of its shifts is one step of the division by
`generator`, a byte is a block of eight, and so the loop leaves the remainder
of the text. `crc32` is that remainder, with the register full of ones at the
start and all bits turned at the end.

* `register_crc32Checksum` — the loop computes `crc32` of any ASCII text.
* `generateChecksumString_eq` — the text is the values of the first 100 levels,
  bid before ask, with `:` between them.
* `orderbookChecksum_crc32` — both together; and texts that differ within four
  bytes have different checksums.
-/
import Synthfi.Ftx.FtxUtils
import Synthfi.Lib.Crc

namespace Synthfi.Ftx

open Trading Crc Polynomial

/-! ## CRC-32 -/

/-- The polynomial whose reflected form is `0xEDB88320`. -/
noncomputable def generator : (ZMod 2)[X] := X ^ 32 + reflected 32 0xEDB88320

/-- A byte, its lowest bit first. -/
noncomputable def byteBlock (c : UInt8) : (ZMod 2)[X] := reflected 8 c.toNat

noncomputable def ones : (ZMod 2)[X] := reflected 32 0xFFFFFFFF

/-- The remainder of a text behind 32 ones, all its bits turned. -/
noncomputable def crc32 (text : List UInt8) : (ZMod 2)[X] :=
  (ones * X ^ (8 * text.length) + message 8 (text.map byteBlock) * X ^ 32) %ₘ generator + ones

theorem generator_monic : generator.Monic :=
  monic_X_pow_add (degree_reflected_lt ..)

theorem natDegree_generator : generator.natDegree = 32 := by
  have hlow : (reflected 32 0xEDB88320).degree < (X ^ 32 : (ZMod 2)[X]).degree := by
    rw [degree_X_pow]
    exact degree_reflected_lt ..
  rw [generator, natDegree_add_eq_left_of_degree_lt hlow, natDegree_X_pow]

theorem coeff_zero_generator : generator.coeff 0 = 1 := by
  rw [generator, coeff_add, coeff_X_pow, coeff_reflected, if_neg (by decide), if_pos (by decide),
    zero_add]
  decide

/-- The polynomial of the standard, written out. -/
theorem generator_eq :
    generator = X ^ 32 + X ^ 26 + X ^ 23 + X ^ 22 + X ^ 16 + X ^ 12 + X ^ 11 + X ^ 10 + X ^ 8 +
      X ^ 7 + X ^ 5 + X ^ 4 + X ^ 2 + X + 1 := by
  have hbits : ∀ j, bit ((0xEDB88320 : ℕ).testBit j) =
      if j ∈ [5, 8, 9, 15, 19, 20, 21, 23, 24, 26, 27, 29, 30, 31] then 1 else 0 := by
    intro j
    by_cases hj : j < 32
    · revert j
      decide
    · have hlt : 0xEDB88320 < 2 ^ 32 := by decide
      rw [bit_testBit_of_le hlt (by omega), if_neg]
      simp only [List.mem_cons, List.not_mem_nil, or_false]
      omega
  rw [generator, reflected]
  simp [Finset.sum_range_succ, hbits]
  ring

/-! ## The loop -/

noncomputable def register (crc : UInt32) : (ZMod 2)[X] := reflected 32 crc.toNat

theorem degree_register_lt (crc : UInt32) : (register crc).degree < generator.degree := by
  rw [degree_eq_natDegree generator_monic.ne_zero, natDegree_generator]
  exact degree_reflected_lt 32 _

theorem register_modByMonic (crc : UInt32) : register crc %ₘ generator = register crc :=
  (modByMonic_eq_self_iff generator_monic).mpr (degree_register_lt crc)

theorem register_xor (crc mask : UInt32) :
    register (crc ^^^ mask) = register crc + reflected 32 mask.toNat := by
  rw [register, UInt32.toNat_xor, reflected_xor, register]

theorem register_not (crc : UInt32) : register (~~~crc) = register crc + ones := by
  have hnot : ~~~crc = crc ^^^ -1 := by rw [UInt32.xor_comm, UInt32.neg_one_xor]
  rw [hnot, register_xor]
  rfl

/-- The low bit, as the loop tests it. -/
theorem and_one_eq_one_iff (crc : UInt32) : crc &&& 1 = 1 ↔ crc.toNat.testBit 0 = true := by
  rw [← UInt32.toNat_inj, UInt32.toNat_and, Nat.testBit_zero, decide_eq_true_iff]
  show crc.toNat &&& 1 = 1 ↔ _
  rw [Nat.and_one_is_mod]

theorem register_shiftRight (crc : UInt32) :
    register (crc >>> 1) = register crc * X - C (bit (crc.toNat.testBit 0)) * X ^ 32 := by
  have hshift : (crc >>> 1).toNat = crc.toNat >>> 1 := UInt32.toNat_shiftRight ..
  rw [register, hshift, reflected_shiftRight crc.toNat_lt, register]

/-- **One shift** is one step of the division. -/
theorem register_crc32Bit (crc : UInt32) :
    register (crc32Bit crc) = (register crc * X) %ₘ generator := by
  have htop : (register crc).coeff (generator.natDegree - 1) = bit (crc.toNat.testBit 0) := by
    rw [natDegree_generator, register, coeff_reflected, if_pos (by decide)]
  rw [mul_X_modByMonic generator_monic (degree_register_lt crc), htop, crc32Bit]
  cases hbit : crc.toNat.testBit 0 with
  | true =>
    rw [if_pos ((and_one_eq_one_iff crc).mpr hbit), register_xor, register_shiftRight, hbit,
      bit_true, C_1, one_mul, one_mul, generator, CharTwo.sub_eq_add, CharTwo.sub_eq_add,
      add_assoc]
    rfl
  | false =>
    have hnot : ¬ crc &&& 1 = 1 := by
      rw [and_one_eq_one_iff, hbit]
      decide
    rw [if_neg hnot, register_shiftRight, hbit, bit_false, C_0, zero_mul, zero_mul]

theorem register_iterate_crc32Bit (k : ℕ) (crc : UInt32) :
    register (crc32Bit^[k] crc) = (register crc * X ^ k) %ₘ generator := by
  induction k with
  | zero => rw [Function.iterate_zero_apply, pow_zero, mul_one, register_modByMonic]
  | succ k ih =>
    rw [Function.iterate_succ_apply', register_crc32Bit, ih, modByMonic_mul generator_monic,
      pow_succ, mul_assoc]

/-- **One byte**, of those whose sign does not widen. -/
theorem register_crc32Byte (crc : UInt32) {c : UInt8} (hc : c < 0x80) :
    register (crc32Byte crc c) =
      (register crc * X ^ 8 + byteBlock c * X ^ 32) %ₘ generator := by
  have hwiden : reflected 32 (charToU32 c).toNat = byteBlock c * X ^ 24 := by
    rw [charToU32, if_pos hc, UInt8.toNat_toUInt32, byteBlock]
    exact reflected_low c.toNat_lt (by decide)
  rw [crc32Byte, register_iterate_crc32Bit, register_xor, hwiden]
  ring_nf

/-- **The loop** leaves `crc32` of a text whose bytes are all ASCII. -/
theorem register_crc32Checksum {text : List UInt8} (h : ∀ c ∈ text, c < 0x80) :
    register (crc32Checksum text) = crc32 text := by
  have hbytes : ∀ crc, ∀ c ∈ text, register (crc32Byte crc c) =
      (register crc * X ^ 8 + byteBlock c * X ^ 32) %ₘ generator :=
    fun crc c hc => register_crc32Byte crc (h c hc)
  have hloop := register_foldl generator_monic (register_modByMonic 0xFFFFFFFF) hbytes
  rw [crc32Checksum, register_not, hloop, crc32]
  rfl

example : crc32Checksum "123456789".toUTF8.toList = 0xCBF43926 := by decide +kernel

theorem register_injective {crc crc' : UInt32} (h : register crc = register crc') : crc = crc' :=
  UInt32.toNat_inj.mp (reflected_injective crc.toNat_lt crc'.toNat_lt h)

/-! ## Changes -/

/-- Texts of one length that differ, and only within `k` bytes in a row. -/
def DifferWithin (k : ℕ) (text text' : List UInt8) : Prop :=
  text.length = text'.length ∧ text ≠ text' ∧
    ∃ start, ∀ i, i < start ∨ start + k ≤ i → text[i]? = text'[i]?

/-- The bytes in front of the window, in it and behind it. -/
theorem DifferWithin.split {k : ℕ} {text text' : List UInt8} (h : DifferWithin k text text') :
    ∃ front mid mid' back, text = front ++ (mid ++ back) ∧ text' = front ++ (mid' ++ back) ∧
      mid.length = mid'.length ∧ mid.length ≤ k ∧ mid ≠ mid' := by
  obtain ⟨hlength, hne, start, hsame⟩ := h
  have hfront : text'.take start = text.take start := by
    refine List.ext_getElem? fun i => ?_
    by_cases hi : i < start
    · rw [List.getElem?_take_of_lt hi, List.getElem?_take_of_lt hi, hsame i (.inl hi)]
    · rw [List.getElem?_take_eq_none (by omega), List.getElem?_take_eq_none (by omega)]
  have hback : text'.drop (start + k) = text.drop (start + k) := by
    refine List.ext_getElem? fun i => ?_
    rw [List.getElem?_drop, List.getElem?_drop, hsame _ (.inr (by omega))]
  have hsplit : ∀ t : List UInt8,
      t = t.take start ++ ((t.drop start).take k ++ t.drop (start + k)) := by
    intro t
    rw [← List.drop_drop, List.take_append_drop, List.take_append_drop]
  refine ⟨text.take start, (text.drop start).take k, (text'.drop start).take k,
    text.drop (start + k), hsplit text, ?_, ?_, by simp, fun heq => hne ?_⟩
  · rw [← hfront, ← hback]
    exact hsplit text'
  · simp [hlength]
  · rw [hsplit text, hsplit text', hfront, hback, heq]

/-- **Changed texts** within four bytes have different remainders. -/
theorem crc32_ne {text text' : List UInt8} (h : DifferWithin 4 text text') :
    crc32 text ≠ crc32 text' := by
  have hlength := h.1
  obtain ⟨front, mid, mid', back, rfl, rfl, hmid, hshort, hne⟩ := h.split
  have hblock : ∀ bytes : List UInt8, ∀ block ∈ bytes.map byteBlock, block.degree < (8 : ℕ) := by
    intro bytes block hmem
    obtain ⟨c, -, rfl⟩ := List.mem_map.mp hmem
    exact degree_reflected_lt 8 _
  have hblocks : mid.map byteBlock ≠ mid'.map byteBlock := by
    intro heq
    refine hne ((List.map_inj_right fun c c' hc => ?_).mp heq)
    exact UInt8.toNat_inj.mp (reflected_injective c.toNat_lt c'.toNat_lt hc)
  have hunit : IsUnit (generator.coeff 0) := by
    rw [coeff_zero_generator]
    exact isUnit_one
  have hdegree : 8 * (mid.map byteBlock).length ≤ generator.natDegree := by
    rw [natDegree_generator, List.length_map]
    omega
  have hremainder := modByMonic_message_ne generator_monic hunit (hblock mid) (hblock mid')
    (by simpa using hmid) hblocks hdegree
    (ones * X ^ (8 * (front ++ (mid ++ back)).length)) (front.map byteBlock) (back.map byteBlock) 32
  simp only [← List.map_append] at hremainder
  intro heq
  rw [crc32, crc32, ← hlength] at heq
  exact hremainder (add_right_cancel heq)

/-! ## The text of a book -/

/-- The text of a value: an integer gets `.0`. -/
def valueText (str : Price → List UInt8) (value : Price) : List UInt8 :=
  if value.den = 1 then str value ++ [46, 48] else str value

/-- The two values of a level, if there is one. -/
def levelTexts (str : Price → List UInt8) : Option PriceQuantity → List (List UInt8)
  | none => []
  | some level => [valueText str level.price, valueText str level.quantity]

/-- The values of the first 100 levels, at each depth bid before ask. -/
def bookTexts (str : Price → List UInt8) (book : Book) : List (List UInt8) :=
  (List.range 100).flatMap fun i =>
    levelTexts str (book.get .bid)[i]? ++ levelTexts str (book.get .ask)[i]?

/-- These, with `:` between them. -/
def bookText (str : Price → List UInt8) (book : Book) : List UInt8 :=
  [colon].intercalate (bookTexts str book)

/-- Texts with a separator behind each, but for the last. -/
theorem dropLast_flatMap_concat (separator : UInt8) (texts : List (List UInt8)) :
    (texts.flatMap (· ++ [separator])).dropLast = [separator].intercalate texts := by
  induction texts with
  | nil => rfl
  | cons text texts ih =>
    cases texts with
    | nil => simp [List.intercalate]
    | cons text' texts =>
      have hne : (text' :: texts).flatMap (· ++ [separator]) ≠ [] := by simp
      rw [List.flatMap_cons, List.dropLast_append_of_ne_nil hne, ih]
      simp [List.intercalate]

variable {str : Price → List UInt8}

theorem serializeWithTrailingZero_eq (value : Price) :
    serializeWithTrailingZero str value = valueText str value ++ [colon] := by
  rw [serializeWithTrailingZero, valueText]
  split
  · rw [List.append_assoc]
    rfl
  · rfl

theorem checksumLevel_eq (book : Book) (i : ℕ) :
    checksumLevel str book i =
      (levelTexts str (book.get .bid)[i]? ++ levelTexts str (book.get .ask)[i]?).flatMap
        (· ++ [colon]) := by
  simp only [checksumLevel, List.flatMap_append]
  congr 1
  · cases (book.get .bid)[i]? with
    | none => rfl
    | some level => simp [levelTexts, serializeWithTrailingZero_eq]
  · cases (book.get .ask)[i]? with
    | none => rfl
    | some level => simp [levelTexts, serializeWithTrailingZero_eq]

/-- Depths that add nothing may be left out. -/
theorem flatMap_range_of_nil {α : Type*} {f : ℕ → List α} {n m : ℕ} (h : n ≤ m)
    (hf : ∀ i, n ≤ i → i < m → f i = []) :
    (List.range m).flatMap f = (List.range n).flatMap f := by
  induction m, h using Nat.le_induction with
  | base => rfl
  | succ m hm ih =>
    rw [List.range_succ, List.flatMap_append, ih fun i hi hlt => hf i hi (by omega),
      List.flatMap_singleton, hf m hm (Nat.lt_succ_self m), List.append_nil]

/-- **The text** is the documented one. -/
theorem generateChecksumString_eq (book : Book) :
    generateChecksumString str book = bookText str book := by
  have hlevels : (bookTexts str book).flatMap (· ++ [colon]) =
      (List.range 100).flatMap (checksumLevel str book) := by
    rw [bookTexts, List.flatMap_assoc]
    exact List.flatMap_congr fun i _ => (checksumLevel_eq book i).symm
  have hpast : ∀ i, min 100 (max (book.get .ask).length (book.get .bid).length) ≤ i → i < 100 →
      checksumLevel str book i = [] := by
    intro i hi hlt
    have hbid : (book.get .bid)[i]? = none := List.getElem?_eq_none (by omega)
    have hask : (book.get .ask)[i]? = none := List.getElem?_eq_none (by omega)
    rw [checksumLevel_eq, hbid, hask]
    rfl
  rw [bookText, ← dropLast_flatMap_concat, hlevels,
    flatMap_range_of_nil (Nat.min_le_left ..) hpast, generateChecksumString]

/-- The decimal text of a value is ASCII. -/
def AsciiText (str : Price → List UInt8) : Prop := ∀ value, ∀ c ∈ str value, c < 0x80

theorem ascii_valueText (h : AsciiText str) (value : Price) :
    ∀ c ∈ valueText str value, c < 0x80 := by
  have hsuffix : ∀ c ∈ [46, 48], c < (0x80 : UInt8) := by
    intro c hc
    rcases List.mem_pair.mp hc with rfl | rfl <;> decide
  intro c hmem
  rw [valueText] at hmem
  split at hmem
  · exact (List.mem_append.mp hmem).elim (h value c) (hsuffix c)
  · exact h value c hmem

/-- Every text of a book is the text of a value. -/
theorem exists_of_mem_bookTexts {book : Book} {text : List UInt8}
    (h : text ∈ bookTexts str book) : ∃ value, text = valueText str value := by
  have hlevel : ∀ level, text ∈ levelTexts str level → ∃ value, text = valueText str value := by
    intro level hmem
    cases level with
    | none => cases hmem
    | some level =>
      rcases List.mem_pair.mp hmem with rfl | rfl
      · exact ⟨level.price, rfl⟩
      · exact ⟨level.quantity, rfl⟩
  obtain ⟨i, -, hmem⟩ := List.mem_flatMap.mp h
  exact (List.mem_append.mp hmem).elim (hlevel _) (hlevel _)

theorem ascii_bookText (h : AsciiText str) (book : Book) : ∀ c ∈ bookText str book, c < 0x80 := by
  have hcolon : ∀ c ∈ [colon], c < 0x80 := by
    intro c hc
    rw [List.mem_singleton.mp hc]
    decide
  intro c hmem
  rw [bookText, ← dropLast_flatMap_concat] at hmem
  obtain ⟨text, htext, hc⟩ := List.mem_flatMap.mp (List.mem_of_mem_dropLast hmem)
  obtain ⟨value, rfl⟩ := exists_of_mem_bookTexts htext
  exact (List.mem_append.mp hc).elim (ascii_valueText h value c) (hcolon c)

/-! ## The checksum of a book -/

/-- **The orderbook checksum.** For every book, of whatever lengths, it is the
CRC-32 of the documented text, and no other word is; that of an empty book is
the CRC-32 of the empty text. Two books whose texts differ, but only within
four bytes in a row, have different checksums. -/
theorem orderbookChecksum_crc32 (hstr : AsciiText str) :
    (∀ book crc, register crc = crc32 (bookText str book) ↔ crc = ftxOrderbookChecksum str book) ∧
    (∀ book, book.get .bid = [] → book.get .ask = [] →
      register (ftxOrderbookChecksum str book) = crc32 []) ∧
    ∀ book book', DifferWithin 4 (bookText str book) (bookText str book') →
      ftxOrderbookChecksum str book ≠ ftxOrderbookChecksum str book' := by
  have hbook : ∀ book, register (ftxOrderbookChecksum str book) = crc32 (bookText str book) := by
    intro book
    rw [ftxOrderbookChecksum, generateChecksumString_eq]
    exact register_crc32Checksum (ascii_bookText hstr book)
  refine ⟨fun book crc => ?_, fun book hbid hask => ?_, fun book book' hdiffer heq => ?_⟩
  · rw [← hbook]
    exact ⟨register_injective, congrArg register⟩
  · have hempty : bookText str book = [] := by
      rw [← generateChecksumString_eq, generateChecksumString, hbid, hask]
      rfl
    rw [hbook, hempty]
  · have hremainders : crc32 (bookText str book) = crc32 (bookText str book') := by
      rw [← hbook, ← hbook, heq]
    exact crc32_ne hdiffer hremainders

/-- The decimal digits of a natural number. -/
def naturalText : ℕ → ℕ → List UInt8
  | 0, _ => []
  | fuel + 1, n =>
    (if n < 10 then [] else naturalText fuel (n / 10)) ++ [UInt8.ofNat (48 + n % 10)]

theorem naturalText_ascii (fuel n : ℕ) : ∀ c ∈ naturalText fuel n, c < 0x80 := by
  induction fuel generalizing n with
  | zero => nofun
  | succ fuel ih =>
    have hdigit : ∀ d < 10, UInt8.ofNat (48 + d) < 0x80 := by decide
    intro c hmem
    rcases List.mem_append.mp hmem with hc | hc
    · split at hc
      · cases hc
      · exact ih _ c hc
    · rw [List.mem_singleton.mp hc]
      exact hdigit _ (Nat.mod_lt _ (by decide))

/-- The text of a value that is not negative and has one decimal at most. -/
def oneDecimal (value : Price) : List UInt8 :=
  naturalText 20 (value.num.toNat / value.den) ++
    if value.den = 1 then [] else 46 :: naturalText 1 (value.num.toNat * 10 / value.den)

theorem oneDecimal_ascii : AsciiText oneDecimal := by
  intro value c hmem
  rcases List.mem_append.mp hmem with hc | hc
  · exact naturalText_ascii _ _ c hc
  · split at hc
    · cases hc
    · rcases List.mem_cons.mp hc with rfl | hc
      · decide
      · exact naturalText_ascii _ _ c hc

/-- Two bids and one ask; the best price varies. -/
def bookOf (price : Price) : Book := ⟨0, 0, ⟨[⟨price, 2⟩, ⟨30, 1 / 2⟩], [⟨32, 7⟩]⟩⟩

theorem orderbookChecksum_crc32_bookOf :
    bookText oneDecimal (bookOf (63 / 2)) = "31.5:2.0:32.0:7.0:30.0:0.5".toUTF8.toList ∧
      register 3106910603 = crc32 (bookText oneDecimal (bookOf (63 / 2))) ∧
      ftxOrderbookChecksum oneDecimal (bookOf (63 / 2)) ≠
        ftxOrderbookChecksum oneDecimal (bookOf (61 / 2)) := by
  have hlength : ∀ price, price = 63 / 2 ∨ price = 61 / 2 →
      (bookText oneDecimal (bookOf price)).length = 26 := by
    rintro price (rfl | rfl) <;> decide +kernel
  have hwithin : ∀ i < 26, i < 1 ∨ 1 + 4 ≤ i →
      (bookText oneDecimal (bookOf (63 / 2)))[i]? = (bookText oneDecimal (bookOf (61 / 2)))[i]? := by
    decide +kernel
  have hdiffer : DifferWithin 4 (bookText oneDecimal (bookOf (63 / 2)))
      (bookText oneDecimal (bookOf (61 / 2))) := by
    refine ⟨(hlength _ (.inl rfl)).trans (hlength _ (.inr rfl)).symm, by decide +kernel, 1, ?_⟩
    intro i hi
    by_cases hlt : i < 26
    · exact hwithin i hlt hi
    · rw [List.getElem?_eq_none (by rw [hlength _ (.inl rfl)]; omega),
        List.getElem?_eq_none (by rw [hlength _ (.inr rfl)]; omega)]
  obtain ⟨hcrc, -, hchanged⟩ := orderbookChecksum_crc32 oneDecimal_ascii
  exact ⟨by decide +kernel, (hcrc _ _).mpr (by decide +kernel), hchanged _ _ hdiffer⟩

end Synthfi.Ftx
