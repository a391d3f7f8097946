/-
Synthfi.Lib.Crc — cyclic redundancy checks as remainders of polynomials.

A message is a list of blocks of `w` coefficients, the highest first
(`message`). A register that takes a block at a time and keeps the remainder
by the generator `g` ends with the remainder of the message, shifted up and
with its first contents in front (`register_foldl`). Two messages that differ
by less than the degree of `g`, anywhere, have different remainders if the
lowest coefficient of `g` is a unit (`modByMonic_ne_of_burst`).

The second half is about words of bits: `reflected w n` is the word `n` of `w`
bits as a polynomial over the field of two elements, its lowest bit the
highest coefficient, as bytes come from a serial line.
-/
import Mathlib.Algebra.CharP.Two
import Mathlib.Algebra.Field.ZMod
import Mathlib.Algebra.Polynomial.Div
import Mathlib.Algebra.Polynomial.Inductions
import Mathlib.RingTheory.Coprime.Lemmas

namespace Crc

open Polynomial

/-! ## Messages -/

section Message

variable {R : Type*} [CommRing R]

/-- The polynomial of blocks of `w` coefficients, the highest first. -/
noncomputable def message (w : ℕ) (blocks : List R[X]) : R[X] :=
  blocks.foldl (fun m block => m * X ^ w + block) 0

@[simp] theorem message_nil (w : ℕ) : message w ([] : List R[X]) = 0 := rfl

theorem message_concat (w : ℕ) (blocks : List R[X]) (block : R[X]) :
    message w (blocks ++ [block]) = message w blocks * X ^ w + block := by
  rw [message, List.foldl_concat, message]

theorem message_append (w : ℕ) (front back : List R[X]) :
    message w (front ++ back) = message w front * X ^ (w * back.length) + message w back := by
  induction back using List.reverseRecOn with
  | nil => simp
  | append_singleton back block ih =>
    rw [← List.append_assoc, message_concat, ih, message_concat, List.length_append,
      List.length_singleton]
    ring

/-- Blocks of less than `w` coefficients fill no more than their places. -/
theorem degree_message_lt {w : ℕ} {blocks : List R[X]} (h : ∀ block ∈ blocks, block.degree < w) :
    (message w blocks).degree < (w * blocks.length : ℕ) := by
  induction blocks using List.reverseRecOn with
  | nil => simp
  | append_singleton blocks block ih =>
    have hblock := h block (by simp)
    have hblocks := ih fun b hb => h b (by simp [hb])
    rw [degree_lt_iff_coeff_zero] at hblock hblocks ⊢
    intro i hi
    rw [List.length_append, List.length_singleton, Nat.mul_succ] at hi
    rw [message_concat, coeff_add, coeff_mul_X_pow', hblock i (by omega), add_zero]
    split
    · exact hblocks _ (by omega)
    · rfl

/-- The last block stands in the lowest places, the others above. -/
theorem coeff_message_concat {w : ℕ} {block : R[X]} (h : block.degree < w) (blocks : List R[X])
    (i : ℕ) :
    (message w (blocks ++ [block])).coeff i =
      if i < w then block.coeff i else (message w blocks).coeff (i - w) := by
  rw [message_concat, coeff_add, coeff_mul_X_pow']
  split
  case isTrue hge =>
    rw [if_neg (by omega), degree_lt_iff_coeff_zero block w |>.mp h i hge, add_zero]
  case isFalse hlt => rw [if_pos (by omega), zero_add]

/-- The blocks of a message can be told from its polynomial. -/
theorem message_injective {w : ℕ} {blocks blocks' : List R[X]}
    (h : ∀ block ∈ blocks, block.degree < w) (h' : ∀ block ∈ blocks', block.degree < w)
    (hlength : blocks.length = blocks'.length) (heq : message w blocks = message w blocks') :
    blocks = blocks' := by
  induction blocks using List.reverseRecOn generalizing blocks' with
  | nil => exact (List.length_eq_zero_iff.mp hlength.symm).symm
  | append_singleton blocks block ih =>
    obtain ⟨blocks', block', rfl⟩ : ∃ front last, blocks' = front ++ [last] := by
      have hne : blocks' ≠ [] := by
        rintro rfl
        simp at hlength
      exact ⟨_, _, (List.dropLast_append_getLast hne).symm⟩
    have hblock : block.degree < w := h block (by simp)
    have hblock' : block'.degree < w := h' block' (by simp)
    have hcoeff := fun i => congrArg (fun m : R[X] => m.coeff i) heq
    simp only [coeff_message_concat hblock, coeff_message_concat hblock'] at hcoeff
    have hlast : block = block' := by
      ext i
      by_cases hi : i < w
      · simpa only [if_pos hi] using hcoeff i
      · rw [degree_lt_iff_coeff_zero block w |>.mp hblock i (by omega),
          degree_lt_iff_coeff_zero block' w |>.mp hblock' i (by omega)]
    have hfront : message w blocks = message w blocks' := by
      ext i
      have hup := hcoeff (i + w)
      rwa [if_neg (by omega), if_neg (by omega), Nat.add_sub_cancel] at hup
    rw [hlast, ih (fun b hb => h b (by simp [hb])) (fun b hb => h' b (by simp [hb]))
      (by simpa using hlength) hfront]

/-! ## Remainders -/

variable {g : R[X]}

/-- Contents may be reduced before they are multiplied. -/
theorem modByMonic_mul (hg : g.Monic) (p q : R[X]) : ((p %ₘ g) * q) %ₘ g = (p * q) %ₘ g := by
  apply modByMonic_eq_of_dvd_sub hg
  rw [← sub_mul]
  exact (dvd_modByMonic_sub p g).mul_right q

/-- One step of the division: the register moves up and the generator is taken
off as often as its highest place says. -/
theorem mul_X_modByMonic [Nontrivial R] (hg : g.Monic) {p : R[X]} (hp : p.degree < g.degree) :
    (p * X) %ₘ g = p * X - C (p.coeff (g.natDegree - 1)) * g := by
  have hdegree : g.degree = g.natDegree := degree_eq_natDegree hg.ne_zero
  have hzero : ∀ i, g.natDegree ≤ i → p.coeff i = 0 := by
    rwa [hdegree, degree_lt_iff_coeff_zero] at hp
  refine (div_modByMonic_unique (C (p.coeff (g.natDegree - 1))) _ hg ⟨by ring, ?_⟩).2
  rw [hdegree, degree_lt_iff_coeff_zero]
  intro i hi
  rw [coeff_sub, coeff_C_mul]
  rcases Nat.eq_or_lt_of_le hi with rfl | hlt
  · -- the highest places cancel
    rw [coeff_natDegree, hg.leadingCoeff, mul_one]
    cases hn : g.natDegree with
    | zero => rw [mul_coeff_zero, coeff_X_zero, mul_zero, hzero _ (by omega), sub_zero]
    | succ n => rw [coeff_mul_X, Nat.add_sub_cancel, sub_self]
  · obtain ⟨k, rfl⟩ : ∃ k, i = k + 1 := ⟨i - 1, by omega⟩
    rw [coeff_mul_X, hzero k (by omega), coeff_eq_zero_of_natDegree_lt hlt, mul_zero, sub_zero]

/-- **The register.** A register that takes each block at height `d` and moves
up by `w` holds the remainder of its first contents and the message. -/
theorem register_foldl {σ β : Type*} (hg : g.Monic) {register : σ → R[X]} {step : σ → β → σ}
    {block : β → R[X]} {w d : ℕ} {s : σ} (hs : register s %ₘ g = register s) {bs : List β}
    (hstep : ∀ s, ∀ b ∈ bs,
      register (step s b) = (register s * X ^ w + block b * X ^ d) %ₘ g) :
    register (bs.foldl step s) =
      (register s * X ^ (w * bs.length) + message w (bs.map block) * X ^ d) %ₘ g := by
  induction bs using List.reverseRecOn with
  | nil => simpa using hs.symm
  | append_singleton bs b ih =>
    have hbs := ih fun s b hb => hstep s b (by simp [hb])
    rw [List.foldl_concat, hstep _ b (by simp), hbs, add_modByMonic, modByMonic_mul hg,
      ← add_modByMonic, List.map_append, List.map_singleton, message_concat, List.length_append,
      List.length_singleton]
    ring_nf

/-- **Bursts.** Polynomials that differ by a multiple of a power of `X` of less
than the generator's degree have different remainders. -/
theorem modByMonic_ne_of_burst (hg : g.Monic) (hunit : IsUnit (g.coeff 0)) {m m' burst : R[X]}
    {k : ℕ} (hdiff : m - m' = burst * X ^ k) (hne : burst ≠ 0)
    (hdegree : burst.degree < g.degree) : m %ₘ g ≠ m' %ₘ g := by
  intro heq
  have hdvd : g ∣ burst * X ^ k := by
    rw [← hdiff, ← modByMonic_eq_zero_iff_dvd hg, sub_modByMonic, heq, sub_self]
  have hcoprime : IsCoprime g (X ^ k) := by
    refine IsCoprime.pow_right ?_
    obtain ⟨u, hu⟩ := hunit
    refine ⟨C (↑u⁻¹ : R), -(C (↑u⁻¹ : R) * divX g), ?_⟩
    calc C (↑u⁻¹ : R) * g + -(C (↑u⁻¹ : R) * divX g) * X
        = C (↑u⁻¹ : R) * (divX g * X + C (g.coeff 0)) - C (↑u⁻¹ : R) * divX g * X := by
          rw [divX_mul_X_add]
          ring
      _ = C (↑u⁻¹ * g.coeff 0 : R) := by
          rw [C_mul]
          ring
      _ = 1 := by rw [← hu, Units.inv_mul, C_1]
  exact hg.not_dvd_of_degree_lt hne hdegree (hcoprime.dvd_of_dvd_mul_right hdvd)

/-- Two messages of one length, with the same contents in front, that differ
within blocks of no more places than the degree of the generator. -/
theorem modByMonic_message_ne [Nontrivial R] (hg : g.Monic) (hunit : IsUnit (g.coeff 0)) {w : ℕ}
    {mid mid' : List R[X]} (h : ∀ block ∈ mid, block.degree < w)
    (h' : ∀ block ∈ mid', block.degree < w) (hlength : mid.length = mid'.length)
    (hne : mid ≠ mid') (hshort : w * mid.length ≤ g.natDegree) (contents : R[X])
    (front back : List R[X]) (d : ℕ) :
    (contents + message w (front ++ (mid ++ back)) * X ^ d) %ₘ g ≠
      (contents + message w (front ++ (mid' ++ back)) * X ^ d) %ₘ g := by
  have hdiff : contents + message w (front ++ (mid ++ back)) * X ^ d -
      (contents + message w (front ++ (mid' ++ back)) * X ^ d) =
        (message w mid - message w mid') * X ^ (w * back.length + d) := by
    simp only [message_append, List.length_append, hlength, pow_add]
    ring
  have hburst : message w mid - message w mid' ≠ 0 := fun hzero =>
    hne (message_injective h h' hlength (sub_eq_zero.mp hzero))
  have hlt : ∀ {blocks : List R[X]}, (∀ block ∈ blocks, block.degree < w) →
      blocks.length = mid.length → (message w blocks).degree < g.degree := by
    intro blocks hblocks hsame
    rw [degree_eq_natDegree hg.ne_zero]
    have hle : ((w * blocks.length : ℕ) : WithBot ℕ) ≤ (g.natDegree : ℕ) := by
      rw [hsame]
      exact_mod_cast hshort
    exact (degree_message_lt hblocks).trans_le hle
  have hdegree : (message w mid - message w mid').degree < g.degree :=
    (degree_sub_le _ _).trans_lt (max_lt (hlt h rfl) (hlt h' hlength.symm))
  exact modByMonic_ne_of_burst hg hunit hdiff hburst hdegree

end Message

/-! ## Words of bits -/

/-- A bit as an element of the field of two. -/
def bit (b : Bool) : ZMod 2 := if b then 1 else 0

@[simp] theorem bit_false : bit false = 0 := rfl

@[simp] theorem bit_true : bit true = 1 := rfl

theorem bit_xor (a b : Bool) : bit (a ^^ b) = bit a + bit b := by
  revert a b
  decide

theorem bit_injective {a b : Bool} (h : bit a = bit b) : a = b := by
  revert a b
  decide

/-- The word `n` of `w` bits, its lowest bit the highest coefficient. -/
noncomputable def reflected (w n : ℕ) : (ZMod 2)[X] :=
  ∑ j ∈ Finset.range w, C (bit (n.testBit (w - 1 - j))) * X ^ j

variable {w n m : ℕ}

theorem coeff_reflected (w n i : ℕ) :
    (reflected w n).coeff i = if i < w then bit (n.testBit (w - 1 - i)) else 0 := by
  rw [reflected, finsetSum_coeff]
  simp only [coeff_C_mul_X_pow, Finset.sum_ite_eq, Finset.mem_range]

theorem degree_reflected_lt (w n : ℕ) : (reflected w n).degree < w := by
  rw [degree_lt_iff_coeff_zero]
  intro i hi
  rw [coeff_reflected, if_neg (by omega)]

/-- Exclusive or is addition. -/
theorem reflected_xor (w n m : ℕ) : reflected w (n ^^^ m) = reflected w n + reflected w m := by
  ext i
  rw [coeff_add, coeff_reflected, coeff_reflected, coeff_reflected]
  split
  · rw [Nat.testBit_xor, bit_xor]
  · rw [add_zero]

/-- A bit past the width is not set. -/
theorem bit_testBit_of_le {i : ℕ} (hn : n < 2 ^ w) (hi : w ≤ i) : bit (n.testBit i) = 0 := by
  have hpow : 2 ^ w ≤ 2 ^ i := Nat.pow_le_pow_right (by decide) hi
  rw [Nat.testBit_lt_two_pow (hn.trans_le hpow), bit_false]

/-- A shift moves up and loses the highest coefficient. -/
theorem reflected_shiftRight (hn : n < 2 ^ w) :
    reflected w (n >>> 1) = reflected w n * X - C (bit (n.testBit 0)) * X ^ w := by
  ext i
  rw [coeff_sub, coeff_C_mul_X_pow, coeff_reflected, Nat.testBit_shiftRight]
  cases i with
  | zero =>
    rw [mul_coeff_zero, coeff_X_zero, mul_zero]
    rcases Nat.eq_zero_or_pos w with rfl | hw
    · rw [if_neg (Nat.lt_irrefl 0), if_pos rfl, bit_testBit_of_le hn (Nat.le_refl 0), sub_zero]
    · rw [if_pos hw, if_neg hw.ne, bit_testBit_of_le hn (by omega), sub_zero]
  | succ i =>
    rw [coeff_mul_X, coeff_reflected]
    rcases Nat.lt_trichotomy (i + 1) w with hlt | rfl | hgt
    · have hplace : 1 + (w - 1 - (i + 1)) = w - 1 - i := by omega
      rw [if_pos hlt, if_pos (by omega), if_neg hlt.ne, hplace, sub_zero]
    · have hplace : i + 1 - 1 - i = 0 := by omega
      rw [if_neg (Nat.lt_irrefl _), if_pos (Nat.lt_succ_self i), if_pos rfl, hplace, sub_self]
    · rw [if_neg (by omega), if_neg (by omega), if_neg hgt.ne', sub_zero]

/-- A word of few bits stands in the upper places. -/
theorem reflected_low {v : ℕ} (hn : n < 2 ^ v) (hv : v ≤ w) :
    reflected w n = reflected v n * X ^ (w - v) := by
  ext i
  rw [coeff_mul_X_pow', coeff_reflected, coeff_reflected]
  by_cases hplace : w - v ≤ i
  · rw [if_pos hplace]
    by_cases hi : i < w
    · have hsame : v - 1 - (i - (w - v)) = w - 1 - i := by omega
      rw [if_pos hi, if_pos (by omega), hsame]
    · rw [if_neg hi, if_neg (by omega)]
  · rw [if_neg hplace, if_pos (by omega), bit_testBit_of_le hn (by omega)]

theorem reflected_injective (hn : n < 2 ^ w) (hm : m < 2 ^ w)
    (h : reflected w n = reflected w m) : n = m := by
  refine Nat.eq_of_testBit_eq fun i => ?_
  by_cases hi : i < w
  · have hcoeff := congrArg (fun p : (ZMod 2)[X] => p.coeff (w - 1 - i)) h
    simp only [coeff_reflected] at hcoeff
    rw [if_pos (by omega), if_pos (by omega), Nat.sub_sub_self (by omega)] at hcoeff
    exact bit_injective hcoeff
  · apply bit_injective
    rw [bit_testBit_of_le hn (by omega), bit_testBit_of_le hm (by omega)]

end Crc
