/-
Synthfi.Lib.Bytes — byte strings of fixed size and little-endian integers.

A byte string is a `List UInt8`. `ByteArr n` is one of exactly `n` bytes
(`std::array< std::byte, n >`), with the length as a field. `leBytes w v` is
the memory image of the low `w` bytes of `v` on a little-endian machine and
`leNat` reads such an image back.
-/
import Mathlib.Algebra.Order.Ring.Nat
import Mathlib.Data.List.TakeDrop
import Mathlib.Tactic.Common

namespace Bytes

/-! ## Fixed size -/

/-- Exactly `n` bytes. -/
abbrev ByteArr (n : ℕ) := { data : List UInt8 // data.length = n }

/-- `n` copies of one byte. -/
def ByteArr.fill (n : ℕ) (b : UInt8) : ByteArr n := ⟨List.replicate n b, List.length_replicate⟩

/-- The `n` bytes at `offset`. Past the end of the data it reads zeros; every
reader in this development checks the size first. -/
def readAt (n : ℕ) (data : List UInt8) (offset : ℕ) : ByteArr n :=
  ⟨(data.drop offset).takeD n 0, List.takeD_length ..⟩

/-! ## Little-endian integers -/

/-- The low `w` bytes of `v`, least significant first. -/
def leBytes : ℕ → ℕ → List UInt8
  | 0, _ => []
  | w + 1, v => UInt8.ofNat v :: leBytes w (v / 256)

/-- The integer whose image is the given bytes. -/
def leNat : List UInt8 → ℕ
  | [] => 0
  | b :: bs => b.toNat + 256 * leNat bs

@[simp] theorem length_leBytes (w v : ℕ) : (leBytes w v).length = w := by
  induction w generalizing v with
  | zero => rfl
  | succ w ih => rw [leBytes, List.length_cons, ih]

/-- Reading an image back gives the value, up to the width of the image. -/
theorem leNat_leBytes (w v : ℕ) : leNat (leBytes w v) = v % 256 ^ w := by
  induction w generalizing v with
  | zero => simp [leBytes, leNat, Nat.mod_one]
  | succ w ih =>
    have hpow : 256 ^ (w + 1) = 256 * 256 ^ w := by rw [pow_succ, Nat.mul_comm]
    rw [leBytes, leNat, ih, hpow, Nat.mod_mul, UInt8.toNat_ofNat']

/-- The four-byte integer at `offset`. -/
def readU32 (data : List UInt8) (offset : ℕ) : UInt32 :=
  UInt32.ofNat (leNat (readAt 4 data offset).1)

/-- The eight-byte integer at `offset`. -/
def readU64 (data : List UInt8) (offset : ℕ) : UInt64 :=
  UInt64.ofNat (leNat (readAt 8 data offset).1)

/-- The signed sixteen-byte integer at `offset`. -/
def readI128 (data : List UInt8) (offset : ℕ) : ℤ :=
  (BitVec.ofNat 128 (leNat (readAt 16 data offset).1)).toInt

/-- The byte at `offset`. -/
def readU8 (data : List UInt8) (offset : ℕ) : UInt8 := data.getD offset 0

/-- An image of zeros from `offset` on, with the given pieces at their
offsets, which increase. -/
def sparseFrom (size : ℕ) : ℕ → List (ℕ × List UInt8) → List UInt8
  | offset, [] => List.replicate (size - offset) 0
  | offset, (start, piece) :: pieces =>
    List.replicate (start - offset) 0 ++ (piece ++ sparseFrom size (start + piece.length) pieces)

def sparse (size : ℕ) (pieces : List (ℕ × List UInt8)) : List UInt8 := sparseFrom size 0 pieces

/-! ## Pieces in a row -/

theorem length_flatMap_byteArr {α : Type} {n : ℕ} (as : List α) (f : α → ByteArr n) :
    (as.flatMap fun a => (f a).1).length = as.length * n := by
  induction as with
  | nil => simp
  | cons a as ih => simp [(f a).2, ih, Nat.succ_mul, Nat.add_comm]

theorem length_le_length_flatMap {α : Type} (f : α → List UInt8) {as : List α} {a : α}
    (h : a ∈ as) : (f a).length ≤ (as.flatMap f).length := by
  induction as with
  | nil => simp at h
  | cons b as ih =>
    simp only [List.flatMap_cons, List.length_append]
    rcases List.mem_cons.mp h with rfl | h
    · omega
    · have := ih h
      omega

theorem length_le_of_pos {α β : Type} (f : α → List β) (as : List α)
    (h : ∀ a ∈ as, 0 < (f a).length) : as.length ≤ (as.flatMap f).length := by
  induction as with
  | nil => simp
  | cons a as ih =>
    simp only [List.mem_cons, forall_eq_or_imp] at h
    have := ih h.2
    simp only [List.flatMap_cons, List.length_append, List.length_cons]
    omega

/-! ## Output into a buffer of fixed size -/

/-- What has been written so far to a buffer of `capacity` bytes. -/
structure OutBuffer (capacity : ℕ) where
  written : List UInt8
  fits : written.length ≤ capacity

namespace OutBuffer

variable {capacity : ℕ}

def empty (capacity : ℕ) : OutBuffer capacity := ⟨[], Nat.zero_le _⟩

@[simp] theorem written_empty : (empty capacity).written = [] := rfl

/-- Write at the end; `none` is a write past the buffer. -/
def put (out : OutBuffer capacity) (bytes : List UInt8) : Option (OutBuffer capacity) :=
  if h : (out.written ++ bytes).length ≤ capacity then some ⟨out.written ++ bytes, h⟩ else none

/-- Move the end forward over `n` bytes that hold what they held. -/
def skip (out : OutBuffer capacity) (uninit : ℕ → UInt8) (n : ℕ) : Option (OutBuffer capacity) :=
  out.put ((List.range n).map fun k => uninit (out.written.length + k))

/-- Overwrite bytes in front of the end. -/
def patch (out : OutBuffer capacity) (start : ℕ) (bytes : List UInt8) :
    Option (OutBuffer capacity) :=
  if h : start + bytes.length ≤ out.written.length then
    some ⟨out.written.take start ++ bytes ++ out.written.drop (start + bytes.length), by
      have hfits := out.fits
      simp only [List.length_append, List.length_take, List.length_drop]
      omega⟩
  else none

theorem put_eq_some {out out' : OutBuffer capacity} {bytes : List UInt8} :
    out.put bytes = some out' ↔ out'.written = out.written ++ bytes := by
  obtain ⟨written, hfits⟩ := out'
  simp only [put, Option.dite_none_right_eq_some, Option.some.injEq, mk.injEq]
  constructor
  · rintro ⟨-, rfl⟩; rfl
  · rintro rfl; exact ⟨hfits, rfl⟩

/-- Patching replaces a middle part of the same length. -/
theorem patch_eq_some {out out' : OutBuffer capacity} {front old back bytes : List UInt8}
    (hout : out.written = front ++ (old ++ back)) (hold : old.length = bytes.length) :
    out.patch front.length bytes = some out' ↔ out'.written = front ++ (bytes ++ back) := by
  obtain ⟨written, hfits⟩ := out'
  have hle : front.length + bytes.length ≤ out.written.length := by
    simp only [hout, List.length_append]; omega
  have htake : out.written.take front.length = front := by simp [hout]
  have hdrop : out.written.drop (front.length + bytes.length) = back := by
    rw [hout, ← List.append_assoc, ← hold, ← List.length_append, List.drop_left]
  simp only [patch, dif_pos hle, htake, hdrop, Option.some.injEq, mk.injEq, List.append_assoc,
    eq_comm]

/-- Two writes in a row are one. -/
theorem put_bind_put {α : Type} (out : OutBuffer capacity) (front back : List UInt8)
    (k : OutBuffer capacity → Option α) :
    ((out.put front).bind fun out => (out.put back).bind k) = (out.put (front ++ back)).bind k := by
  by_cases h : (out.written ++ (front ++ back)).length ≤ capacity
  · have hfront : (out.written ++ front).length ≤ capacity := by
      simp only [List.length_append] at h ⊢; omega
    have hback : ((out.written ++ front) ++ back).length ≤ capacity := by
      rwa [List.append_assoc]
    have hput : out.put front = some ⟨_, hfront⟩ := dif_pos hfront
    have hput' : (⟨_, hfront⟩ : OutBuffer capacity).put back = some ⟨_, hback⟩ := dif_pos hback
    have hboth : out.put (front ++ back) = some ⟨_, h⟩ := dif_pos h
    rw [hput, Option.bind_some, hput', hboth]
    simp only [List.append_assoc]
  · have hnone : out.put (front ++ back) = none := dif_neg h
    rw [hnone]
    refine Option.bind_eq_none_iff.mpr fun mid hmid => ?_
    have hback : ¬ (mid.written ++ back).length ≤ capacity := by
      rwa [put_eq_some.mp hmid, List.append_assoc]
    rw [put, dif_neg hback]; rfl

/-- Pieces written one after the other are one write. -/
theorem foldlM_put {α : Type} (f : α → List UInt8) (as : List α) (out : OutBuffer capacity) :
    as.foldlM (fun out a => out.put (f a)) out = out.put (as.flatMap f) := by
  induction as generalizing out with
  | nil => simp [put, out.fits]
  | cons a as ih =>
    have hcons := put_bind_put out (f a) (as.flatMap f) some
    simpa [List.foldlM_cons, ih] using hcons

end OutBuffer

end Bytes
