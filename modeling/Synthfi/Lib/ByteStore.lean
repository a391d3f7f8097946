/-
Synthfi.Lib.ByteStore — writes into a byte string of fixed length.

`writeAt` overwrites bytes at an offset and refuses to write past the end.
The lemmas say what a later read sees: a read inside the bytes written, a
read beside them, and the bytes behind them.
-/
import Synthfi.Lib.Bytes
import Synthfi.Lib.Windows

namespace Bytes

/-- Overwrite the bytes at `offset`; `none` is a write past the end. -/
def writeAt (data : List UInt8) (offset : ℕ) (bytes : List UInt8) : Option (List UInt8) :=
  if offset + bytes.length ≤ data.length then some (Windows.overwrite data offset bytes) else none

/-- The `w`-byte integer at `offset`. -/
def readNat (w : ℕ) (data : List UInt8) (offset : ℕ) : ℕ := leNat (readAt w data offset).1

variable {data data' bytes : List UInt8} {offset : ℕ}

theorem writeAt_eq_some : writeAt data offset bytes = some data' ↔
    offset + bytes.length ≤ data.length ∧ Windows.overwrite data offset bytes = data' := by
  rw [writeAt, Option.ite_none_right_eq_some, Option.some.injEq]

theorem exists_writeAt (h : offset + bytes.length ≤ data.length) :
    ∃ data', writeAt data offset bytes = some data' := ⟨_, writeAt_eq_some.mpr ⟨h, rfl⟩⟩

/-- A write keeps the length. -/
theorem length_of_writeAt (h : writeAt data offset bytes = some data') :
    data'.length = data.length := by
  obtain ⟨hle, rfl⟩ := writeAt_eq_some.mp h
  exact Windows.length_overwrite hle

/-- Every byte after a write: one of those written, or the one before. -/
theorem getElem?_of_writeAt (h : writeAt data offset bytes = some data') (i : ℕ) :
    data'[i]? = if offset ≤ i ∧ i < offset + bytes.length then bytes[i - offset]?
      else data[i]? := by
  obtain ⟨hle, rfl⟩ := writeAt_eq_some.mp h
  exact Windows.getElem?_overwrite hle i

/-- Behind the bytes written nothing changes. -/
theorem drop_of_writeAt {n : ℕ} (h : writeAt data offset bytes = some data')
    (hn : offset + bytes.length ≤ n) : data'.drop n = data.drop n := by
  refine List.ext_getElem? fun i => ?_
  rw [List.getElem?_drop, List.getElem?_drop, getElem?_of_writeAt h, if_neg (by omega)]

/-! ## What a read sees -/

/-- A read, byte by byte. -/
theorem getElem?_readAt (n : ℕ) (data : List UInt8) (offset i : ℕ) :
    (readAt n data offset).1[i]? = if i < n then some (data[offset + i]?.getD 0) else none := by
  induction n generalizing offset i with
  | zero => simp [readAt]
  | succ n ih =>
    have htail : (data.drop offset).tail = data.drop (offset + 1) := List.tail_drop
    show ((data.drop offset).takeD (n + 1) 0)[i]? = _
    rw [List.takeD_succ, htail]
    cases i with
    | zero => simp [List.head?_drop]
    | succ i =>
      have hi : (readAt n data (offset + 1)).1[i]? =
          if i < n then some (data[offset + 1 + i]?.getD 0) else none := ih (offset + 1) i
      rw [List.getElem?_cons_succ]
      refine hi.trans ?_
      simp only [Nat.add_lt_add_iff_right, Nat.add_assoc, Nat.add_comm 1 i]

/-- Two reads that see the same bytes agree. -/
theorem readAt_congr {n : ℕ} {offset' : ℕ}
    (h : ∀ i < n, data'[offset' + i]?.getD 0 = data[offset + i]?.getD 0) :
    readAt n data' offset' = readAt n data offset := by
  refine Subtype.ext (List.ext_getElem? fun i => ?_)
  rw [getElem?_readAt, getElem?_readAt]
  split
  case isTrue hi => rw [h i hi]
  case isFalse => rfl

theorem readAt_drop (n : ℕ) (data : List UInt8) (start offset : ℕ) :
    readAt n (data.drop start) offset = readAt n data (start + offset) := by
  simp [readAt, List.drop_drop]

/-- A read in front of a cut. -/
theorem readAt_take {n offset k : ℕ} (h : offset + n ≤ k) (data : List UInt8) :
    readAt n (data.take k) offset = readAt n data offset := by
  refine readAt_congr fun i hi => ?_
  rw [List.getElem?_take_of_lt (by omega)]

/-- A read beside the bytes written sees what was there. -/
theorem readAt_of_writeAt_disjoint {n start : ℕ} (h : writeAt data offset bytes = some data')
    (hd : start + n ≤ offset ∨ offset + bytes.length ≤ start) :
    readAt n data' start = readAt n data start := by
  refine readAt_congr fun i hi => ?_
  rw [getElem?_of_writeAt h, if_neg (by omega)]

/-- A read inside the bytes written sees the bytes. -/
theorem readAt_of_writeAt_within {n start : ℕ} (h : writeAt data offset bytes = some data')
    (hstart : offset ≤ start) (hend : start + n ≤ offset + bytes.length) :
    readAt n data' start = readAt n bytes (start - offset) := by
  refine readAt_congr fun i hi => ?_
  rw [getElem?_of_writeAt h, if_pos (by omega)]
  congr 2
  omega

theorem readAt_zero {n : ℕ} (h : bytes.length = n) : (readAt n bytes 0).1 = bytes := by
  simp [readAt, ← h, List.takeD_eq_take]

/-- A read of the bytes that stand between others. -/
theorem readAt_append {n start : ℕ} {front back : List UInt8} (hstart : front.length = start)
    (hn : bytes.length = n) : (readAt n (front ++ (bytes ++ back)) start).1 = bytes := by
  show ((front ++ (bytes ++ back)).drop start).takeD n 0 = bytes
  rw [List.drop_left' hstart, List.takeD_eq_take _ (by simp [← hn]), List.take_left' hn]

/-- A read of zeros. -/
theorem readAt_replicate (n size start : ℕ) :
    readAt n (List.replicate size 0) start = ByteArr.fill n 0 := by
  refine Subtype.ext (List.ext_getElem? fun i => ?_)
  rw [getElem?_readAt]
  have hbyte : (List.replicate size (0 : UInt8))[start + i]?.getD 0 = 0 := by
    rw [List.getElem?_replicate]; split <;> rfl
  rw [hbyte, ByteArr.fill, List.getElem?_replicate]

@[simp] theorem leNat_replicate_zero (n : ℕ) : leNat (List.replicate n 0) = 0 := by
  induction n with
  | zero => rfl
  | succ n ih => rw [List.replicate_succ, leNat, ih]; rfl

/-- The integer read from zeros. -/
theorem readNat_replicate (w size start : ℕ) : readNat w (List.replicate size 0) start = 0 := by
  rw [readNat, readAt_replicate]
  exact leNat_replicate_zero w

theorem readNat_of_writeAt_disjoint {w start : ℕ} (h : writeAt data offset bytes = some data')
    (hd : start + w ≤ offset ∨ offset + bytes.length ≤ start) :
    readNat w data' start = readNat w data start := by
  rw [readNat, readAt_of_writeAt_disjoint h hd, readNat]

/-- An integer written is the integer read back, up to its width. -/
theorem readNat_of_writeAt {w v : ℕ} (h : writeAt data offset (leBytes w v) = some data') :
    readNat w data' offset = v % 256 ^ w := by
  have hread := readAt_of_writeAt_within (n := w) h le_rfl (by rw [length_leBytes])
  rw [readNat, hread, Nat.sub_self, readAt_zero (length_leBytes w v), leNat_leBytes]

end Bytes
