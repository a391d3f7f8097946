/-
Synthfi.Lib.Format — binary formats that carry their own round trip.

A `Format α` is an encoder, a decoder that also returns the unread bytes,
and two laws. `decode_encode`: what the encoder writes for a valid value is
read back, whatever follows it. `encode_decode`: the decoder accepts nothing
but the encoding of a valid value. A grammar built from the combinators
below therefore has exactly one encoding for each value it accepts.
-/
import Synthfi.Lib.Bytes

namespace Bytes

structure Format (α : Type) where
  valid : α → Prop
  encode : α → List UInt8
  decode : List UInt8 → Option (α × List UInt8)
  decode_encode : ∀ a rest, valid a → decode (encode a ++ rest) = some (a, rest)
  encode_decode : ∀ bytes a rest, decode bytes = some (a, rest) →
    valid a ∧ bytes = encode a ++ rest

namespace Format

variable {α β : Type}

/-- Input that is read to its end is the encoding. -/
theorem decode_eq_some_nil (p : Format α) {bytes : List UInt8} {a : α} (ha : p.valid a) :
    p.decode bytes = some (a, []) ↔ bytes = p.encode a := by
  constructor
  · intro h
    simpa using (p.encode_decode bytes a [] h).2
  · rintro rfl
    simpa using p.decode_encode a [] ha

/-! ## Bytes -/

/-- One byte. -/
def byte : Format UInt8 where
  valid _ := True
  encode b := [b]
  decode
    | [] => none
    | b :: rest => some (b, rest)
  decode_encode b rest _ := rfl
  encode_decode bytes b rest h := by
    cases bytes with
    | nil => simp at h
    | cons c bytes => simp_all

/-- One byte, as a number. -/
def u8 : Format ℕ where
  valid n := n < 256
  encode n := [UInt8.ofNat n]
  decode
    | [] => none
    | b :: rest => some (b.toNat, rest)
  decode_encode n rest h := by
    simp [Nat.mod_eq_of_lt h]
  encode_decode bytes n rest h := by
    cases bytes with
    | nil => simp at h
    | cons c bytes =>
      simp only [Option.some.injEq, Prod.mk.injEq] at h
      obtain ⟨rfl, rfl⟩ := h
      exact ⟨c.toNat_lt, by simp⟩

/-- Exactly `n` bytes. -/
def fixed (n : ℕ) : Format (ByteArr n) where
  valid _ := True
  encode a := a.1
  decode bytes :=
    if h : (bytes.take n).length = n then some (⟨bytes.take n, h⟩, bytes.drop n) else none
  decode_encode a rest _ := by
    have htake : (a.1 ++ rest).take n = a.1 := List.take_left' a.2
    have hdrop : (a.1 ++ rest).drop n = rest := List.drop_left' a.2
    simp [htake, hdrop, a.2]
  encode_decode bytes a rest h := by
    split at h
    · simp only [Option.some.injEq, Prod.mk.injEq] at h
      obtain ⟨rfl, rfl⟩ := h
      simp
    · simp at h

/-! ## Combinators -/

/-- One value after another. -/
def pair (p : Format α) (q : Format β) : Format (α × β) where
  valid ab := p.valid ab.1 ∧ q.valid ab.2
  encode ab := p.encode ab.1 ++ q.encode ab.2
  decode bytes := do
    let (a, bytes) ← p.decode bytes
    let (b, bytes) ← q.decode bytes
    some ((a, b), bytes)
  decode_encode ab rest h := by
    simp [p.decode_encode ab.1 _ h.1, q.decode_encode ab.2 _ h.2]
  encode_decode bytes ab rest h := by
    simp only [Option.bind_eq_bind, Option.bind_eq_some_iff, Prod.exists, Option.some.injEq,
      Prod.mk.injEq] at h
    obtain ⟨a, bytes', hp, b, bytes'', hq, rfl, rfl⟩ := h
    obtain ⟨ha, rfl⟩ := p.encode_decode _ _ _ hp
    obtain ⟨hb, rfl⟩ := q.encode_decode _ _ _ hq
    simp [ha, hb]

/-- The same bytes under another type. -/
def map (e : α ≃ β) (p : Format α) : Format β where
  valid b := p.valid (e.symm b)
  encode b := p.encode (e.symm b)
  decode bytes := (p.decode bytes).map fun r => (e r.1, r.2)
  decode_encode b rest h := by simp [p.decode_encode _ rest h]
  encode_decode bytes b rest h := by
    simp only [Option.map_eq_some_iff, Prod.exists, Prod.mk.injEq] at h
    obtain ⟨a, bytes', hp, rfl, rfl⟩ := h
    simpa using p.encode_decode _ _ _ hp

/-- `n` values in a row. -/
def decodeMany (p : Format α) : ℕ → List UInt8 → Option (List α × List UInt8)
  | 0, bytes => some ([], bytes)
  | n + 1, bytes => do
    let (a, bytes) ← p.decode bytes
    let (as, bytes) ← decodeMany p n bytes
    some (a :: as, bytes)

theorem decodeMany_flatMap (p : Format α) (as : List α) (rest : List UInt8)
    (h : ∀ a ∈ as, p.valid a) :
    p.decodeMany as.length (as.flatMap p.encode ++ rest) = some (as, rest) := by
  induction as with
  | nil => rfl
  | cons a as ih =>
    simp only [List.mem_cons, forall_eq_or_imp] at h
    simp [decodeMany, p.decode_encode a _ h.1, ih h.2]

theorem flatMap_decodeMany (p : Format α) {n : ℕ} {bytes rest : List UInt8} {as : List α}
    (h : p.decodeMany n bytes = some (as, rest)) :
    as.length = n ∧ (∀ a ∈ as, p.valid a) ∧ bytes = as.flatMap p.encode ++ rest := by
  induction n generalizing bytes as with
  | zero =>
    simp only [decodeMany, Option.some.injEq, Prod.mk.injEq] at h
    obtain ⟨rfl, rfl⟩ := h
    simp
  | succ n ih =>
    simp only [decodeMany, Option.bind_eq_bind, Option.bind_eq_some_iff, Prod.exists,
      Option.some.injEq, Prod.mk.injEq] at h
    obtain ⟨a, bytes', hp, as', bytes'', hmany, rfl, rfl⟩ := h
    obtain ⟨ha, rfl⟩ := p.encode_decode _ _ _ hp
    obtain ⟨hlen, hall, rfl⟩ := ih hmany
    simp [hlen, ha]
    exact hall

/-- A count and that many values. -/
def counted (count : Format ℕ) (p : Format α) : Format (List α) where
  valid as := count.valid as.length ∧ ∀ a ∈ as, p.valid a
  encode as := count.encode as.length ++ as.flatMap p.encode
  decode bytes := do
    let (n, bytes) ← count.decode bytes
    p.decodeMany n bytes
  decode_encode as rest h := by
    simp [count.decode_encode _ _ h.1, p.decodeMany_flatMap as rest h.2]
  encode_decode bytes as rest h := by
    simp only [Option.bind_eq_bind, Option.bind_eq_some_iff, Prod.exists] at h
    obtain ⟨n, bytes', hcount, hmany⟩ := h
    obtain ⟨hn, rfl⟩ := count.encode_decode _ _ _ hcount
    obtain ⟨rfl, hall, rfl⟩ := p.flatMap_decodeMany hmany
    exact ⟨⟨hn, hall⟩, by simp⟩

/-! ## Compact 16-bit counts -/

/-- Seven bits a byte, lowest first, the high bit set on every byte but the
last; at most three bytes, and no byte more than the value needs. -/
def compactU16 : Format ℕ where
  valid n := n < 65536
  encode n :=
    if n < 128 then [UInt8.ofNat n]
    else if n < 16384 then [UInt8.ofNat (n % 128 + 128), UInt8.ofNat (n / 128)]
    else [UInt8.ofNat (n % 128 + 128), UInt8.ofNat (n / 128 % 128 + 128), UInt8.ofNat (n / 16384)]
  decode
    | [] => none
    | b₀ :: rest =>
      if b₀.toNat < 128 then some (b₀.toNat, rest)
      else
        match rest with
        | [] => none
        | b₁ :: rest =>
          if b₁.toNat = 0 then none
          else if b₁.toNat < 128 then some (b₀.toNat - 128 + 128 * b₁.toNat, rest)
          else
            match rest with
            | [] => none
            | b₂ :: rest =>
              if b₂.toNat = 0 ∨ 4 ≤ b₂.toNat then none
              else
                some (b₀.toNat - 128 + 128 * (b₁.toNat - 128) + 16384 * b₂.toNat, rest)
  decode_encode n rest h := by
    by_cases h1 : n < 128
    · simp [h1, Nat.mod_eq_of_lt (by omega : n < 256)]
    have hlow : (n % 128 + 128) % 256 = n % 128 + 128 := Nat.mod_eq_of_lt (by omega)
    by_cases h2 : n < 16384
    · have hmid : n / 128 % 256 = n / 128 := Nat.mod_eq_of_lt (by omega)
      simp only [h1, h2, if_true, if_false, List.cons_append, List.nil_append,
        UInt8.toNat_ofNat', Nat.reducePow, hlow, hmid]
      rw [if_neg (by omega), if_neg (by omega), if_pos (by omega)]
      simp only [Option.some.injEq, Prod.mk.injEq, and_true]
      omega
    · have hmid : (n / 128 % 128 + 128) % 256 = n / 128 % 128 + 128 :=
        Nat.mod_eq_of_lt (by omega)
      have hhigh : n / 16384 % 256 = n / 16384 := Nat.mod_eq_of_lt (by omega)
      simp only [h1, h2, if_false, List.cons_append, List.nil_append, UInt8.toNat_ofNat',
        Nat.reducePow, hlow, hmid, hhigh]
      rw [if_neg (by omega), if_neg (by omega), if_neg (by omega), if_neg (by omega)]
      simp only [Option.some.injEq, Prod.mk.injEq, and_true]
      omega
  encode_decode bytes n rest h := by
    have hbyte (b : UInt8) (m : ℕ) (hm : m = b.toNat) : UInt8.ofNat m = b := by simp [hm]
    rcases bytes with _ | ⟨b₀, bytes⟩
    · simp at h
    have h0 := b₀.toNat_lt
    simp only at h
    split at h
    · next h1 =>
      simp only [Option.some.injEq, Prod.mk.injEq] at h
      obtain ⟨rfl, rfl⟩ := h
      simp [h1]
      omega
    next h1 =>
    rcases bytes with _ | ⟨b₁, bytes⟩
    · simp at h
    have hb1 := b₁.toNat_lt
    simp only at h
    split at h
    · simp at h
    next hz1 =>
    split at h
    · next h2 =>
      simp only [Option.some.injEq, Prod.mk.injEq] at h
      obtain ⟨rfl, rfl⟩ := h
      rw [if_neg (by omega), if_pos (by omega), hbyte b₀ _ (by omega), hbyte b₁ _ (by omega)]
      exact ⟨by omega, rfl⟩
    next h2 =>
    rcases bytes with _ | ⟨b₂, bytes⟩
    · simp at h
    simp only at h
    split at h
    · simp at h
    next h3 =>
    simp only [Option.some.injEq, Prod.mk.injEq] at h
    obtain ⟨rfl, rfl⟩ := h
    rw [if_neg (by omega), if_neg (by omega), hbyte b₀ _ (by omega), hbyte b₁ _ (by omega),
      hbyte b₂ _ (by omega)]
    exact ⟨by omega, rfl⟩

end Format

end Bytes
