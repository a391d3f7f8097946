/-
Synthfi.Solana.TokenMintTheorems — token mints read from their accounts.

`TokenMintAccount.layout` is the SPL format: an option is a four-byte tag and
a key. The reader gets supply, decimals and the flag right. It copies the keys
of the two options into optionals that nothing engages, so that both come back
empty, and it copies the mint authority from the byte behind the first of the
tag, three bytes too early (`copiedAuthorities_layout`).

* `tokenMint_iff` — a mint is read as it is exactly if it has neither
  authority.
-/
import Synthfi.Lib.ByteStore
import Synthfi.Solana.SolanaTypes

namespace Synthfi.Solana

open Synthfi.Core Bytes

/-! ## The format -/

/-- A four-byte tag and a key, which is zero if there is none. -/
def optionalKey (key : Option PublicKey) : List UInt8 :=
  leBytes 4 (if key.isSome then 1 else 0) ++ (key.getD (ByteArr.fill 32 0)).1

namespace TokenMintAccount

def layout (mint : TokenMintAccount) : List UInt8 :=
  optionalKey mint.mintAuthority ++ (leBytes 8 mint.supply.toNat ++
    ([mint.decimals] ++ ([if mint.isInitialized then 1 else 0] ++
      optionalKey mint.freezeAuthority)))

end TokenMintAccount

theorem optionalKey_some (key : PublicKey) :
    optionalKey (some key) = [1, 0, 0, 0] ++ key.1 := by
  have htag : leBytes 4 1 = [1, 0, 0, 0] := by decide
  rw [← htag]
  rfl

@[simp] theorem length_optionalKey (key : Option PublicKey) : (optionalKey key).length = 36 := by
  rw [optionalKey, List.length_append, length_leBytes, (key.getD _).2]

@[simp] theorem length_layout (mint : TokenMintAccount) :
    mint.layout.length = TokenMintAccount.size := by
  simp [TokenMintAccount.layout, TokenMintAccount.size]

/-- The first byte of an option says whether there is a key. -/
theorem readU8_optionalKey (key : Option PublicKey) {front back : List UInt8} {offset : ℕ}
    (h : front.length = offset) :
    (readU8 (front ++ (optionalKey key ++ back)) offset != 0) = key.isSome := by
  rw [readU8, List.getD_eq_getElem?_getD, List.getElem?_append_right h.le, h, Nat.sub_self]
  cases key <;> rfl

/-! ## The fields -/

variable (mint : TokenMintAccount)

theorem readU64_layout : readU64 mint.layout 36 = mint.supply := by
  have hread : (readAt 8 mint.layout 36).1 = leBytes 8 mint.supply.toNat :=
    readAt_append (length_optionalKey _) (length_leBytes ..)
  have hlt : mint.supply.toNat < 256 ^ 8 := mint.supply.toNat_lt
  rw [readU64, hread, leNat_leBytes, Nat.mod_eq_of_lt hlt, UInt64.ofNat_toNat]

/-- A byte behind those in front. -/
theorem readU8_append {front back : List UInt8} {byte : UInt8} {offset : ℕ}
    (h : front.length = offset) : readU8 (front ++ ([byte] ++ back)) offset = byte := by
  rw [readU8, List.getD_eq_getElem?_getD, List.getElem?_append_right h.le, h, Nat.sub_self]
  rfl

theorem readU8_decimals : readU8 mint.layout 44 = mint.decimals := by
  rw [TokenMintAccount.layout, ← List.append_assoc]
  exact readU8_append (by simp)

theorem readU8_isInitialized : (readU8 mint.layout 45 != 0) = mint.isInitialized := by
  have hbyte : readU8 mint.layout 45 = if mint.isInitialized then 1 else 0 := by
    rw [TokenMintAccount.layout, ← List.append_assoc, ← List.append_assoc]
    exact readU8_append (by simp)
  rw [hbyte]
  cases mint.isInitialized <;> rfl

/-! ## The authorities -/

/-- What is copied into the storage of the two optionals. -/
def copiedAuthorities (data : List UInt8) : Option PublicKey × Option PublicKey :=
  (if readU8 data 0 != 0 then some (readAt 32 data 1) else none,
    if readU8 data 46 != 0 then some (readAt 32 data 50) else none)

/-- A copy from behind the first byte of the tag. -/
theorem readAt_optionalKey (key : PublicKey) (back : List UInt8) :
    readAt 32 (optionalKey (some key) ++ back) 1 = readAt 32 ([0, 0, 0] ++ key.1) 0 := by
  have hdrop : (optionalKey (some key) ++ back).drop 1 = ([0, 0, 0] ++ key.1) ++ back := by
    rw [optionalKey_some]
    rfl
  have hlength : ([0, 0, 0] ++ key.1).length = 35 := by simp [key.2]
  rw [← readAt_drop 32 _ 1 0, hdrop, ← readAt_take (k := 35) (by decide),
    List.take_left' hlength]

/-- **The copies.** The freeze authority is the key; the mint authority is three
bytes of the tag and the key without its last three. -/
theorem copiedAuthorities_layout :
    copiedAuthorities mint.layout =
      (mint.mintAuthority.map fun key => readAt 32 ([0, 0, 0] ++ key.1) 0,
        mint.freezeAuthority) := by
  have hmint : (readU8 mint.layout 0 != 0) = mint.mintAuthority.isSome :=
    @readU8_optionalKey mint.mintAuthority [] _ 0 rfl
  obtain ⟨front, hfront, hlayout⟩ : ∃ front : List UInt8, front.length = 46 ∧
      mint.layout = front ++ (optionalKey mint.freezeAuthority ++ []) := by
    refine ⟨optionalKey mint.mintAuthority ++ (leBytes 8 mint.supply.toNat ++
      ([mint.decimals] ++ [if mint.isInitialized then 1 else 0])), by simp, ?_⟩
    simp [TokenMintAccount.layout]
  have hfreeze : (readU8 mint.layout 46 != 0) = mint.freezeAuthority.isSome := by
    rw [hlayout]
    exact readU8_optionalKey mint.freezeAuthority hfront
  rw [copiedAuthorities, hmint, hfreeze]
  refine Prod.ext ?_ ?_
  · cases hkey : mint.mintAuthority with
    | none => rfl
    | some key =>
      have hcopy := readAt_optionalKey key (mint.layout.drop 36)
      have hmem : optionalKey (some key) ++ mint.layout.drop 36 = mint.layout := by
        rw [TokenMintAccount.layout, hkey, List.drop_left' (length_optionalKey _)]
      rw [hmem] at hcopy
      simp [hcopy]
  · cases hkey : mint.freezeAuthority with
    | none => rfl
    | some key =>
      have htag : (front ++ [1, 0, 0, 0]).length = 50 := by simp [hfront]
      have hcopy : (readAt 32 mint.layout 50).1 = key.1 := by
        rw [hlayout, hkey, optionalKey_some, List.append_assoc, ← List.append_assoc front]
        exact readAt_append htag key.2
      simpa using Subtype.ext hcopy

/-! ## The mint -/

/-- **What is read**: always a mint, with everything but the authorities. -/
theorem accountToTokenMintAccount_layout (executable : Bool) (lamports : UInt64)
    (owner : PublicKey) :
    accountToTokenMintAccount ⟨executable, lamports, owner, mint.layout⟩ =
      .ok { mint with mintAuthority := none, freezeAuthority := none } := by
  rw [accountToTokenMintAccount, if_neg (not_not_intro (length_layout mint))]
  show Except.ok (TokenMintAccount.mk none (readU64 mint.layout 36) (readU8 mint.layout 44)
    (readU8 mint.layout 45 != 0) none) = _
  rw [readU64_layout, readU8_decimals, readU8_isInitialized]

/-- **SPL mints.** Every mint is read from its account, with its supply,
decimals and flag, and as it is exactly if it has neither authority. -/
theorem tokenMint_iff (executable : Bool) (lamports : UInt64) (owner : PublicKey) :
    (∃ read, accountToTokenMintAccount ⟨executable, lamports, owner, mint.layout⟩ = .ok read ∧
      read.supply = mint.supply ∧ read.decimals = mint.decimals ∧
      read.isInitialized = mint.isInitialized) ∧
    (accountToTokenMintAccount ⟨executable, lamports, owner, mint.layout⟩ = .ok mint ↔
      mint.mintAuthority = none ∧ mint.freezeAuthority = none) := by
  rw [accountToTokenMintAccount_layout]
  refine ⟨⟨_, rfl, rfl, rfl, rfl⟩, ?_⟩
  constructor
  · intro h
    have hread := Except.ok.inj h
    exact ⟨congrArg TokenMintAccount.mintAuthority hread.symm,
      congrArg TokenMintAccount.freezeAuthority hread.symm⟩
  · rintro ⟨hmint, hfreeze⟩
    cases mint
    cases hmint
    cases hfreeze
    rfl

/-- A stable coin that its issuer can mint and freeze. -/
def stableCoin : TokenMintAccount :=
  ⟨some (ByteArr.fill 32 1), 1000000, 6, true, some (ByteArr.fill 32 2)⟩

/-- It is read without its authorities. -/
theorem tokenMint_fails :
    accountToTokenMintAccount ⟨false, 0, ByteArr.fill 32 6, stableCoin.layout⟩ =
      .ok ⟨none, 1000000, 6, true, none⟩ ∧
    accountToTokenMintAccount ⟨false, 0, ByteArr.fill 32 6, stableCoin.layout⟩ ≠
      .ok stableCoin := by
  rw [accountToTokenMintAccount_layout]
  exact ⟨rfl, by simp [stableCoin]⟩

end Synthfi.Solana
