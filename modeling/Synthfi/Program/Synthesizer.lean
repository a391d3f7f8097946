/-
Synthfi.Program.Synthesizer — the on-chain program
(`program/src/synthesizer/synthesizer.{h,c}`).

The accounts of the chain are a map from keys to owners and data. An
invocation names some of them, any key any number of times, and the program
reads and writes their data through casted pointers: a field is a read or a
store at its offset. A store past the end of an account's data has no
result.
-/
import Synthfi.Core.KeyPair
import Synthfi.Lib.ByteStore
import Mathlib.Logic.Function.Basic

namespace Synthfi.Program

open Bytes

abbrev SolPubkey := Synthfi.Core.PublicKey

inductive Result where
  | success
  | errorInvalidArgument
  deriving DecidableEq, Repr

structure Account where
  owner : SolPubkey
  data : List UInt8
  deriving DecidableEq, Repr

abbrev Ledger := SolPubkey → Account

/-- What `sol_deserialize` delivers. A repeated account is a copy of the entry
it repeats, so the flags belong to the key. `accounts` has `ka_num` entries,
of which the program keeps the first three. -/
structure SolParameters where
  accounts : List SolPubkey
  isSigner : SolPubkey → Bool
  isWritable : SolPubkey → Bool
  data : List UInt8
  programId : SolPubkey

def synthfiMagic : ℕ := 0x464e5953

def synthfiVersion1 : ℕ := 1

def acctypeTable : ℕ := 1

def acctypeProduct : ℕ := 2

def acctypeDeposit : ℕ := 3

/-! ## Layouts -/

/-- `synthfi_account_t`, the header all accounts share. -/
def magic (data : List UInt8) : ℕ := readNat 4 data 0

def version (data : List UInt8) : ℕ := readNat 4 data 4

def acctype (data : List UInt8) : ℕ := readNat 4 data 8

def size (data : List UInt8) : ℕ := readNat 4 data 12

def sizeofProductTable : ℕ := 280

def sizeofProduct : ℕ := 2208

def sizeofDepositAccount : ℕ := 96

/-- A structure that ends in a list of the accounts below it: where the count
and the keys are, the accounts it lists, and the `size` it records for a
count. Count and keys lie behind the header, one after the other. -/
structure LinkLayout where
  structSize : ℕ
  acctype : ℕ
  countAt : ℕ
  countWidth : ℕ
  keysAt : ℕ
  maxCount : ℕ
  populated : ℕ → ℕ
  childSize : ℕ
  childAcctype : ℕ
  header_le : 16 ≤ countAt
  count_le : countAt + countWidth ≤ keysAt
  keys_le : keysAt + 32 * maxCount ≤ structSize
  maxCount_lt : maxCount < 256 ^ countWidth
  child_header_le : 16 ≤ childSize

/-- `synthfi_product_table_t`: `productCount` and `products`. -/
def productTable : LinkLayout where
  structSize := sizeofProductTable
  acctype := acctypeTable
  countAt := 16
  countWidth := 4
  keysAt := 24
  maxCount := 8
  populated := fun count => sizeofProductTable - 32 * 8 + count * 32
  childSize := sizeofProduct
  childAcctype := acctypeProduct
  header_le := by decide
  count_le := by decide
  keys_le := by decide
  maxCount_lt := by decide
  child_header_le := by decide

/-- `synthfi_product_t`: `depositAccountCount` and `depositAccounts`. The size
starts from that of a deposit account, which is smaller than the list taken
off it, so it wraps around in `size_t`. -/
def product : LinkLayout where
  structSize := sizeofProduct
  acctype := acctypeProduct
  countAt := 18
  countWidth := 2
  keysAt := 160
  maxCount := 64
  populated := fun count => (2 ^ 64 + sizeofDepositAccount - 32 * 64 + count * 32) % 2 ^ 64
  childSize := sizeofDepositAccount
  childAcctype := acctypeDeposit
  header_le := by decide
  count_le := by decide
  keys_le := by decide
  maxCount_lt := by decide
  child_header_le := by decide

namespace LinkLayout

variable (layout : LinkLayout)

def count (data : List UInt8) : ℕ := readNat layout.countWidth data layout.countAt

def key (data : List UInt8) (i : ℕ) : SolPubkey := readAt 32 data (layout.keysAt + 32 * i)

def keys (data : List UInt8) : List SolPubkey :=
  (List.range (layout.count data)).map (layout.key data)

end LinkLayout

/-! ## Stores -/

/-- Clear a structure of `structSize` bytes and write its header. -/
def initAccount (structSize version acctype size : ℕ) (data : List UInt8) :
    Option (List UInt8) := do
  let data ← writeAt data 0 (List.replicate structSize 0)
  let data ← writeAt data 0 (leBytes 4 synthfiMagic)
  let data ← writeAt data 4 (leBytes 4 version)
  let data ← writeAt data 8 (leBytes 4 acctype)
  writeAt data 12 (leBytes 4 size)

/-- Count a key in at the end of the list. -/
def LinkLayout.addLink (layout : LinkLayout) (child : SolPubkey) (data : List UInt8) :
    Option (List UInt8) := do
  let count := layout.count data
  let data ← writeAt data layout.countAt (leBytes layout.countWidth (count + 1))
  let data ← writeAt data (layout.keysAt + 32 * count) child.1
  writeAt data 12 (leBytes 4 (layout.populated (layout.count data)))

/-- Stores through a pointer to the data of the account at `k`. -/
def Ledger.modify (l : Ledger) (k : SolPubkey) (stores : List UInt8 → Option (List UInt8)) :
    Option Ledger :=
  (stores (l k).data).map fun data => Function.update l k { l k with data }

/-! ## Instructions -/

/-- `command_header_t`, at the start of the instruction data. -/
def headerVersion (prm : SolParameters) : ℕ := readNat 4 prm.data 0

def headerCommand (prm : SolParameters) : ℕ := readNat 4 prm.data 4

def validFundingAccount (prm : SolParameters) (k : SolPubkey) : Bool :=
  prm.isSigner k && prm.isWritable k

def validSignableAccount (prm : SolParameters) (l : Ledger) (k : SolPubkey) (dlen : ℕ) : Bool :=
  prm.isSigner k && prm.isWritable k && (l k).owner == prm.programId &&
    decide (dlen ≤ (l k).data.length)

/-- The result of a call; `none` when a store had no place to go. -/
abbrev Outcome := Option (Result × Ledger)

def reject (l : Ledger) : Outcome := some (.errorInvalidArgument, l)

def initSynthfi (prm : SolParameters) (l : Ledger) : Outcome :=
  match prm.accounts with
  | funding :: table :: _ =>
    if ¬ (validFundingAccount prm funding ∧
        validSignableAccount prm l table sizeofProductTable) then reject l
    else if magic (l table).data ≠ 0 ∨ version (l table).data ≠ 0 then reject l
    else do
      let l ← l.modify table
        (initAccount sizeofProductTable (headerVersion prm) acctypeTable (productTable.populated 0))
      return (.success, l)
  | _ => reject l

/-- `init_product` and `init_deposit_account`: the second account is the one
that lists, the third the new one. -/
def initLinked (layout : LinkLayout) (prm : SolParameters) (l : Ledger) : Outcome :=
  match prm.accounts with
  | funding :: parent :: child :: _ =>
    if ¬ (validFundingAccount prm funding ∧
        validSignableAccount prm l parent layout.structSize ∧
        validSignableAccount prm l child layout.childSize) then reject l
    else if magic (l parent).data ≠ synthfiMagic ∨
        version (l parent).data ≠ headerVersion prm ∨
        acctype (l parent).data ≠ layout.acctype ∨
        magic (l child).data ≠ 0 ∨
        layout.maxCount ≤ layout.count (l parent).data then reject l
    else do
      let l ← l.modify child
        (initAccount layout.childSize (headerVersion prm) layout.childAcctype layout.childSize)
      let l ← l.modify parent (layout.addLink child)
      return (.success, l)
  | _ => reject l

def initProduct : SolParameters → Ledger → Outcome := initLinked productTable

def initDepositAccount : SolParameters → Ledger → Outcome := initLinked product

def synthesizeSynthfiProduct (_ : SolParameters) (l : Ledger) : Outcome := some (.success, l)

def redeemSynthfiProduct (_ : SolParameters) (l : Ledger) : Outcome := some (.success, l)

def dispatch1 (prm : SolParameters) (l : Ledger) : Outcome :=
  match headerCommand prm with
  | 0 => initSynthfi prm l
  | 1 => initProduct prm l
  | 2 => initDepositAccount prm l
  | 3 => synthesizeSynthfiProduct prm l
  | 4 => redeemSynthfiProduct prm l
  | _ => reject l

def dispatch (prm : SolParameters) (l : Ledger) : Outcome :=
  if prm.data.length < 8 then reject l
  else if headerVersion prm = synthfiVersion1 then dispatch1 prm l
  else reject l

/-- One invocation; without parameters `sol_deserialize` has refused it. -/
def entrypoint (input : Option SolParameters) (l : Ledger) : Outcome :=
  match input with
  | none => reject l
  | some prm => dispatch prm l

end Synthfi.Program
