/-
Synthfi.Solana.Transaction — the encoder of dynamic transactions
(`Solana/Transaction.hpp`) and the wire grammar it writes.

The constructor of `DynamicTransaction` advances one iterator through a
buffer of 1232 bytes: it leaves room for the signatures, writes the message,
then signs the message and fills the signatures in. `dynamicTransaction`
does the same on an `OutBuffer`; `none` is a write past the buffer.

The second half states Solana's transaction grammar as a `Format`. It is
not taken from the encoder: it is what a validator parses.
-/
import Synthfi.Lib.Format
import Synthfi.Core.KeyPair

namespace Synthfi.Solana

open Synthfi.Core Bytes

def solanaMaxTransactionSize : ℕ := 1232

/-! ## Compact arrays -/

/-- `encode_compact_u16`. The bytes of `dynamic_compact_u16( value )` and of
`compact_u16< value >( )` are the same. -/
def encodeCompactU16 (value : UInt16) : List UInt8 :=
  if value < 0x80 then [value.toUInt8]
  else [(0x80 ||| (value &&& 0x7f)).toUInt8, ((value >>> 7) &&& 0x7f).toUInt8]

/-- The bytes of a `DynamicAccountIndexArray`. -/
def dynamicAccountIndexArray (accountIndices : List UInt8) : List UInt8 :=
  encodeCompactU16 (UInt16.ofNat accountIndices.length) ++ accountIndices

/-- An item of instruction data: an integer of `size` bytes. -/
structure IntegralItem where
  size : ℕ
  size_pos : 0 < size
  value : BitVec (8 * size)

/-- The memory of the item. -/
def IntegralItem.bytes (item : IntegralItem) : List UInt8 := leBytes item.size item.value.toNat

/-- The memory of an `InstructionDataArray`: the length, then the storage of
a `std::array` of that many bytes. With no items that storage is still one
byte, which nothing initialises. -/
def instructionDataArray (items : List IntegralItem) (uninit : UInt8) : List UInt8 :=
  let data := items.flatMap IntegralItem.bytes
  encodeCompactU16 (UInt16.ofNat data.length) ++ if data.length = 0 then [uninit] else data

/-! ## Instructions and transactions -/

structure DynamicInstruction where
  programId : UInt8
  accountIndices : List UInt8
  items : List IntegralItem
  /-- The byte an empty item array is laid over. -/
  uninit : UInt8

def DynamicInstruction.data (instruction : DynamicInstruction) : List UInt8 :=
  instruction.programId ::
    (dynamicAccountIndexArray instruction.accountIndices ++
      instructionDataArray instruction.items instruction.uninit)

/-- `sign_message_ed25519`: the signature of a message under a private key. -/
abbrev SignFunction := ByteArr 32 → List UInt8 → Signature

/-- The arguments of the constructor. -/
structure TransactionArgs where
  recentBlockhash : Hash
  signingWritableKeyPairs : List KeyPair
  signingReadOnlyKeyPairs : List KeyPair
  writablePublicKeys : List PublicKey
  readOnlyPublicKeys : List PublicKey
  instructions : List DynamicInstruction

namespace TransactionArgs

variable (args : TransactionArgs)

def signers : List KeyPair := args.signingWritableKeyPairs ++ args.signingReadOnlyKeyPairs

/-- The key table: a key pair is cut down to its public key. -/
def accounts : List PublicKey :=
  args.signingWritableKeyPairs.map KeyPair.hash ++ args.signingReadOnlyKeyPairs.map KeyPair.hash ++
    args.writablePublicKeys ++ args.readOnlyPublicKeys

end TransactionArgs

def encodeMessageHeader (signingWritableCount signingReadOnlyCount readOnlyCount : UInt8) :
    List UInt8 :=
  [signingWritableCount + signingReadOnlyCount, signingReadOnlyCount, readOnlyCount]

/-- `sign_message`: the signatures of the writable, then the read-only
signers. -/
def signMessage (sign : SignFunction) (args : TransactionArgs) (message : List UInt8) :
    List UInt8 :=
  args.signingWritableKeyPairs.flatMap (fun keyPair => (sign keyPair.privateKey message).1) ++
    args.signingReadOnlyKeyPairs.flatMap (fun keyPair => (sign keyPair.privateKey message).1)

/-- The constructor of `DynamicTransaction`; `uninit` is what the buffer
holds before. The result is `data( )`. -/
def dynamicTransaction (sign : SignFunction) (uninit : ℕ → UInt8) (args : TransactionArgs) :
    Option (OutBuffer solanaMaxTransactionSize) := do
  let signatureLength := args.signingWritableKeyPairs.length + args.signingReadOnlyKeyPairs.length
  let accountsLength := signatureLength + args.writablePublicKeys.length +
    args.readOnlyPublicKeys.length
  let out ← (OutBuffer.empty _).put (encodeCompactU16 (UInt16.ofNat signatureLength))
  let signatures := out.written.length
  let out ← out.skip uninit (signatureLength * 64)
  let messageBegin := out.written.length
  let out ← out.put <| encodeMessageHeader (UInt8.ofNat args.signingWritableKeyPairs.length)
    (UInt8.ofNat args.signingReadOnlyKeyPairs.length) (UInt8.ofNat args.readOnlyPublicKeys.length)
  let out ← out.put (encodeCompactU16 (UInt16.ofNat accountsLength))
  let out ← args.accounts.foldlM (fun out account => out.put account.1) out
  let out ← out.put args.recentBlockhash.1
  let out ← out.put (encodeCompactU16 (UInt16.ofNat args.instructions.length))
  let out ← args.instructions.foldlM (fun out instruction => out.put instruction.data) out
  let message := out.written.drop messageBegin
  out.patch signatures (signMessage sign args message)

/-! ## The wire grammar -/

structure WireInstruction where
  programIndex : UInt8
  accountIndices : List UInt8
  data : List UInt8
  deriving DecidableEq, Repr

structure WireMessage where
  signers : ℕ
  readOnlySigners : ℕ
  readOnlyNonSigners : ℕ
  accountKeys : List PublicKey
  recentBlockhash : Hash
  instructions : List WireInstruction
  deriving DecidableEq, Repr

namespace Wire

open Format

def instruction : Format WireInstruction :=
  (byte.pair ((counted compactU16 byte).pair (counted compactU16 byte))).map
    { toFun := fun f => ⟨f.1, f.2.1, f.2.2⟩
      invFun := fun i => (i.programIndex, i.accountIndices, i.data)
      left_inv := fun _ => rfl
      right_inv := fun _ => rfl }

/-- The part of a transaction that is signed. -/
def message : Format WireMessage :=
  (u8.pair (u8.pair (u8.pair ((counted compactU16 (fixed 32)).pair
    ((fixed 32).pair (counted compactU16 instruction)))))).map
    { toFun := fun f => ⟨f.1, f.2.1, f.2.2.1, f.2.2.2.1, f.2.2.2.2.1, f.2.2.2.2.2⟩
      invFun := fun m => (m.signers, m.readOnlySigners, m.readOnlyNonSigners, m.accountKeys,
        m.recentBlockhash, m.instructions)
      left_inv := fun _ => rfl
      right_inv := fun _ => rfl }

def signatures : Format (List Signature) := counted compactU16 (fixed 64)

/-- A whole transaction: signatures and message. -/
def transaction : Format (List Signature × WireMessage) := signatures.pair message

end Wire

end Synthfi.Solana
