/-
Synthfi.Solana.TransactionTheorems — the dynamic encoder against the wire
grammar.

`encodedTransaction` collects the bytes the encoder writes, in order;
`dynamicTransaction_eq_some` shows that the walk through the buffer, with
the signatures filled in afterwards, comes down to it. Each piece is the
encoding its grammar rule prescribes (`encodeCompactU16_eq`,
`data_eq_encode`), except that an instruction without data items is followed
by one stray byte. As the grammar has one encoding for each transaction, the
encoder is right exactly when no instruction lacks data items.
-/
import Mathlib.Data.List.Basic
import Synthfi.Solana.Transaction

namespace Synthfi.Solana

open Synthfi.Core Bytes

/-! ## Counts -/

theorem toNat_or_and (value : UInt16) :
    (0x80 ||| (value &&& 0x7f)).toUInt8.toNat = value.toNat % 128 + 128 := by
  have hand : (value &&& 0x7f).toNat = value.toNat % 2 ^ 7 := by
    rw [UInt16.toNat_and]
    exact Nat.and_two_pow_sub_one_eq_mod value.toNat 7
  have hor : (0x80 ||| (value &&& 0x7f)).toNat = 2 ^ 7 * 1 + value.toNat % 2 ^ 7 := by
    rw [UInt16.toNat_or, hand]
    exact (Nat.two_pow_add_eq_or_of_lt (Nat.mod_lt value.toNat (Nat.two_pow_pos 7)) 1).symm
  rw [UInt16.toNat_toUInt8, hor]
  omega

/-- Below 2^14 a count is encoded as the grammar asks. -/
theorem encodeCompactU16_eq {n : ℕ} (h : n < 16384) :
    encodeCompactU16 (UInt16.ofNat n) = Format.compactU16.encode n := by
  have hn : (UInt16.ofNat n).toNat = n := by
    rw [UInt16.toNat_ofNat']
    exact Nat.mod_eq_of_lt (by omega)
  have hlt : UInt16.ofNat n < 0x80 ↔ n < 128 := by
    rw [UInt16.lt_iff_toNat_lt, hn]; rfl
  simp only [encodeCompactU16, Format.compactU16, hlt]
  by_cases h1 : n < 128
  · simp only [h1, if_true, List.cons.injEq, and_true]
    apply UInt8.toNat_inj.mp
    rw [UInt16.toNat_toUInt8, hn, UInt8.toNat_ofNat']
  · simp only [h1, h, if_false, if_true, List.cons.injEq, and_true]
    constructor
    · apply UInt8.toNat_inj.mp
      rw [toNat_or_and, hn, UInt8.toNat_ofNat']
      omega
    · apply UInt8.toNat_inj.mp
      have hand : ((UInt16.ofNat n >>> 7) &&& 0x7f).toNat = n / 128 % 2 ^ 7 := by
        rw [UInt16.toNat_and, UInt16.toNat_shiftRight, hn]
        exact (Nat.and_two_pow_sub_one_eq_mod (n >>> 7) 7).trans (by rw [Nat.shiftRight_eq_div_pow])
      rw [UInt16.toNat_toUInt8, hand, UInt8.toNat_ofNat']
      omega

/-! ## What the encoder writes -/

/-- The bytes after the signatures. -/
def encodedMessage (args : TransactionArgs) : List UInt8 :=
  encodeMessageHeader (UInt8.ofNat args.signingWritableKeyPairs.length)
      (UInt8.ofNat args.signingReadOnlyKeyPairs.length)
      (UInt8.ofNat args.readOnlyPublicKeys.length) ++
    (encodeCompactU16 (UInt16.ofNat args.accounts.length) ++
      (args.accounts.flatMap Subtype.val ++
        (args.recentBlockhash.1 ++
          (encodeCompactU16 (UInt16.ofNat args.instructions.length) ++
            args.instructions.flatMap DynamicInstruction.data))))

def encodedTransaction (sign : SignFunction) (args : TransactionArgs) : List UInt8 :=
  encodeCompactU16 (UInt16.ofNat args.signers.length) ++
    (signMessage sign args (encodedMessage args) ++ encodedMessage args)

theorem length_signMessage (sign : SignFunction) (args : TransactionArgs) (message : List UInt8) :
    (signMessage sign args message).length = args.signers.length * 64 := by
  simp only [signMessage, List.length_append, length_flatMap_byteArr, TransactionArgs.signers,
    Nat.add_mul]

theorem length_signers (args : TransactionArgs) :
    args.signers.length =
      args.signingWritableKeyPairs.length + args.signingReadOnlyKeyPairs.length :=
  List.length_append

theorem length_accounts (args : TransactionArgs) :
    args.accounts.length =
      args.signers.length + args.writablePublicKeys.length + args.readOnlyPublicKeys.length := by
  simp [TransactionArgs.accounts, TransactionArgs.signers, Nat.add_assoc]

/-- The walk through the buffer, with the signatures filled in at the end,
succeeds exactly when the encoding fits, and leaves the encoding. -/
theorem dynamicTransaction_eq_some {sign : SignFunction} {uninit : ℕ → UInt8}
    {args : TransactionArgs} {out : OutBuffer solanaMaxTransactionSize} :
    dynamicTransaction sign uninit args = some out ↔
      out.written = encodedTransaction sign args := by
  let count := encodeCompactU16 (UInt16.ofNat args.signers.length)
  let gap := (List.range (args.signers.length * 64)).map fun k => uninit (count.length + k)
  have hgap : gap.length = (signMessage sign args (encodedMessage args)).length := by
    simp [gap, length_signMessage]
  -- What is left of the walk: the count, the gap, the message, the signatures.
  have hwalk : dynamicTransaction sign uninit args = some out ↔
      ∃ unsigned : OutBuffer solanaMaxTransactionSize,
        unsigned.written = count ++ (gap ++ encodedMessage args) ∧
          unsigned.patch count.length
            (signMessage sign args (unsigned.written.drop (count ++ gap).length)) = some out := by
    simp only [dynamicTransaction, OutBuffer.skip, Option.bind_eq_bind, OutBuffer.foldlM_put,
      OutBuffer.put_bind_put, ← length_signers, ← length_accounts, Option.bind_eq_some_iff,
      OutBuffer.put_eq_some, OutBuffer.written_empty, List.nil_append]
    constructor
    · rintro ⟨counted, hcounted, skipped, hskipped, unsigned, hunsigned, hpatch⟩
      rw [hcounted] at hskipped hpatch
      rw [hskipped] at hunsigned hpatch
      exact ⟨unsigned, by rw [hunsigned, List.append_assoc]; rfl, hpatch⟩
    · rintro ⟨unsigned, hunsigned, hpatch⟩
      have hfits := unsigned.fits
      simp only [hunsigned, List.length_append] at hfits
      refine ⟨⟨count, by omega⟩, rfl, ⟨count ++ gap, by rw [List.length_append]; omega⟩, rfl,
        unsigned, ?_, hpatch⟩
      rw [hunsigned, List.append_assoc]; rfl
  rw [hwalk, encodedTransaction]
  constructor
  · rintro ⟨unsigned, hunsigned, hpatch⟩
    rw [hunsigned, ← List.append_assoc, List.drop_left] at hpatch
    exact (OutBuffer.patch_eq_some hunsigned hgap).mp hpatch
  · intro hout
    have hfits := out.fits
    simp only [hout, List.length_append] at hfits
    refine ⟨⟨count ++ (gap ++ encodedMessage args), ?_⟩, rfl, ?_⟩
    · simp only [List.length_append, hgap]
      exact hfits
    · have hdrop : (count ++ (gap ++ encodedMessage args)).drop (count ++ gap).length =
          encodedMessage args := by rw [← List.append_assoc, List.drop_left]
      rw [hdrop]
      exact (OutBuffer.patch_eq_some rfl hgap).mpr hout

/-! ## How long it is -/

/-- The length of a count, which is cut to 16 bits. -/
def prefixLength (n : ℕ) : ℕ := if n % 65536 < 128 then 1 else 2

/-- The bytes of an instruction: program, indices and data, of which an empty
item array has one. -/
def DynamicInstruction.length (instruction : DynamicInstruction) : ℕ :=
  let dataLength := (instruction.items.map IntegralItem.size).sum
  1 + prefixLength instruction.accountIndices.length + instruction.accountIndices.length +
    prefixLength dataLength + max 1 dataLength

def encodedLength (args : TransactionArgs) : ℕ :=
  prefixLength args.signers.length + 64 * args.signers.length + 3 +
    prefixLength args.accounts.length + 32 * args.accounts.length + 32 +
    prefixLength args.instructions.length +
    (args.instructions.map DynamicInstruction.length).sum

theorem length_encodeCompactU16 (n : ℕ) :
    (encodeCompactU16 (UInt16.ofNat n)).length = prefixLength n := by
  have hlt : UInt16.ofNat n < 0x80 ↔ n % 65536 < 128 := by
    rw [UInt16.lt_iff_toNat_lt, UInt16.toNat_ofNat']; rfl
  simp only [encodeCompactU16, prefixLength, hlt]
  split <;> rfl

theorem length_flatMap_bytes (items : List IntegralItem) :
    (items.flatMap IntegralItem.bytes).length = (items.map IntegralItem.size).sum := by
  induction items with
  | nil => rfl
  | cons item items ih =>
    rw [List.flatMap_cons, List.length_append, ih, List.map_cons, List.sum_cons,
      IntegralItem.bytes, length_leBytes]

theorem length_instruction_data (instruction : DynamicInstruction) :
    instruction.data.length = instruction.length := by
  have hdata := length_flatMap_bytes instruction.items
  simp only [DynamicInstruction.data, DynamicInstruction.length, dynamicAccountIndexArray,
    instructionDataArray, List.length_cons, List.length_append, length_encodeCompactU16, hdata]
  split
  case isTrue hzero => rw [hzero]; simp; omega
  case isFalse hpos => rw [hdata]; omega

theorem length_encodedTransaction (sign : SignFunction) (args : TransactionArgs) :
    (encodedTransaction sign args).length = encodedLength args := by
  have haccounts : (args.accounts.flatMap Subtype.val).length = args.accounts.length * 32 :=
    length_flatMap_byteArr args.accounts id
  have hinstructions : (args.instructions.flatMap DynamicInstruction.data).length =
      (args.instructions.map DynamicInstruction.length).sum := by
    rw [List.length_flatMap]
    exact congrArg List.sum (List.map_congr_left fun i _ => length_instruction_data i)
  have hblockhash : args.recentBlockhash.1.length = 32 := args.recentBlockhash.2
  simp only [encodedTransaction, encodedMessage, encodeMessageHeader, encodedLength,
    List.length_append, List.length_cons, List.length_nil, length_encodeCompactU16,
    length_signMessage, haccounts, hinstructions, hblockhash]
  omega

/-- The constructor stays inside the buffer exactly when the encoding fits. -/
theorem dynamicTransaction_isSome_iff (sign : SignFunction) (uninit : ℕ → UInt8)
    (args : TransactionArgs) :
    (dynamicTransaction sign uninit args).isSome ↔
      encodedLength args ≤ solanaMaxTransactionSize := by
  rw [← length_encodedTransaction sign, Option.isSome_iff_exists]
  simp only [dynamicTransaction_eq_some]
  constructor
  · rintro ⟨out, hout⟩
    exact hout ▸ out.fits
  · exact fun hfits => ⟨⟨encodedTransaction sign args, hfits⟩, rfl⟩

/-! ## The transaction the arguments describe -/

/-- An instruction with its items little-endian, one after the other. -/
def wireInstruction (instruction : DynamicInstruction) : WireInstruction :=
  ⟨instruction.programId, instruction.accountIndices,
    instruction.items.flatMap IntegralItem.bytes⟩

def wireMessage (args : TransactionArgs) : WireMessage where
  signers := args.signers.length
  readOnlySigners := args.signingReadOnlyKeyPairs.length
  readOnlyNonSigners := args.readOnlyPublicKeys.length
  accountKeys := args.accounts
  recentBlockhash := args.recentBlockhash
  instructions := args.instructions.map wireInstruction

/-- The signatures of all signers over `message`. -/
def wireSignatures (sign : SignFunction) (args : TransactionArgs) (message : List UInt8) :
    List Signature :=
  args.signers.map fun keyPair => sign keyPair.privateKey message

/-- The complete encoding of the transaction. -/
def completeEncoding (sign : SignFunction) (args : TransactionArgs) : List UInt8 :=
  Wire.transaction.encode
    (wireSignatures sign args (Wire.message.encode (wireMessage args)), wireMessage args)

/-- `bytes` parses, to its end, to the transaction of the arguments: the
signatures are those of the signers over exactly the bytes that follow. -/
def Conforms (sign : SignFunction) (args : TransactionArgs) (bytes : List UInt8) : Prop :=
  ∃ rest, Wire.signatures.decode bytes = some (wireSignatures sign args rest, rest) ∧
    Wire.message.decode rest = some (wireMessage args, [])

/-! ## Sizes -/

/-- Counts that a transaction of 1232 bytes cannot exceed. -/
structure SmallCounts (args : TransactionArgs) : Prop where
  signers : args.signers.length < 256
  readOnly : args.readOnlyPublicKeys.length < 256
  accounts : args.accounts.length < 16384
  instructions : args.instructions.length < 16384
  indices : ∀ i ∈ args.instructions, i.accountIndices.length < 16384
  data : ∀ i ∈ args.instructions, (i.items.flatMap IntegralItem.bytes).length < 16384

theorem encode_signatures (sign : SignFunction) (args : TransactionArgs) (message : List UInt8) :
    Wire.signatures.encode (wireSignatures sign args message) =
      Format.compactU16.encode args.signers.length ++ signMessage sign args message := by
  simp only [Wire.signatures, Format.counted, Format.fixed, wireSignatures, signMessage,
    TransactionArgs.signers, List.length_map, List.flatMap_map, List.flatMap_append]

theorem encode_message (args : TransactionArgs) :
    Wire.message.encode (wireMessage args) =
      [UInt8.ofNat args.signers.length, UInt8.ofNat args.signingReadOnlyKeyPairs.length,
          UInt8.ofNat args.readOnlyPublicKeys.length] ++
        (Format.compactU16.encode args.accounts.length ++
          (args.accounts.flatMap Subtype.val ++
            (args.recentBlockhash.1 ++
              (Format.compactU16.encode args.instructions.length ++
                args.instructions.flatMap fun i =>
                  Wire.instruction.encode (wireInstruction i))))) := by
  simp [Wire.message, Format.map, Format.pair, Format.counted, Format.fixed, Format.u8,
    wireMessage, List.flatMap_map]

theorem encode_instruction (instruction : DynamicInstruction) :
    Wire.instruction.encode (wireInstruction instruction) =
      instruction.programId ::
        ((Format.compactU16.encode instruction.accountIndices.length ++
            instruction.accountIndices) ++
          (Format.compactU16.encode (instruction.items.flatMap IntegralItem.bytes).length ++
            instruction.items.flatMap IntegralItem.bytes)) := by
  simp [Wire.instruction, Format.map, Format.pair, Format.counted, Format.byte, wireInstruction]

theorem smallCounts_of_fits {sign : SignFunction} {args : TransactionArgs}
    (h : (completeEncoding sign args).length ≤ solanaMaxTransactionSize) : SmallCounts args := by
  have hlen : (completeEncoding sign args).length =
      (Wire.signatures.encode (wireSignatures sign args
        (Wire.message.encode (wireMessage args)))).length +
      (Wire.message.encode (wireMessage args)).length := List.length_append
  have haccounts : (args.accounts.flatMap Subtype.val).length = args.accounts.length * 32 :=
    length_flatMap_byteArr args.accounts id
  have hreadOnly := length_accounts args
  have hcount := length_le_of_pos (fun i => Wire.instruction.encode (wireInstruction i))
    args.instructions fun i _ => by rw [encode_instruction]; exact Nat.succ_pos _
  have hmember := fun i (hi : i ∈ args.instructions) =>
    length_le_length_flatMap (fun i => Wire.instruction.encode (wireInstruction i)) hi
  rw [hlen, encode_signatures, encode_message] at h
  simp only [List.length_append, length_signMessage, haccounts, solanaMaxTransactionSize] at h
  have hinstruction : ∀ i ∈ args.instructions, i.accountIndices.length < 16384 ∧
      (i.items.flatMap IntegralItem.bytes).length < 16384 := by
    intro i hi
    have hle : (Wire.instruction.encode (wireInstruction i)).length ≤ _ := hmember i hi
    have hone := congrArg List.length (encode_instruction i)
    simp only [List.length_cons, List.length_append] at hone
    omega
  exact ⟨by omega, by omega, by omega, by omega, fun i hi => (hinstruction i hi).1,
    fun i hi => (hinstruction i hi).2⟩

/-! ## The encoder and the grammar -/

theorem SmallCounts.signatures_valid {args : TransactionArgs} (h : SmallCounts args)
    (sign : SignFunction) (message : List UInt8) :
    Wire.signatures.valid (wireSignatures sign args message) := by
  have hsigners := h.signers
  refine ⟨?_, fun _ _ => trivial⟩
  show (args.signers.map fun keyPair => sign keyPair.privateKey message).length < 65536
  rw [List.length_map]
  omega

theorem SmallCounts.message_valid {args : TransactionArgs} (h : SmallCounts args) :
    Wire.message.valid (wireMessage args) := by
  have hsigners := h.signers
  have haccounts := h.accounts
  have hinstructions := h.instructions
  have hsplit := length_signers args
  refine ⟨hsigners, ?_, h.readOnly, ⟨?_, fun _ _ => trivial⟩, trivial, ?_, ?_⟩
  · show args.signingReadOnlyKeyPairs.length < 256
    omega
  · show args.accounts.length < 65536
    omega
  · show (args.instructions.map wireInstruction).length < 65536
    rw [List.length_map]
    omega
  · intro i hi
    obtain ⟨instruction, hmem, rfl⟩ := List.mem_map.mp hi
    have hindices := h.indices instruction hmem
    have hdata := h.data instruction hmem
    refine ⟨trivial, ⟨?_, fun _ _ => trivial⟩, ⟨?_, fun _ _ => trivial⟩⟩
    · show instruction.accountIndices.length < 65536
      omega
    · show (instruction.items.flatMap IntegralItem.bytes).length < 65536
      omega

/-- The bytes that conform are the complete encoding, and no others. -/
theorem conforms_iff {sign : SignFunction} {args : TransactionArgs} (h : SmallCounts args)
    {bytes : List UInt8} : Conforms sign args bytes ↔ bytes = completeEncoding sign args := by
  constructor
  · rintro ⟨rest, hsignatures, hmessage⟩
    obtain ⟨-, rfl⟩ := Wire.signatures.encode_decode _ _ _ hsignatures
    rw [Format.decode_eq_some_nil _ (h.message_valid)] at hmessage
    rw [hmessage]
    rfl
  · rintro rfl
    refine ⟨Wire.message.encode (wireMessage args), ?_, ?_⟩
    · exact Wire.signatures.decode_encode _ _ (h.signatures_valid _ _)
    · exact (Format.decode_eq_some_nil _ h.message_valid).mpr rfl

/-- The bytes of an instruction are its encoding, and one byte more when it
has no items. -/
theorem data_eq_encode {instruction : DynamicInstruction}
    (hindices : instruction.accountIndices.length < 16384)
    (hdata : (instruction.items.flatMap IntegralItem.bytes).length < 16384) :
    instruction.data = Wire.instruction.encode (wireInstruction instruction) ++
      if instruction.items = [] then [instruction.uninit] else [] := by
  have hnil : (instruction.items.flatMap IntegralItem.bytes).length = 0 ↔
      instruction.items = [] := by
    cases h : instruction.items with
    | nil => simp
    | cons item items =>
      have hpos := item.size_pos
      simp [IntegralItem.bytes]
      omega
  rw [encode_instruction, DynamicInstruction.data, dynamicAccountIndexArray, instructionDataArray,
    encodeCompactU16_eq hindices, encodeCompactU16_eq hdata]
  simp only [hnil]
  by_cases h : instruction.items = []
  · simp [h]
  · simp [h]

/-- The instructions together: their encodings, and a byte more for each
without items. -/
theorem length_flatMap_data {instructions : List DynamicInstruction}
    (hindices : ∀ i ∈ instructions, i.accountIndices.length < 16384)
    (hdata : ∀ i ∈ instructions, (i.items.flatMap IntegralItem.bytes).length < 16384) :
    (instructions.flatMap DynamicInstruction.data).length =
      (instructions.flatMap fun i => Wire.instruction.encode (wireInstruction i)).length +
        instructions.countP fun i => i.items = [] := by
  induction instructions with
  | nil => rfl
  | cons instruction instructions ih =>
    simp only [List.mem_cons, forall_eq_or_imp] at hindices hdata
    have hhead := congrArg List.length (data_eq_encode hindices.1 hdata.1)
    have htail := ih hindices.2 hdata.2
    simp only [List.flatMap_cons, List.length_append, List.countP_cons, hhead, htail]
    by_cases h : instruction.items = []
    · simp [h]; omega
    · simp [h]; omega

theorem encodedMessage_eq_iff {args : TransactionArgs} (h : SmallCounts args) :
    encodedMessage args = Wire.message.encode (wireMessage args) ↔
      ∀ i ∈ args.instructions, i.items ≠ [] := by
  have hheader : encodeMessageHeader (UInt8.ofNat args.signingWritableKeyPairs.length)
      (UInt8.ofNat args.signingReadOnlyKeyPairs.length)
      (UInt8.ofNat args.readOnlyPublicKeys.length) =
      [UInt8.ofNat args.signers.length, UInt8.ofNat args.signingReadOnlyKeyPairs.length,
        UInt8.ofNat args.readOnlyPublicKeys.length] := by
    rw [encodeMessageHeader, ← UInt8.ofNat_add, ← length_signers]
  rw [encodedMessage, encode_message, hheader, encodeCompactU16_eq h.accounts,
    encodeCompactU16_eq h.instructions]
  simp only [List.append_cancel_left_eq]
  constructor
  · intro heq
    have hlen := length_flatMap_data h.indices h.data
    have hcount : args.instructions.countP (fun i => i.items = []) = 0 := by
      have := congrArg List.length heq
      omega
    simpa [List.countP_eq_zero] using hcount
  · intro hitems
    refine List.flatMap_congr fun i hi => ?_
    rw [data_eq_encode (h.indices i hi) (h.data i hi), if_neg (hitems i hi), List.append_nil]

theorem encodedTransaction_eq_iff (sign : SignFunction) {args : TransactionArgs}
    (h : SmallCounts args) :
    encodedTransaction sign args = completeEncoding sign args ↔
      ∀ i ∈ args.instructions, i.items ≠ [] := by
  have hsigners := h.signers
  have hcomplete : completeEncoding sign args =
      Wire.signatures.encode (wireSignatures sign args
        (Wire.message.encode (wireMessage args))) ++ Wire.message.encode (wireMessage args) := rfl
  rw [← encodedMessage_eq_iff h, hcomplete, encode_signatures, encodedTransaction,
    encodeCompactU16_eq (by omega), List.append_assoc, List.append_cancel_left_eq]
  constructor
  · intro heq
    have hlen : (signMessage sign args (encodedMessage args)).length =
        (signMessage sign args (Wire.message.encode (wireMessage args))).length := by
      rw [length_signMessage, length_signMessage]
    exact (List.append_inj heq hlen).2
  · intro heq
    rw [heq]

/-- **Wire format.** When the complete encoding fits a packet, the bytes of
a dynamic transaction parse to the transaction of its arguments exactly when
every instruction has a data item. -/
theorem data_conforms_iff (sign : SignFunction) (uninit : ℕ → UInt8) (args : TransactionArgs)
    (hfits : (completeEncoding sign args).length ≤ solanaMaxTransactionSize) :
    (∃ out, dynamicTransaction sign uninit args = some out ∧ Conforms sign args out.written) ↔
      ∀ i ∈ args.instructions, i.items ≠ [] := by
  have hsmall := smallCounts_of_fits hfits
  rw [← encodedTransaction_eq_iff sign hsmall]
  simp only [dynamicTransaction_eq_some, conforms_iff hsmall]
  constructor
  · rintro ⟨out, hout, hconforms⟩
    exact hout.symm.trans hconforms
  · intro heq
    exact ⟨⟨completeEncoding sign args, hfits⟩, heq.symm, rfl⟩

/-! ## One instruction, with and without data -/

/-- One signer, one program and one instruction with the given items. -/
def oneInstruction (items : List IntegralItem) : TransactionArgs where
  recentBlockhash := ByteArr.fill 32 7
  signingWritableKeyPairs := [⟨ByteArr.fill 32 1, ByteArr.fill 32 2⟩]
  signingReadOnlyKeyPairs := []
  writablePublicKeys := []
  readOnlyPublicKeys := [ByteArr.fill 32 3]
  instructions := [⟨1, [0], items, 0⟩]

/-- A stand-in for ed25519: the key and the length of the message. -/
def lengthSign : SignFunction := fun key message =>
  ⟨key.1 ++ List.replicate 32 (UInt8.ofNat message.length), by
    rw [List.length_append, key.2, List.length_replicate]⟩

theorem data_conforms_iff_oneInstruction :
    ∃ out, dynamicTransaction lengthSign (fun _ => 0) (oneInstruction [⟨4, by decide, 9⟩]) =
        some out ∧
      Conforms lengthSign (oneInstruction [⟨4, by decide, 9⟩]) out.written :=
  (data_conforms_iff lengthSign (fun _ => 0) (oneInstruction [⟨4, by decide, 9⟩])
    (by decide +kernel)).mpr (by simp [oneInstruction])

/-- Without items the transaction is one byte longer than its encoding. -/
theorem data_conforms_fails :
    (completeEncoding lengthSign (oneInstruction [])).length ≤ solanaMaxTransactionSize ∧
      ¬ ∃ out, dynamicTransaction lengthSign (fun _ => 0) (oneInstruction []) = some out ∧
        Conforms lengthSign (oneInstruction []) out.written := by
  refine ⟨by decide +kernel, ?_⟩
  rintro ⟨out, hout, hconforms⟩
  rw [dynamicTransaction_eq_some] at hout
  have hfits : (completeEncoding lengthSign (oneInstruction [])).length ≤
      solanaMaxTransactionSize := by decide +kernel
  rw [conforms_iff (smallCounts_of_fits hfits), hout] at hconforms
  exact absurd (congrArg List.length hconforms) (by decide +kernel)

end Synthfi.Solana
