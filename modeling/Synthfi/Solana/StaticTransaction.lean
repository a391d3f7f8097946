/-
Synthfi.Solana.StaticTransaction — transactions laid out as classes
(`Solana/Transaction.hpp`, `CompactArray` to `Transaction`), against the
dynamic encoder.

The bytes of a static transaction are those of the object: member after
member, with counts and sizes fixed at compile time. A `CompactArray` keeps
its entries in a `std::array` of bytes, and the storage of an empty
`std::array` is one byte that nothing initialises. `staticTransaction` keeps
that byte; `staticTransaction_eq_iff` finds the two encoders equal exactly
when there is a signer and an instruction.
-/
import Synthfi.Solana.TransactionTheorems

namespace Synthfi.Solana

open Synthfi.Core Bytes

/-! ## Layout -/

/-- What the storage of an empty array holds, array by array. -/
structure StrayBytes where
  signatures : UInt8
  accounts : UInt8
  accountIndices : UInt8
  instructions : UInt8

/-- A `std::array` of the given bytes. -/
def arrayStorage (stray : UInt8) (data : List UInt8) : List UInt8 :=
  if data.length = 0 then [stray] else data

/-- A `CompactArray` of `length` entries over `data`. -/
def compactArray (stray : UInt8) (length : ℕ) (data : List UInt8) : List UInt8 :=
  encodeCompactU16 (UInt16.ofNat length) ++ arrayStorage stray data

/-- An `Instruction`: program id, `AccountIndexArray`, `InstructionDataArray`. -/
def staticInstruction (stray : StrayBytes) (instruction : DynamicInstruction) : List UInt8 :=
  instruction.programId ::
    (compactArray stray.accountIndices instruction.accountIndices.length
        instruction.accountIndices ++
      instructionDataArray instruction.items instruction.uninit)

/-- An `InstructionArray`. -/
def instructionArray (stray : StrayBytes) (instructions : List DynamicInstruction) : List UInt8 :=
  compactArray stray.instructions instructions.length
    (instructions.flatMap (staticInstruction stray))

/-- An `AccountArray`. -/
def accountArray (stray : StrayBytes) (accounts : List PublicKey) : List UInt8 :=
  compactArray stray.accounts accounts.length (accounts.flatMap Subtype.val)

/-- The members behind the signatures: header, accounts, blockhash and
instructions. -/
def staticMessage (stray : StrayBytes) (args : TransactionArgs) : List UInt8 :=
  encodeMessageHeader (UInt8.ofNat args.signingWritableKeyPairs.length)
      (UInt8.ofNat args.signingReadOnlyKeyPairs.length)
      (UInt8.ofNat args.readOnlyPublicKeys.length) ++
    (accountArray stray args.accounts ++
      (args.recentBlockhash.1 ++ instructionArray stray args.instructions))

/-- `Transaction`: the `SignatureArray` signs the members behind it. -/
def staticTransaction (sign : SignFunction) (stray : StrayBytes) (args : TransactionArgs) :
    List UInt8 :=
  compactArray stray.signatures args.signers.length
      (signMessage sign args (staticMessage stray args)) ++
    staticMessage stray args

/-! ## Empty and other arrays -/

theorem arrayStorage_of_ne_nil (stray : UInt8) {data : List UInt8} (h : data ≠ []) :
    arrayStorage stray data = data := by
  rw [arrayStorage, if_neg (by simpa using h)]

theorem length_arrayStorage (stray : UInt8) (data : List UInt8) :
    (arrayStorage stray data).length = data.length + if data = [] then 1 else 0 := by
  by_cases h : data = [] <;> simp [arrayStorage, h]

/-- With an index and an item an instruction is laid out as the dynamic one. -/
theorem staticInstruction_eq (stray : StrayBytes) {instruction : DynamicInstruction}
    (h : instruction.accountIndices ≠ []) :
    staticInstruction stray instruction = instruction.data := by
  rw [staticInstruction, compactArray, arrayStorage_of_ne_nil _ h]; rfl

theorem flatMap_staticInstruction (stray : StrayBytes) {instructions : List DynamicInstruction}
    (h : ∀ i ∈ instructions, i.accountIndices ≠ []) :
    instructions.flatMap (staticInstruction stray) =
      instructions.flatMap DynamicInstruction.data :=
  List.flatMap_congr fun i hi => staticInstruction_eq stray (h i hi)

/-- The entries of the three arrays are empty with the lists they come from. -/
theorem flatMap_data_eq_nil {instructions : List DynamicInstruction} :
    instructions.flatMap DynamicInstruction.data = [] ↔ instructions = [] := by
  cases instructions with
  | nil => simp
  | cons instruction instructions => simp [DynamicInstruction.data]

theorem flatMap_accounts_eq_nil {accounts : List PublicKey} :
    accounts.flatMap Subtype.val = [] ↔ accounts = [] := by
  have hlength : (accounts.flatMap Subtype.val).length = accounts.length * 32 :=
    length_flatMap_byteArr accounts id
  rw [← List.length_eq_zero_iff, hlength, ← List.length_eq_zero_iff]
  omega

theorem signMessage_eq_nil {sign : SignFunction} {args : TransactionArgs} {message : List UInt8} :
    signMessage sign args message = [] ↔ args.signers = [] := by
  rw [← List.length_eq_zero_iff, length_signMessage, ← List.length_eq_zero_iff]
  omega

/-! ## The two encoders -/

theorem staticMessage_eq (stray : StrayBytes) {args : TransactionArgs}
    (h : ∀ i ∈ args.instructions, i.accountIndices ≠ []) (haccounts : args.accounts ≠ [])
    (hinstructions : args.instructions ≠ []) :
    staticMessage stray args = encodedMessage args := by
  simp only [staticMessage, accountArray, instructionArray, compactArray,
    flatMap_staticInstruction stray h,
    arrayStorage_of_ne_nil _ (mt flatMap_accounts_eq_nil.mp haccounts),
    arrayStorage_of_ne_nil _ (mt flatMap_data_eq_nil.mp hinstructions), List.append_assoc]
  rfl

/-- Each empty array makes the static transaction one byte longer. -/
theorem length_staticTransaction (sign : SignFunction) (stray : StrayBytes)
    {args : TransactionArgs} (h : ∀ i ∈ args.instructions, i.accountIndices ≠ []) :
    (staticTransaction sign stray args).length = (encodedTransaction sign args).length +
      (if args.signers = [] then 1 else 0) + (if args.accounts = [] then 1 else 0) +
      (if args.instructions = [] then 1 else 0) := by
  simp only [staticTransaction, staticMessage, encodedTransaction, encodedMessage, accountArray,
    instructionArray, compactArray, List.length_append, length_arrayStorage, length_signMessage,
    flatMap_staticInstruction stray h, flatMap_data_eq_nil, flatMap_accounts_eq_nil,
    signMessage_eq_nil]
  omega

theorem staticTransaction_eq_encoded_iff (sign : SignFunction) (stray : StrayBytes)
    {args : TransactionArgs} (h : ∀ i ∈ args.instructions, i.accountIndices ≠ []) :
    staticTransaction sign stray args = encodedTransaction sign args ↔
      args.signers ≠ [] ∧ args.instructions ≠ [] := by
  constructor
  · intro heq
    have hlength := length_staticTransaction sign stray h
    rw [heq] at hlength
    constructor
    · intro hsigners
      rw [if_pos hsigners] at hlength
      omega
    · intro hinstructions
      rw [if_pos hinstructions] at hlength
      omega
  · rintro ⟨hsigners, hinstructions⟩
    have haccounts : args.accounts ≠ [] := by
      intro hempty
      have hcount := length_accounts args
      rw [hempty, List.length_nil] at hcount
      exact hsigners (List.length_eq_zero_iff.mp (by omega))
    rw [staticTransaction, staticMessage_eq stray h haccounts hinstructions, compactArray,
      arrayStorage_of_ne_nil _ (mt signMessage_eq_nil.mp hsigners), encodedTransaction,
      List.append_assoc]

/-- **The two encoders agree exactly when there is a signer and an
instruction**, as long as every instruction has an index and an item and the
transaction fits a packet. -/
theorem staticTransaction_eq_iff (sign : SignFunction) (buffer : ℕ → UInt8) (stray : StrayBytes)
    (args : TransactionArgs)
    (hinstructions : ∀ i ∈ args.instructions, i.accountIndices ≠ [] ∧ i.items ≠ [])
    (hfits : encodedLength args ≤ solanaMaxTransactionSize) :
    (∃ out, dynamicTransaction sign buffer args = some out ∧
      out.written = staticTransaction sign stray args) ↔
      args.signers ≠ [] ∧ args.instructions ≠ [] := by
  rw [← staticTransaction_eq_encoded_iff sign stray fun i hi => (hinstructions i hi).1]
  simp only [dynamicTransaction_eq_some]
  constructor
  · rintro ⟨out, hout, hstatic⟩
    exact hstatic.symm.trans hout
  · intro heq
    have hlength := length_encodedTransaction sign args
    exact ⟨⟨encodedTransaction sign args, by omega⟩, rfl, heq.symm⟩

theorem staticTransaction_eq_oneInstruction :
    ∃ out, dynamicTransaction lengthSign (fun _ => 0) (oneInstruction [⟨4, by decide, 9⟩]) =
        some out ∧
      out.written = staticTransaction lengthSign ⟨1, 2, 3, 4⟩
        (oneInstruction [⟨4, by decide, 9⟩]) :=
  (staticTransaction_eq_iff lengthSign (fun _ => 0) ⟨1, 2, 3, 4⟩
    (oneInstruction [⟨4, by decide, 9⟩]) (by simp [oneInstruction]) (by decide +kernel)).mpr
      (by simp [oneInstruction, TransactionArgs.signers])

/-- The same without a signer. -/
def noSigner : TransactionArgs :=
  { oneInstruction [⟨1, by decide, 9⟩] with signingWritableKeyPairs := [] }

/-- Without a signer the bytes differ: the count of signatures is followed by
the one byte of an empty array. -/
theorem staticTransaction_noSigner :
    (∀ i ∈ noSigner.instructions, i.accountIndices ≠ [] ∧ i.items ≠ []) ∧
      encodedLength noSigner ≤ solanaMaxTransactionSize ∧
      ¬ ∃ out, dynamicTransaction lengthSign (fun _ => 0) noSigner = some out ∧
        out.written = staticTransaction lengthSign ⟨1, 2, 3, 4⟩ noSigner := by
  refine ⟨by simp [noSigner, oneInstruction], by decide +kernel, ?_⟩
  rintro ⟨out, hout, hstatic⟩
  rw [dynamicTransaction_eq_some] at hout
  rw [hstatic] at hout
  exact absurd (congrArg List.length hout) (by decide +kernel)

end Synthfi.Solana
