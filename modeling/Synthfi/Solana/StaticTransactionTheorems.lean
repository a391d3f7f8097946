/-
Synthfi.Solana.StaticTransactionTheorems — static transactions against the
wire grammar.

A validator does not see classes, it parses bytes. Every array of a static
transaction that is empty leaves one byte that the grammar has no place for,
and nothing else makes the two differ: `length_staticTransaction_complete`
counts those bytes, and `static_conforms_iff` reads off when the object is a
transaction at all.
-/
import Synthfi.Solana.StaticTransaction

namespace Synthfi.Solana

open Synthfi.Core Bytes

/-- An instruction without account indices is one byte longer. -/
theorem length_staticInstruction (stray : StrayBytes) (instruction : DynamicInstruction) :
    (staticInstruction stray instruction).length =
      instruction.data.length + if instruction.accountIndices = [] then 1 else 0 := by
  simp only [staticInstruction, DynamicInstruction.data, compactArray, dynamicAccountIndexArray,
    List.length_cons, List.length_append, length_arrayStorage]
  omega

theorem length_flatMap_staticInstruction (stray : StrayBytes)
    (instructions : List DynamicInstruction) :
    (instructions.flatMap (staticInstruction stray)).length =
      (instructions.flatMap DynamicInstruction.data).length +
        instructions.countP fun i => i.accountIndices = [] := by
  induction instructions with
  | nil => rfl
  | cons instruction instructions ih =>
    simp only [List.flatMap_cons, List.length_append, List.countP_cons, ih,
      length_staticInstruction, decide_eq_true_eq]
    omega

theorem flatMap_staticInstruction_eq_nil (stray : StrayBytes)
    {instructions : List DynamicInstruction} :
    instructions.flatMap (staticInstruction stray) = [] ↔ instructions = [] := by
  cases instructions with
  | nil => simp
  | cons instruction instructions => simp [staticInstruction]

theorem length_encodedTransaction_complete (sign : SignFunction) {args : TransactionArgs}
    (h : SmallCounts args) :
    (encodedTransaction sign args).length =
      (completeEncoding sign args).length + args.instructions.countP fun i => i.items = [] := by
  have hsigners := h.signers
  have hcomplete : completeEncoding sign args =
      Wire.signatures.encode (wireSignatures sign args
        (Wire.message.encode (wireMessage args))) ++ Wire.message.encode (wireMessage args) := rfl
  have hdata := length_flatMap_data h.indices h.data
  rw [hcomplete, encode_signatures, encode_message, encodedTransaction, encodedMessage,
    encodeCompactU16_eq (by omega : args.signers.length < 16384), encodeCompactU16_eq h.accounts,
    encodeCompactU16_eq h.instructions]
  simp only [List.length_append, length_signMessage, encodeMessageHeader, List.length_cons,
    List.length_nil, hdata]
  omega

/-- Every empty array is a byte more than the complete encoding. -/
theorem length_staticTransaction_complete (sign : SignFunction) (stray : StrayBytes)
    {args : TransactionArgs} (h : SmallCounts args) :
    (staticTransaction sign stray args).length =
      (completeEncoding sign args).length + (if args.signers = [] then 1 else 0) +
        (if args.accounts = [] then 1 else 0) + (if args.instructions = [] then 1 else 0) +
        (args.instructions.countP fun i => i.accountIndices = []) +
        args.instructions.countP fun i => i.items = [] := by
  have hencoded := length_encodedTransaction_complete sign h
  simp only [encodedTransaction, encodedMessage, List.length_append, length_signMessage] at hencoded
  simp only [staticTransaction, staticMessage, accountArray, instructionArray, compactArray,
    List.length_append, length_arrayStorage, length_signMessage, length_flatMap_staticInstruction,
    flatMap_staticInstruction_eq_nil, flatMap_accounts_eq_nil, signMessage_eq_nil]
  omega

theorem staticTransaction_eq_complete_iff (sign : SignFunction) (stray : StrayBytes)
    {args : TransactionArgs} (h : SmallCounts args) :
    staticTransaction sign stray args = completeEncoding sign args ↔
      args.signers ≠ [] ∧ args.instructions ≠ [] ∧
        ∀ i ∈ args.instructions, i.accountIndices ≠ [] ∧ i.items ≠ [] := by
  constructor
  · intro heq
    have hlength := length_staticTransaction_complete sign stray h
    rw [heq] at hlength
    refine ⟨fun hsigners => ?_, fun hinstructions => ?_, ?_⟩
    · rw [if_pos hsigners] at hlength
      omega
    · rw [if_pos hinstructions] at hlength
      omega
    · have hindices : args.instructions.countP (fun i => i.accountIndices = []) = 0 := by omega
      have hitems : args.instructions.countP (fun i => i.items = []) = 0 := by omega
      simp only [List.countP_eq_zero, decide_eq_true_eq] at hindices hitems
      exact fun i hi => ⟨hindices i hi, hitems i hi⟩
  · rintro ⟨hsigners, hinstructions, hnonempty⟩
    have hindices : ∀ i ∈ args.instructions, i.accountIndices ≠ [] := fun i hi =>
      (hnonempty i hi).1
    rw [(staticTransaction_eq_encoded_iff sign stray hindices).mpr ⟨hsigners, hinstructions⟩]
    exact (encodedTransaction_eq_iff sign h).mpr fun i hi => (hnonempty i hi).2

/-- **A static transaction parses to the transaction of its arguments exactly
when none of its arrays is empty**: it has a signer and an instruction, and
every instruction has an account index and an item. -/
theorem static_conforms_iff (sign : SignFunction) (stray : StrayBytes) (args : TransactionArgs)
    (hfits : (completeEncoding sign args).length ≤ solanaMaxTransactionSize) :
    Conforms sign args (staticTransaction sign stray args) ↔
      args.signers ≠ [] ∧ args.instructions ≠ [] ∧
        ∀ i ∈ args.instructions, i.accountIndices ≠ [] ∧ i.items ≠ [] :=
  (conforms_iff (smallCounts_of_fits hfits)).trans
    (staticTransaction_eq_complete_iff sign stray (smallCounts_of_fits hfits))

theorem static_conforms_oneInstruction :
    Conforms lengthSign (oneInstruction [⟨4, by decide, 9⟩])
      (staticTransaction lengthSign ⟨1, 2, 3, 4⟩ (oneInstruction [⟨4, by decide, 9⟩])) :=
  (static_conforms_iff lengthSign ⟨1, 2, 3, 4⟩ (oneInstruction [⟨4, by decide, 9⟩])
    (by decide +kernel)).mpr (by simp [oneInstruction, TransactionArgs.signers])

end Synthfi.Solana
