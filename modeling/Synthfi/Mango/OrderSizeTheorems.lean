/-
Synthfi.Mango.OrderSizeTheorems — which transactions stay inside a packet.

The constructor of a dynamic transaction does not compare what it writes with
the size of its buffer, so it stays inside exactly when the encoding fits. The
transaction of an order takes 946 bytes and 33 more for each other market in
the margin basket: a key and its index.
-/
import Synthfi.Mango.MangoOrderTheorems
import Synthfi.Solana.TransactionTheorems

namespace Synthfi.Mango

open Trading Synthfi.Core Bytes Solana Serum

/-- What the length of an order's transaction depends on. -/
structure OrderShape (args : TransactionArgs) (others : ℕ) : Prop where
  signers : args.signers.length = 1
  accounts : args.accounts.length = 24 + others
  instructions : ∃ instruction, args.instructions = [instruction] ∧
    instruction.accountIndices.length = 23 + others ∧
    (instruction.items.map IntegralItem.size).sum = 50

/-- The bytes of an order: 946, and 33 for each other market. -/
theorem OrderShape.encodedLength {args : TransactionArgs} {others : ℕ}
    (h : OrderShape args others) (hothers : others ≤ 15) :
    encodedLength args = 946 + 33 * others := by
  obtain ⟨instruction, hone, hindices, hitems⟩ := h.instructions
  have haccounts : prefixLength (24 + others) = 1 := if_pos (by omega)
  have hprefix : prefixLength (23 + others) = 1 := if_pos (by omega)
  have hcount : prefixLength 1 = 1 := rfl
  have hdata : prefixLength 50 = 1 := rfl
  simp only [Solana.encodedLength, DynamicInstruction.length, hone, h.signers, h.accounts,
    hindices, hitems, haccounts, hprefix, hcount, hdata, List.length_singleton, List.map_cons,
    List.map_nil, List.sum_cons, List.sum_nil]
  omega

/-- An order names 24 keys and those of the other markets in the basket. -/
theorem doSendOrder_shape {createProgramAddress : ProgramAddress} {client : MangoOrderClient}
    {now : UInt64} {order : Order} {args : TransactionArgs} {mangoTradingPair : MangoTradingPair}
    (hmango : client.mangoReferenceData.tradingPairs[order.tradingPairIndex.toNat]? =
      some mangoTradingPair)
    (h : doSendOrder createProgramAddress client now order = some args) :
    OrderShape args (otherMarkets client.mangoReferenceData.mangoAccount
      mangoTradingPair.mangoTradingPairIndex (List.finRange mangoMaxPairs)).length := by
  simp only [doSendOrder, bind, hmango, Option.bind_some, Option.bind_eq_some_iff] at h
  obtain ⟨serumPair, -, base, -, quote, -, serumBase, -, serumQuote, -, price, -, quantity, -,
    hargs⟩ := h
  rw [foldl_appendOpenOrders] at hargs
  obtain rfl := Option.some.inj hargs
  refine { signers := rfl, accounts := ?table, instructions := ⟨_, rfl, ?indices, rfl⟩ }
  case table =>
    rw [length_accounts]
    simp only [TransactionArgs.signers, List.length_append, List.length_cons, List.length_nil,
      List.length_map]
    omega
  case indices =>
    simp only [placeSpotOrderInstruction, List.length_append, List.length_cons, List.length_nil,
      List.length_map, List.length_range']

/-- **What stays inside the packet.** The constructor writes no byte outside
the buffer exactly when the encoding takes at most 1232 bytes, and the
transaction of an order does so exactly when at most eight other markets are
in the margin basket. -/
theorem fitsPacket_iff (sign : SignFunction) (uninit : ℕ → UInt8) :
    (∀ args, (dynamicTransaction sign uninit args).isSome ↔
      encodedLength args ≤ solanaMaxTransactionSize) ∧
    ∀ createProgramAddress client now order args mangoTradingPair,
      client.mangoReferenceData.tradingPairs[order.tradingPairIndex.toNat]? =
        some mangoTradingPair →
      doSendOrder createProgramAddress client now order = some args →
      ((dynamicTransaction sign uninit args).isSome ↔
        (otherMarkets client.mangoReferenceData.mangoAccount
          mangoTradingPair.mangoTradingPairIndex (List.finRange mangoMaxPairs)).length ≤ 8) := by
  refine ⟨dynamicTransaction_isSome_iff sign uninit, ?_⟩
  intro createProgramAddress client now order args mangoTradingPair hmango hsend
  have hothers := length_otherMarkets_le client.mangoReferenceData.mangoAccount
    mangoTradingPair.mangoTradingPairIndex
  rw [dynamicTransaction_isSome_iff, (doSendOrder_shape hmango hsend).encodedLength hothers,
    solanaMaxTransactionSize]
  omega

/-! ## A basket of two and a basket of eleven -/

/-- The account with the first eleven markets in the margin basket. -/
@[irreducible] def elevenMarketsImage : List UInt8 :=
  sparse MangoAccount.size
    [(8, (keyOf 11).1), (40, (keyOf 10).1), (72, List.replicate 11 1)]

/-- The client after it received that account. -/
def elevenMarketsClient : MangoOrderClient :=
  clientOf { alignedGroup with mangoAccount := ⟨elevenMarketsImage⟩ }

@[irreducible] def alignedArgs : TransactionArgs :=
  (doSendOrder (fun key _ _ => key) (clientOf alignedGroup) 0 anOrder).get (by decide +kernel)

@[irreducible] def elevenMarketsArgs : TransactionArgs :=
  (doSendOrder (fun key _ _ => key) elevenMarketsClient 0 anOrder).get (by decide +kernel)

@[irreducible] def theMangoPair : MangoTradingPair :=
  (alignedGroup.tradingPairs[0]?).get (by decide +kernel)

theorem alignedGroup_pair : alignedGroup.tradingPairs[0]? = some theMangoPair := by
  unfold theMangoPair
  exact (Option.some_get _).symm

/-- An order with no other market in the basket fits. -/
theorem fitsPacket_iff_alignedGroup :
    doSendOrder (fun key _ _ => key) (clientOf alignedGroup) 0 anOrder = some alignedArgs ∧
      (dynamicTransaction lengthSign (fun _ => 0) alignedArgs).isSome := by
  have hsend : doSendOrder (fun key _ _ => key) (clientOf alignedGroup) 0 anOrder =
      some alignedArgs := by
    unfold alignedArgs
    exact (Option.some_get _).symm
  refine ⟨hsend, ((fitsPacket_iff lengthSign fun _ => 0).2 (fun key _ _ => key)
    (clientOf alignedGroup) 0 anOrder alignedArgs theMangoPair alignedGroup_pair hsend).mpr ?_⟩
  decide +kernel

/-- The account decodes, the order is built, and the constructor runs past
the end of its buffer. -/
theorem fitsPacket_elevenMarkets :
    accountToMangoAccount (accountOf 12 elevenMarketsImage) = .ok ⟨elevenMarketsImage⟩ ∧
      doSendOrder (fun key _ _ => key) elevenMarketsClient 0 anOrder = some elevenMarketsArgs ∧
      ¬ (dynamicTransaction lengthSign (fun _ => 0) elevenMarketsArgs).isSome := by
  have hsend : doSendOrder (fun key _ _ => key) elevenMarketsClient 0 anOrder =
      some elevenMarketsArgs := by
    unfold elevenMarketsArgs
    exact (Option.some_get _).symm
  have hdecodes : accountToMangoAccount (accountOf 12 elevenMarketsImage) =
      .ok ⟨elevenMarketsImage⟩ :=
    if_neg (by decide +kernel)
  refine ⟨hdecodes, hsend, ?_⟩
  rw [dynamicTransaction_isSome_iff]
  decide +kernel

end Synthfi.Mango
