/-
Synthfi.Mango.MangoCancelTheorems — the accounts of a cancelled order.

The two structures are the sequences that the documentation of
`CancelSpotOrderInstruction` and `SettleFundsInstruction` lists, under its
names and with its access marks. The cancelled order is named right; the
settlement names 17 accounts for 18: the market is left out and the bids
stand for the Mango account.
-/
import Synthfi.Mango.MangoCancel
import Synthfi.Mango.MangoOrderTheorems

namespace Synthfi.Mango

open Trading Synthfi.Core Bytes Solana Serum

/-! ## The documented accounts -/

/-- Accounts expected by `CancelSpotOrderInstruction`. -/
structure CancelSpotOrderAccounts where
  market : PublicKey
  bids : PublicKey
  asks : PublicKey
  openOrders : PublicKey
  owner : PublicKey
  eventQ : PublicKey
  deriving DecidableEq, Repr

def CancelSpotOrderAccounts.toList (accounts : CancelSpotOrderAccounts) :
    List (PublicKey × Access) :=
  [ (accounts.market, .writable),
    (accounts.bids, .writable),
    (accounts.asks, .writable),
    (accounts.openOrders, .writable),
    (accounts.owner, .signer),
    (accounts.eventQ, .writable) ]

/-- Accounts expected by `SettleFundsInstruction`. -/
structure SettleFundsAccounts where
  mangoGroup : PublicKey
  mangoCache : PublicKey
  owner : PublicKey
  mangoAccount : PublicKey
  dexProg : PublicKey
  spotMarket : PublicKey
  openOrders : PublicKey
  signer : PublicKey
  dexBase : PublicKey
  dexQuote : PublicKey
  baseRootBank : PublicKey
  baseNodeBank : PublicKey
  quoteRootBank : PublicKey
  quoteNodeBank : PublicKey
  baseVault : PublicKey
  quoteVault : PublicKey
  dexSigner : PublicKey
  tokenProg : PublicKey
  deriving DecidableEq, Repr

def SettleFundsAccounts.toList (accounts : SettleFundsAccounts) : List (PublicKey × Access) :=
  [ (accounts.mangoGroup, .readOnly),
    (accounts.mangoCache, .readOnly),
    (accounts.owner, .signer),
    (accounts.mangoAccount, .writable),
    (accounts.dexProg, .readOnly),
    (accounts.spotMarket, .writable),
    (accounts.openOrders, .writable),
    (accounts.signer, .readOnly),
    (accounts.dexBase, .writable),
    (accounts.dexQuote, .writable),
    (accounts.baseRootBank, .readOnly),
    (accounts.baseNodeBank, .writable),
    (accounts.quoteRootBank, .readOnly),
    (accounts.quoteNodeBank, .writable),
    (accounts.baseVault, .writable),
    (accounts.quoteVault, .writable),
    (accounts.dexSigner, .readOnly),
    (accounts.tokenProg, .readOnly) ]

/-- The transaction is two instructions, whose indices name the given
accounts. -/
def NamesBoth (args : TransactionArgs) (cancelAccounts settleAccounts : List (PublicKey × Access)) :
    Prop :=
  ∃ cancel settle, args.instructions = [cancel, settle] ∧
    cancel.accountIndices.map (resolve args) = cancelAccounts.map some ∧
    settle.accountIndices.map (resolve args) = settleAccounts.map some

/-- A transaction names as many accounts to settle as it has indices. -/
theorem NamesBoth.length_settle_eq {args : TransactionArgs}
    {cancelAccounts cancelAccounts' settleAccounts settleAccounts' : List (PublicKey × Access)}
    (h : NamesBoth args cancelAccounts settleAccounts)
    (h' : NamesBoth args cancelAccounts' settleAccounts') :
    settleAccounts.length = settleAccounts'.length := by
  obtain ⟨cancel, settle, hboth, -, hsettle⟩ := h
  obtain ⟨cancel', settle', hboth', -, hsettle'⟩ := h'
  obtain rfl : settle = settle' := by simp_all
  simpa using congrArg List.length (hsettle.symm.trans hsettle')

section Pair

variable (createProgramAddress : ProgramAddress) (client : MangoOrderClient)
  (i : client.serumReferenceData.PairIndex)

/-- The accounts to cancel an order on pair `i` with. -/
def documentedCancel (marketIndex : Fin mangoMaxPairs) : CancelSpotOrderAccounts :=
  let mango := client.mangoReferenceData
  let market := (client.serumReferenceData.pair i).serumMarketAccount
  { market := (client.serumReferenceData.pair i).serumMarketAddress
    bids := market.bids
    asks := market.asks
    openOrders := mango.mangoAccount.openOrdersAddresses marketIndex
    owner := mango.mangoAccount.owner
    eventQ := market.eventQueue }

/-- The accounts to settle the funds of pair `i` with. -/
def documentedSettle (marketIndex : Fin mangoMaxPairs) (baseBank quoteBank : MangoCurrency) :
    SettleFundsAccounts :=
  let mango := client.mangoReferenceData
  let market := (client.serumReferenceData.pair i).serumMarketAccount
  { mangoGroup := mango.mangoAccount.mangoGroupAddress
    mangoCache := mango.mangoGroup.mangoCache
    owner := mango.mangoAccount.owner
    mangoAccount := mango.mangoAccountAddress
    dexProg := mango.mangoGroup.dexProgramId
    spotMarket := (client.serumReferenceData.pair i).serumMarketAddress
    openOrders := mango.mangoAccount.openOrdersAddresses marketIndex
    signer := mango.mangoGroup.signerKey
    dexBase := market.baseVault
    dexQuote := market.quoteVault
    baseRootBank := (mango.mangoGroup.tokens baseBank.mangoCurrencyIndex).rootBankAddress
    baseNodeBank := baseBank.nodeBankAddress
    quoteRootBank := (mango.mangoGroup.tokens quoteBank.mangoCurrencyIndex).rootBankAddress
    quoteNodeBank := quoteBank.nodeBankAddress
    baseVault := baseBank.nodeBank.vaultAddress
    quoteVault := quoteBank.nodeBank.vaultAddress
    dexSigner :=
      createProgramAddress (client.serumReferenceData.pair i).serumMarketAddress
        client.serumReferenceData.serumProgramId market.vaultSignerNonce
    tokenProg := client.splTokenProgram }

/-- The transaction is the documented one: its accounts are those of the
pair's market and mints. -/
def CancelsAndSettles (args : TransactionArgs) : Prop :=
  let serum := client.serumReferenceData
  let mango := client.mangoReferenceData
  ∃ marketIndex baseBank quoteBank,
    findTradingPairInfo mango.mangoGroup (serum.pair i).serumMarketAddress = .ok marketIndex ∧
    bankOfMint serum mango (serum.pair i).serumMarketAccount.baseMint = some baseBank ∧
    bankOfMint serum mango (serum.pair i).serumMarketAccount.quoteMint = some quoteBank ∧
    NamesBoth args (documentedCancel client i marketIndex).toList
      (documentedSettle createProgramAddress client i marketIndex baseBank quoteBank).toList

/-! ## The named accounts -/

/-- The accounts the first instruction names. -/
def placedCancel (mangoTradingPair : MangoTradingPair) : CancelSpotOrderAccounts :=
  { documentedCancel client i mangoTradingPair.mangoTradingPairIndex with
    owner := client.mangoOwnerKey.hash }

/-- The accounts the settlement would name with the market in its place, in
terms of the two entries of `MangoReferenceData::currencies` that were looked
up. -/
def placedSettle (mangoTradingPair : MangoTradingPair) (base quote : MangoCurrency) :
    SettleFundsAccounts :=
  let mangoGroup := client.mangoReferenceData.mangoGroup
  { documentedSettle createProgramAddress client i mangoTradingPair.mangoTradingPairIndex base
      quote with
    owner := client.mangoOwnerKey.hash
    baseRootBank := (mangoGroup.tokens mangoTradingPair.mangoBaseCurrencyIndex).rootBankAddress
    quoteRootBank := (mangoGroup.tokens mangoTradingPair.mangoQuoteCurrencyIndex).rootBankAddress
    dexSigner :=
      createProgramAddress
        (mangoGroup.spotMarkets mangoTradingPair.mangoTradingPairIndex).spotMarketAddress
        client.serumReferenceData.serumProgramId
        (client.serumReferenceData.pair i).serumMarketAccount.vaultSignerNonce }

/-- What the settlement names: the bids stand where the Mango account should,
and nothing stands where the market should. -/
def namedSettle (accounts : SettleFundsAccounts) (bids : PublicKey) : List (PublicKey × Access) :=
  (accounts.toList.set 3 (bids, .writable)).eraseIdx 5

variable {createProgramAddress client i}

/-- What a cancelled order has looked up, and which accounts it names. -/
theorem doCancelOrder_names {order : Order} {args : TransactionArgs}
    (hi : order.tradingPairIndex.toNat = i)
    (h : doCancelOrder createProgramAddress client order = some args) :
    ∃ mangoTradingPair base quote,
      client.mangoReferenceData.tradingPairs[i.val]? = some mangoTradingPair ∧
      client.mangoReferenceData.currencies[mangoTradingPair.mangoBaseCurrencyIndex.val]? =
        some base ∧
      client.mangoReferenceData.currencies[mangoTradingPair.mangoQuoteCurrencyIndex.val]? =
        some quote ∧
      NamesBoth args (placedCancel client i mangoTradingPair).toList
        (namedSettle (placedSettle createProgramAddress client i mangoTradingPair base quote)
          (client.serumReferenceData.pair i).serumMarketAccount.bids) := by
  simp only [doCancelOrder, bind, hi, client.serumReferenceData.getElem?_pair, Option.bind_some,
    Option.bind_eq_some_iff] at h
  obtain ⟨mangoPair, hmango, base, hbase, quote, hquote, serumBase, -, serumQuote, -, price, -,
    hargs⟩ := h
  replace hargs := Option.some.inj hargs
  refine ⟨mangoPair, base, quote, hmango, hbase, hquote, _, _,
    (congrArg TransactionArgs.instructions hargs).symm, ?_, ?_⟩
  · rw [← hargs]
    rfl
  · rw [← hargs]
    rfl

end Pair

/-- **Cancel and settle accounts.** Every cancelled order names the accounts
of its first instruction as documented, the owner being that of the client,
and 17 for its second; none is sent with the documented accounts. -/
theorem cancelsAndSettles_never (createProgramAddress : ProgramAddress) (client : MangoOrderClient)
    {order : Order} (i : client.serumReferenceData.PairIndex)
    (hi : order.tradingPairIndex.toNat = i) :
    (∀ args, doCancelOrder createProgramAddress client order = some args →
      ∃ mangoTradingPair base quote,
        client.mangoReferenceData.tradingPairs[i.val]? = some mangoTradingPair ∧
        client.mangoReferenceData.currencies[mangoTradingPair.mangoBaseCurrencyIndex.val]? =
          some base ∧
        client.mangoReferenceData.currencies[mangoTradingPair.mangoQuoteCurrencyIndex.val]? =
          some quote ∧
        NamesBoth args (placedCancel client i mangoTradingPair).toList
          (namedSettle (placedSettle createProgramAddress client i mangoTradingPair base quote)
            (client.serumReferenceData.pair i).serumMarketAccount.bids)) ∧
    ¬ ∃ args, doCancelOrder createProgramAddress client order = some args ∧
      CancelsAndSettles createProgramAddress client i args := by
  refine ⟨fun args hargs => doCancelOrder_names hi hargs, ?_⟩
  intro hcancels
  obtain ⟨args, hargs, marketIndex, baseBank, quoteBank, -, -, -, hdocumented⟩ := hcancels
  obtain ⟨mangoPair, base, quote, -, -, -, hnamed⟩ := doCancelOrder_names hi hargs
  -- 17 accounts for 18.
  have hlength : 17 = 18 := hnamed.length_settle_eq hdocumented
  exact absurd hlength (by decide)

theorem cancelsAndSettles_never_alignedGroup :
    ¬ ∃ args, doCancelOrder (fun key _ _ => key) (clientOf alignedGroup) anOrder = some args ∧
      CancelsAndSettles (fun key _ _ => key) (clientOf alignedGroup) (thePair _) args :=
  (@cancelsAndSettles_never (fun key _ _ => key) (clientOf alignedGroup) anOrder (thePair _) rfl).2

/-- The client is ready for orders on the pair; the settlement of its
cancelled order names the bids (68) as the Mango account, and the open orders
(51) where the market should be. -/
theorem cancelsAndSettles_fails :
    OrderReady (keyOf 12) (clientOf alignedGroup) (thePair _) ∧
    ∃ args, doCancelOrder (fun key _ _ => key) (clientOf alignedGroup) anOrder = some args ∧
      (args.instructions.flatMap fun instruction =>
        ((instruction.accountIndices.map (resolve args)).drop 3).take 3) =
        [some (keyOf 51, .writable), some (keyOf 10, .signer), some (keyOf 67, .writable),
          some (keyOf 68, .writable), some (keyOf 31, .readOnly), some (keyOf 51, .writable)] ∧
      ¬ CancelsAndSettles (fun key _ _ => key) (clientOf alignedGroup) (thePair _) args := by
  have hnamed : (doCancelOrder (fun key _ _ => key) (clientOf alignedGroup) anOrder).map
      (fun args => args.instructions.flatMap fun instruction =>
        ((instruction.accountIndices.map (resolve args)).drop 3).take 3) =
      some [some (keyOf 51, .writable), some (keyOf 10, .signer), some (keyOf 67, .writable),
        some (keyOf 68, .writable), some (keyOf 31, .readOnly), some (keyOf 51, .writable)] := by
    decide +kernel
  obtain ⟨args, hargs, hthree⟩ := Option.map_eq_some_iff.mp hnamed
  refine ⟨by decide +kernel, args, hargs, hthree, ?_⟩
  intro hdocumented
  obtain ⟨marketIndex, baseBank, quoteBank, -, -, -, hboth⟩ := hdocumented
  obtain ⟨mangoPair, base, quote, -, -, -, hplaced⟩ :=
    doCancelOrder_names (i := thePair alignedGroup) rfl hargs
  have hlength : 17 = 18 := hplaced.length_settle_eq hboth
  exact absurd hlength (by decide)

end Synthfi.Mango
