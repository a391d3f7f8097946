/-
Synthfi.Mango.MangoOrderTheorems — the accounts of a placed order are the
documented ones.

`PlaceSpotOrderAccounts` is the sequence that the documentation of
`PlaceSpotOrderInstruction` lists, under its names and with its access
marks. `placedAccounts` reads off which accounts an order sent by the client
names, `documentedAccounts` says which they have to be; `placesOrder_iff`
finds when the two agree.

The node banks are where they differ. `MangoReferenceData::currencies` has an
entry for each configured currency; the order client indexes it with the
position of the mint among the tokens of the group.
-/
import Synthfi.Mango.MangoOrder

namespace Synthfi.Mango

open Trading Synthfi.Core Bytes Solana Serum

/-! ## The key table -/

/-- The marks of the documentation: `[]`, `[writable]` and `[signer]`. -/
inductive Access where
  | readOnly
  | writable
  | signer
  deriving DecidableEq, Repr

/-- The key table, with what its sections allow. -/
def keyTable (args : TransactionArgs) : List (PublicKey × Access) :=
  (args.signers.map fun keyPair => (keyPair.hash, Access.signer)) ++
    ((args.writablePublicKeys.map fun key => (key, Access.writable)) ++
      args.readOnlyPublicKeys.map fun key => (key, Access.readOnly))

/-- The account an index of an instruction names. -/
def resolve (args : TransactionArgs) (index : UInt8) : Option (PublicKey × Access) :=
  (keyTable args)[index.toNat]?

/-! ## The documented accounts -/

/-- Accounts expected by `PlaceSpotOrderInstruction`. -/
structure PlaceSpotOrderAccounts where
  mangoGroup : PublicKey
  mangoAccount : PublicKey
  owner : PublicKey
  mangoCache : PublicKey
  dexProg : PublicKey
  spotMarket : PublicKey
  bids : PublicKey
  asks : PublicKey
  dexRequestQueue : PublicKey
  dexEventQueue : PublicKey
  dexBase : PublicKey
  dexQuote : PublicKey
  baseRootBank : PublicKey
  baseNodeBank : PublicKey
  baseVault : PublicKey
  quoteRootBank : PublicKey
  quoteNodeBank : PublicKey
  quoteVault : PublicKey
  tokenProg : PublicKey
  signer : PublicKey
  dexSigner : PublicKey
  msrmVault : PublicKey
  /-- Of the current market. -/
  openOrders : PublicKey
  /-- Of the other markets in the margin basket. -/
  basketOpenOrders : List PublicKey
  deriving DecidableEq, Repr

namespace PlaceSpotOrderAccounts

def toList (accounts : PlaceSpotOrderAccounts) : List (PublicKey × Access) :=
  [ (accounts.mangoGroup, .readOnly),
    (accounts.mangoAccount, .writable),
    (accounts.owner, .signer),
    (accounts.mangoCache, .readOnly),
    (accounts.dexProg, .readOnly),
    (accounts.spotMarket, .writable),
    (accounts.bids, .writable),
    (accounts.asks, .writable),
    (accounts.dexRequestQueue, .writable),
    (accounts.dexEventQueue, .writable),
    (accounts.dexBase, .writable),
    (accounts.dexQuote, .writable),
    (accounts.baseRootBank, .readOnly),
    (accounts.baseNodeBank, .writable),
    (accounts.baseVault, .writable),
    (accounts.quoteRootBank, .readOnly),
    (accounts.quoteNodeBank, .writable),
    (accounts.quoteVault, .writable),
    (accounts.tokenProg, .readOnly),
    (accounts.signer, .readOnly),
    (accounts.dexSigner, .readOnly),
    (accounts.msrmVault, .readOnly),
    (accounts.openOrders, .writable) ] ++
  accounts.basketOpenOrders.map fun key => (key, .readOnly)

/-- The sequence determines which account is which. -/
theorem toList_injective : Function.Injective toList := by
  rintro ⟨⟩ ⟨⟩ h
  have hkey : ∀ a b : PublicKey, (a, Access.readOnly) = (b, Access.readOnly) → a = b := by simp
  simp only [toList, List.cons_append, List.nil_append, List.cons.injEq, Prod.mk.injEq, and_true,
    List.map_inj_right hkey] at h
  simpa using h

end PlaceSpotOrderAccounts

/-! ## The accounts of a sent order -/

/-- The other markets of the margin basket. -/
def otherMarkets (mangoAccount : MangoAccount) (mangoTradingPairIndex : Fin mangoMaxPairs) :
    List (Fin mangoMaxPairs) → List (Fin mangoMaxPairs) :=
  List.filter fun i => mangoAccount.inMarginBasket i && i != mangoTradingPairIndex

/-- The loop gives every one of them a key at the end of the table and the
index of that key. -/
theorem foldl_appendOpenOrders (mangoAccount : MangoAccount)
    (mangoTradingPairIndex : Fin mangoMaxPairs) (markets : List (Fin mangoMaxPairs))
    (accounts : BasketAccounts) :
    markets.foldl (appendOpenOrders mangoAccount mangoTradingPairIndex) accounts =
      let others := otherMarkets mangoAccount mangoTradingPairIndex markets
      { readOnlyPublicKeys :=
          accounts.readOnlyPublicKeys ++ others.map mangoAccount.openOrdersAddresses
        accountIndices := accounts.accountIndices ++
          (List.range' accounts.accountIndexIt others.length).map UInt8.ofNat
        accountIndexIt := accounts.accountIndexIt + others.length } := by
  induction markets generalizing accounts with
  | nil => simp [otherMarkets]
  | cons i markets ih =>
    rw [List.foldl_cons, ih]
    by_cases hi : (mangoAccount.inMarginBasket i && i != mangoTradingPairIndex) = true
    · simp [appendOpenOrders, otherMarkets, hi, List.range'_succ]
      omega
    · simp [appendOpenOrders, otherMarkets, hi]

theorem length_otherMarkets_le (mangoAccount : MangoAccount)
    (mangoTradingPairIndex : Fin mangoMaxPairs) :
    (otherMarkets mangoAccount mangoTradingPairIndex (List.finRange mangoMaxPairs)).length ≤
      15 := by
  simpa [otherMarkets] using List.length_filter_le _ (List.finRange mangoMaxPairs)

/-- Consecutive indices up to the end of a table name the rest of it. -/
theorem map_getElem?_drop {α : Type} {table : List α} (start : ℕ) (h : table.length ≤ 256) :
    ((List.range' start (table.drop start).length).map UInt8.ofNat).map
        (fun index => table[index.toNat]?) = (table.drop start).map some := by
  apply List.ext_getElem
  · simp
  · intro k hk _
    have hk' : k < table.length - start := by simpa using hk
    have hindex : (start + k) % 256 = start + k := Nat.mod_eq_of_lt (by omega)
    simp [hindex]

/-- The accounts that an order names, in terms of the two entries of
`MangoReferenceData::currencies` that were looked up. -/
def placedAccounts (createProgramAddress : ProgramAddress) (client : MangoOrderClient)
    (serumTradingPair : SerumTradingPair) (mangoTradingPair : MangoTradingPair)
    (mangoBaseCurrency mangoQuoteCurrency : MangoCurrency) : PlaceSpotOrderAccounts :=
  let mango := client.mangoReferenceData
  let market := serumTradingPair.serumMarketAccount
  { mangoGroup := mango.mangoAccount.mangoGroupAddress
    mangoAccount := mango.mangoAccountAddress
    owner := client.mangoOwnerKey.hash
    mangoCache := mango.mangoGroup.mangoCache
    dexProg := mango.mangoGroup.dexProgramId
    spotMarket := serumTradingPair.serumMarketAddress
    bids := market.bids
    asks := market.asks
    dexRequestQueue := market.requestQueue
    dexEventQueue := market.eventQueue
    dexBase := market.baseVault
    dexQuote := market.quoteVault
    baseRootBank :=
      (mango.mangoGroup.tokens mangoTradingPair.mangoBaseCurrencyIndex).rootBankAddress
    baseNodeBank := mangoBaseCurrency.nodeBankAddress
    baseVault := mangoBaseCurrency.nodeBank.vaultAddress
    quoteRootBank :=
      (mango.mangoGroup.tokens mangoTradingPair.mangoQuoteCurrencyIndex).rootBankAddress
    quoteNodeBank := mangoQuoteCurrency.nodeBankAddress
    quoteVault := mangoQuoteCurrency.nodeBank.vaultAddress
    tokenProg := client.splTokenProgram
    signer := mango.mangoGroup.signerKey
    dexSigner :=
      createProgramAddress
        (mango.mangoGroup.spotMarkets mangoTradingPair.mangoTradingPairIndex).spotMarketAddress
        client.serumReferenceData.serumProgramId market.vaultSignerNonce
    msrmVault := mango.mangoGroup.msrmVault
    openOrders := mango.mangoAccount.openOrdersAddresses mangoTradingPair.mangoTradingPairIndex
    basketOpenOrders :=
      (otherMarkets mango.mangoAccount mangoTradingPair.mangoTradingPairIndex
        (List.finRange mangoMaxPairs)).map mango.mangoAccount.openOrdersAddresses }

/-- A transaction of one instruction, which names the given program and
accounts. -/
def Names (args : TransactionArgs) (programId : PublicKey) (accounts : PlaceSpotOrderAccounts) :
    Prop :=
  ∃ instruction, args.instructions = [instruction] ∧
    resolve args instruction.programId = some (programId, .readOnly) ∧
    instruction.accountIndices.map (resolve args) = accounts.toList.map some

theorem ne_zero_of_divUInt64 {a b c : UInt64} (h : divUInt64 a b = some c) : b ≠ 0 := by
  rintro rfl
  simp [divUInt64] at h

/-- What a sent order has looked up, and which accounts it names. -/
theorem doSendOrder_names {createProgramAddress : ProgramAddress} {client : MangoOrderClient}
    {now : UInt64} {order : Order} {args : TransactionArgs}
    {i : client.serumReferenceData.PairIndex} (hi : order.tradingPairIndex.toNat = i)
    {mangoTradingPair : MangoTradingPair}
    (hmango : client.mangoReferenceData.tradingPairs[i.val]? = some mangoTradingPair)
    (h : doSendOrder createProgramAddress client now order = some args) :
    ∃ base quote,
      client.mangoReferenceData.currencies[mangoTradingPair.mangoBaseCurrencyIndex.val]? =
        some base ∧
      client.mangoReferenceData.currencies[mangoTradingPair.mangoQuoteCurrencyIndex.val]? =
        some quote ∧
      (client.serumReferenceData.pair i).serumMarketAccount.quoteLotSize ≠ 0 ∧
      (client.serumReferenceData.pair i).serumMarketAccount.baseLotSize ≠ 0 ∧
      Names args client.mangoReferenceData.mangoProgramId
        (placedAccounts createProgramAddress client (client.serumReferenceData.pair i)
          mangoTradingPair base quote) := by
  simp only [doSendOrder, bind, hi, client.serumReferenceData.getElem?_pair, hmango,
    Option.bind_some, Option.bind_eq_some_iff] at h
  obtain ⟨base, hbase, quote, hquote, serumBase, -, serumQuote, -, price, hprice, quantity,
    hquantity, hargs⟩ := h
  rw [foldl_appendOpenOrders] at hargs
  replace hargs := Option.some.inj hargs
  have hrest : (keyTable args).drop 24 =
      ((otherMarkets client.mangoReferenceData.mangoAccount mangoTradingPair.mangoTradingPairIndex
        (List.finRange mangoMaxPairs)).map
          client.mangoReferenceData.mangoAccount.openOrdersAddresses).map
            fun key => (key, Access.readOnly) := by
    rw [← hargs]
    rfl
  have hbound : (keyTable args).length ≤ 256 := by
    have hothers := length_otherMarkets_le client.mangoReferenceData.mangoAccount
      mangoTradingPair.mangoTradingPairIndex
    have hlength := congrArg List.length hrest
    simp only [List.length_drop, List.length_map] at hlength
    omega
  refine ⟨base, quote, hbase, hquote, ?_, ?_, _,
    (congrArg TransactionArgs.instructions hargs).symm, ?_, ?_⟩
  · exact ne_zero_of_divUInt64 hprice
  · exact ne_zero_of_divUInt64 hquantity
  · rw [← hargs]
    rfl
  · dsimp only [placeSpotOrderInstruction]
    rw [List.map_append, PlaceSpotOrderAccounts.toList, List.map_append]
    congr 1
    · -- The hand-numbered table.
      rw [← hargs]
      rfl
    · -- The loop.
      have hcount := congrArg List.length hrest
      simp only [List.length_map] at hcount
      rw [← hcount]
      exact (map_getElem?_drop 24 hbound).trans (congrArg _ hrest)

/-- Nothing stops an order whose lookups find something. -/
theorem exists_doSendOrder (createProgramAddress : ProgramAddress) (client : MangoOrderClient)
    (now : UInt64) {order : Order} (i : client.serumReferenceData.PairIndex)
    (hi : order.tradingPairIndex.toNat = i) {mangoTradingPair : MangoTradingPair}
    (hmango : client.mangoReferenceData.tradingPairs[i.val]? = some mangoTradingPair)
    {base quote : MangoCurrency}
    (hbase : client.mangoReferenceData.currencies[mangoTradingPair.mangoBaseCurrencyIndex.val]? =
      some base)
    (hquote : client.mangoReferenceData.currencies[mangoTradingPair.mangoQuoteCurrencyIndex.val]? =
      some quote)
    (hquoteLots : (client.serumReferenceData.pair i).serumMarketAccount.quoteLotSize ≠ 0)
    (hbaseLots : (client.serumReferenceData.pair i).serumMarketAccount.baseLotSize ≠ 0) :
    ∃ args, doSendOrder createProgramAddress client now order = some args := by
  simp only [doSendOrder, bind, hi, client.serumReferenceData.getElem?_pair, hmango,
    Option.bind_some, hbase, hquote, client.serumReferenceData.getElem?_baseCurrency,
    client.serumReferenceData.getElem?_quoteCurrency, serumPrice, serumQuantity, divUInt64,
    if_neg hquoteLots, if_neg hbaseLots, Option.some.injEq, exists_eq']

/-- A transaction names one program and one sequence of accounts. -/
theorem Names.unique {args : TransactionArgs} {programId programId' : PublicKey}
    {accounts accounts' : PlaceSpotOrderAccounts} (h : Names args programId accounts)
    (h' : Names args programId' accounts') : programId = programId' ∧ accounts = accounts' := by
  obtain ⟨instruction, hone, hprogram, haccounts⟩ := h
  obtain ⟨instruction', hone', hprogram', haccounts'⟩ := h'
  obtain rfl : instruction = instruction' := by simpa [hone] using hone'
  constructor
  · simpa [hprogram] using hprogram'
  · have hlist : accounts.toList.map some = accounts'.toList.map some := by
      rw [← haccounts, haccounts']
    exact PlaceSpotOrderAccounts.toList_injective
      (List.map_injective_iff.mpr (Option.some_injective _) hlist)

/-! ## The documented accounts of an order -/

/-- The bank of a mint: the entry of the configured currency of that mint. -/
def bankOfMint (serum : SerumReferenceData) (mango : MangoReferenceData) (mint : PublicKey) :
    Option MangoCurrency := do
  let currencyIndex ← serum.currencies.findIdx? fun currency => currency.mintAddress = mint
  mango.currencies[currencyIndex]?

/-- The accounts an order on pair `i` has to name. -/
def documentedAccounts (createProgramAddress : ProgramAddress) (client : MangoOrderClient)
    (i : client.serumReferenceData.PairIndex) (marketIndex : Fin mangoMaxPairs)
    (baseBank quoteBank : MangoCurrency) : PlaceSpotOrderAccounts :=
  let mango := client.mangoReferenceData
  let market := (client.serumReferenceData.pair i).serumMarketAccount
  { mangoGroup := mango.mangoAccount.mangoGroupAddress
    mangoAccount := mango.mangoAccountAddress
    owner := mango.mangoAccount.owner
    mangoCache := mango.mangoGroup.mangoCache
    dexProg := mango.mangoGroup.dexProgramId
    spotMarket := (client.serumReferenceData.pair i).serumMarketAddress
    bids := market.bids
    asks := market.asks
    dexRequestQueue := market.requestQueue
    dexEventQueue := market.eventQueue
    dexBase := market.baseVault
    dexQuote := market.quoteVault
    baseRootBank := (mango.mangoGroup.tokens baseBank.mangoCurrencyIndex).rootBankAddress
    baseNodeBank := baseBank.nodeBankAddress
    baseVault := baseBank.nodeBank.vaultAddress
    quoteRootBank := (mango.mangoGroup.tokens quoteBank.mangoCurrencyIndex).rootBankAddress
    quoteNodeBank := quoteBank.nodeBankAddress
    quoteVault := quoteBank.nodeBank.vaultAddress
    tokenProg := client.splTokenProgram
    signer := mango.mangoGroup.signerKey
    dexSigner :=
      createProgramAddress (client.serumReferenceData.pair i).serumMarketAddress
        client.serumReferenceData.serumProgramId market.vaultSignerNonce
    msrmVault := mango.mangoGroup.msrmVault
    openOrders := mango.mangoAccount.openOrdersAddresses marketIndex
    basketOpenOrders :=
      ((List.finRange mangoMaxPairs).filter fun k =>
        mango.mangoAccount.inMarginBasket k && k != marketIndex).map
          mango.mangoAccount.openOrdersAddresses }

/-- The transaction is the documented one: its program is the Mango program
and its accounts are those of the pair's market and mints. -/
def PlacesOrder (createProgramAddress : ProgramAddress) (mangoProgram : PublicKey)
    (client : MangoOrderClient) (i : client.serumReferenceData.PairIndex)
    (args : TransactionArgs) : Prop :=
  let serum := client.serumReferenceData
  let mango := client.mangoReferenceData
  ∃ marketIndex baseBank quoteBank,
    findTradingPairInfo mango.mangoGroup (serum.pair i).serumMarketAddress = .ok marketIndex ∧
    bankOfMint serum mango (serum.pair i).serumMarketAccount.baseMint = some baseBank ∧
    bankOfMint serum mango (serum.pair i).serumMarketAccount.quoteMint = some quoteBank ∧
    Names args mangoProgram
      (documentedAccounts createProgramAddress client i marketIndex baseBank quoteBank)

/-- The entry at the position that a mint has in the group is the bank of
that mint. -/
def BankAligned (serum : SerumReferenceData) (mango : MangoReferenceData) (mint : PublicKey) :
    Prop :=
  ∃ tokenIndex currency bank, mango.mangoGroup.tokenIndex mint = some tokenIndex ∧
    mango.currencies[tokenIndex.val]? = some currency ∧ bankOfMint serum mango mint = some bank ∧
    currency.nodeBankAddress = bank.nodeBankAddress ∧
    currency.nodeBank.vaultAddress = bank.nodeBank.vaultAddress

instance (serum : SerumReferenceData) (mango : MangoReferenceData) (mint : PublicKey) :
    Decidable (BankAligned serum mango mint) :=
  decidable_of_iff
    ((mango.mangoGroup.tokenIndex mint).any fun tokenIndex =>
      mango.currencies[tokenIndex.val]?.any fun currency => (bankOfMint serum mango mint).any
        fun bank => currency.nodeBankAddress = bank.nodeBankAddress ∧
          currency.nodeBank.vaultAddress = bank.nodeBank.vaultAddress) <| by
    simp [BankAligned, Option.any_eq_true]

/-- A bank is aligned if the entry at the token's index has its address and its vault.
-/
theorem bankAligned_iff {serum : SerumReferenceData} {mango : MangoReferenceData} {mint : PublicKey}
    {tokenIndex : Fin mangoMaxTokens} {bank : MangoCurrency}
    (htoken : mango.mangoGroup.tokenIndex mint = some tokenIndex)
    (hbank : bankOfMint serum mango mint = some bank) :
    BankAligned serum mango mint ↔
      ∃ currency, mango.currencies[tokenIndex.val]? = some currency ∧
        currency.nodeBankAddress = bank.nodeBankAddress ∧
        currency.nodeBank.vaultAddress = bank.nodeBank.vaultAddress := by
  simp [BankAligned, htoken, hbank]

/-- What the client needs for an order on pair `i`. -/
@[mk_iff]
structure OrderReady (mangoProgram : PublicKey) (client : MangoOrderClient)
    (i : client.serumReferenceData.PairIndex) : Prop where
  base : BankAligned client.serumReferenceData client.mangoReferenceData
    (client.serumReferenceData.pair i).serumMarketAccount.baseMint
  quote : BankAligned client.serumReferenceData client.mangoReferenceData
    (client.serumReferenceData.pair i).serumMarketAccount.quoteMint
  programId : client.mangoReferenceData.mangoProgramId = mangoProgram
  owner : client.mangoOwnerKey.hash = client.mangoReferenceData.mangoAccount.owner
  baseLots : (client.serumReferenceData.pair i).serumMarketAccount.baseLotSize ≠ 0
  quoteLots : (client.serumReferenceData.pair i).serumMarketAccount.quoteLotSize ≠ 0

instance (mangoProgram : PublicKey) (client : MangoOrderClient)
    (i : client.serumReferenceData.PairIndex) : Decidable (OrderReady mangoProgram client i) :=
  decidable_of_iff' _ (orderReady_iff ..)

/-- A configured mint has a bank, at the position of the mint in the group. -/
theorem exists_bankOfMint {programId₀ : PublicKey} {serum : SerumReferenceData}
    {mango : MangoReferenceData} (hloaded : LoadedReferenceData programId₀ serum mango)
    {mint : PublicKey}
    (hmint : ∃ currency ∈ serum.currencies, currency.mintAddress = mint) :
    ∃ bank, bankOfMint serum mango mint = some bank ∧
      mango.mangoGroup.tokenIndex mint = some bank.mangoCurrencyIndex := by
  have hfound : (serum.currencies.findIdx? fun currency => currency.mintAddress = mint).isSome := by
    simpa using hmint
  obtain ⟨k, hk⟩ := Option.isSome_iff_exists.mp hfound
  obtain ⟨hlt, hsame, -⟩ := List.findIdx?_eq_some_iff_getElem.mp hk
  obtain ⟨bank, hbank, htoken⟩ := hloaded.currencies k _ (List.getElem?_eq_getElem hlt)
  rw [of_decide_eq_true hsame] at htoken
  exact ⟨bank, by simp [bankOfMint, hk, hbank], htoken⟩

/-- The accounts an order names are the documented ones exactly when the
owner is and the four bank keys are. -/
theorem placedAccounts_eq_iff (createProgramAddress : ProgramAddress) {client : MangoOrderClient}
    {i : client.serumReferenceData.PairIndex} {mangoTradingPair : MangoTradingPair}
    {base quote baseBank quoteBank : MangoCurrency}
    (hmarket : (client.mangoReferenceData.mangoGroup.spotMarkets
      mangoTradingPair.mangoTradingPairIndex).spotMarketAddress =
        (client.serumReferenceData.pair i).serumMarketAddress)
    (hbase : baseBank.mangoCurrencyIndex = mangoTradingPair.mangoBaseCurrencyIndex)
    (hquote : quoteBank.mangoCurrencyIndex = mangoTradingPair.mangoQuoteCurrencyIndex) :
    placedAccounts createProgramAddress client (client.serumReferenceData.pair i) mangoTradingPair
        base quote =
      documentedAccounts createProgramAddress client i mangoTradingPair.mangoTradingPairIndex
        baseBank quoteBank ↔
    client.mangoOwnerKey.hash = client.mangoReferenceData.mangoAccount.owner ∧
      (base.nodeBankAddress = baseBank.nodeBankAddress ∧
        base.nodeBank.vaultAddress = baseBank.nodeBank.vaultAddress) ∧
      (quote.nodeBankAddress = quoteBank.nodeBankAddress ∧
        quote.nodeBank.vaultAddress = quoteBank.nodeBank.vaultAddress) := by
  simp only [placedAccounts, documentedAccounts, otherMarkets, hmarket, hbase, hquote,
    PlaceSpotOrderAccounts.mk.injEq, true_and, and_true, and_assoc]

/-- **Place-order accounts.** With reference data that the two clients
loaded, and whatever Mango account was received since, an order on a
configured pair is sent with the documented accounts exactly when the client
is ready for it: the entry at the position of each mint in the group is the
bank of that mint, and the program id, the owner key and the lot sizes are
there. -/
theorem placesOrder_iff {getMarkets getMints : AccountBatcher}
    {serumMarketAddresses mintAddresses : List PublicKey} {answers : MangoAnswers}
    {programId₀ mangoAccountAddress : PublicKey} {client : MangoOrderClient}
    {mango : MangoReferenceData}
    (hserum : Serum.doLoadReferenceData getMarkets getMints serumMarketAddresses mintAddresses =
      .ok client.serumReferenceData)
    (hmango : doLoadReferenceData answers programId₀ client.serumReferenceData
      mangoAccountAddress = .ok mango)
    (hclient : client.mangoReferenceData =
      { mango with mangoAccount := client.mangoReferenceData.mangoAccount })
    (createProgramAddress : ProgramAddress) (mangoProgram : PublicKey) (now : UInt64)
    {order : Order} (i : client.serumReferenceData.PairIndex)
    (hi : order.tradingPairIndex.toNat = i) :
    (∃ args, doSendOrder createProgramAddress client now order = some args ∧
      PlacesOrder createProgramAddress mangoProgram client i args) ↔
    OrderReady mangoProgram client i := by
  have hloaded : LoadedReferenceData programId₀ client.serumReferenceData
      client.mangoReferenceData :=
    hclient ▸ (loadedReferenceData_of_load hmango).with_mangoAccount _
  -- The three index spaces of pair `i`.
  obtain ⟨mangoPair, hmangoPair, hfound⟩ := hloaded.pairs i _ (SerumReferenceData.getElem?_pair _ i)
  have hmarket := spotMarketAddress_of_find hfound.market_found
  have hserumPair := loadedPair_of_load hserum i
  obtain ⟨baseIndex, hbaseIndex, -⟩ := hserumPair.base_found
  obtain ⟨quoteIndex, hquoteIndex, -⟩ := hserumPair.quote_found
  have hmints := mintAddresses_of_load hserum
  obtain ⟨baseBank, hbaseBank, hbaseToken⟩ :=
    exists_bankOfMint hloaded (exists_currency_of_findCurrency hmints hbaseIndex)
  obtain ⟨quoteBank, hquoteBank, hquoteToken⟩ :=
    exists_bankOfMint hloaded (exists_currency_of_findCurrency hmints hquoteIndex)
  have hbaseSame : baseBank.mangoCurrencyIndex = mangoPair.mangoBaseCurrencyIndex :=
    Option.some.inj (hbaseToken.symm.trans hfound.base_found)
  have hquoteSame : quoteBank.mangoCurrencyIndex = mangoPair.mangoQuoteCurrencyIndex :=
    Option.some.inj (hquoteToken.symm.trans hfound.quote_found)
  have hbaseAligned := bankAligned_iff hfound.base_found hbaseBank
  have hquoteAligned := bankAligned_iff hfound.quote_found hquoteBank
  constructor
  · rintro ⟨args, hsend, marketIndex, base', quote', hmarketIndex, hbase', hquote', hnames⟩
    obtain rfl : marketIndex = mangoPair.mangoTradingPairIndex :=
      Except.ok.inj (hmarketIndex.symm.trans hfound.market_found)
    obtain rfl : base' = baseBank := Option.some.inj (hbase'.symm.trans hbaseBank)
    obtain rfl : quote' = quoteBank := Option.some.inj (hquote'.symm.trans hquoteBank)
    obtain ⟨base, quote, hbase, hquote, hquoteLots, hbaseLots, hplaced⟩ :=
      doSendOrder_names hi hmangoPair hsend
    obtain ⟨hprogram, haccounts⟩ := hplaced.unique hnames
    obtain ⟨howner, hbaseKeys, hquoteKeys⟩ :=
      (placedAccounts_eq_iff createProgramAddress hmarket hbaseSame hquoteSame).mp haccounts
    exact
      { base := hbaseAligned.mpr ⟨base, hbase, hbaseKeys⟩
        quote := hquoteAligned.mpr ⟨quote, hquote, hquoteKeys⟩
        programId := hprogram
        owner := howner
        baseLots := hbaseLots
        quoteLots := hquoteLots }
  · rintro ⟨hbase, hquote, hprogram, howner, hbaseLots, hquoteLots⟩
    obtain ⟨base, hbase, hbaseKeys⟩ := hbaseAligned.mp hbase
    obtain ⟨quote, hquote, hquoteKeys⟩ := hquoteAligned.mp hquote
    obtain ⟨args, hsend⟩ := exists_doSendOrder createProgramAddress client now i hi hmangoPair hbase
      hquote hquoteLots hbaseLots
    obtain ⟨base', quote', hbase', hquote', -, -, hplaced⟩ := doSendOrder_names hi hmangoPair hsend
    obtain rfl : base = base' := Option.some.inj (hbase.symm.trans hbase')
    obtain rfl : quote = quote' := Option.some.inj (hquote.symm.trans hquote')
    rw [hprogram, (placedAccounts_eq_iff createProgramAddress hmarket hbaseSame hquoteSame).mpr
      ⟨howner, hbaseKeys, hquoteKeys⟩] at hplaced
    exact ⟨args, hsend, _, baseBank, quoteBank, hfound.market_found, hbaseBank, hquoteBank, hplaced⟩

/-! ## Orders on one market -/

/-- Market 1, of base mint 2 and quote mint 3. -/
@[irreducible] def oneMarket : SerumReferenceData :=
  (loadOneMarket 6 6 1000000 100).toOption.get (by decide +kernel)

theorem oneMarket_loaded : loadOneMarket 6 6 1000000 100 = .ok oneMarket := by
  unfold oneMarket
  exact ExceptList.eq_ok_get _

/-- The load in a group with the given first two tokens. -/
def loadOneMarketGroup (first second : UInt8) : Except SynthfiError MangoReferenceData :=
  doLoadReferenceData (oneMarketAnswers first second) (keyOf 12) oneMarket (keyOf 13)

/-- The tokens of the group stand in the order of the configured mints. -/
@[irreducible] def alignedGroup : MangoReferenceData :=
  (loadOneMarketGroup 2 3).toOption.get (by decide +kernel)

theorem alignedGroup_loaded : loadOneMarketGroup 2 3 = .ok alignedGroup := by
  unfold alignedGroup
  exact ExceptList.eq_ok_get _

/-- The tokens of the group stand the other way round. -/
@[irreducible] def swappedGroup : MangoReferenceData :=
  (loadOneMarketGroup 3 2).toOption.get (by decide +kernel)

theorem swappedGroup_loaded : loadOneMarketGroup 3 2 = .ok swappedGroup := by
  unfold swappedGroup
  exact ExceptList.eq_ok_get _

def clientOf (mango : MangoReferenceData) : MangoOrderClient :=
  ⟨oneMarket, mango, ⟨keyOf 10, keyOf 0⟩, keyOf 70, keyOf 71⟩

def thePair (mango : MangoReferenceData) : (clientOf mango).serumReferenceData.PairIndex :=
  ⟨0, by show 0 < oneMarket.tradingPairs.length; decide +kernel⟩

def anOrder : Order := ⟨.bid, 1, 0, 1, 0, 0, .limit, 0⟩

/-- Where the entries stand at their indices, the order names the documented accounts.
-/
theorem placesOrder_iff_alignedGroup :
    ∃ args, doSendOrder (fun key _ _ => key) (clientOf alignedGroup) 0 anOrder = some args ∧
      PlacesOrder (fun key _ _ => key) (keyOf 12) (clientOf alignedGroup) (thePair _) args := by
  have hready : OrderReady (keyOf 12) (clientOf alignedGroup) (thePair _) := by decide +kernel
  exact (@placesOrder_iff _ _ _ _ _ _ _ (clientOf alignedGroup) _ oneMarket_loaded
    alignedGroup_loaded rfl (fun key _ _ => key) (keyOf 12) 0 anOrder (thePair _) rfl).mpr hready

/-- The transaction of an order in the swapped group. -/
@[irreducible] def swappedArgs : TransactionArgs :=
  (doSendOrder (fun key _ _ => key) (clientOf swappedGroup) 0 anOrder).get (by decide +kernel)

/-- The order is sent, and the base node bank it names (43) is that of the
quote mint; the base mint has node bank 42. -/
theorem placesOrder_fails :
    loadOneMarket 6 6 1000000 100 = .ok oneMarket ∧ loadOneMarketGroup 3 2 = .ok swappedGroup ∧
    ∃ args, doSendOrder (fun key _ _ => key) (clientOf swappedGroup) 0 anOrder = some args ∧
      (args.instructions.map fun instruction =>
        instruction.accountIndices[13]?.bind (resolve args)) =
        [some (keyOf 43, .writable)] ∧
      (bankOfMint oneMarket swappedGroup (keyOf 2)).map MangoCurrency.nodeBankAddress =
        some (keyOf 42) ∧
      ¬ PlacesOrder (fun key _ _ => key) (keyOf 12) (clientOf swappedGroup) (thePair _) args := by
  have hsend : doSendOrder (fun key _ _ => key) (clientOf swappedGroup) 0 anOrder =
      some swappedArgs := by
    unfold swappedArgs
    exact (Option.some_get _).symm
  have hplaced : (swappedArgs.instructions.map fun instruction =>
      instruction.accountIndices[13]?.bind (resolve swappedArgs)) =
        [some (keyOf 43, .writable)] := by decide +kernel
  have hbank : (bankOfMint oneMarket swappedGroup (keyOf 2)).map MangoCurrency.nodeBankAddress =
      some (keyOf 42) := by decide +kernel
  have hmint : (oneMarket.pair (thePair swappedGroup)).serumMarketAccount.baseMint = keyOf 2 := by
    decide +kernel
  refine ⟨oneMarket_loaded, swappedGroup_loaded, swappedArgs, hsend, hplaced, hbank, ?_⟩
  rintro ⟨marketIndex, baseBank, quoteBank, -, hbase, -, instruction, hone, -, haccounts⟩
  have hbase' : bankOfMint oneMarket swappedGroup (keyOf 2) = some baseBank := hmint ▸ hbase
  have hdocumented : instruction.accountIndices[13]?.bind (resolve swappedArgs) =
      some (baseBank.nodeBankAddress, .writable) := by
    have hat : instruction.accountIndices[13]?.map (resolve swappedArgs) =
        some (some (baseBank.nodeBankAddress, .writable)) :=
      List.getElem?_map.symm.trans (congrArg (fun accounts => accounts[13]?) haccounts)
    obtain ⟨index, hindex, hresolve⟩ := Option.map_eq_some_iff.mp hat
    rw [hindex, Option.bind_some, hresolve]
  have hnode : baseBank.nodeBankAddress = keyOf 43 := by
    simpa [hone, hdocumented] using hplaced
  rw [hbase', Option.map_some, hnode] at hbank
  exact absurd hbank (by decide)

end Synthfi.Mango
