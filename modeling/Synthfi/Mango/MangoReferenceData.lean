/-
Synthfi.Mango.MangoReferenceData — loading the Mango reference data
(`Mango/MangoReferenceDataClient/MangoReferenceDataClientImpl.cpp`).

`doLoadReferenceData` is `do_load_reference_data`; the six answers of the
account batcher are parameters. Statistics and the wake-up of waiting
clients are not modelled.

Two things are easy to miss in the source. The open orders accounts are
requested before the trading pairs have their market index, so every pair
uses the open orders address of market 0. And `mangoProgramId` is never
assigned: it keeps whatever the object held, here `programId₀`.
-/
import Synthfi.Mango.MangoTypes
import Synthfi.Serum.SerumReferenceData

namespace Synthfi.Mango

open Synthfi.Core Bytes Solana Serum

/-- The answers to the requests of one load. -/
structure MangoAnswers where
  getMangoAccount : PublicKey → Except SynthfiError AccountInfo
  getMangoGroup : PublicKey → Except SynthfiError AccountInfo
  getMangoCache : PublicKey → Except SynthfiError AccountInfo
  getRootBankAccounts : AccountBatcher
  getOpenOrdersAccounts : AccountBatcher
  getNodeBankAccounts : AccountBatcher

/-- Position of a mint among the tokens of the group. -/
def MangoGroupAccount.tokenIndex (group : MangoGroupAccount) (mint : PublicKey) :
    Option (Fin mangoMaxTokens) :=
  (List.finRange mangoMaxTokens).find? fun i => (group.tokens i).mintAddress = mint

def findTokenInfo (group : MangoGroupAccount) (what : String) (mint : PublicKey) :
    Except SynthfiError (Fin mangoMaxTokens) :=
  match group.tokenIndex mint with
  | some index => .ok index
  | none => .error ⟨what⟩

/-- Position of a market among the spot markets of the group. -/
def findTradingPairInfo (group : MangoGroupAccount) (serumMarketAddress : PublicKey) :
    Except SynthfiError (Fin mangoMaxPairs) :=
  match (List.finRange mangoMaxPairs).find? fun i =>
      serumMarketAddress = (group.spotMarkets i).spotMarketAddress with
  | some index => .ok index
  | none => .error ⟨"MangoGroup missing configured trading pair"⟩

/-- The first node bank of a root bank; the address stays zero when there is
none. -/
def firstNodeBank (rootBank : RootBank) : PublicKey :=
  (((List.finRange mangoMaxNodeBanks).map rootBank.nodeBanks).find? fun nodeBank =>
    !nodeBank.isZero).getD (ByteArr.fill 32 0)

/-- The open orders address of a pair whose market index is not set yet. -/
def openOrdersAddress (mangoAccount : MangoAccount) (_ : SerumTradingPair) :
    Except SynthfiError PublicKey :=
  let mangoTradingPairIndex : Fin mangoMaxPairs := 0
  let address := mangoAccount.openOrdersAddresses mangoTradingPairIndex
  if address.isZero then .error ⟨"MangoGroup missing open orders address"⟩ else .ok address

/-- Validate one configured trading pair is tradable on mango. -/
def loadTradingPair (group : MangoGroupAccount) (serumTradingPair : SerumTradingPair)
    (openOrdersInfo : Option AccountInfo) : Except SynthfiError MangoTradingPair := do
  let mangoTradingPairIndex ← findTradingPairInfo group serumTradingPair.serumMarketAddress
  let mangoBaseCurrencyIndex ← findTokenInfo group "MangoGroup missing base token"
    serumTradingPair.serumMarketAccount.baseMint
  let mangoQuoteCurrencyIndex ← findTokenInfo group "MangoGroup missing quote token"
    serumTradingPair.serumMarketAccount.quoteMint
  let openOrdersAccount ← unchecked openOrdersInfo >>= accountToSerumOpenOrdersAccount
  .ok ⟨mangoTradingPairIndex, mangoBaseCurrencyIndex, mangoQuoteCurrencyIndex, openOrdersAccount⟩

/-- One currency of the reference data. -/
def makeCurrency (mangoCurrencyIndex : Fin mangoMaxTokens) (rootBank : RootBank)
    (nodeBank : NodeBank) : MangoCurrency :=
  ⟨mangoCurrencyIndex, firstNodeBank rootBank, nodeBank, rootBank⟩

def makeCurrencies : List (Fin mangoMaxTokens) → List RootBank → List NodeBank →
    List MangoCurrency
  | index :: indices, rootBank :: rootBanks, nodeBank :: nodeBanks =>
    makeCurrency index rootBank nodeBank :: makeCurrencies indices rootBanks nodeBanks
  | _, _, _ => []

def doLoadReferenceData (answers : MangoAnswers) (programId₀ : PublicKey)
    (serumReferenceData : SerumReferenceData) (mangoAccountAddress : PublicKey) :
    Except SynthfiError MangoReferenceData := do
  -- Load mango account, mango group and mango cache.
  let mangoAccount ← answers.getMangoAccount mangoAccountAddress >>= accountToMangoAccount
  let mangoGroup ← answers.getMangoGroup mangoAccount.mangoGroupAddress >>=
    accountToMangoGroupAccount
  let mangoCache ← answers.getMangoCache mangoGroup.mangoCache >>= accountToMangoCacheAccount
  -- Validate configured currencies are tradable on mango.
  let tokenIndices ← serumReferenceData.currencies.mapM fun currency =>
    findTokenInfo mangoGroup "MangoGroup missing configured currency" currency.mintAddress
  let rootBankAddresses := tokenIndices.map fun i => (mangoGroup.tokens i).rootBankAddress
  let rootBankInfos ← answers.getRootBankAccounts rootBankAddresses
  let rootBanks ← readEach accountToRootBank rootBankAddresses rootBankInfos
  let nodeBankAddresses := rootBanks.map firstNodeBank
  -- Load open orders accounts.
  let openOrdersAddresses ← serumReferenceData.tradingPairs.mapM (openOrdersAddress mangoAccount)
  let openOrdersInfos ← answers.getOpenOrdersAccounts openOrdersAddresses
  -- Load node bank accounts.
  let nodeBankInfos ← answers.getNodeBankAccounts nodeBankAddresses
  let nodeBanks ← readEach accountToNodeBank nodeBankAddresses nodeBankInfos
  -- Validate configured trading pairs are tradable on mango.
  let tradingPairs ← serumReferenceData.tradingPairs.zipIdx.mapM fun entry =>
    loadTradingPair mangoGroup entry.1 openOrdersInfos[entry.2]?
  .ok
    { mangoAccountAddress, mangoProgramId := programId₀, mangoGroup, mangoAccount, mangoCache
      tradingPairs, currencies := makeCurrencies tokenIndices rootBanks nodeBanks }

/-! ## What a load leaves -/

/-- What was found does not depend on the text of the error. -/
theorem findTokenInfo_eq_ok {group : MangoGroupAccount} {what : String} {mint : PublicKey}
    {index : Fin mangoMaxTokens} :
    findTokenInfo group what mint = .ok index ↔ group.tokenIndex mint = some index := by
  unfold findTokenInfo
  split
  · next found h => simp [h]
  · next h => simp [h]

/-- The market found is the one looked for. -/
theorem spotMarketAddress_of_find {group : MangoGroupAccount} {serumMarketAddress : PublicKey}
    {index : Fin mangoMaxPairs} (h : findTradingPairInfo group serumMarketAddress = .ok index) :
    (group.spotMarkets index).spotMarketAddress = serumMarketAddress := by
  unfold findTradingPairInfo at h
  split at h
  · next found hfound =>
    obtain rfl := Except.ok.inj h
    have hsame : serumMarketAddress = (group.spotMarkets found).spotMarketAddress := by
      simpa using List.find?_some hfound
    exact hsame.symm
  · cases h

/-- The three lists are read side by side. -/
theorem makeCurrencies_eq_map (indices : List (Fin mangoMaxTokens)) (rootBanks : List RootBank)
    (nodeBanks : List NodeBank) :
    makeCurrencies indices rootBanks nodeBanks =
      (indices.zip (rootBanks.zip nodeBanks)).map fun entry =>
        makeCurrency entry.1 entry.2.1 entry.2.2 := by
  induction indices generalizing rootBanks nodeBanks with
  | nil => rfl
  | cons index indices ih =>
    cases rootBanks with
    | nil => rfl
    | cons rootBank rootBanks =>
      cases nodeBanks with
      | nil => rfl
      | cons nodeBank nodeBanks => simp [makeCurrencies, ih]

theorem length_makeCurrencies {indices : List (Fin mangoMaxTokens)} {rootBanks : List RootBank}
    {nodeBanks : List NodeBank} (hroot : rootBanks.length = indices.length)
    (hnode : nodeBanks.length = indices.length) :
    (makeCurrencies indices rootBanks nodeBanks).length = indices.length := by
  simp [makeCurrencies_eq_map, hroot, hnode]

theorem exists_getElem?_makeCurrencies {indices : List (Fin mangoMaxTokens)}
    {rootBanks : List RootBank} {nodeBanks : List NodeBank}
    (hroot : rootBanks.length = indices.length) (hnode : nodeBanks.length = indices.length)
    {k : ℕ} {index : Fin mangoMaxTokens} (h : indices[k]? = some index) :
    ∃ rootBank nodeBank,
      (makeCurrencies indices rootBanks nodeBanks)[k]? =
        some (makeCurrency index rootBank nodeBank) := by
  have hk : k < indices.length := (List.getElem?_eq_some_iff.mp h).1
  have hrootBank : rootBanks[k]? = some rootBanks[k] := List.getElem?_eq_getElem _
  have hnodeBank : nodeBanks[k]? = some nodeBanks[k] := List.getElem?_eq_getElem _
  have hentry : (indices.zip (rootBanks.zip nodeBanks))[k]? =
      some (index, rootBanks[k], nodeBanks[k]) :=
    List.getElem?_zip_eq_some.mpr ⟨h, List.getElem?_zip_eq_some.mpr ⟨hrootBank, hnodeBank⟩⟩
  refine ⟨rootBanks[k], nodeBanks[k], ?_⟩
  rw [makeCurrencies_eq_map, List.getElem?_map, hentry, Option.map_some]

/-- A configured pair, with what the load looked up for it. -/
structure LoadedTradingPair (group : MangoGroupAccount) (serumTradingPair : SerumTradingPair)
    (mangoTradingPair : MangoTradingPair) : Prop where
  market_found : findTradingPairInfo group serumTradingPair.serumMarketAddress =
    .ok mangoTradingPair.mangoTradingPairIndex
  base_found : group.tokenIndex serumTradingPair.serumMarketAccount.baseMint =
    some mangoTradingPair.mangoBaseCurrencyIndex
  quote_found : group.tokenIndex serumTradingPair.serumMarketAccount.quoteMint =
    some mangoTradingPair.mangoQuoteCurrencyIndex

/-- The reference data a load leaves: an entry for each configured pair and
for each configured currency, looked up in the group. -/
structure LoadedReferenceData (programId₀ : PublicKey) (serumReferenceData : SerumReferenceData)
    (mango : MangoReferenceData) : Prop where
  programId : mango.mangoProgramId = programId₀
  pairs : ∀ (k : ℕ) serumTradingPair, serumReferenceData.tradingPairs[k]? = some serumTradingPair →
    ∃ mangoTradingPair, mango.tradingPairs[k]? = some mangoTradingPair ∧
      LoadedTradingPair mango.mangoGroup serumTradingPair mangoTradingPair
  currencies : ∀ (k : ℕ) currency, serumReferenceData.currencies[k]? = some currency →
    ∃ mangoCurrency, mango.currencies[k]? = some mangoCurrency ∧
      mango.mangoGroup.tokenIndex currency.mintAddress = some mangoCurrency.mangoCurrencyIndex

/-- A Mango account received later changes nothing of this. -/
theorem LoadedReferenceData.with_mangoAccount {programId₀ : PublicKey}
    {serumReferenceData : SerumReferenceData} {mango : MangoReferenceData}
    (h : LoadedReferenceData programId₀ serumReferenceData mango) (mangoAccount : MangoAccount) :
    LoadedReferenceData programId₀ serumReferenceData { mango with mangoAccount } :=
  ⟨h.programId, h.pairs, h.currencies⟩

/-- What a load of one pair that succeeds has read. -/
theorem loadedTradingPair_of_load {group : MangoGroupAccount} {serumTradingPair : SerumTradingPair}
    {openOrdersInfo : Option AccountInfo} {mangoTradingPair : MangoTradingPair}
    (h : loadTradingPair group serumTradingPair openOrdersInfo = .ok mangoTradingPair) :
    LoadedTradingPair group serumTradingPair mangoTradingPair := by
  simp only [loadTradingPair, ExceptList.bind_eq_ok] at h
  obtain ⟨market, hmarket, base, hbase, quote, hquote, account, -, hok⟩ := h
  obtain rfl := Except.ok.inj hok
  exact ⟨hmarket, findTokenInfo_eq_ok.mp hbase, findTokenInfo_eq_ok.mp hquote⟩

/-- The steps of a load that completes: what is requested at each of them,
what is answered and what is read from the answer. -/
structure LoadSteps (answers : MangoAnswers) (serumReferenceData : SerumReferenceData)
    (mango : MangoReferenceData) where
  tokenIndices : List (Fin mangoMaxTokens)
  rootBankAddresses : List PublicKey
  rootBankInfos : List AccountInfo
  rootBanks : List RootBank
  openOrdersAddresses : List PublicKey
  openOrdersInfos : List AccountInfo
  nodeBankInfos : List AccountInfo
  nodeBanks : List NodeBank
  tokens_found : (serumReferenceData.currencies.mapM fun currency =>
    findTokenInfo mango.mangoGroup "MangoGroup missing configured currency"
      currency.mintAddress) = .ok tokenIndices
  rootBanks_requested : rootBankAddresses =
    tokenIndices.map fun i => (mango.mangoGroup.tokens i).rootBankAddress
  rootBanks_answered : answers.getRootBankAccounts rootBankAddresses = .ok rootBankInfos
  rootBanks_read : readEach accountToRootBank rootBankAddresses rootBankInfos = .ok rootBanks
  openOrders_requested :
    serumReferenceData.tradingPairs.mapM (openOrdersAddress mango.mangoAccount) =
      .ok openOrdersAddresses
  openOrders_answered : answers.getOpenOrdersAccounts openOrdersAddresses = .ok openOrdersInfos
  nodeBanks_answered :
    answers.getNodeBankAccounts (rootBanks.map firstNodeBank) = .ok nodeBankInfos
  nodeBanks_read : readEach accountToNodeBank (rootBanks.map firstNodeBank) nodeBankInfos =
    .ok nodeBanks
  pairs_loaded : (serumReferenceData.tradingPairs.zipIdx.mapM fun entry =>
    loadTradingPair mango.mangoGroup entry.1 openOrdersInfos[entry.2]?) = .ok mango.tradingPairs
  currencies_made : mango.currencies = makeCurrencies tokenIndices rootBanks nodeBanks

section Load

variable {answers : MangoAnswers} {programId₀ : PublicKey}
  {serumReferenceData : SerumReferenceData} {mangoAccountAddress : PublicKey}
  {mango : MangoReferenceData}

namespace LoadSteps

theorem length_rootBanks (steps : LoadSteps answers serumReferenceData mango) :
    steps.rootBanks.length = steps.tokenIndices.length := by
  rw [length_of_readEach steps.rootBanks_read, steps.rootBanks_requested, List.length_map]

theorem length_nodeBanks (steps : LoadSteps answers serumReferenceData mango) :
    steps.nodeBanks.length = steps.tokenIndices.length := by
  rw [length_of_readEach steps.nodeBanks_read, List.length_map, steps.length_rootBanks]

end LoadSteps

/-- A load that succeeds has gone through all of its steps, and leaves the program id as
it was. -/
theorem loadSteps_of_load
    (h : doLoadReferenceData answers programId₀ serumReferenceData mangoAccountAddress =
      .ok mango) :
    Nonempty (LoadSteps answers serumReferenceData mango) ∧ mango.mangoProgramId = programId₀ := by
  simp only [doLoadReferenceData, ExceptList.bind_eq_ok] at h
  obtain ⟨account, -, group, -, cache, -, tokenIndices, htokens, rootBankInfos, hrootBankInfos,
    rootBanks, hrootBanks, openOrdersAddresses, hopenOrders, openOrdersInfos, hopenOrdersInfos,
    nodeBankInfos, hnodeBankInfos, nodeBanks, hnodeBanks, pairs, hpairs, hok⟩ := h
  obtain rfl := Except.ok.inj hok
  exact ⟨⟨tokenIndices, _, rootBankInfos, rootBanks, openOrdersAddresses, openOrdersInfos,
    nodeBankInfos, nodeBanks, htokens, rfl, hrootBankInfos, hrootBanks, hopenOrders,
    hopenOrdersInfos, hnodeBankInfos, hnodeBanks, hpairs, rfl⟩, rfl⟩

/-- What a load that succeeds has read. -/
theorem loadedReferenceData_of_load
    (h : doLoadReferenceData answers programId₀ serumReferenceData mangoAccountAddress =
      .ok mango) : LoadedReferenceData programId₀ serumReferenceData mango := by
  obtain ⟨⟨steps⟩, hprogramId⟩ := loadSteps_of_load h
  refine ⟨hprogramId, fun k pair hk => ?_, fun k currency hk => ?_⟩
  · have hentry : serumReferenceData.tradingPairs.zipIdx[k]? = some (pair, k) := by
      rw [List.getElem?_zipIdx, hk, Option.map_some, Nat.zero_add]
    obtain ⟨mangoTradingPair, hget, hload⟩ :=
      ExceptList.exists_getElem?_of_mapM steps.pairs_loaded hentry
    exact ⟨mangoTradingPair, hget, loadedTradingPair_of_load hload⟩
  · obtain ⟨index, hindex, hfind⟩ := ExceptList.exists_getElem?_of_mapM steps.tokens_found hk
    obtain ⟨rootBank, nodeBank, hget⟩ :=
      exists_getElem?_makeCurrencies steps.length_rootBanks steps.length_nodeBanks hindex
    exact ⟨_, steps.currencies_made ▸ hget, findTokenInfo_eq_ok.mp hfind⟩

/-- There are no other entries than those. -/
theorem lengths_of_load
    (h : doLoadReferenceData answers programId₀ serumReferenceData mangoAccountAddress =
      .ok mango) :
    mango.tradingPairs.length = serumReferenceData.tradingPairs.length ∧
      mango.currencies.length = serumReferenceData.currencies.length := by
  obtain ⟨⟨steps⟩, -⟩ := loadSteps_of_load h
  constructor
  · rw [ExceptList.length_of_mapM steps.pairs_loaded, List.length_zipIdx]
  · rw [steps.currencies_made,
      length_makeCurrencies steps.length_rootBanks steps.length_nodeBanks,
      ExceptList.length_of_mapM steps.tokens_found]

end Load

/-! ## An account on one market -/

/-- A group whose first two tokens are the given mints and whose second spot
market is market 1. The root bank of mint `m` is `m + 20`. -/
def groupImage (first second : UInt8) : List UInt8 :=
  Bytes.sparse MangoGroupAccount.size
    [(16, (keyOf first).1), (48, (keyOf (first + 20)).1), (88, (keyOf second).1),
      (120, (keyOf (second + 20)).1), (1280, (keyOf 1).1), (5736, (keyOf 30).1),
      (5800, (keyOf 31).1), (5832, (keyOf 32).1), (5936, (keyOf 33).1)]

/-- An account of owner 10 in group 11, with markets 1 and 4 in its basket. -/
def mangoAccountImage : List UInt8 :=
  Bytes.sparse MangoAccount.size
    [(8, (keyOf 11).1), (40, (keyOf 10).1), (73, [1]), (76, [1]), (600, (keyOf 50).1),
      (632, (keyOf 51).1), (728, (keyOf 54).1)]

/-- The accounts of a Mango program of id 12: the node bank of a root bank
`r` is `r + 20` and its vault `r + 40`. -/
def oneMarketAnswers (first second : UInt8) : MangoAnswers where
  getMangoAccount _ := .ok (accountOf 12 mangoAccountImage)
  getMangoGroup _ := .ok (accountOf 12 (groupImage first second))
  getMangoCache _ := .ok (accountOf 12 (List.replicate MangoCacheAccount.size 0))
  getRootBankAccounts keys := .ok <| keys.map fun key =>
    accountOf 12 (Bytes.sparse RootBank.size [(64, key.1.map (· + 20))])
  getOpenOrdersAccounts keys := .ok <| keys.map fun _ =>
    accountOf 9 (List.replicate SerumOpenOrdersAccount.size 0)
  getNodeBankAccounts keys := .ok <| keys.map fun key =>
    accountOf 12 (Bytes.sparse NodeBank.size [(40, key.1.map (· + 20))])

end Synthfi.Mango
