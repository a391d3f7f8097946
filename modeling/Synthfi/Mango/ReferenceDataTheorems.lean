/-
Synthfi.Mango.ReferenceDataTheorems — the reference data and the accounts it
was read from.

Three batches of accounts are read by a load. `BatchedAccounts` is what they
see at each address, `Consistent` what the reference data should say of it.
The open orders accounts are requested with the market index of a pair not
set yet, and a root bank without a node bank is not refused:
`consistentLoad_iff` says on which accounts that makes no difference.
-/
import Synthfi.Mango.MangoWalletTheorems

namespace Synthfi

open Synthfi.Core Solana

/-! ## Reading a batch -/

namespace Solana

variable {α : Type}

/-- Where the infos are those of the addresses, every address has been read. -/
theorem exists_getElem?_of_readEach {accountTo : AccountInfo → Except SynthfiError α}
    {accounts : PublicKey → AccountInfo} {addresses : List PublicKey} {values : List α}
    (h : readEach accountTo addresses (addresses.map accounts) = .ok values) {k : ℕ}
    {address : PublicKey} (hk : addresses[k]? = some address) :
    ∃ value, values[k]? = some value ∧ accountTo (accounts address) = .ok value := by
  induction addresses generalizing values k with
  | nil => simp at hk
  | cons first addresses ih =>
    simp only [List.map_cons, readEach, ExceptList.bind_eq_ok] at h
    obtain ⟨value, hvalue, rest, hrest, hok⟩ := h
    obtain rfl := Except.ok.inj hok
    cases k with
    | zero =>
      obtain rfl : first = address := by simpa using hk
      exact ⟨value, rfl, hvalue⟩
    | succ k => exact ih hrest hk

end Solana

namespace Mango

open Serum

/-- The accounts at all addresses, as the batches of a load see them. -/
structure BatchedAccounts where
  rootBank : PublicKey → AccountInfo
  openOrders : PublicKey → AccountInfo
  nodeBank : PublicKey → AccountInfo

/-- A batch that is answered is answered with the accounts at its addresses. -/
structure MangoAnswers.Sees (answers : MangoAnswers) (accounts : BatchedAccounts) : Prop where
  rootBank : ∀ keys infos, answers.getRootBankAccounts keys = .ok infos →
    infos = keys.map accounts.rootBank
  openOrders : ∀ keys infos, answers.getOpenOrdersAccounts keys = .ok infos →
    infos = keys.map accounts.openOrders
  nodeBank : ∀ keys infos, answers.getNodeBankAccounts keys = .ok infos →
    infos = keys.map accounts.nodeBank

/-! ## Consistent reference data -/

/-- The entry of a pair: its market and its two mints stand where it says,
and the open orders are those of its market. -/
structure ConsistentPair (accounts : BatchedAccounts) (mango : MangoReferenceData)
    (serumTradingPair : SerumTradingPair) (mangoTradingPair : MangoTradingPair) : Prop where
  market : (mango.mangoGroup.spotMarkets mangoTradingPair.mangoTradingPairIndex).spotMarketAddress =
    serumTradingPair.serumMarketAddress
  base : (mango.mangoGroup.tokens mangoTradingPair.mangoBaseCurrencyIndex).mintAddress =
    serumTradingPair.serumMarketAccount.baseMint
  quote : (mango.mangoGroup.tokens mangoTradingPair.mangoQuoteCurrencyIndex).mintAddress =
    serumTradingPair.serumMarketAccount.quoteMint
  openOrders : accountToSerumOpenOrdersAccount (accounts.openOrders
      (mango.mangoAccount.openOrdersAddresses mangoTradingPair.mangoTradingPairIndex)) =
    .ok mangoTradingPair.openOrdersAccount

/-- The entry of a currency: its mint stands where it says, and its banks are
the root bank of the token and a node bank of that. -/
structure ConsistentCurrency (accounts : BatchedAccounts) (mango : MangoReferenceData)
    (currency : SerumCurrency) (mangoCurrency : MangoCurrency) : Prop where
  mint : (mango.mangoGroup.tokens mangoCurrency.mangoCurrencyIndex).mintAddress =
    currency.mintAddress
  rootBank : accountToRootBank (accounts.rootBank
      (mango.mangoGroup.tokens mangoCurrency.mangoCurrencyIndex).rootBankAddress) =
    .ok mangoCurrency.rootBank
  nodeBank : accountToNodeBank (accounts.nodeBank mangoCurrency.nodeBankAddress) =
    .ok mangoCurrency.nodeBank
  nodeBank_ne_zero : mangoCurrency.nodeBankAddress.isZero = false
  nodeBank_of : ∃ i, mangoCurrency.rootBank.nodeBanks i = mangoCurrency.nodeBankAddress

structure Consistent (accounts : BatchedAccounts) (serumReferenceData : SerumReferenceData)
    (mango : MangoReferenceData) : Prop where
  pairs : ∀ (k : ℕ) serumTradingPair, serumReferenceData.tradingPairs[k]? = some serumTradingPair →
    ∃ mangoTradingPair, mango.tradingPairs[k]? = some mangoTradingPair ∧
      ConsistentPair accounts mango serumTradingPair mangoTradingPair
  currencies : ∀ (k : ℕ) currency, serumReferenceData.currencies[k]? = some currency →
    ∃ mangoCurrency, mango.currencies[k]? = some mangoCurrency ∧
      ConsistentCurrency accounts mango currency mangoCurrency

/-- What the accounts have to be like: the open orders of the market of a
configured pair are those of market 0, and the root bank of a configured
currency has a node bank. -/
structure AccountsSuit (accounts : BatchedAccounts) (serumReferenceData : SerumReferenceData)
    (mangoGroup : MangoGroupAccount) (mangoAccount : MangoAccount) : Prop where
  openOrders : ∀ serumTradingPair ∈ serumReferenceData.tradingPairs, ∀ market,
    findTradingPairInfo mangoGroup serumTradingPair.serumMarketAddress = .ok market →
    accountToSerumOpenOrdersAccount
        (accounts.openOrders (mangoAccount.openOrdersAddresses market)) =
      accountToSerumOpenOrdersAccount (accounts.openOrders (mangoAccount.openOrdersAddresses 0))
  nodeBanks : ∀ currency ∈ serumReferenceData.currencies, ∀ index,
    mangoGroup.tokenIndex currency.mintAddress = some index → ∀ rootBank,
    accountToRootBank (accounts.rootBank (mangoGroup.tokens index).rootBankAddress) = .ok rootBank →
    ∃ i, (rootBank.nodeBanks i).isZero = false

/-! ## What is looked up -/

theorem mintAddress_of_tokenIndex {group : MangoGroupAccount} {mint : PublicKey}
    {index : Fin mangoMaxTokens} (h : group.tokenIndex mint = some index) :
    (group.tokens index).mintAddress = mint := by
  simpa using List.find?_some h

/-- A root bank with a node bank: the first is one, and not zero. -/
theorem firstNodeBank_of_exists {rootBank : RootBank}
    (h : ∃ i, (rootBank.nodeBanks i).isZero = false) :
    (firstNodeBank rootBank).isZero = false ∧
      ∃ i, rootBank.nodeBanks i = firstNodeBank rootBank := by
  obtain ⟨i, hi⟩ := h
  have hsome : (((List.finRange mangoMaxNodeBanks).map rootBank.nodeBanks).find? fun nodeBank =>
      !nodeBank.isZero).isSome := by
    rw [List.find?_isSome]
    exact ⟨_, List.mem_map_of_mem (List.mem_finRange i), by simp [hi]⟩
  obtain ⟨nodeBank, hfound⟩ := Option.isSome_iff_exists.mp hsome
  have hnonzero : nodeBank.isZero = false := by simpa using List.find?_some hfound
  obtain ⟨j, -, hj⟩ := List.mem_map.mp (List.mem_of_find?_eq_some hfound)
  rw [firstNodeBank, hfound, Option.getD_some]
  exact ⟨hnonzero, j, hj⟩

/-! ## What a load has read -/

/-- The entry of a pair as the load makes it. -/
structure ReadTradingPair (accounts : BatchedAccounts) (mango : MangoReferenceData)
    (serumTradingPair : SerumTradingPair) (mangoTradingPair : MangoTradingPair) : Prop
    extends LoadedTradingPair mango.mangoGroup serumTradingPair mangoTradingPair where
  -- Whatever the market of the pair is.
  openOrders_read : accountToSerumOpenOrdersAccount (accounts.openOrders
      (mango.mangoAccount.openOrdersAddresses 0)) = .ok mangoTradingPair.openOrdersAccount

/-- The entry of a currency as the load makes it. -/
structure ReadCurrency (accounts : BatchedAccounts) (mango : MangoReferenceData)
    (currency : SerumCurrency) (mangoCurrency : MangoCurrency) : Prop where
  token_found : mango.mangoGroup.tokenIndex currency.mintAddress =
    some mangoCurrency.mangoCurrencyIndex
  rootBank_read : accountToRootBank (accounts.rootBank
      (mango.mangoGroup.tokens mangoCurrency.mangoCurrencyIndex).rootBankAddress) =
    .ok mangoCurrency.rootBank
  nodeBank_first : mangoCurrency.nodeBankAddress = firstNodeBank mangoCurrency.rootBank
  nodeBank_read : accountToNodeBank (accounts.nodeBank mangoCurrency.nodeBankAddress) =
    .ok mangoCurrency.nodeBank

section Load

variable {answers : MangoAnswers} {accounts : BatchedAccounts} {programId₀ : PublicKey}
  {serumReferenceData : SerumReferenceData} {mangoAccountAddress : PublicKey}
  {mango : MangoReferenceData}

/-- A pair is loaded with the open orders account that was answered. -/
theorem readTradingPair_of_load {openOrdersInfo : AccountInfo} {serumTradingPair : SerumTradingPair}
    {mangoTradingPair : MangoTradingPair}
    (h : loadTradingPair mango.mangoGroup serumTradingPair (some openOrdersInfo) =
      .ok mangoTradingPair)
    (hinfo : openOrdersInfo = accounts.openOrders (mango.mangoAccount.openOrdersAddresses 0)) :
    ReadTradingPair accounts mango serumTradingPair mangoTradingPair := by
  refine ⟨loadedTradingPair_of_load h, ?_⟩
  simp only [loadTradingPair, ExceptList.bind_eq_ok] at h
  obtain ⟨market, -, base, -, quote, -, openOrdersAccount, ⟨info, hread, hopenOrders⟩, hok⟩ := h
  obtain rfl := Except.ok.inj hok
  obtain rfl := Except.ok.inj hread
  rw [← hinfo]
  exact hopenOrders

/-- Every pair asks for the open orders of market 0. -/
theorem eq_of_openOrdersAddress {mangoAccount : MangoAccount} {serumTradingPair : SerumTradingPair}
    {address : PublicKey} (h : openOrdersAddress mangoAccount serumTradingPair = .ok address) :
    address = mangoAccount.openOrdersAddresses 0 := by
  simp only [openOrdersAddress] at h
  split at h
  · cases h
  · exact (Except.ok.inj h).symm

/-- A load that succeeds has read the pair of every Serum pair, at its position. -/
theorem pairs_of_load (hanswers : answers.Sees accounts)
    (h : doLoadReferenceData answers programId₀ serumReferenceData mangoAccountAddress =
      .ok mango) {k : ℕ} {serumTradingPair : SerumTradingPair}
    (hk : serumReferenceData.tradingPairs[k]? = some serumTradingPair) :
    ∃ mangoTradingPair, mango.tradingPairs[k]? = some mangoTradingPair ∧
      ReadTradingPair accounts mango serumTradingPair mangoTradingPair := by
  obtain ⟨⟨steps⟩, -⟩ := loadSteps_of_load h
  have hinfos := hanswers.openOrders _ _ steps.openOrders_answered
  have hentry : serumReferenceData.tradingPairs.zipIdx[k]? = some (serumTradingPair, k) := by
    rw [List.getElem?_zipIdx, hk, Option.map_some, Nat.zero_add]
  obtain ⟨mangoTradingPair, hget, hload⟩ :=
    ExceptList.exists_getElem?_of_mapM steps.pairs_loaded hentry
  obtain ⟨address, haddress, hfound⟩ :=
    ExceptList.exists_getElem?_of_mapM steps.openOrders_requested hk
  rw [hinfos, List.getElem?_map, haddress, Option.map_some] at hload
  exact ⟨mangoTradingPair, hget,
    readTradingPair_of_load hload (congrArg accounts.openOrders (eq_of_openOrdersAddress hfound))⟩

/-- A load that succeeds has read the banks of every currency, at its position. -/
theorem currencies_of_load (hanswers : answers.Sees accounts)
    (h : doLoadReferenceData answers programId₀ serumReferenceData mangoAccountAddress =
      .ok mango) {k : ℕ} {currency : SerumCurrency}
    (hk : serumReferenceData.currencies[k]? = some currency) :
    ∃ mangoCurrency, mango.currencies[k]? = some mangoCurrency ∧
      ReadCurrency accounts mango currency mangoCurrency := by
  obtain ⟨⟨steps⟩, -⟩ := loadSteps_of_load h
  have hrootBanks := steps.rootBanks_read
  rw [hanswers.rootBank _ _ steps.rootBanks_answered] at hrootBanks
  have hnodeBanks := steps.nodeBanks_read
  rw [hanswers.nodeBank _ _ steps.nodeBanks_answered] at hnodeBanks
  obtain ⟨index, hindex, hfind⟩ := ExceptList.exists_getElem?_of_mapM steps.tokens_found hk
  have hrootAddress : steps.rootBankAddresses[k]? =
      some (mango.mangoGroup.tokens index).rootBankAddress := by
    rw [steps.rootBanks_requested, List.getElem?_map, hindex, Option.map_some]
  obtain ⟨rootBank, hrootBank, hroot⟩ := exists_getElem?_of_readEach hrootBanks hrootAddress
  have hnodeAddress : (steps.rootBanks.map firstNodeBank)[k]? = some (firstNodeBank rootBank) := by
    rw [List.getElem?_map, hrootBank, Option.map_some]
  obtain ⟨nodeBank, hnodeBank, hnode⟩ := exists_getElem?_of_readEach hnodeBanks hnodeAddress
  have hentry : (steps.tokenIndices.zip (steps.rootBanks.zip steps.nodeBanks))[k]? =
      some (index, rootBank, nodeBank) :=
    List.getElem?_zip_eq_some.mpr ⟨hindex, List.getElem?_zip_eq_some.mpr ⟨hrootBank, hnodeBank⟩⟩
  refine ⟨makeCurrency index rootBank nodeBank, ?_, findTokenInfo_eq_ok.mp hfind, hroot, rfl, hnode⟩
  rw [steps.currencies_made, makeCurrencies_eq_map, List.getElem?_map, hentry, Option.map_some]

/-! ## When it is consistent -/

/-- The account that is read is that of market 0: the pair is consistent if its own holds
the same. -/
theorem ReadTradingPair.consistent_iff {serumTradingPair : SerumTradingPair}
    {mangoTradingPair : MangoTradingPair}
    (h : ReadTradingPair accounts mango serumTradingPair mangoTradingPair) :
    ConsistentPair accounts mango serumTradingPair mangoTradingPair ↔
      accountToSerumOpenOrdersAccount (accounts.openOrders
          (mango.mangoAccount.openOrdersAddresses mangoTradingPair.mangoTradingPairIndex)) =
        accountToSerumOpenOrdersAccount
          (accounts.openOrders (mango.mangoAccount.openOrdersAddresses 0)) := by
  rw [h.openOrders_read]
  constructor
  · intro hpair
    exact hpair.openOrders
  · intro hopenOrders
    exact ⟨spotMarketAddress_of_find h.market_found, mintAddress_of_tokenIndex h.base_found,
      mintAddress_of_tokenIndex h.quote_found, hopenOrders⟩

/-- A currency is consistent if its root bank names a node bank. -/
theorem ReadCurrency.consistent_iff {currency : SerumCurrency} {mangoCurrency : MangoCurrency}
    (h : ReadCurrency accounts mango currency mangoCurrency) :
    ConsistentCurrency accounts mango currency mangoCurrency ↔
      ∃ i, (mangoCurrency.rootBank.nodeBanks i).isZero = false := by
  constructor
  · intro hcurrency
    obtain ⟨i, hi⟩ := hcurrency.nodeBank_of
    exact ⟨i, hi ▸ hcurrency.nodeBank_ne_zero⟩
  · intro hexists
    have hfirst := firstNodeBank_of_exists hexists
    rw [← h.nodeBank_first] at hfirst
    exact ⟨mintAddress_of_tokenIndex h.token_found, h.rootBank_read, h.nodeBank_read, hfirst.1,
      hfirst.2⟩

/-- **Reference data.** Whatever the accounts are that the batches of a
completed load see: the reference data is consistent with them exactly where
the open orders of every configured pair's market are those of market 0 and
every root bank has a node bank. -/
theorem consistentLoad_iff (hanswers : answers.Sees accounts)
    (h : doLoadReferenceData answers programId₀ serumReferenceData mangoAccountAddress =
      .ok mango) :
    Consistent accounts serumReferenceData mango ↔
      AccountsSuit accounts serumReferenceData mango.mangoGroup mango.mangoAccount := by
  constructor
  · intro hconsistent
    refine ⟨fun serumTradingPair hmem market hmarket => ?_,
      fun currency hmem index hindex rootBank hrootBank => ?_⟩
    · obtain ⟨k, hk⟩ := List.mem_iff_getElem?.mp hmem
      obtain ⟨mangoTradingPair, hget, hread⟩ := pairs_of_load hanswers h hk
      obtain ⟨mangoTradingPair', hget', hpair⟩ := hconsistent.pairs k serumTradingPair hk
      obtain rfl := Option.some.inj (hget.symm.trans hget')
      obtain rfl := Except.ok.inj (hread.market_found.symm.trans hmarket)
      exact hread.consistent_iff.mp hpair
    · obtain ⟨k, hk⟩ := List.mem_iff_getElem?.mp hmem
      obtain ⟨mangoCurrency, hget, hread⟩ := currencies_of_load hanswers h hk
      obtain ⟨mangoCurrency', hget', hcurrency⟩ := hconsistent.currencies k currency hk
      obtain rfl := Option.some.inj (hget.symm.trans hget')
      obtain rfl := Option.some.inj (hread.token_found.symm.trans hindex)
      obtain rfl := Except.ok.inj (hread.rootBank_read.symm.trans hrootBank)
      exact hread.consistent_iff.mp hcurrency
  · intro hsuit
    refine ⟨fun k serumTradingPair hk => ?_, fun k currency hk => ?_⟩
    · obtain ⟨mangoTradingPair, hget, hread⟩ := pairs_of_load hanswers h hk
      exact ⟨mangoTradingPair, hget, hread.consistent_iff.mpr
        (hsuit.openOrders _ (List.mem_of_getElem? hk) _ hread.market_found)⟩
    · obtain ⟨mangoCurrency, hget, hread⟩ := currencies_of_load hanswers h hk
      exact ⟨mangoCurrency, hget, hread.consistent_iff.mpr
        (hsuit.nodeBanks _ (List.mem_of_getElem? hk) _ hread.token_found _ hread.rootBank_read)⟩

end Load

/-! ## Two markets -/

/-- Of the open orders account at an address filled with `b`, `b` base units
are free. -/
def accountsByKey : BatchedAccounts where
  rootBank key := accountOf 12 (Bytes.sparse RootBank.size [(64, key.1.map (· + 20))])
  openOrders key :=
    accountOf 9 (Bytes.sparse SerumOpenOrdersAccount.size [(77, key.1.take 1)])
  nodeBank key := accountOf 12 (Bytes.sparse NodeBank.size [(40, key.1.map (· + 20))])

def answersByKey (groupImage : List UInt8) : MangoAnswers :=
  { oneMarketAnswers 2 3 with
    getMangoGroup := fun _ => .ok (accountOf 12 groupImage)
    getRootBankAccounts := fun keys => .ok (keys.map accountsByKey.rootBank)
    getOpenOrdersAccounts := fun keys => .ok (keys.map accountsByKey.openOrders)
    getNodeBankAccounts := fun keys => .ok (keys.map accountsByKey.nodeBank) }

theorem sees_accountsByKey (groupImage : List UInt8) :
    (answersByKey groupImage).Sees accountsByKey where
  rootBank _ _ h := (Except.ok.inj h).symm
  openOrders _ _ h := (Except.ok.inj h).symm
  nodeBank _ _ h := (Except.ok.inj h).symm

def loadByKey (groupImage : List UInt8) : Except SynthfiError MangoReferenceData :=
  doLoadReferenceData (answersByKey groupImage) (keyOf 12) oneMarket (keyOf 13)

/-- The configured market is market 0 of the group. -/
@[irreducible] def marketZero : MangoReferenceData :=
  (loadByKey (oracleGroupImage 1 15)).toOption.get (by decide +kernel)

theorem marketZero_loaded : loadByKey (oracleGroupImage 1 15) = .ok marketZero := by
  unfold marketZero
  exact ExceptList.eq_ok_get _

/-- The configured market is market 1 of the group. -/
@[irreducible] def marketOne : MangoReferenceData :=
  (loadByKey (groupImage 2 3)).toOption.get (by decide +kernel)

theorem marketOne_loaded : loadByKey (groupImage 2 3) = .ok marketOne := by
  unfold marketOne
  exact ExceptList.eq_ok_get _

theorem accountsSuit_marketZero :
    AccountsSuit accountsByKey oneMarket marketZero.mangoGroup marketZero.mangoAccount := by
  have hmarkets : ∀ pair ∈ oneMarket.tradingPairs,
      (findTradingPairInfo marketZero.mangoGroup pair.serumMarketAddress).toOption = some 0 := by
    decide +kernel
  have hbanks : ∀ currency ∈ oneMarket.currencies,
      ∀ index ∈ marketZero.mangoGroup.tokenIndex currency.mintAddress,
        (accountToRootBank (accountsByKey.rootBank
          (marketZero.mangoGroup.tokens index).rootBankAddress)).toOption.all fun rootBank =>
            !(rootBank.nodeBanks 0).isZero := by
    decide +kernel
  refine ⟨fun pair hmem market hmarket => ?_, fun currency hmem index hindex rootBank hread => ?_⟩
  · have hzero := hmarkets pair hmem
    rw [hmarket] at hzero
    obtain rfl : market = 0 := Option.some.inj hzero
    rfl
  · have hnonzero := hbanks currency hmem index hindex
    rw [hread] at hnonzero
    exact ⟨0, by simpa [Except.toOption] using hnonzero⟩

/-- The load of a group whose only pair is market 0 is consistent. -/
theorem consistentLoad_iff_marketZero : Consistent accountsByKey oneMarket marketZero :=
  (consistentLoad_iff (sees_accountsByKey (oracleGroupImage 1 15)) marketZero_loaded).mpr
    accountsSuit_marketZero

/-- The load completes; the open orders address of market 1 is filled with
51, and the account of the pair is that filled with 50. -/
theorem consistentLoad_fails :
    (answersByKey (groupImage 2 3)).Sees accountsByKey ∧
      doLoadReferenceData (answersByKey (groupImage 2 3)) (keyOf 12) oneMarket (keyOf 13) =
        .ok marketOne ∧
      (marketOne.tradingPairs.map fun pair =>
        (marketOne.mangoAccount.openOrdersAddresses pair.mangoTradingPairIndex,
          pair.openOrdersAccount.nativeBaseFree)) = [(keyOf 51, 50)] ∧
      (accountToSerumOpenOrdersAccount (accountsByKey.openOrders (keyOf 51))).toOption.map
        SerumOpenOrdersAccount.nativeBaseFree = some 51 ∧
      ¬ Consistent accountsByKey oneMarket marketOne := by
  refine ⟨sees_accountsByKey (groupImage 2 3), marketOne_loaded, by decide +kernel,
    by decide +kernel, ?_⟩
  have hfirst : 0 < oneMarket.tradingPairs.length := by decide +kernel
  have hdiffer : ∀ pair ∈ marketOne.tradingPairs,
      (accountToSerumOpenOrdersAccount (accountsByKey.openOrders
        (marketOne.mangoAccount.openOrdersAddresses pair.mangoTradingPairIndex))).toOption ≠
        some pair.openOrdersAccount := by
    decide +kernel
  intro hconsistent
  obtain ⟨pair, hget, hpair⟩ := hconsistent.pairs 0 _ (List.getElem?_eq_getElem hfirst)
  refine hdiffer pair (List.mem_of_getElem? hget) ?_
  rw [hpair.openOrders]
  rfl

end Mango

end Synthfi
