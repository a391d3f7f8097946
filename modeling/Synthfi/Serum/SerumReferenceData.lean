/-
Synthfi.Serum.SerumReferenceData — loading the Serum reference data
(`Serum/SerumReferenceDataClient/SerumReferenceDataClientImpl.cpp`).

`doLoadReferenceData` is `do_load_reference_data`, with the answers of the
account batcher as parameters: one for the request of the market accounts
and one for the request of the mints, as they are made at different times.
Statistics and the wake-up of waiting clients are not modelled; assertions
are compiled out, as in a release build.
-/
import Synthfi.Lib.ExceptList
import Synthfi.Serum.SerumTypes

namespace Synthfi

/-- An unchecked access past the end of a vector. The program throws nothing
there: what it does is undefined. -/
def SynthfiError.outOfRange : SynthfiError := ⟨"vector access out of range"⟩

/-- An unchecked access. -/
def unchecked {α : Type} (item : Option α) : Except SynthfiError α :=
  item.elim (.error .outOfRange) .ok

namespace Solana

open Synthfi.Core

variable {α : Type}

/-- `account_to< T >` of the info at the position of each address. -/
def readEach (accountTo : AccountInfo → Except SynthfiError α) :
    List PublicKey → List AccountInfo → Except SynthfiError (List α)
  | [], _ => .ok []
  | _ :: _, [] => .error .outOfRange
  | _ :: addresses, accountInfo :: accountInfos => do
    let account ← accountTo accountInfo
    let accounts ← readEach accountTo addresses accountInfos
    .ok (account :: accounts)

theorem length_of_readEach {accountTo : AccountInfo → Except SynthfiError α}
    {addresses : List PublicKey} {accountInfos : List AccountInfo} {accounts : List α}
    (h : readEach accountTo addresses accountInfos = .ok accounts) :
    accounts.length = addresses.length := by
  induction addresses generalizing accountInfos accounts with
  | nil =>
    obtain rfl := Except.ok.inj h
    rfl
  | cons address addresses ih =>
    cases accountInfos with
    | nil => cases h
    | cons accountInfo accountInfos =>
      simp only [readEach, ExceptList.bind_eq_ok] at h
      obtain ⟨account, -, rest, hrest, hok⟩ := h
      obtain rfl := Except.ok.inj hok
      simp [ih hrest]

end Solana

namespace Serum

open Trading Synthfi.Core Solana

/-- The position of a mint among the configured ones. -/
def findCurrency (mintAddresses : List PublicKey) (mint : PublicKey) :
    Except SynthfiError (Fin mintAddresses.length) :=
  match mintAddresses.findFinIdx? (mint = ·) with
  | some index => .ok index
  | none => .error ⟨"Serum markets missing configured trading pair"⟩

/-- A market with the indices of its currencies. -/
structure IndexedMarket (currencyCount : ℕ) where
  serumMarketAddress : PublicKey
  serumMarketAccount : SerumMarketAccount
  baseCurrencyIndex : Fin currencyCount
  quoteCurrencyIndex : Fin currencyCount

/-- Validate trading pairs are configured with tradable currencies. -/
def indexMarket (mintAddresses : List PublicKey) (serumMarketAddress : PublicKey)
    (serumMarketAccount : SerumMarketAccount) :
    Except SynthfiError (IndexedMarket mintAddresses.length) := do
  let baseCurrencyIndex ← findCurrency mintAddresses serumMarketAccount.baseMint
  let quoteCurrencyIndex ← findCurrency mintAddresses serumMarketAccount.quoteMint
  .ok ⟨serumMarketAddress, serumMarketAccount, baseCurrencyIndex, quoteCurrencyIndex⟩

/-- Set price and quantity increment. -/
def makeTradingPair {currencyCount : ℕ} (currencies : List SerumCurrency)
    (hlen : currencies.length = currencyCount) (market : IndexedMarket currencyCount) :
    SerumTradingPair :=
  let baseCurrency := currencies.get (market.baseCurrencyIndex.cast hlen.symm)
  let quoteCurrency := currencies.get (market.quoteCurrencyIndex.cast hlen.symm)
  { serumMarketAddress := market.serumMarketAddress
    serumMarketAccount := market.serumMarketAccount
    priceIncrement :=
      serumToSynthfiPrice market.serumMarketAccount.quoteLotSize.toNat
        quoteCurrency.mintAccount.decimals
    quantityIncrement :=
      serumToSynthfiQuantity market.serumMarketAccount.baseLotSize.toNat
        baseCurrency.mintAccount.decimals
    baseCurrencyIndex := market.baseCurrencyIndex
    quoteCurrencyIndex := market.quoteCurrencyIndex }

/-- The end of the load: everything is there and the indices are valid. -/
def makeReferenceData (serumProgramId : PublicKey) (mintAddresses : List PublicKey)
    (mints : List TokenMintAccount) (hmints : mints.length = mintAddresses.length)
    (markets : List (IndexedMarket mintAddresses.length)) : SerumReferenceData where
  serumProgramId := serumProgramId
  currencies := List.zipWith SerumCurrency.mk mintAddresses mints
  tradingPairs := markets.map <| makeTradingPair (List.zipWith SerumCurrency.mk mintAddresses mints)
    (by simp [hmints])
  base_valid := by
    intro pair hpair
    obtain ⟨market, -, rfl⟩ := List.mem_map.mp hpair
    simp [makeTradingPair, hmints]
  quote_valid := by
    intro pair hpair
    obtain ⟨market, -, rfl⟩ := List.mem_map.mp hpair
    simp [makeTradingPair, hmints]

def doLoadReferenceData (getMarkets getMints : AccountBatcher)
    (serumMarketAddresses mintAddresses : List PublicKey) :
    Except SynthfiError SerumReferenceData := do
  let serumAccountInfos ← getMarkets serumMarketAddresses
  let front ← unchecked serumAccountInfos.head?
  let marketAccounts ←
    readEach accountToSerumMarketAccount serumMarketAddresses serumAccountInfos
  let markets ← (serumMarketAddresses.zip marketAccounts).mapM fun market =>
    indexMarket mintAddresses market.1 market.2
  let mintAccountInfos ← getMints mintAddresses
  match hmints : readEach accountToTokenMintAccount mintAddresses mintAccountInfos with
  | .error error => .error error
  | .ok mints =>
    .ok (makeReferenceData front.owner mintAddresses mints (length_of_readEach hmints) markets)

/-! ## What a load leaves -/

/-- A load ends in `makeReferenceData` of markets whose currencies were
found by their mints. -/
theorem makeReferenceData_of_load {getMarkets getMints : AccountBatcher}
    {serumMarketAddresses mintAddresses : List PublicKey} {referenceData : SerumReferenceData}
    (h : doLoadReferenceData getMarkets getMints serumMarketAddresses mintAddresses =
      .ok referenceData) :
    ∃ serumProgramId mints hmints markets,
      referenceData = makeReferenceData serumProgramId mintAddresses mints hmints markets ∧
      ∀ market ∈ markets,
        findCurrency mintAddresses market.serumMarketAccount.baseMint =
          .ok market.baseCurrencyIndex ∧
        findCurrency mintAddresses market.serumMarketAccount.quoteMint =
          .ok market.quoteCurrencyIndex := by
  simp only [doLoadReferenceData, ExceptList.bind_eq_ok] at h
  obtain ⟨infos, -, front, -, accounts, -, markets, hmarkets, mintInfos, -, h⟩ := h
  split at h
  · cases h
  · next mints hmints =>
    refine ⟨front.owner, mints, length_of_readEach hmints, markets, (Except.ok.inj h).symm, ?_⟩
    intro market hmarket
    obtain ⟨k, hk⟩ := List.mem_iff_getElem?.mp hmarket
    obtain ⟨entry, -, hentry⟩ := ExceptList.getElem?_of_mapM hmarkets hk
    simp only [indexMarket, ExceptList.bind_eq_ok] at hentry
    obtain ⟨base, hbase, quote, hquote, hok⟩ := hentry
    obtain rfl := Except.ok.inj hok
    exact ⟨hbase, hquote⟩

/-- A pair of the reference data, with what the load looked up for it. -/
structure LoadedPair (mintAddresses : List PublicKey) (referenceData : SerumReferenceData)
    (i : referenceData.PairIndex) : Prop where
  base_found : ∃ k, findCurrency mintAddresses (referenceData.pair i).serumMarketAccount.baseMint =
    .ok k ∧ (referenceData.pair i).baseCurrencyIndex = k
  quote_found :
    ∃ k, findCurrency mintAddresses (referenceData.pair i).serumMarketAccount.quoteMint = .ok k ∧
      (referenceData.pair i).quoteCurrencyIndex = k
  priceIncrement : (referenceData.pair i).priceIncrement =
    serumToSynthfiPrice (referenceData.pair i).serumMarketAccount.quoteLotSize.toNat
      (referenceData.quoteMint i).decimals
  quantityIncrement : (referenceData.pair i).quantityIncrement =
    serumToSynthfiQuantity (referenceData.pair i).serumMarketAccount.baseLotSize.toNat
      (referenceData.baseMint i).decimals

theorem loadedPair_makeReferenceData {serumProgramId : PublicKey} {mintAddresses : List PublicKey}
    {mints : List TokenMintAccount} {hmints : mints.length = mintAddresses.length}
    {markets : List (IndexedMarket mintAddresses.length)}
    (hmarkets : ∀ market ∈ markets,
      findCurrency mintAddresses market.serumMarketAccount.baseMint =
        .ok market.baseCurrencyIndex ∧
      findCurrency mintAddresses market.serumMarketAccount.quoteMint =
        .ok market.quoteCurrencyIndex)
    (i : (makeReferenceData serumProgramId mintAddresses mints hmints markets).PairIndex) :
    LoadedPair mintAddresses (makeReferenceData serumProgramId mintAddresses mints hmints markets)
      i := by
  have hi : i.val < markets.length := by simpa [makeReferenceData] using i.2
  have hlen : (List.zipWith SerumCurrency.mk mintAddresses mints).length =
      mintAddresses.length := by
    simp [hmints]
  have hpair : (makeReferenceData serumProgramId mintAddresses mints hmints markets).pair i =
      makeTradingPair (List.zipWith SerumCurrency.mk mintAddresses mints) hlen markets[i.val] :=
    List.getElem_map _
  obtain ⟨hbase, hquote⟩ := hmarkets _ (List.getElem_mem hi)
  -- The currencies the increments were computed from are those the indices name.
  have hbaseCurrency := SerumReferenceData.getElem?_baseCurrency _ i
  have hquoteCurrency := SerumReferenceData.getElem?_quoteCurrency _ i
  rw [hpair] at hbaseCurrency hquoteCurrency
  have hbaseGet := (List.getElem?_eq_getElem
    (markets[i.val].baseCurrencyIndex.cast hlen.symm).2).symm.trans hbaseCurrency
  have hquoteGet := (List.getElem?_eq_getElem
    (markets[i.val].quoteCurrencyIndex.cast hlen.symm).2).symm.trans hquoteCurrency
  refine ⟨⟨markets[i.val].baseCurrencyIndex, ?_, ?_⟩,
    ⟨markets[i.val].quoteCurrencyIndex, ?_, ?_⟩, ?_, ?_⟩
  · rw [hpair]; exact hbase
  · rw [hpair]; rfl
  · rw [hpair]; exact hquote
  · rw [hpair]; rfl
  · rw [SerumReferenceData.quoteMint, ← Option.some.inj hquoteGet, hpair]; rfl
  · rw [SerumReferenceData.baseMint, ← Option.some.inj hbaseGet, hpair]; rfl

/-- Every pair of a loaded reference data is one. -/
theorem loadedPair_of_load {getMarkets getMints : AccountBatcher}
    {serumMarketAddresses mintAddresses : List PublicKey} {referenceData : SerumReferenceData}
    (h : doLoadReferenceData getMarkets getMints serumMarketAddresses mintAddresses =
      .ok referenceData) (i : referenceData.PairIndex) :
    LoadedPair mintAddresses referenceData i := by
  obtain ⟨serumProgramId, mints, hmints, markets, rfl, hmarkets⟩ := makeReferenceData_of_load h
  exact loadedPair_makeReferenceData hmarkets i

theorem map_mintAddress_zipWith {mintAddresses : List PublicKey} {mints : List TokenMintAccount}
    (h : mints.length = mintAddresses.length) :
    (List.zipWith SerumCurrency.mk mintAddresses mints).map SerumCurrency.mintAddress =
      mintAddresses := by
  induction mintAddresses generalizing mints with
  | nil => simp
  | cons mintAddress mintAddresses ih =>
    cases mints with
    | nil => simp at h
    | cons mint mints => simpa using ih (by simpa using h)

/-- The currencies are the configured mints, in their order. -/
theorem mintAddresses_of_load {getMarkets getMints : AccountBatcher}
    {serumMarketAddresses mintAddresses : List PublicKey} {referenceData : SerumReferenceData}
    (h : doLoadReferenceData getMarkets getMints serumMarketAddresses mintAddresses =
      .ok referenceData) :
    referenceData.currencies.map SerumCurrency.mintAddress = mintAddresses := by
  obtain ⟨serumProgramId, mints, hmints, markets, rfl, -⟩ := makeReferenceData_of_load h
  exact map_mintAddress_zipWith hmints

/-- A mint that was found is the mint of a currency. -/
theorem exists_currency_of_findCurrency {mintAddresses : List PublicKey}
    {referenceData : SerumReferenceData} {mint : PublicKey} {k : Fin mintAddresses.length}
    (hmints : referenceData.currencies.map SerumCurrency.mintAddress = mintAddresses)
    (h : findCurrency mintAddresses mint = .ok k) :
    ∃ currency ∈ referenceData.currencies, currency.mintAddress = mint := by
  unfold findCurrency at h
  split at h
  · next index hindex =>
    have hget : mint = mintAddresses[index] := by
      simpa using (List.findFinIdx?_eq_some_iff.mp hindex).1
    have hmem : mint ∈ referenceData.currencies.map SerumCurrency.mintAddress := by
      rw [hmints, hget]
      exact List.getElem_mem index.2
    exact List.mem_map.mp hmem
  · cases h

/-! ## A configuration of one market -/

/-- A key filled with one byte. -/
def keyOf (b : UInt8) : PublicKey := Bytes.ByteArr.fill 32 b

/-- The data of a market account; the fields stand 5 bytes behind their
aligned offsets. -/
def marketImage (baseMint quoteMint : UInt8) (baseLotSize quoteLotSize : ℕ) : List UInt8 :=
  Bytes.sparse SerumMarketAccount.size
    [(53, (keyOf baseMint).1), (85, (keyOf quoteMint).1), (117, (keyOf 64).1), (165, (keyOf 65).1),
      (221, (keyOf 66).1), (253, (keyOf 67).1), (285, (keyOf 68).1), (317, (keyOf 69).1),
      (349, Bytes.leBytes 8 baseLotSize), (357, Bytes.leBytes 8 quoteLotSize)]

/-- The data of a mint account. -/
def mintImage (decimals : UInt8) : List UInt8 :=
  Bytes.sparse TokenMintAccount.size [(44, [decimals])]

/-- An account of the program whose id is filled with `owner`. -/
def accountOf (owner : UInt8) (data : List UInt8) : AccountInfo := ⟨false, 0, keyOf owner, data⟩

/-- The load of a configuration of one market, of mints 2 and 3. -/
def loadOneMarket (baseDecimals quoteDecimals : UInt8) (baseLotSize quoteLotSize : ℕ) :
    Except SynthfiError SerumReferenceData :=
  doLoadReferenceData (fun _ => .ok [accountOf 9 (marketImage 2 3 baseLotSize quoteLotSize)])
    (fun _ => .ok [accountOf 6 (mintImage baseDecimals), accountOf 6 (mintImage quoteDecimals)])
    [keyOf 1] [keyOf 2, keyOf 3]

end Serum

end Synthfi
