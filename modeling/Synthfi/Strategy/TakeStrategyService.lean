/-
Synthfi.Strategy.TakeStrategyService — starting the take strategy
(`Strategy/TakeStrategy/TakeStrategyService.cpp` and the first part of
`TakeStrategyImpl::run`).

The service takes the names for FTX and the addresses for Serum from one list of
pairs and one of currencies, and `run` waits for the reference data of both. The
books of both exchanges get the size of the Serum reference data, and a handler
indexes them with the pairs of its own exchange. `start_eq_ok` says that the two
agree: pair by pair and currency by currency they are the configured ones.

`runs_iff` uses it: whatever the clients send and however it interleaves, a run
of the strategy reads past no wallet, reference data or books, and past the
levels of a book only where all that face each other trade at a profit.
-/
import Synthfi.Ftx.FtxReferenceDataClient
import Synthfi.Serum.SerumReferenceData
import Synthfi.Strategy.TradingSystemTheorems

namespace Synthfi

namespace Trading

/-- A configured trading pair. -/
structure TradingPair where
  baseCurrency : String
  quoteCurrency : String
  ftxMarketName : String
  serumMarketAddress : Core.PublicKey

/-- A configured currency. -/
structure Currency where
  currencyName : String
  mintAddress : Core.PublicKey

end Trading

namespace Strategy

open Trading Ftx Serum Solana Run LatestWrite

/-- The options and the pairs and currencies of `TakeStrategyConfig`. -/
structure TakeStrategyServiceConfig where
  maxUsdTradeSize : Quantity
  minUsdTradeProfit : Price
  tradingPairs : List TradingPair
  currencies : List Currency

/-- What `run` has loaded, from the answers to the two clients. -/
def TakeStrategyServiceConfig.start (config : TakeStrategyServiceConfig)
    (getMarkets getMints : AccountBatcher) (ftxMarkets : List FtxMarket) :
    Except SynthfiError TradingSystemConfig := do
  let serumReferenceData ← Serum.doLoadReferenceData getMarkets getMints
    (config.tradingPairs.map TradingPair.serumMarketAddress)
    (config.currencies.map Currency.mintAddress)
  let ftxReferenceData ← Ftx.doLoadReferenceData ftxMarkets
    (config.tradingPairs.map TradingPair.ftxMarketName)
    (config.currencies.map Currency.currencyName)
  .ok
    { maxUsdTradeSize := config.maxUsdTradeSize
      minUsdTradeProfit := config.minUsdTradeProfit
      ftxReferenceData := ftxReferenceData.toFtxReferenceData
      serumReferenceData }

/-! ## One configuration -/

/-- The reference data of both exchanges is that of the configuration. -/
structure Configured (config : TakeStrategyServiceConfig) (loaded : TradingSystemConfig) :
    Prop where
  minUsdTradeProfit : loaded.minUsdTradeProfit = config.minUsdTradeProfit
  serumPairs : loaded.serumReferenceData.tradingPairs.map SerumTradingPair.serumMarketAddress =
    config.tradingPairs.map TradingPair.serumMarketAddress
  ftxPairs : (loaded.ftxReferenceData.tradingPairs.map fun tradingPair =>
    tradingPair.marketInformation.name) = config.tradingPairs.map TradingPair.ftxMarketName
  serumCurrencies : loaded.serumReferenceData.currencies.map SerumCurrency.mintAddress =
    config.currencies.map Currency.mintAddress
  ftxCurrencies : loaded.ftxReferenceData.currencies.map FtxCurrency.currencyName =
    config.currencies.map Currency.currencyName

theorem serumMarketAddresses_of_load {getMarkets getMints : AccountBatcher}
    {serumMarketAddresses mintAddresses : List Core.PublicKey}
    {referenceData : SerumReferenceData}
    (h : Serum.doLoadReferenceData getMarkets getMints serumMarketAddresses mintAddresses =
      .ok referenceData) :
    referenceData.tradingPairs.map SerumTradingPair.serumMarketAddress =
      serumMarketAddresses := by
  simp only [Serum.doLoadReferenceData, ExceptList.bind_eq_ok] at h
  obtain ⟨infos, -, front, -, accounts, haccounts, markets, hmarkets, mintInfos, -, h⟩ := h
  have hlength := length_of_readEach haccounts
  split at h
  · cases h
  · next mints hmints =>
    obtain rfl := Except.ok.inj h
    -- Each market is indexed under the address it was read for.
    have hindexed : markets.map IndexedMarket.serumMarketAddress =
        (serumMarketAddresses.zip accounts).map Prod.fst := by
      refine List.ext_getElem? fun k => ?_
      rw [List.getElem?_map, List.getElem?_map]
      cases hk : (serumMarketAddresses.zip accounts)[k]? with
      | none =>
        rw [List.getElem?_eq_none_iff] at hk
        rw [List.getElem?_eq_none_iff.mpr (by rw [ExceptList.length_of_mapM hmarkets]; exact hk)]
        rfl
      | some entry =>
        obtain ⟨market, hmarket, hindex⟩ := ExceptList.exists_getElem?_of_mapM hmarkets hk
        simp only [Serum.indexMarket, ExceptList.bind_eq_ok] at hindex
        obtain ⟨base, -, quote, -, hok⟩ := hindex
        obtain rfl := Except.ok.inj hok
        rw [hmarket]
        rfl
    rw [List.map_fst_zip (by rw [hlength])] at hindexed
    simpa [makeReferenceData, makeTradingPair, Function.comp_def] using hindexed

theorem configured_of_start {config : TakeStrategyServiceConfig}
    {getMarkets getMints : AccountBatcher} {ftxMarkets : List FtxMarket}
    {loaded : TradingSystemConfig} (h : config.start getMarkets getMints ftxMarkets = .ok loaded) :
    Configured config loaded := by
  simp only [TakeStrategyServiceConfig.start, ExceptList.bind_eq_ok] at h
  obtain ⟨serumReferenceData, hserum, ftxReferenceData, hftx, hok⟩ := h
  obtain rfl := Except.ok.inj hok
  refine ⟨rfl, serumMarketAddresses_of_load hserum, ?_, mintAddresses_of_load hserum, ?_⟩
  · simpa [LoadedReferenceData.toFtxReferenceData, Function.comp_def] using names_of_load hftx
  · simp [LoadedReferenceData.toFtxReferenceData, Function.comp_def]

/-! ## No read past a vector -/

namespace TakeStrategy

variable {config : TakeStrategyConfig} {s : TakeStrategy}

/-- What the strategy reads is there: `pairCount` books of each exchange and
`currencyCount` positions. -/
structure Sized (pairCount currencyCount : ℕ) (s : TakeStrategy) : Prop where
  serumBooks : s.serumBooks.length = pairCount
  ftxBooks : s.ftxBooks.length = pairCount
  ftxPositions : s.ftxWallet.positions.length = currencyCount
  spawned : ∀ update ∈ s.spawned, update.1 < pairCount

/-- A handler that is called with a pair and with positions that there are. -/
def Label.Sized (pairCount currencyCount : ℕ) : Label → Prop
  | .mangoWallet wallet => wallet.positions.length = currencyCount
  | .ftxWallet wallet => wallet.positions.length = currencyCount
  | .serumBook tradingPairIndex _ => tradingPairIndex < pairCount
  | .ftxBook tradingPairIndex _ => tradingPairIndex < pairCount
  | _ => False

variable {pairCount currencyCount : ℕ}

theorem isSome_hedgeCurrency {currencyIndex : ℕ} (currencyName : String)
    (hsized : s.Sized pairCount currencyCount)
    (hpairs : config.ftxReferenceData.tradingPairs.length = pairCount)
    (hmango : currencyIndex < s.mangoWallet.positions.length)
    (hftx : currencyIndex < s.ftxWallet.positions.length) :
    (s.hedgeCurrency config currencyIndex currencyName).isSome := by
  simp only [hedgeCurrency, Option.bind_eq_bind, List.getElem?_eq_getElem hmango,
    List.getElem?_eq_getElem hftx, Option.bind_some]
  split
  · split
    · rfl
    · split
      · rfl
      · next tradingPairIndex hfind =>
        obtain ⟨hindex, -⟩ := List.findIdx?_eq_some_iff_getElem.mp hfind
        have hbook : tradingPairIndex < s.ftxBooks.length := by
          rw [hsized.ftxBooks, ← hpairs]
          exact hindex
        simp only [List.getElem?_eq_getElem hindex, List.getElem?_eq_getElem hbook,
          Option.bind_some]
        split
        · rfl
        · split <;> rfl
  · rfl

/-- The hedging loop, by induction on the currencies to come. -/
theorem isSome_hedgeLoop {currencies : List FtxCurrency} {currencyIndex : ℕ}
    (hsized : s.Sized pairCount currencyCount)
    (hpairs : config.ftxReferenceData.tradingPairs.length = pairCount)
    (hmango : currencyIndex + currencies.length ≤ s.mangoWallet.positions.length)
    (hftx : currencyIndex + currencies.length ≤ s.ftxWallet.positions.length) :
    (s.hedgeLoop config currencies currencyIndex).isSome := by
  induction currencies generalizing currencyIndex with
  | nil => rfl
  | cons currency currencies ih =>
    rw [List.length_cons] at hmango hftx
    obtain ⟨decision, hdecision⟩ := Option.isSome_iff_exists.mp
      (isSome_hedgeCurrency currency.currencyName hsized hpairs (by omega : currencyIndex < _)
        (by omega))
    have hmangoRest : currencyIndex + 1 + currencies.length ≤ s.mangoWallet.positions.length := by
      omega
    obtain ⟨hedges, hhedges⟩ := Option.isSome_iff_exists.mp (ih hmangoRest (by omega))
    simp only [hedgeLoop, hdecision, hhedges, Option.bind_eq_bind, Option.bind_some]
    cases decision <;> rfl

/-- A handler runs through. -/
theorem Sized.handler {label : Label} (h : s.Sized pairCount currencyCount)
    (hpairs : config.ftxReferenceData.tradingPairs.length = pairCount)
    (hcurrencies : config.ftxReferenceData.currencies.length = currencyCount)
    (hlabel : label.Sized pairCount currencyCount) :
    ∃ s', step config s label = some s' ∧ s'.Sized pairCount currencyCount := by
  have hspawn : ∀ {i}, i < pairCount →
      ∀ update ∈ s.spawned ++ [(i, .bid), (i, .ask)], update.1 < pairCount := by
    intro i hi
    refine List.forall_mem_append.mpr ⟨h.spawned, ?_⟩
    simpa using hi
  cases label with
  | mangoWallet wallet =>
    have hsized : Sized pairCount currencyCount { s with mangoWallet := wallet } :=
      ⟨h.serumBooks, h.ftxBooks, h.ftxPositions, h.spawned⟩
    have hmango : 0 + config.ftxReferenceData.currencies.length ≤ wallet.positions.length := by
      rw [Nat.zero_add, hcurrencies, show wallet.positions.length = currencyCount from hlabel]
    have hftx : 0 + config.ftxReferenceData.currencies.length ≤
        s.ftxWallet.positions.length := by
      rw [Nat.zero_add, hcurrencies, h.ftxPositions]
    obtain ⟨hedges, hhedges⟩ :=
      Option.isSome_iff_exists.mp (isSome_hedgeLoop hsized hpairs hmango hftx)
    simp only [step, doOnMangoWallet, hhedges, Option.bind_eq_bind, Option.bind_some]
    exact ⟨_, rfl, h.serumBooks, h.ftxBooks, h.ftxPositions, h.spawned⟩
  | ftxWallet wallet => exact ⟨_, rfl, h.serumBooks, h.ftxBooks, hlabel, h.spawned⟩
  | serumBook i book =>
    have hi : i < s.serumBooks.length := by rw [h.serumBooks]; exact hlabel
    exact ⟨_, if_pos hi, by rw [List.length_set, h.serumBooks], h.ftxBooks, h.ftxPositions,
      hspawn hlabel⟩
  | ftxBook i book =>
    have hi : i < s.ftxBooks.length := by rw [h.ftxBooks]; exact hlabel
    exact ⟨_, if_pos hi, h.serumBooks, by rw [List.length_set, h.ftxBooks], h.ftxPositions,
      hspawn hlabel⟩
  | bookUpdate k => exact hlabel.elim
  | orderDone k outcome => exact hlabel.elim

/-- A side update runs through. -/
theorem Sized.bookUpdate {k : ℕ} (h : s.Sized pairCount currencyCount)
    (hpairs : config.ftxReferenceData.tradingPairs.length = pairCount)
    (hk : k < s.spawned.length) :
    ∃ s', step config s (.bookUpdate k) = some s' ∧ s'.Sized pairCount currencyCount := by
  have hpair := h.spawned _ (List.getElem_mem hk)
  have hspawned : ∀ update ∈ s.spawned.eraseIdx k, update.1 < pairCount := fun update hupdate =>
    h.spawned update (List.mem_of_mem_eraseIdx hupdate)
  have hserum : s.spawned[k].1 < s.serumBooks.length := by rw [h.serumBooks]; exact hpair
  have hftx : s.spawned[k].1 < s.ftxBooks.length := by rw [h.ftxBooks]; exact hpair
  simp only [step, doBookUpdate, List.getElem?_eq_getElem hk, Option.bind_eq_bind,
    Option.bind_some, List.getElem?_eq_getElem (hpairs.symm ▸ hpair : s.spawned[k].1 < _),
    List.getElem?_eq_getElem hserum, List.getElem?_eq_getElem hftx]
  have hkept := And.intro h.serumBooks (And.intro h.ftxBooks h.ftxPositions)
  split
  · exact ⟨_, rfl, hkept.1, hkept.2.1, hkept.2.2, hspawned⟩
  · split
    · exact ⟨_, rfl, hkept.1, hkept.2.1, hkept.2.2, hspawned⟩
    · split
      · exact ⟨_, rfl, hkept.1, hkept.2.1, hkept.2.2, hspawned⟩
      · exact ⟨_, rfl, hkept.1, hkept.2.1, hkept.2.2, hspawned⟩

end TakeStrategy

/-! ## Messages of FTX -/

theorem isSome_updateLevel (side : Side) (cursor : SideCursor) (level : PriceQuantity) :
    (updateLevel false side cursor level).isSome := by
  simp only [updateLevel, Bool.false_and]
  split
  · rfl
  · split
    · split <;> rfl
    · rfl

theorem isSome_updateSide (side : Side) (message : FtxOrderbookMessage) (book : Book) :
    (updateSide false side message book).isSome := by
  have hrun : ∀ levels (cursor : SideCursor),
      (run (updateLevel false side) cursor levels).isSome := by
    intro levels
    induction levels with
    | nil => exact fun _ => rfl
    | cons level levels ih =>
      intro cursor
      obtain ⟨cursor', hcursor⟩ :=
        Option.isSome_iff_exists.mp (isSome_updateLevel side cursor level)
      rw [run_cons, hcursor]
      exact ih cursor'
  simp only [updateSide, updateLevels, Option.isSome_map]
  exact hrun _ _

/-- In a release build every message is handled. -/
theorem isSome_ftxStep {n : ℕ} (str : Price → List UInt8) (client : FtxMarketDataClient n)
    (event : OrderbookEvent n) : (client.step false str event).isSome := by
  cases event with
  | snapshot i now message => rfl
  | update i now message =>
    simp only [FtxMarketDataClient.step, doOnOrderbookUpdate, Option.bind_eq_bind]
    obtain ⟨bids, hbids⟩ := Option.isSome_iff_exists.mp (isSome_updateSide .bid message
      { client.books i with receiveTimestamp := now, exchangeTimestamp := message.time })
    obtain ⟨asks, hasks⟩ := Option.isSome_iff_exists.mp (isSome_updateSide .ask message bids)
    rw [hbids, Option.bind_some, hasks]
    rfl

/-! ## Runs of the system -/

namespace TradingSystem

variable {config : TradingSystemConfig} {stdSort : StdSort PriceQuantity}
  {str : Price → List UInt8} {s s' : TradingSystem config}

/-- The event can take place: books are loaded before the clients wait for
them, and a handler, a side update or an order that runs is there. -/
def Event.Enabled (s : TradingSystem config) : Event config → Prop
  | .loadBook _ => s.serumLoaded = false
  | .subscribe => s.serumLoaded = true
  | .handler => s.started < s.posted.length
  | .bookUpdate k => k < s.strategy.spawned.length
  | .orderDone k _ => k < s.strategy.inFlight.length
  | _ => True

/-- The loop of a side update that runs meets two levels that do not trade at a
profit before the end of a book. -/
def Event.ReadsInside (s : TradingSystem config) : Event config → Prop
  | .bookUpdate k => ∀ update ∈ s.strategy.spawned[k]?,
    ∀ serumBook ∈ s.strategy.serumBooks[update.1]?, ∀ ftxBook ∈ s.strategy.ftxBooks[update.1]?,
      serumBook.get update.2 = [] ∨ ftxBook.get (sideFlip update.2) = [] ∨
        MeetsUnprofitable update.2
          (facingLevels 0 0 (serumBook.get update.2) (ftxBook.get (sideFlip update.2)))
  | _ => True

/-- A wallet with a position in each configured currency. -/
def Event.WalletSized (currencyCount : ℕ) : Event config → Prop
  | .mangoWallet wallet => wallet.positions.length = currencyCount
  | .ftxWallet wallet => wallet.positions.length = currencyCount
  | _ => True

/-- What the strategy holds, and what is on its way to it. -/
structure Sized (pairCount currencyCount : ℕ) (s : TradingSystem config) : Prop where
  strategy : s.strategy.Sized pairCount currencyCount
  posted : ∀ label ∈ s.posted, label.Sized pairCount currencyCount

variable {pairCount currencyCount : ℕ}

/-- The reference data of both exchanges has the size of the configuration. -/
structure ConfigSized (config : TradingSystemConfig) (pairCount currencyCount : ℕ) : Prop where
  serumPairs : config.serumReferenceData.tradingPairs.length = pairCount
  ftxPairs : config.ftxReferenceData.tradingPairs.length = pairCount
  serumCurrencies : config.serumReferenceData.currencies.length = currencyCount
  ftxCurrencies : config.ftxReferenceData.currencies.length = currencyCount

/-- What is posted by the clients is for pairs and currencies that there are. -/
theorem Sized.of_posts {labels : List TakeStrategy.Label} (h : s.Sized pairCount currencyCount)
    (hposts : Posts s s' labels) (hlabels : ∀ label ∈ labels, label.Sized pairCount currencyCount) :
    s'.Sized pairCount currencyCount := by
  refine ⟨by rw [hposts.strategy]; exact h.strategy, ?_⟩
  rw [hposts.posted]
  exact List.forall_mem_append.mpr ⟨h.posted, hlabels⟩

theorem Sized.post {label : TakeStrategy.Label} (h : s.Sized pairCount currencyCount)
    (hlabel : label.Sized pairCount currencyCount) : (s.post label).Sized pairCount currencyCount :=
  ⟨h.strategy, List.forall_mem_append.mpr ⟨h.posted, List.forall_mem_singleton.mpr hlabel⟩⟩

theorem Sized.doUpdateBook (hconfig : ConfigSized config pairCount currencyCount)
    (h : s.Sized pairCount currencyCount) (update : BookUpdate config.serumReferenceData) :
    (s.doUpdateBook stdSort update).Sized pairCount currencyCount := by
  have hi : update.tradingPairIndex.val < pairCount :=
    hconfig.serumPairs ▸ update.tradingPairIndex.2
  simp only [TradingSystem.doUpdateBook]
  split
  · exact Sized.post ⟨h.strategy, h.posted⟩ hi
  · exact ⟨h.strategy, h.posted⟩

/-- A step takes place exactly if it is enabled and reads inside the books, and
keeps the sizes. -/
theorem Sized.step_iff (hconfig : ConfigSized config pairCount currencyCount)
    (h : s.Sized pairCount currencyCount) {event : Event config}
    (hevent : event.WalletSized currencyCount) :
    ((step stdSort false str s event).isSome ↔ event.Enabled s ∧ event.ReadsInside s) ∧
      ∀ s', step stdSort false str s event = some s' → s'.Sized pairCount currencyCount := by
  cases event with
  | loadBook update =>
    simp only [step, Event.Enabled, Event.ReadsInside, and_true]
    cases s.serumLoaded with
    | false =>
      refine ⟨by simp, fun s' hs' => ?_⟩
      obtain rfl := Option.some.inj hs'
      exact h.doUpdateBook hconfig update
    | true => simp
  | serumLoaded =>
    refine ⟨by simp [step, Event.Enabled, Event.ReadsInside], fun s' hs' => ?_⟩
    obtain rfl := Option.some.inj hs'
    exact ⟨h.strategy, h.posted⟩
  | subscribe =>
    simp only [step, Event.Enabled, Event.ReadsInside, and_true]
    cases s.serumLoaded with
    | false => simp
    | true =>
      refine ⟨by simp, fun s' hs' => ?_⟩
      obtain rfl := Option.some.inj hs'
      exact ⟨h.strategy, h.posted⟩
  | orderbookAccount i now decoded =>
    cases decoded with
    | error error =>
      refine ⟨by simp [step, Event.Enabled, Event.ReadsInside], fun s' hs' => ?_⟩
      obtain rfl := Option.some.inj hs'
      exact h
    | ok account =>
      refine ⟨by simp [step, Event.Enabled, Event.ReadsInside], fun s' hs' => ?_⟩
      obtain rfl := Option.some.inj hs'
      exact h.doUpdateBook hconfig _
  | eventQueueAccount i decoded =>
    refine ⟨by simp [step, Event.Enabled, Event.ReadsInside], fun s' hs' => ?_⟩
    obtain rfl := Option.some.inj hs'
    exact ⟨h.strategy, h.posted⟩
  | ftxMessage event =>
    obtain ⟨client, hclient⟩ :=
      Option.isSome_iff_exists.mp (isSome_ftxStep str s.ftxMarketData event)
    simp only [step, doOnFtxMessage, hclient, Option.bind_eq_bind, Option.bind_some]
    refine ⟨by simp [Event.Enabled, Event.ReadsInside], fun s' hs' => ?_⟩
    obtain rfl := Option.some.inj hs'
    refine ⟨h.strategy, List.forall_mem_append.mpr ⟨h.posted, fun label hlabel => ?_⟩⟩
    obtain ⟨call, -, rfl⟩ := List.mem_map.mp hlabel
    exact hconfig.ftxPairs ▸ call.1.2
  | mangoWallet wallet =>
    refine ⟨by simp [step, Event.Enabled, Event.ReadsInside], fun s' hs' => ?_⟩
    obtain rfl := Option.some.inj hs'
    exact h.post hevent
  | ftxWallet wallet =>
    refine ⟨by simp [step, Event.Enabled, Event.ReadsInside], fun s' hs' => ?_⟩
    obtain rfl := Option.some.inj hs'
    exact h.post hevent
  | handler =>
    simp only [step, Event.Enabled, Event.ReadsInside, and_true, Option.bind_eq_bind]
    by_cases hstarted : s.started < s.posted.length
    · obtain ⟨strategy, hstrategy, hsized⟩ := h.strategy.handler hconfig.ftxPairs
        hconfig.ftxCurrencies (h.posted _ (List.getElem_mem hstarted))
      rw [List.getElem?_eq_getElem hstarted, Option.bind_some, hstrategy]
      refine ⟨by simp [hstarted], fun s' hs' => ?_⟩
      obtain rfl := Option.some.inj hs'
      exact ⟨hsized, h.posted⟩
    · rw [List.getElem?_eq_none_iff.mpr (not_lt.mp hstarted)]
      simp [hstarted]
  | bookUpdate k =>
    simp only [step, doBookUpdate, Event.Enabled, Event.ReadsInside, Option.bind_eq_bind]
    by_cases hk : k < s.strategy.spawned.length
    · have hupdate : ∃ strategy,
          s.strategy.step config.toTakeStrategyConfig (.bookUpdate k) = some strategy ∧
            strategy.Sized pairCount currencyCount := h.strategy.bookUpdate hconfig.ftxPairs hk
      obtain ⟨strategy, hstrategy, hsized⟩ := hupdate
      have hpair := h.strategy.spawned _ (List.getElem_mem hk)
      have hserum : s.strategy.spawned[k].1 < s.strategy.serumBooks.length := by
        rw [h.strategy.serumBooks]
        exact hpair
      have hftx : s.strategy.spawned[k].1 < s.strategy.ftxBooks.length := by
        rw [h.strategy.ftxBooks]
        exact hpair
      simp only [List.getElem?_eq_getElem hk, List.getElem?_eq_getElem hserum,
        List.getElem?_eq_getElem hftx, Option.bind_some, hstrategy, Option.mem_some_iff,
        forall_eq', hk, true_and, ← readsInside_iff]
      split
      · next hinside =>
        refine ⟨by simp [hinside], fun s' hs' => ?_⟩
        obtain rfl := Option.some.inj hs'
        exact ⟨hsized, h.posted⟩
      · next houtside => simp [houtside]
    · rw [List.getElem?_eq_none_iff.mpr (not_lt.mp hk)]
      simp [hk]
  | orderDone k outcome =>
    simp only [step, TakeStrategy.step, TakeStrategy.orderDone, Event.Enabled, Event.ReadsInside,
      and_true, Option.bind_eq_bind]
    by_cases hk : k < s.strategy.inFlight.length
    · rw [if_pos hk]
      refine ⟨by simp [hk], fun s' hs' => ?_⟩
      obtain rfl := Option.some.inj hs'
      exact ⟨⟨h.strategy.serumBooks, h.strategy.ftxBooks, h.strategy.ftxPositions,
        h.strategy.spawned⟩, h.posted⟩
    · rw [if_neg hk]
      simp [hk]

theorem sized_init (hconfig : ConfigSized config pairCount currencyCount) :
    (init config).Sized pairCount currencyCount where
  strategy := by
    refine ⟨?_, ?_, ?_, nofun⟩
    · simp [init, TakeStrategy.init, hconfig.serumPairs]
    · simp [init, TakeStrategy.init, hconfig.serumPairs]
    · simp [init, TakeStrategy.init, hconfig.serumCurrencies]
  posted := nofun

theorem configSized_of_configured {serviceConfig : TakeStrategyServiceConfig}
    (h : Configured serviceConfig config) :
    ConfigSized config serviceConfig.tradingPairs.length serviceConfig.currencies.length where
  serumPairs := by simpa using congrArg List.length h.serumPairs
  ftxPairs := by simpa using congrArg List.length h.ftxPairs
  serumCurrencies := by simpa using congrArg List.length h.serumCurrencies
  ftxCurrencies := by simpa using congrArg List.length h.ftxCurrencies

/-- **What the strategy reads.** Where the reference data of both exchanges was
loaded for one configuration, the pairs and currencies of both are the configured
ones, position by position; and a run in which every wallet has a position in
each configured currency stops only where an event cannot take place, or where
the loop of a side update trades at a profit down to the end of a book,
whichever way the clients, the handlers and the side updates interleave. -/
theorem runs_iff (serviceConfig : TakeStrategyServiceConfig)
    {getMarkets getMints : AccountBatcher} {ftxMarkets : List FtxMarket}
    (hstart : serviceConfig.start getMarkets getMints ftxMarkets = .ok config)
    (stdSort : StdSort PriceQuantity) (str : Price → List UInt8) {events : List (Event config)}
    (hwallets : ∀ event ∈ events, event.WalletSized serviceConfig.currencies.length) :
    Configured serviceConfig config ∧
      ((run (step stdSort false str) (init config) events).isSome ↔
        Along (step stdSort false str) (fun s event => event.Enabled s ∧ event.ReadsInside s)
          (init config) events) := by
  have hconfigured := configured_of_start hstart
  have hconfig := configSized_of_configured hconfigured
  refine ⟨hconfigured, isSome_run_iff_along_of_mem ?_ ?_ (sized_init hconfig) hwallets⟩
  · intro u event u' hu hevent hstep
    exact (hu.step_iff hconfig hevent).2 u' hstep
  · intro u event hu hevent
    exact (hu.step_iff hconfig hevent).1

/-- SOL against USD. -/
def solUsdService : TakeStrategyServiceConfig where
  maxUsdTradeSize := 100
  minUsdTradeProfit := 1
  tradingPairs := [⟨"SOL", "USD", "SOL/USD", keyOf 1⟩]
  currencies := [⟨"SOL", keyOf 2⟩, ⟨"USD", keyOf 3⟩]

def solUsdMarkets : AccountBatcher := fun _ => .ok [accountOf 9 (marketImage 2 3 100 10)]

def solUsdMints : AccountBatcher := fun _ =>
  .ok [accountOf 6 (mintImage 9), accountOf 6 (mintImage 6)]

theorem isSome_startSolUsd :
    (solUsdService.start solUsdMarkets solUsdMints [solUsdMarket]).toOption.isSome := by
  decide +kernel

/-- Both exchanges answer. -/
def startedSolUsd : TradingSystemConfig :=
  (solUsdService.start solUsdMarkets solUsdMints [solUsdMarket]).toOption.get isSome_startSolUsd

theorem startSolUsd_eq :
    solUsdService.start solUsdMarkets solUsdMints [solUsdMarket] = .ok startedSolUsd :=
  ExceptList.eq_ok_get isSome_startSolUsd

/-- A short position comes, before and after the FTX wallet. -/
def shortComes : List (Event startedSolUsd) :=
  [.mangoWallet ⟨[-1, 5], [0]⟩, .handler, .ftxWallet ⟨[1, 0], [0]⟩, .mangoWallet ⟨[-2, 5], [0]⟩,
    .handler, .handler]

theorem runs_iff_shortComes :
    Configured solUsdService startedSolUsd ∧
      Along (step (StdSort.insertionSort _) false fun _ => [])
        (fun s event => event.Enabled s ∧ event.ReadsInside s) (init startedSolUsd)
        shortComes := by
  have hwallets : ∀ event ∈ shortComes,
      event.WalletSized solUsdService.currencies.length := by
    simp only [shortComes, List.forall_mem_cons]
    exact ⟨rfl, trivial, rfl, rfl, trivial, trivial, List.forall_mem_nil _⟩
  obtain ⟨hconfigured, hruns⟩ := runs_iff solUsdService startSolUsd_eq
    (StdSort.insertionSort _) (fun _ => []) hwallets
  exact ⟨hconfigured, hruns.mp (by decide +kernel)⟩

end TradingSystem

end Strategy

end Synthfi
