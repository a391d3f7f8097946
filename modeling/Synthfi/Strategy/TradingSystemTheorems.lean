/-
Synthfi.Strategy.TradingSystemTheorems — what the take strategy makes of the
market data.

Two properties of every run of the two clients and the strategy.

* Every take order is justified (`Justified`): it is priced at a level of a
  Serum account that has come, which earns something against a level of the FTX
  book, and the books it was computed from, which were the latest the strategy
  had been given, earn the least profit after fees, as the strategy measures it.
* No opportunity is missed: when nothing is on its way and no order was sent,
  the books published last earn less than that.

Both need that the callbacks arrive in order: the books of the strategy then
are a replay of the log of what was posted, up to where it has run.
-/
import Synthfi.Serum.SerumMarketDataTheorems
import Synthfi.Strategy.TakeOrderTheorems
import Synthfi.Strategy.TradingSystem

namespace Synthfi.Strategy

open Trading Ftx Serum LatestWrite Run

/-! ## What a walk earns -/

/-- The profit of the pairs that the loop walks, after fees. -/
def walkedProfit (side : Side) (serum ftx : SideBook) : Price :=
  ((tradedPairs side (facingLevels 0 0 serum ftx)).map fun pair =>
    pairProfit side pair * pairSize pair).sum

theorem expectedProfit_foldl {side : Side} (pairs : List LevelPair) (arbitrage : Arbitrage) :
    (pairs.foldl (addPair side) arbitrage).expectedProfit =
      arbitrage.expectedProfit +
        (pairs.map fun pair => pairProfit side pair * pairSize pair).sum := by
  induction pairs generalizing arbitrage with
  | nil => simp
  | cons pair pairs ih =>
    rw [List.foldl_cons, ih, List.map_cons, List.sum_cons]
    simp only [addPair, Arbitrage.add, pairProfit, pairSize, unitProfit]
    split <;> ring

theorem foundArbitrage_expectedProfit (side : Side) (serum ftx : SideBook) :
    (foundArbitrage side serum ftx).expectedProfit = walkedProfit side serum ftx := by
  rw [foundArbitrage, expectedProfit_foldl, walkedProfit]
  exact zero_add _

/-- The books earn the least profit on one side, as the strategy measures it:
the size of whole levels counts, as often as the loop comes to them. -/
structure Earns (config : TakeStrategyConfig) (side : Side) (serumBook ftxBook : Book) : Prop where
  serum : serumBook.get side ≠ []
  ftx : ftxBook.get (sideFlip side) ≠ []
  profit : config.minUsdTradeProfit ≤
    walkedProfit side (serumBook.get side) (ftxBook.get (sideFlip side))

/-- A profit was made with something. -/
theorem totalSize_pos_of_sum_pos {side : Side} {pairs : List LevelPair}
    (hsize : ∀ pair ∈ pairs, 0 ≤ pairSize pair)
    (h : 0 < (pairs.map fun pair => pairProfit side pair * pairSize pair).sum) :
    0 < totalSize pairs := by
  induction pairs with
  | nil => simp at h
  | cons pair pairs ih =>
    obtain ⟨hpair, hpairs⟩ := List.forall_mem_cons.mp hsize
    have hrest : 0 ≤ totalSize pairs := by
      clear ih h hsize
      induction pairs with
      | nil => exact le_rfl
      | cons pair pairs ih =>
        obtain ⟨hpair, hpairs⟩ := List.forall_mem_cons.mp hpairs
        exact add_nonneg hpair (ih hpairs)
    rw [List.map_cons, List.sum_cons] at h
    rw [totalSize]
    obtain hzero | hpos := hpair.eq_or_lt
    · rw [← hzero, mul_zero, zero_add] at h
      exact add_pos_of_nonneg_of_pos hpair (ih hpairs h)
    · exact add_pos_of_pos_of_nonneg hpos hrest

/-! ## Levels -/

/-- No level holds less than nothing. -/
def NonnegLevels (levels : SideBook) : Prop := ∀ level ∈ levels, 0 ≤ level.quantity

theorem pairSize_nonneg {serum ftx : SideBook} (hserum : NonnegLevels serum)
    (hftx : NonnegLevels ftx) {pair : LevelPair} (h : pair ∈ facingLevels 0 0 serum ftx) :
    0 ≤ pairSize pair := by
  obtain ⟨hmem, hmem'⟩ := Matching.mem_of_mem_facing h
  obtain ⟨level, hlevel, heq⟩ := List.mem_map.mp hmem
  obtain ⟨level', hlevel', heq'⟩ := List.mem_map.mp hmem'
  rw [pairSize, ← heq, ← heq']
  exact le_min (hserum level hlevel) (hftx level' hlevel')

/-- A level of an aggregated side is at the price of an order. -/
theorem mem_aggregateOrders {stdSort : StdSort PriceQuantity} {referenceData : SerumReferenceData}
    {i : referenceData.PairIndex} {account : SerumOrderbookAccount} {level : PriceQuantity}
    (h : level ∈ aggregateOrders stdSort referenceData i account) :
    0 ≤ level.quantity ∧
      ∃ leaf ∈ account.orders, level.price = referenceData.slabPrice i leaf.key.limitPrice := by
  have hperm := stdSort.perm (sortsBefore account.side)
    (account.orders.map (convertOrder referenceData i))
  have hsorted : (stdSort.sort (sortsBefore account.side)
      (account.orders.map (convertOrder referenceData i))).Pairwise
      fun a b => ¬ account.side.Better b.price a.price :=
    (stdSort.sorted _ _ (strictWeak_sortsBefore account.side)).imp fun {a b} h => by
      rwa [← Bool.not_eq_true, sortsBefore_eq_true] at h
  have hmerged : MergeRuns.Merged account.side.Better PriceQuantity.price PriceQuantity.quantity
      _ (aggregateOrders stdSort referenceData i account) :=
    MergeRuns.merged_mergeRuns PriceQuantity.add_price PriceQuantity.add_quantity hsorted
  constructor
  · rw [hmerged.weights level h, MergeRuns.weightAt_perm hperm, MergeRuns.weightAt]
    refine List.sum_nonneg fun quantity hquantity => ?_
    obtain ⟨converted, hconverted, rfl⟩ := List.mem_map.mp hquantity
    obtain ⟨order, -, rfl⟩ := List.mem_map.mp (List.mem_of_mem_filter hconverted)
    have hscale := pow10_pos (referenceData.baseMint i).decimals
    simp only [convertOrder, SerumReferenceData.slabQuantity]
    positivity
  · obtain ⟨converted, hconverted, hprice⟩ := (hmerged.keys level.price).mp ⟨level, h, rfl⟩
    obtain ⟨order, horder, rfl⟩ := List.mem_map.mp (hperm.mem_iff.mp hconverted)
    exact ⟨order, horder, hprice.symm⟩

/-- The price of a found arbitrage is that of a level of the Serum side, which
trades at a profit with a level of the FTX side. -/
theorem exists_levels_of_totalSize_pos {side : Side} {serum ftx : SideBook}
    (h : 0 < totalSize (tradedPairs side (facingLevels 0 0 serum ftx))) :
    (∃ level ∈ serum, (foundArbitrage side serum ftx).serumTradePrice = level.price) ∧
      ∃ level ∈ ftx,
        0 < unitProfit side (foundArbitrage side serum ftx).serumTradePrice level.price := by
  rw [foundArbitrage, serumTradePrice_foldl]
  cases hlast : (tradedPairs side (facingLevels 0 0 serum ftx)).getLast? with
  | none =>
    rw [List.getLast?_eq_none_iff.mp hlast] at h
    exact absurd h (lt_irrefl _)
  | some pair =>
    have htraded := List.mem_of_getLast? hlast
    have hprofit : 0 < pairProfit side pair := by
      simpa using List.all_eq_true.mp List.all_takeWhile pair htraded
    obtain ⟨hserum, hftx⟩ := Matching.mem_of_mem_facing (List.takeWhile_subset _ htraded)
    obtain ⟨level, hlevel, heq⟩ := List.mem_map.mp hserum
    obtain ⟨level', hlevel', heq'⟩ := List.mem_map.mp hftx
    refine ⟨⟨level, hlevel, by simp [← heq]⟩, level', hlevel', ?_⟩
    rw [pairProfit, ← heq'] at hprofit
    exact hprofit

/-! ## The FTX client -/

theorem updateLevel_nonneg {asserts : Bool} {side : Side} {cursor cursor' : SideCursor}
    {level : PriceQuantity} (h : NonnegLevels cursor.1) (hlevel : 0 ≤ level.quantity)
    (hstep : updateLevel asserts side cursor level = some cursor') : NonnegLevels cursor'.1 := by
  have hinsert : ∀ k, NonnegLevels (cursor.1.insertIdx k level) := fun k other hother =>
    (List.eq_or_mem_of_mem_insertIdx hother).elim (fun heq => heq ▸ hlevel) (h other)
  simp only [updateLevel] at hstep
  split at hstep
  · split at hstep
    · cases hstep
    · obtain rfl := Option.some.inj hstep
      exact hinsert _
  · split at hstep
    · split at hstep
      · obtain rfl := Option.some.inj hstep
        exact fun other hother => h other (List.mem_of_mem_eraseIdx hother)
      · obtain rfl := Option.some.inj hstep
        exact fun other hother => (List.mem_or_eq_of_mem_set hother).elim (h other)
          fun heq => by rw [heq]; exact hlevel
    · obtain rfl := Option.some.inj hstep
      exact hinsert _

theorem updateSide_nonneg {asserts : Bool} {side : Side} {message : FtxOrderbookMessage}
    {book book' : Book} (hstep : updateSide asserts side message book = some book')
    (h : ∀ side, NonnegLevels (book.get side))
    (hlevels : ∀ side, NonnegLevels (message.levels.get side)) :
    ∀ side, NonnegLevels (book'.get side) := by
  simp only [updateSide, updateLevels, Option.map_map] at hstep
  obtain ⟨cursor, hrun, rfl⟩ := Option.map_eq_some_iff.mp hstep
  have hlevel : ∀ (cursor : SideCursor) (level : PriceQuantity) (cursor' : SideCursor),
      NonnegLevels cursor.1 → 0 ≤ level.quantity →
      updateLevel asserts side cursor level = some cursor' → NonnegLevels cursor'.1 :=
    fun _ _ _ => updateLevel_nonneg
  have hcursor : NonnegLevels cursor.1 :=
    invariant_along hlevel (h side) (along_of_forall_mem (hlevels side)) hrun
  intro side'
  simp only [Function.comp_apply, Book.get_set]
  split
  · exact hcursor
  · exact h side'

/-- What a message makes of the FTX client: the book of its pair is published
where its checksum holds, and no other. -/
theorem ftxStep_cases {n : ℕ} {asserts : Bool} {str : Price → List UInt8}
    {client client' : FtxMarketDataClient n} {event : OrderbookEvent n}
    (hstep : client.step asserts str event = some client') :
    ∃ book, client' = checkAndPublish str client (TradingSystem.messageOf event).1
        (TradingSystem.messageOf event).2 book ∧
      ((∀ i side, NonnegLevels ((client.books i).get side)) →
        (∀ side, NonnegLevels ((TradingSystem.messageOf event).2.levels.get side)) →
        ∀ side, NonnegLevels (book.get side)) := by
  cases event with
  | snapshot i now message =>
    refine ⟨_, (Option.some.inj hstep).symm, fun _ hlevels side => ?_⟩
    simp only [Book.get_set]
    split
    · exact hlevels .ask
    · split
      · exact hlevels .bid
      · next hask hbid =>
        cases side <;> simp_all
  | update i now message =>
    simp only [FtxMarketDataClient.step, doOnOrderbookUpdate, Option.bind_eq_bind,
      Option.bind_eq_some_iff] at hstep
    obtain ⟨bids, hbids, asks, hasks, hok⟩ := hstep
    refine ⟨asks, (Option.some.inj hok).symm, fun hbooks hlevels => ?_⟩
    have hbids' := updateSide_nonneg hbids (fun side => hbooks i side) hlevels
    exact updateSide_nonneg hasks hbids' hlevels

/-! ## The strategy -/

namespace TakeStrategy

variable {config : TakeStrategyConfig} {s s' : TakeStrategy} {i : ℕ} {side : Side}

/-- The books of a pair earn too little on one side. -/
def NoTrade (config : TakeStrategyConfig) (s : TakeStrategy) (i : ℕ) (side : Side) : Prop :=
  ∀ serumBook ftxBook, s.serumBooks[i]? = some serumBook → s.ftxBooks[i]? = some ftxBook →
    ¬ Earns config side serumBook ftxBook

/-- A side update sends the order for what it walked, or it leaves the state
as it is: an order was sent before, or the books earn too little. -/
theorem doBookUpdate_earns (h : s.doBookUpdate config i side = some s') :
    (s' = s ∧ (s.isTrading = true ∨ s.NoTrade config i side)) ∨
    (s.isTrading = false ∧ ∃ serumBook ftxBook,
      s.serumBooks[i]? = some serumBook ∧ s.ftxBooks[i]? = some ftxBook ∧
      Earns config side serumBook ftxBook ∧ s' = { s with
        isTrading := true
        inFlight := s.inFlight ++ [takeLiquidityOrder config i side
          (foundArbitrage side (serumBook.get side) (ftxBook.get (sideFlip side)))] }) := by
  simp only [doBookUpdate, Option.bind_eq_bind, Option.bind_eq_some_iff] at h
  obtain ⟨-, -, serumBook, hserum, ftxBook, hftx, h⟩ := h
  have hnoTrade : ¬ Earns config side serumBook ftxBook → s.NoTrade config i side := by
    intro hnot serumBook' ftxBook' hserum' hftx'
    obtain rfl := Option.some.inj (hserum.symm.trans hserum')
    obtain rfl := Option.some.inj (hftx.symm.trans hftx')
    exact hnot
  split at h
  · next hnone =>
    refine .inl ⟨(Option.some.inj h).symm, .inr (hnoTrade fun hearns => ?_)⟩
    rw [findArbitrage_eq_some.mpr ⟨hearns.serum, hearns.ftx, rfl⟩] at hnone
    cases hnone
  · next arbitrage hfind =>
    obtain ⟨hne, hne', rfl⟩ := findArbitrage_eq_some.mp hfind
    rw [foundArbitrage_expectedProfit] at h
    split at h
    · next hflag => exact .inl ⟨(Option.some.inj h).symm, .inl hflag⟩
    · next hflag =>
      split at h
      · next hlt =>
        exact .inl ⟨(Option.some.inj h).symm, .inr (hnoTrade fun hearns =>
          absurd hlt (not_lt.mpr hearns.profit))⟩
      · next hle =>
        exact .inr ⟨by simpa using hflag, serumBook, ftxBook, hserum, hftx,
          ⟨hne, hne', not_lt.mp hle⟩, (Option.some.inj h).symm⟩

/-- What the clients spawn on the strand of the strategy. -/
def Label.IsHandler : Label → Prop
  | .bookUpdate _ => False
  | .orderDone .. => False
  | _ => True

/-- The updates that a handler spawns. -/
def spawnedBy : Label → List (ℕ × Side)
  | .serumBook tradingPairIndex _ => [(tradingPairIndex, .bid), (tradingPairIndex, .ask)]
  | .ftxBook tradingPairIndex _ => [(tradingPairIndex, .bid), (tradingPairIndex, .ask)]
  | _ => []

/-- What a handler does: it replaces the book that it is called with. -/
structure Handled (s : TakeStrategy) (label : Label) (s' : TakeStrategy) : Prop where
  isTrading : s'.isTrading = s.isTrading
  inFlight : s'.inFlight = s.inFlight
  spawned : s'.spawned = s.spawned ++ spawnedBy label
  serumBooks : s'.serumBooks = (TradingSystem.serumBooks [label]).foldl
    (fun books write => books.set write.1 write.2) s.serumBooks
  ftxBooks : s'.ftxBooks = (TradingSystem.ftxBooks [label]).foldl
    (fun books write => books.set write.1 write.2) s.ftxBooks

theorem handled_of_step {label : Label} (hlabel : label.IsHandler)
    (h : step config s label = some s') : Handled s label s' := by
  cases label with
  | mangoWallet wallet =>
    simp only [step, doOnMangoWallet, Option.bind_eq_bind, Option.bind_eq_some_iff] at h
    obtain ⟨hedges, -, h⟩ := h
    cases h
    exact ⟨rfl, rfl, (List.append_nil _).symm, rfl, rfl⟩
  | ftxWallet wallet =>
    cases h
    exact ⟨rfl, rfl, (List.append_nil _).symm, rfl, rfl⟩
  | serumBook tradingPairIndex book =>
    obtain ⟨-, h⟩ := Option.ite_none_right_eq_some.mp h
    cases h
    exact ⟨rfl, rfl, rfl, rfl, rfl⟩
  | ftxBook tradingPairIndex book =>
    obtain ⟨-, h⟩ := Option.ite_none_right_eq_some.mp h
    cases h
    exact ⟨rfl, rfl, rfl, rfl, rfl⟩
  | bookUpdate k => exact hlabel.elim
  | orderDone k outcome => exact hlabel.elim

/-- A pair whose books a handler did not replace. -/
theorem Handled.noTrade_iff {label : Label} (h : Handled s label s')
    (hi : ∀ side, (i, side) ∉ spawnedBy label) :
    s'.NoTrade config i side ↔ s.NoTrade config i side := by
  have hne : ∀ {k}, spawnedBy label = [(k, .bid), (k, .ask)] → k ≠ i := by
    rintro k hk rfl
    exact hi .bid (by simp [hk])
  have hbooks : s'.serumBooks[i]? = s.serumBooks[i]? ∧ s'.ftxBooks[i]? = s.ftxBooks[i]? := by
    rw [h.serumBooks, h.ftxBooks]
    cases label with
    | serumBook k book => exact ⟨List.getElem?_set_ne (hne rfl), rfl⟩
    | ftxBook k book => exact ⟨rfl, List.getElem?_set_ne (hne rfl)⟩
    | _ => exact ⟨rfl, rfl⟩
  simp only [NoTrade, hbooks.1, hbooks.2]

end TakeStrategy

/-! ## The books of the strategy -/

namespace TradingSystem

variable {config : TradingSystemConfig} {stdSort : StdSort PriceQuantity} {asserts : Bool}
  {str : Price → List UInt8} {s s' : TradingSystem config}

@[simp] theorem serumBooks_append (labels more : List TakeStrategy.Label) :
    serumBooks (labels ++ more) = serumBooks labels ++ serumBooks more :=
  List.filterMap_append

@[simp] theorem ftxBooks_append (labels more : List TakeStrategy.Label) :
    ftxBooks (labels ++ more) = ftxBooks labels ++ ftxBooks more :=
  List.filterMap_append

theorem mem_serumBooks {labels : List TakeStrategy.Label} {i : ℕ} {book : Book} :
    (i, book) ∈ serumBooks labels ↔ .serumBook i book ∈ labels := by
  rw [serumBooks, List.mem_filterMap]
  constructor
  · rintro ⟨label, hlabel, h⟩
    split at h
    · obtain ⟨rfl, rfl⟩ := Prod.mk.inj (Option.some.inj h)
      exact hlabel
    · cases h
  · intro h
    exact ⟨_, h, rfl⟩

theorem mem_ftxBooks {labels : List TakeStrategy.Label} {i : ℕ} {book : Book} :
    (i, book) ∈ ftxBooks labels ↔ .ftxBook i book ∈ labels := by
  rw [ftxBooks, List.mem_filterMap]
  constructor
  · rintro ⟨label, hlabel, h⟩
    split at h
    · obtain ⟨rfl, rfl⟩ := Prod.mk.inj (Option.some.inj h)
      exact hlabel
    · cases h
  · intro h
    exact ⟨_, h, rfl⟩

/-- The strategy has run the handlers up to `started`, in their order. -/
structure Mirrors (s : TradingSystem config) : Prop where
  started_le : s.started ≤ s.posted.length
  handlers : ∀ label ∈ s.posted, label.IsHandler
  serum : Replays .empty (serumBooks s.startedLabels) s.strategy.serumBooks
  ftx : Replays .empty (ftxBooks s.startedLabels) s.strategy.ftxBooks
  serum_length :
    s.strategy.serumBooks.length = config.serumReferenceData.tradingPairs.length
  ftx_length : s.strategy.ftxBooks.length = config.serumReferenceData.tradingPairs.length

/-- What a step of the clients leaves of the strategy: nothing of it changes,
and handlers are added behind those that are there. -/
structure Posts (s s' : TradingSystem config) (labels : List TakeStrategy.Label) : Prop where
  posted : s'.posted = s.posted ++ labels
  started : s'.started = s.started
  strategy : s'.strategy = s.strategy
  sent : s'.sent = s.sent
  accounts : s.accounts <+: s'.accounts
  messages : s.messages <+: s'.messages

theorem Posts.startedLabels {labels : List TakeStrategy.Label} (h : Posts s s' labels)
    (hle : s.started ≤ s.posted.length) : s'.startedLabels = s.startedLabels := by
  rw [TradingSystem.startedLabels, h.posted, h.started, List.take_append_of_le_length hle]
  rfl

theorem Mirrors.of_posts {labels : List TakeStrategy.Label} (h : s.Mirrors)
    (hposts : Posts s s' labels) (hlabels : ∀ label ∈ labels, label.IsHandler) : s'.Mirrors := by
  refine ⟨?_, ?_, ?_, ?_, by rw [hposts.strategy, h.serum_length],
    by rw [hposts.strategy, h.ftx_length]⟩
  · rw [hposts.posted, hposts.started, List.length_append]
    exact h.started_le.trans (Nat.le_add_right _ _)
  · rw [hposts.posted]
    exact List.forall_mem_append.mpr ⟨h.handlers, hlabels⟩
  · rw [hposts.startedLabels h.started_le, hposts.strategy]
    exact h.serum
  · rw [hposts.startedLabels h.started_le, hposts.strategy]
    exact h.ftx

/-- The next handler runs. -/
theorem Mirrors.of_handled {label : TakeStrategy.Label} {strategy : TakeStrategy}
    (h : s.Mirrors) (hlabel : s.posted[s.started]? = some label)
    (hhandled : TakeStrategy.Handled s.strategy label strategy) :
    Mirrors { s with strategy, started := s.started + 1 } := by
  have hstarted : startedLabels { s with strategy, started := s.started + 1 } =
      s.startedLabels ++ [label] := by
    simp only [startedLabels, List.take_add_one, hlabel, Option.toList_some]
  refine ⟨?_, h.handlers, ?_, ?_,
    by rw [hhandled.serumBooks, length_foldl_set, h.serum_length],
    by rw [hhandled.ftxBooks, length_foldl_set, h.ftx_length]⟩
  · obtain ⟨hlt, -⟩ := List.getElem?_eq_some_iff.mp hlabel
    exact hlt
  · rw [hstarted, serumBooks_append, hhandled.serumBooks]
    exact h.serum.foldl_set _
  · rw [hstarted, ftxBooks_append, hhandled.ftxBooks]
    exact h.ftx.foldl_set _

/-! ## Steps -/

/-- What a step does to the strategy: it only posts, or it runs the next
handler, a side update or the end of an order. -/
theorem step_cases {event : Event config} (h : step stdSort asserts str s event = some s') :
    (∃ labels, Posts s s' labels ∧ ∀ label ∈ labels, label.IsHandler) ∨
    (∃ label strategy, s.posted[s.started]? = some label ∧
      s.strategy.step config.toTakeStrategyConfig label = some strategy ∧
      s' = { s with strategy, started := s.started + 1 }) ∨
    (∃ k, s.doBookUpdate k = some s') ∨
    (∃ k, k < s.strategy.inFlight.length ∧ s' = { s with
      strategy := { s.strategy with inFlight := s.strategy.inFlight.eraseIdx k } }) := by
  have hrefl : ∀ {t : TradingSystem config}, t.posted = s.posted → t.started = s.started →
      t.strategy = s.strategy → t.sent = s.sent → t.accounts = s.accounts →
      t.messages = s.messages → ∃ labels, Posts s t labels ∧
        ∀ label ∈ labels, label.IsHandler := by
    intro t hposted hstarted hstrategy hsent haccounts hmessages
    exact ⟨[], ⟨by rw [hposted, List.append_nil], hstarted, hstrategy, hsent, by rw [haccounts],
      by rw [hmessages]⟩, nofun⟩
  have hupdate : ∀ update, ∃ labels, Posts s (s.doUpdateBook stdSort update) labels ∧
      ∀ label ∈ labels, label.IsHandler := by
    intro update
    simp only [doUpdateBook]
    split
    · exact ⟨[_], ⟨rfl, rfl, rfl, rfl, List.prefix_append _ _, List.prefix_rfl⟩, by
        simp [TakeStrategy.Label.IsHandler]⟩
    · exact ⟨[], ⟨(List.append_nil _).symm, rfl, rfl, rfl, List.prefix_append _ _,
        List.prefix_rfl⟩, nofun⟩
  cases event with
  | loadBook update =>
    obtain ⟨-, h⟩ := Option.ite_none_left_eq_some.mp h
    cases h
    exact .inl (hupdate update)
  | serumLoaded =>
    cases h
    exact .inl (hrefl rfl rfl rfl rfl rfl rfl)
  | subscribe =>
    obtain ⟨-, h⟩ := Option.ite_none_right_eq_some.mp h
    cases h
    exact .inl (hrefl rfl rfl rfl rfl rfl rfl)
  | orderbookAccount i now decoded =>
    cases decoded with
    | error error =>
      cases h
      exact .inl (hrefl rfl rfl rfl rfl rfl rfl)
    | ok account =>
      cases h
      exact .inl (hupdate _)
  | eventQueueAccount i decoded =>
    cases h
    exact .inl (hrefl rfl rfl rfl rfl rfl rfl)
  | ftxMessage event =>
    obtain ⟨client, -, h⟩ := Option.bind_eq_some_iff.mp h
    cases h
    refine .inl ⟨_, ⟨rfl, rfl, rfl, rfl, List.prefix_rfl, List.prefix_append _ _⟩, ?_⟩
    intro label hlabel
    obtain ⟨call, -, rfl⟩ := List.mem_map.mp hlabel
    trivial
  | mangoWallet wallet =>
    cases h
    exact .inl ⟨[_], ⟨rfl, rfl, rfl, rfl, List.prefix_rfl, List.prefix_rfl⟩, by
      simp [TakeStrategy.Label.IsHandler]⟩
  | ftxWallet wallet =>
    cases h
    exact .inl ⟨[_], ⟨rfl, rfl, rfl, rfl, List.prefix_rfl, List.prefix_rfl⟩, by
      simp [TakeStrategy.Label.IsHandler]⟩
  | handler =>
    obtain ⟨label, hlabel, h⟩ := Option.bind_eq_some_iff.mp h
    obtain ⟨strategy, hstrategy, h⟩ := Option.bind_eq_some_iff.mp h
    exact .inr (.inl ⟨label, strategy, hlabel, hstrategy, (Option.some.inj h).symm⟩)
  | bookUpdate k => exact .inr (.inr (.inl ⟨k, h⟩))
  | orderDone k outcome =>
    obtain ⟨strategy, hstrategy, h⟩ := Option.bind_eq_some_iff.mp h
    obtain ⟨hk, hdone⟩ := Option.ite_none_right_eq_some.mp hstrategy
    obtain rfl := Option.some.inj hdone
    exact .inr (.inr (.inr ⟨k, hk, (Option.some.inj h).symm⟩))

/-- The order of a side update, for what it walks in the two books. -/
def takeOrder (config : TradingSystemConfig) (i : ℕ) (side : Side) (serumBook ftxBook : Book) :
    Order :=
  takeLiquidityOrder config.toTakeStrategyConfig i side
    (foundArbitrage side (serumBook.get side) (ftxBook.get (sideFlip side)))

/-- A side update that has run. -/
def updated (s : TradingSystem config) (k : ℕ) : TradingSystem config :=
  { s with strategy := { s.strategy with spawned := s.strategy.spawned.eraseIdx k } }

/-- A side update that has run and has sent an order. -/
def sending (s : TradingSystem config) (k i : ℕ) (order : Order) : TradingSystem config :=
  { s with
    strategy := { s.strategy with
      spawned := s.strategy.spawned.eraseIdx k
      isTrading := true
      inFlight := s.strategy.inFlight ++ [order] }
    sent := s.sent ++ [⟨s.started, i, order⟩] }

theorem doBookUpdate_earns {k : ℕ} (h : s.doBookUpdate k = some s') :
    ∃ i side, s.strategy.spawned[k]? = some (i, side) ∧
      ((s' = s.updated k ∧ (s.strategy.isTrading = true ∨
        s.strategy.NoTrade config.toTakeStrategyConfig i side)) ∨
      (s.strategy.isTrading = false ∧ ∃ serumBook ftxBook,
        s.strategy.serumBooks[i]? = some serumBook ∧ s.strategy.ftxBooks[i]? = some ftxBook ∧
        Earns config.toTakeStrategyConfig side serumBook ftxBook ∧
        s' = s.sending k i (takeOrder config i side serumBook ftxBook))) := by
  obtain ⟨⟨i, side⟩, hupdate, h⟩ := Option.bind_eq_some_iff.mp h
  simp only [Option.bind_eq_bind, Option.bind_eq_some_iff, Option.ite_none_right_eq_some] at h
  obtain ⟨-, -, -, -, -, strategy, hstrategy, h⟩ := h
  obtain rfl := Option.some.inj h
  simp only [TakeStrategy.step, hupdate, Option.bind_some] at hstrategy
  refine ⟨i, side, hupdate, ?_⟩
  obtain ⟨rfl, hreason⟩ | ⟨hflag, serumBook, ftxBook, hserum, hftx, hearns, rfl⟩ :=
    TakeStrategy.doBookUpdate_earns hstrategy
  · exact .inl ⟨by simp [updated], hreason⟩
  · exact .inr ⟨hflag, serumBook, ftxBook, hserum, hftx, hearns, by simp [sending, takeOrder]⟩

theorem Mirrors.step {event : Event config} (h : s.Mirrors)
    (hstep : step stdSort asserts str s event = some s') : s'.Mirrors := by
  obtain ⟨labels, hposts, hlabels⟩ | ⟨label, strategy, hlabel, hstrategy, rfl⟩ | ⟨k, hk⟩ |
    ⟨k, -, rfl⟩ := step_cases hstep
  · exact h.of_posts hposts hlabels
  · exact h.of_handled hlabel
      (TakeStrategy.handled_of_step (h.handlers label (List.mem_of_getElem? hlabel)) hstrategy)
  · obtain ⟨i, side, -, ⟨rfl, -⟩ | ⟨-, serumBook, ftxBook, -, -, -, rfl⟩⟩ :=
      doBookUpdate_earns hk
    · exact ⟨h.started_le, h.handlers, h.serum, h.ftx, h.serum_length, h.ftx_length⟩
    · exact ⟨h.started_le, h.handlers, h.serum, h.ftx, h.serum_length, h.ftx_length⟩
  · exact ⟨h.started_le, h.handlers, h.serum, h.ftx, h.serum_length, h.ftx_length⟩

/-! ## No opportunity is missed -/

/-- A side of a pair is going to be looked at, or there is nothing in it while
no order has been sent. -/
structure Checked (s : TradingSystem config) : Prop where
  sides : ∀ update ∈ s.strategy.spawned, update.2 ≠ .invalid
  sent : s.sent = [] → s.strategy.isTrading = false
  checked : ∀ i side, side ≠ .invalid → (i, side) ∈ s.strategy.spawned ∨
    s.strategy.isTrading = true ∨ s.strategy.NoTrade config.toTakeStrategyConfig i side

/-- The entry that leaves a list with its index. -/
theorem mem_eraseIdx_or_eq {α : Type*} {l : List α} {k : ℕ} {a b : α} (ha : l[k]? = some a)
    (hb : b ∈ l) : b ∈ l.eraseIdx k ∨ b = a := by
  obtain ⟨hk, rfl⟩ := List.getElem?_eq_some_iff.mp ha
  exact (List.mem_cons.mp ((List.getElem_cons_eraseIdx_perm hk).mem_iff.mpr hb)).symm

theorem spawnedBy_sides {label : TakeStrategy.Label} :
    ∀ update ∈ TakeStrategy.spawnedBy label, update.2 ≠ .invalid := by
  cases label <;> simp [TakeStrategy.spawnedBy]

/-- A handler spawns both sides of its pair, or none. -/
theorem mem_spawnedBy_of_mem {label : TakeStrategy.Label} {i : ℕ} {side side' : Side}
    (h : (i, side') ∈ TakeStrategy.spawnedBy label) (hside : side ≠ .invalid) :
    (i, side) ∈ TakeStrategy.spawnedBy label := by
  have hboth : ∀ {k : ℕ}, (i, side') ∈ [(k, Side.bid), (k, Side.ask)] →
      (i, side) ∈ [(k, Side.bid), (k, Side.ask)] := by
    intro k hmem
    have hk : i = k := by
      rcases List.mem_pair.mp hmem with heq | heq
      · exact (Prod.mk.inj heq).1
      · exact (Prod.mk.inj heq).1
    subst hk
    cases side with
    | invalid => exact absurd rfl hside
    | _ => simp
  cases label with
  | serumBook k book => exact hboth h
  | ftxBook k book => exact hboth h
  | _ => cases h

theorem Checked.of_handled {label : TakeStrategy.Label} {strategy : TakeStrategy} {started : ℕ}
    (h : s.Checked) (hhandled : TakeStrategy.Handled s.strategy label strategy) :
    Checked { s with strategy, started } := by
  refine ⟨?_, fun hsent => hhandled.isTrading.trans (h.sent hsent), ?_⟩
  · simp only [hhandled.spawned]
    exact List.forall_mem_append.mpr ⟨h.sides, spawnedBy_sides⟩
  · intro i side hside
    simp only [hhandled.spawned, List.mem_append, hhandled.isTrading]
    by_cases hspawned : (i, side) ∈ TakeStrategy.spawnedBy label
    · exact .inl (.inr hspawned)
    · have hkept : ∀ side', (i, side') ∉ TakeStrategy.spawnedBy label := fun side' hmem =>
        hspawned (mem_spawnedBy_of_mem hmem hside)
      rw [hhandled.noTrade_iff hkept]
      obtain hmem | hrest := h.checked i side hside
      · exact .inl (.inl hmem)
      · exact .inr hrest

/-- A side update has run: the side is looked at. -/
theorem Checked.of_updated {k i : ℕ} {side : Side} (h : s.Checked)
    (hspawned : s.strategy.spawned[k]? = some (i, side))
    (hreason : s.strategy.isTrading = true ∨
      s.strategy.NoTrade config.toTakeStrategyConfig i side) : (s.updated k).Checked := by
  refine ⟨fun update hupdate => h.sides update (List.mem_of_mem_eraseIdx hupdate), h.sent, ?_⟩
  intro i' side' hside'
  obtain hmem | hrest := h.checked i' side' hside'
  · obtain hmem | heq := mem_eraseIdx_or_eq hspawned hmem
    · exact .inl hmem
    · obtain ⟨rfl, rfl⟩ := Prod.mk.inj heq
      exact .inr hreason
  · exact .inr hrest

theorem Checked.step {event : Event config} (hmirrors : s.Mirrors) (h : s.Checked)
    (hstep : step stdSort asserts str s event = some s') : s'.Checked := by
  obtain ⟨labels, hposts, -⟩ | ⟨label, strategy, hlabel, hstrategy, rfl⟩ | ⟨k, hk⟩ | ⟨k, -, rfl⟩ :=
    step_cases hstep
  · refine ⟨?_, ?_, ?_⟩
    · rw [hposts.strategy]
      exact h.sides
    · rw [hposts.strategy, hposts.sent]
      exact h.sent
    · rw [hposts.strategy]
      exact h.checked
  · exact h.of_handled
      (TakeStrategy.handled_of_step (hmirrors.handlers label (List.mem_of_getElem? hlabel))
        hstrategy)
  · obtain ⟨i, side, hspawned, ⟨rfl, hreason⟩ | ⟨-, serumBook, ftxBook, -, -, -, rfl⟩⟩ :=
      doBookUpdate_earns hk
    · exact h.of_updated hspawned hreason
    · refine ⟨fun update hupdate => h.sides update (List.mem_of_mem_eraseIdx hupdate),
        fun hsent => absurd hsent (by simp [sending]), fun _ _ _ => .inr (.inl rfl)⟩
  · exact ⟨h.sides, h.sent, h.checked⟩

/-! ## What the clients publish -/

/-- A side of a Serum book: the aggregation of an account that has come, or
nothing. -/
def SideOf (stdSort : StdSort PriceQuantity) (s : TradingSystem config) (i : config.SerumIndex)
    (side : Side) (levels : SideBook) : Prop :=
  levels = [] ∨ ∃ account, (i, account) ∈ s.accounts ∧ account.side = side ∧
    levels = aggregateOrders stdSort config.serumReferenceData i account

/-- What the two clients have published, up to now. -/
structure Fed (stdSort : StdSort PriceQuantity) (str : Price → List UInt8)
    (s : TradingSystem config) : Prop where
  loaded : s.subscribed = true → s.serumLoaded = true
  unsubscribed : s.subscribed = false → serumBooks s.posted = []
  aggregated : ∀ i side, side ≠ .invalid →
    SideOf stdSort s i side ((s.serumMarketData.books i).get side)
  serum : ∀ entry ∈ serumBooks s.posted, ∃ i : config.SerumIndex, i.val = entry.1 ∧
    ∀ side, side ≠ .invalid → SideOf stdSort s i side (entry.2.get side)
  current : ∀ (i : config.SerumIndex) book, latest (serumBooks s.posted) i.val = some book →
    book = s.serumMarketData.books i
  published : ftxBooks s.posted =
    s.ftxMarketData.onBook.map fun call => (call.1.val, call.2)
  ftx : ∀ call ∈ s.ftxMarketData.onBook, ∃ message, (call.1, message) ∈ s.messages ∧
    ftxOrderbookChecksum str call.2 = message.checksum

theorem SideOf.mono {i : config.SerumIndex} {side : Side} {levels : SideBook}
    (h : SideOf stdSort s i side levels) (haccounts : s.accounts <+: s'.accounts) :
    SideOf stdSort s' i side levels := by
  obtain rfl | ⟨account, haccount, hside, hlevels⟩ := h
  · exact .inl rfl
  · exact .inr ⟨account, haccounts.subset haccount, hside, hlevels⟩

/-- A step that publishes no book. -/
structure Quiet (s s' : TradingSystem config) : Prop where
  loaded : s.serumLoaded = true → s'.serumLoaded = true
  subscribed : s'.subscribed = s.subscribed
  serumPosted : serumBooks s'.posted = serumBooks s.posted
  ftxPosted : ftxBooks s'.posted = ftxBooks s.posted
  serum : s'.serumMarketData.books = s.serumMarketData.books
  ftx : s'.ftxMarketData = s.ftxMarketData
  accounts : s'.accounts = s.accounts
  messages : s'.messages = s.messages

theorem Fed.of_quiet (h : Fed stdSort str s) (hquiet : Quiet s s') : Fed stdSort str s' := by
  have hprefix : s.accounts <+: s'.accounts := by rw [hquiet.accounts]
  refine ⟨?_, ?_, ?_, ?_, ?_, ?_, ?_⟩
  · intro hsubscribed
    exact hquiet.loaded (h.loaded (hquiet.subscribed ▸ hsubscribed))
  · rw [hquiet.subscribed, hquiet.serumPosted]
    exact h.unsubscribed
  · intro i side hside
    rw [hquiet.serum]
    exact (h.aggregated i side hside).mono hprefix
  · rw [hquiet.serumPosted]
    intro entry hentry
    obtain ⟨i, hi, hsides⟩ := h.serum entry hentry
    exact ⟨i, hi, fun side hside => (hsides side hside).mono hprefix⟩
  · rw [hquiet.serumPosted, hquiet.serum]
    exact h.current
  · rw [hquiet.ftxPosted, hquiet.ftx]
    exact h.published
  · rw [hquiet.ftx, hquiet.messages]
    exact h.ftx

/-- An update of a Serum book. Where the strategy is subscribed it is
published. -/
theorem Fed.doUpdateBook (h : Fed stdSort str s)
    (update : BookUpdate config.serumReferenceData)
    (hpublish : s.subscribed = true → update.doPublish = true) :
    Fed stdSort str (s.doUpdateBook stdSort update) := by
  let client := Serum.doUpdateBook stdSort s.serumMarketData update.tradingPairIndex update.now
    update.account update.doPublish
  let accounts := s.accounts ++ [(update.tradingPairIndex, update.account)]
  -- The state after the update, before the callbacks.
  let t : TradingSystem config := { s with serumMarketData := client, accounts }
  have hprefix : s.accounts <+: accounts := List.prefix_append _ _
  have haggregated : ∀ i side, side ≠ .invalid →
      SideOf stdSort t i side ((client.books i).get side) := by
    intro i side hside
    rw [get_doUpdateBook stdSort s.serumMarketData update hside]
    by_cases hi : update.tradingPairIndex = i ∧ update.account.side = side
    · obtain ⟨rfl, rfl⟩ := hi
      rw [if_pos ⟨rfl, rfl⟩]
      exact .inr ⟨update.account, List.mem_append_right _ (List.mem_singleton_self _), rfl, rfl⟩
    · rw [if_neg hi]
      exact SideOf.mono (h.aggregated i side hside) hprefix
  have hserum : ∀ entry ∈ serumBooks s.posted, ∃ i : config.SerumIndex, i.val = entry.1 ∧
      ∀ side, side ≠ .invalid → SideOf stdSort t i side (entry.2.get side) := by
    intro entry hentry
    obtain ⟨i, hi, hsides⟩ := h.serum entry hentry
    exact ⟨i, hi, fun side hside => SideOf.mono (hsides side hside) hprefix⟩
  have hother : ∀ i, update.tradingPairIndex ≠ i →
      client.books i = s.serumMarketData.books i := fun i hi =>
    Function.update_of_ne (Ne.symm hi) _ _
  cases hsubscribed : s.subscribed with
  | false =>
    -- Nobody is called, and nothing has been posted.
    have hnil := h.unsubscribed hsubscribed
    have hstate : s.doUpdateBook stdSort update = t := by
      simp [TradingSystem.doUpdateBook, hsubscribed, t, client, accounts]
    rw [hstate]
    refine ⟨h.loaded, h.unsubscribed, haggregated, hserum, ?_, h.published, h.ftx⟩
    intro i book hbook
    simp only [t, hnil, latest_nil, reduceCtorEq] at hbook
  | true =>
    have hstate : s.doUpdateBook stdSort update =
        t.post (.serumBook update.tradingPairIndex (client.books update.tradingPairIndex)) := by
      simp [TradingSystem.doUpdateBook, hsubscribed, hpublish hsubscribed, t, client, accounts]
    have hposted : serumBooks (s.posted ++
        [.serumBook update.tradingPairIndex (client.books update.tradingPairIndex)]) =
        serumBooks s.posted ++
          [(update.tradingPairIndex.val, client.books update.tradingPairIndex)] :=
      serumBooks_append _ _
    have hftx : ftxBooks (s.posted ++
        [.serumBook update.tradingPairIndex (client.books update.tradingPairIndex)]) =
        ftxBooks s.posted :=
      (ftxBooks_append _ _).trans (List.append_nil _)
    rw [hstate]
    refine ⟨h.loaded, ?_, haggregated, ?_, ?_, ?_, h.ftx⟩
    · intro hfalse
      exact absurd (hsubscribed.symm.trans hfalse) (by decide)
    · simp only [post, t, hposted]
      refine List.forall_mem_append.mpr ⟨hserum, List.forall_mem_singleton.mpr ?_⟩
      exact ⟨update.tradingPairIndex, rfl, haggregated update.tradingPairIndex⟩
    · intro i book hbook
      simp only [post, t, hposted, latest_concat] at hbook
      split at hbook
      · next hi =>
        obtain rfl := Fin.ext hi
        exact (Option.some.inj hbook).symm
      · next hi =>
        rw [h.current i book hbook]
        exact (hother i fun heq => hi (congrArg Fin.val heq)).symm
    · simp only [post, t, hftx]
      exact h.published

theorem serumBooks_ftx {n : ℕ} (calls : List (Fin n × Book)) :
    serumBooks (calls.map fun call => .ftxBook call.1 call.2) = [] := by
  induction calls with
  | nil => rfl
  | cons call calls ih => simp [serumBooks]

theorem ftxBooks_ftx {n : ℕ} (calls : List (Fin n × Book)) :
    ftxBooks (calls.map fun call => .ftxBook call.1 call.2) =
      calls.map fun call => (call.1.val, call.2) := by
  induction calls with
  | nil => rfl
  | cons call calls ih => simp [ftxBooks]

/-- No quantity of a message is negative. -/
def Event.Nonneg : Event config → Prop
  | .ftxMessage event => ∀ side, NonnegLevels ((messageOf event).2.levels.get side)
  | _ => True

/-- A message of the FTX client. Its book is published where the checksum
holds. -/
theorem Fed.doOnFtxMessage {event : OrderbookEvent config.ftxPairCount}
    (h : Fed stdSort str s) (hstep : s.doOnFtxMessage asserts str event = some s') :
    Fed stdSort str s' := by
  obtain ⟨client, hclient, hstep⟩ := Option.bind_eq_some_iff.mp hstep
  obtain rfl := Option.some.inj hstep
  obtain ⟨book, rfl, -⟩ := ftxStep_cases hclient
  -- The calls that are new are posted.
  obtain ⟨calls, hcalls, hnew⟩ : ∃ calls,
      (checkAndPublish str s.ftxMarketData (messageOf event).1 (messageOf event).2 book).onBook =
        s.ftxMarketData.onBook ++ calls ∧
      ∀ call ∈ calls, ∃ message, (call.1, message) ∈ s.messages ++ [messageOf event] ∧
        ftxOrderbookChecksum str call.2 = message.checksum := by
    by_cases hchecksum : ftxOrderbookChecksum str book = (messageOf event).2.checksum
    · refine ⟨[((messageOf event).1, book)], if_pos hchecksum, ?_⟩
      refine List.forall_mem_singleton.mpr ⟨(messageOf event).2, ?_, hchecksum⟩
      exact List.mem_append_right _ (List.mem_singleton_self _)
    · exact ⟨[], (if_neg hchecksum).trans (List.append_nil _).symm, nofun⟩
  have hserumPosted : ∀ published : List (config.FtxIndex × Book),
      serumBooks (s.posted ++ published.map fun call => .ftxBook call.1 call.2) =
        serumBooks s.posted := fun published => by
    rw [serumBooks_append, serumBooks_ftx, List.append_nil]
  refine ⟨h.loaded, fun hsubscribed => (hserumPosted _).trans (h.unsubscribed hsubscribed),
    h.aggregated, ?_, ?_, ?_, ?_⟩
  · rw [hserumPosted]
    exact h.serum
  · rw [hserumPosted]
    exact h.current
  · rw [hcalls, List.drop_left, ftxBooks_append, ftxBooks_ftx, h.published, List.map_append]
  · rw [hcalls]
    refine List.forall_mem_append.mpr ⟨fun call hcall => ?_, hnew⟩
    obtain ⟨message, hmessage, hchecksum⟩ := h.ftx call hcall
    exact ⟨message, List.mem_append_left _ hmessage, hchecksum⟩

theorem books_doOnEventQueueAccount {referenceData : SerumReferenceData}
    (client : SerumMarketDataClient referenceData) (i : referenceData.PairIndex)
    (decoded : Except SynthfiError SerumEventQueueAccount) :
    (doOnEventQueueAccount client i decoded).books = client.books := by
  cases decoded <;> rfl

theorem Fed.step {event : Event config} (h : Fed stdSort str s)
    (hstep : step stdSort asserts str s event = some s') : Fed stdSort str s' := by
  cases event with
  | loadBook update =>
    obtain ⟨hloaded, hstep⟩ := Option.ite_none_left_eq_some.mp hstep
    cases hstep
    exact h.doUpdateBook update fun hsubscribed => absurd (h.loaded hsubscribed) hloaded
  | serumLoaded =>
    cases hstep
    exact h.of_quiet ⟨fun _ => rfl, rfl, rfl, rfl, rfl, rfl, rfl, rfl⟩
  | subscribe =>
    obtain ⟨hloaded, hstep⟩ := Option.ite_none_right_eq_some.mp hstep
    cases hstep
    exact ⟨fun _ => hloaded, nofun, h.aggregated, h.serum, h.current, h.published, h.ftx⟩
  | orderbookAccount i now decoded =>
    cases decoded with
    | error error =>
      cases hstep
      exact h
    | ok account =>
      cases hstep
      exact h.doUpdateBook _ fun _ => rfl
  | eventQueueAccount i decoded =>
    cases hstep
    exact h.of_quiet ⟨id, rfl, rfl, rfl, books_doOnEventQueueAccount .., rfl, rfl, rfl⟩
  | ftxMessage event => exact h.doOnFtxMessage hstep
  | mangoWallet wallet =>
    cases hstep
    exact h.of_quiet ⟨id, rfl, (serumBooks_append ..).trans (List.append_nil _),
      (ftxBooks_append ..).trans (List.append_nil _), rfl, rfl, rfl, rfl⟩
  | ftxWallet wallet =>
    cases hstep
    exact h.of_quiet ⟨id, rfl, (serumBooks_append ..).trans (List.append_nil _),
      (ftxBooks_append ..).trans (List.append_nil _), rfl, rfl, rfl, rfl⟩
  | handler =>
    obtain ⟨label, -, hstep⟩ := Option.bind_eq_some_iff.mp hstep
    obtain ⟨strategy, -, hstep⟩ := Option.bind_eq_some_iff.mp hstep
    cases hstep
    exact h.of_quiet ⟨id, rfl, rfl, rfl, rfl, rfl, rfl, rfl⟩
  | bookUpdate k =>
    obtain ⟨i, side, -, ⟨rfl, -⟩ | ⟨-, serumBook, ftxBook, -, -, -, rfl⟩⟩ :=
      doBookUpdate_earns hstep
    · exact h.of_quiet ⟨id, rfl, rfl, rfl, rfl, rfl, rfl, rfl⟩
    · exact h.of_quiet ⟨id, rfl, rfl, rfl, rfl, rfl, rfl, rfl⟩
  | orderDone k outcome =>
    obtain ⟨strategy, -, hstep⟩ := Option.bind_eq_some_iff.mp hstep
    cases hstep
    exact h.of_quiet ⟨id, rfl, rfl, rfl, rfl, rfl, rfl, rfl⟩

theorem mirrors_init (config : TradingSystemConfig) : (init config).Mirrors where
  started_le := le_rfl
  handlers := nofun
  serum := replays_replicate _ _
  ftx := replays_replicate _ _
  serum_length := List.length_replicate
  ftx_length := List.length_replicate

theorem checked_init (config : TradingSystemConfig) : (init config).Checked where
  sides := nofun
  sent _ := rfl
  checked i side hside := by
    refine .inr (.inr fun serumBook ftxBook hserum _ hearns => hearns.serum ?_)
    obtain rfl := (mirrors_init config).serum.eq_getD hserum
    simp [startedLabels, init, serumBooks]

theorem fed_init (config : TradingSystemConfig) : Fed stdSort str (init config) where
  loaded := nofun
  unsubscribed _ := rfl
  aggregated i side _ := .inl (by simp [init, SerumMarketDataClient.init])
  serum := nofun
  current := nofun
  published := rfl
  ftx := nofun

/-! ## A market that opens -/

/-- SOL against USD on both exchanges. -/
def oneMarket : TradingSystemConfig where
  toTakeStrategyConfig := { TakeStrategy.solUsd with minUsdTradeProfit := 1 / 1000 }
  serumReferenceData := .onePair 6 6 100 10

/-- The one FTX pair. -/
def theFtxPair : oneMarket.FtxIndex := ⟨0, Nat.one_pos⟩

theorem bid_ne_invalid : Side.bid ≠ .invalid := by decide

/-- Five lots bid at 110, and one at 1. -/
def bidAccount : SerumOrderbookAccount where
  side := .bid
  orders := [⟨0, 0, ⟨0, 1100⟩, Bytes.ByteArr.fill 32 0, 5, 0⟩,
    ⟨0, 0, ⟨0, 10⟩, Bytes.ByteArr.fill 32 0, 1, 0⟩]
  side_valid := bid_ne_invalid

/-- Two levels on both sides, with the checksum of the book. -/
def ftxSnapshot (bid ask : Price) : OrderbookEvent 1 :=
  .snapshot ⟨0, Nat.one_pos⟩ 1
    ⟨ftxOrderbookChecksum (fun _ => []) (TakeStrategy.deepBookAt bid ask), 0,
      (TakeStrategy.deepBookAt bid ask).sideBooks⟩

/-- Both books come, and everything they set going has run. -/
def marketOpens (bid ask : Price) : List (Event oneMarket) :=
  [.serumLoaded, .subscribe, .orderbookAccount SerumReferenceData.thePair 1 (.ok bidAccount),
    .ftxMessage (ftxSnapshot bid ask), .handler, .handler, .bookUpdate 0, .bookUpdate 0,
    .bookUpdate 0, .bookUpdate 0]

/-- Nothing is on its way to the strategy, and no side update is waiting. -/
structure Quiescent (s : TradingSystem config) : Prop where
  started : s.started = s.posted.length
  spawned : s.strategy.spawned = []

/-- What every reachable state keeps. -/
structure Kept (stdSort : StdSort PriceQuantity) (str : Price → List UInt8)
    (s : TradingSystem config) : Prop where
  mirrors : s.Mirrors
  checked : s.Checked
  fed : Fed stdSort str s

theorem Kept.step {event : Event config} (h : Kept stdSort str s)
    (hstep : step stdSort asserts str s event = some s') : Kept stdSort str s' :=
  ⟨h.mirrors.step hstep, h.checked.step h.mirrors hstep, h.fed.step hstep⟩

theorem kept_init (config : TradingSystemConfig) : Kept stdSort str (init config) :=
  ⟨mirrors_init config, checked_init config, fed_init config⟩

theorem kept_of_run {events : List (Event config)}
    (hrun : run (step stdSort asserts str) (init config) events = some s) :
    Kept stdSort str s :=
  invariant_run (fun _ _ _ => Kept.step) (kept_init config) hrun

/-- **No opportunity is missed.** In every run, when nothing is on its way to
the strategy and it has sent no order: for every pair for which the Serum client
has published a book since the strategy subscribed, the book that the client
holds and the last FTX book whose checksum held earn less than the least profit
on both sides. -/
theorem nothing_missed (stdSort : StdSort PriceQuantity) (asserts : Bool)
    (str : Price → List UInt8) {events : List (Event config)} {t : TradingSystem config}
    (hrun : run (step stdSort asserts str) (init config) events = some t)
    (hquiescent : t.Quiescent) (hsent : t.sent = []) (i : config.SerumIndex) (j : config.FtxIndex)
    (hij : i.val = j.val) (hpublished : (latest (serumBooks t.posted) i.val).isSome)
    (ftxBook : Book) (hftx : latest t.ftxMarketData.onBook j = some ftxBook) (side : Side)
    (hside : side ≠ .invalid) :
    ¬ Earns config.toTakeStrategyConfig side (t.serumMarketData.books i) ftxBook := by
  have hkept := kept_of_run hrun
  have hstarted : t.startedLabels = t.posted := by
    rw [startedLabels, hquiescent.started, List.take_length]
  obtain ⟨serumBook, hserum⟩ := Option.isSome_iff_exists.mp hpublished
  obtain rfl := hkept.fed.current i serumBook hserum
  -- The books of the strategy are those that were published last.
  have hserumBook : t.strategy.serumBooks[i.val]? = some (t.serumMarketData.books i) := by
    rw [hkept.mirrors.serum i.val (by rw [hkept.mirrors.serum_length]; exact i.2), hstarted,
      hserum, Option.getD_some]
  have hftxBook : t.strategy.ftxBooks[i.val]? = some ftxBook := by
    rw [hkept.mirrors.ftx i.val (by rw [hkept.mirrors.ftx_length]; exact i.2), hstarted,
      hkept.fed.published, hij, latest_map Fin.val_injective, hftx, Option.getD_some]
  obtain hspawned | hflag | hnoTrade := hkept.checked.checked i.val side hside
  · rw [hquiescent.spawned] at hspawned
    cases hspawned
  · rw [hkept.checked.sent hsent] at hflag
    cases hflag
  · exact hnoTrade _ _ hserumBook hftxBook

/-- The offer is above the bid: nothing is sent. -/
theorem nothing_missed_marketOpens :
    ∃ t ftxBook, run (step (StdSort.insertionSort _) true fun _ => []) (init oneMarket)
        (marketOpens 109 120) = some t ∧
      latest t.ftxMarketData.onBook theFtxPair = some ftxBook ∧
      ¬ Earns oneMarket.toTakeStrategyConfig .bid
        (t.serumMarketData.books SerumReferenceData.thePair) ftxBook := by
  have hends : (run (step (StdSort.insertionSort _) true fun _ => []) (init oneMarket)
      (marketOpens 109 120)).map (fun t => ((t.started, t.posted.length),
        (t.strategy.spawned, t.sent), (latest (serumBooks t.posted) 0).isSome,
        (latest t.ftxMarketData.onBook theFtxPair).isSome)) =
      some ((2, 2), ([], []), true, true) := by
    decide +kernel
  obtain ⟨t, ht, hends⟩ := Option.map_eq_some_iff.mp hends
  simp only [Prod.mk.injEq] at hends
  obtain ⟨⟨hstarted, hposted⟩, ⟨hspawned, hsent⟩, hserum, hftx⟩ := hends
  obtain ⟨ftxBook, hftx⟩ := Option.isSome_iff_exists.mp hftx
  exact ⟨t, ftxBook, ht, hftx, nothing_missed _ true _ ht ⟨hstarted.trans hposted.symm, hspawned⟩
    hsent SerumReferenceData.thePair theFtxPair rfl hserum ftxBook hftx .bid (by decide)⟩

/-! ## Every order is justified -/

/-- Why a take order was sent: the books are those the strategy had been given
last for the pair, the Serum side aggregates an account that has come and the
order is at the price of an order in it, the checksum of the FTX book held, the
two earn the least profit as the strategy measures it, and the price of the order
is profitable. -/
structure Justified (stdSort : StdSort PriceQuantity) (str : Price → List UInt8)
    (s : TradingSystem config) (sent : SentOrder) (i : config.SerumIndex) (j : config.FtxIndex)
    (serumBook ftxBook : Book) : Prop where
  pair : i.val = sent.tradingPairIndex ∧ j.val = sent.tradingPairIndex
  started_le : sent.started ≤ s.posted.length
  serum_latest : latest (serumBooks (s.posted.take sent.started)) i.val = some serumBook
  ftx_latest : latest (ftxBooks (s.posted.take sent.started)) j.val = some ftxBook
  earns : Earns config.toTakeStrategyConfig sent.order.side serumBook ftxBook
  /-- A unit traded at the price of the order and at a level of the FTX book earns
  something after fees. -/
  profitable : ∃ level ∈ ftxBook.get (sideFlip sent.order.side),
    0 < unitProfit sent.order.side sent.order.price level.price
  account : ∃ account, (i, account) ∈ s.accounts ∧ account.side = sent.order.side ∧
    serumBook.get sent.order.side =
      aggregateOrders stdSort config.serumReferenceData i account ∧
    ∃ leaf ∈ account.orders,
      sent.order.price = config.serumReferenceData.slabPrice i leaf.key.limitPrice
  message : ∃ message, (j, message) ∈ s.messages ∧
    ftxOrderbookChecksum str ftxBook = message.checksum
  quantity_pos : 0 < sent.order.quantity
  quantity_le : sent.order.quantity ≤ 1

theorem Justified.of_prefix {sent : SentOrder} {i : config.SerumIndex} {j : config.FtxIndex}
    {serumBook ftxBook : Book} (h : Justified stdSort str s sent i j serumBook ftxBook)
    (hposted : s.posted <+: s'.posted) (haccounts : s.accounts <+: s'.accounts)
    (hmessages : s.messages <+: s'.messages) :
    Justified stdSort str s' sent i j serumBook ftxBook := by
  obtain ⟨more, hmore⟩ := hposted
  have htake : s'.posted.take sent.started = s.posted.take sent.started := by
    rw [← hmore, List.take_append_of_le_length h.started_le]
  obtain ⟨account, haccount, hrest⟩ := h.account
  obtain ⟨message, hmessage, hchecksum⟩ := h.message
  refine ⟨h.pair, ?_, by rw [htake, h.serum_latest], by rw [htake, h.ftx_latest], h.earns,
    h.profitable, ⟨account, haccounts.subset haccount, hrest⟩,
    ⟨message, hmessages.subset hmessage, hchecksum⟩, h.quantity_pos, h.quantity_le⟩
  rw [← hmore, List.length_append]
  exact h.started_le.trans (Nat.le_add_right _ _)

/-- No quantity of an FTX book is negative. -/
structure NonnegFtx (s : TradingSystem config) : Prop where
  books : ∀ i side, NonnegLevels ((s.ftxMarketData.books i).get side)
  published : ∀ call ∈ s.ftxMarketData.onBook, ∀ side, NonnegLevels (call.2.get side)

theorem NonnegFtx.step {event : Event config} (h : s.NonnegFtx) (hnonneg : event.Nonneg)
    (hstep : step stdSort asserts str s event = some s') : s'.NonnegFtx := by
  have hkept : s'.ftxMarketData = s.ftxMarketData → s'.NonnegFtx := fun heq =>
    ⟨heq ▸ h.books, heq ▸ h.published⟩
  have hupdate : ∀ update, (s.doUpdateBook stdSort update).ftxMarketData = s.ftxMarketData := by
    intro update
    simp only [doUpdateBook]
    split <;> rfl
  cases event with
  | loadBook update =>
    obtain ⟨-, hstep⟩ := Option.ite_none_left_eq_some.mp hstep
    cases hstep
    exact hkept (hupdate update)
  | serumLoaded =>
    cases hstep
    exact hkept rfl
  | subscribe =>
    obtain ⟨-, hstep⟩ := Option.ite_none_right_eq_some.mp hstep
    cases hstep
    exact hkept rfl
  | orderbookAccount i now decoded =>
    cases decoded with
    | error error =>
      cases hstep
      exact h
    | ok account =>
      cases hstep
      exact hkept (hupdate _)
  | eventQueueAccount i decoded =>
    cases hstep
    exact hkept rfl
  | ftxMessage event =>
    obtain ⟨client, hclient, hstep⟩ := Option.bind_eq_some_iff.mp hstep
    obtain rfl := Option.some.inj hstep
    obtain ⟨book, rfl, hbook⟩ := ftxStep_cases hclient
    have hlevels := hbook h.books hnonneg
    constructor
    · intro i
      by_cases hi : i = (messageOf event).1
      · subst hi
        simpa [checkAndPublish] using hlevels
      · simpa [checkAndPublish, Function.update_of_ne hi] using h.books i
    · simp only [checkAndPublish]
      split
      · exact List.forall_mem_append.mpr ⟨h.published, List.forall_mem_singleton.mpr hlevels⟩
      · exact h.published
  | mangoWallet wallet =>
    cases hstep
    exact hkept rfl
  | ftxWallet wallet =>
    cases hstep
    exact hkept rfl
  | handler =>
    obtain ⟨label, -, hstep⟩ := Option.bind_eq_some_iff.mp hstep
    obtain ⟨strategy, -, hstep⟩ := Option.bind_eq_some_iff.mp hstep
    cases hstep
    exact hkept rfl
  | bookUpdate k =>
    obtain ⟨i, side, -, ⟨rfl, -⟩ | ⟨-, serumBook, ftxBook, -, -, -, rfl⟩⟩ :=
      doBookUpdate_earns hstep
    · exact hkept rfl
    · exact hkept rfl
  | orderDone k outcome =>
    obtain ⟨strategy, -, hstep⟩ := Option.bind_eq_some_iff.mp hstep
    cases hstep
    exact hkept rfl

/-- The order of a side update that earns the least profit. -/
theorem justified_of_earns (hmin : 0 < config.minUsdTradeProfit)
    (hmax : config.maxUsdTradeSize ≠ 0) (hkept : Kept stdSort str s) (hnonneg : s.NonnegFtx)
    {i : ℕ} {side : Side} (hside : side ≠ .invalid) {serumBook ftxBook : Book}
    (hserum : s.strategy.serumBooks[i]? = some serumBook)
    (hftx : s.strategy.ftxBooks[i]? = some ftxBook)
    (hearns : Earns config.toTakeStrategyConfig side serumBook ftxBook) :
    ∃ i' j', Justified stdSort str s ⟨s.started, i, takeOrder config i side serumBook ftxBook⟩
      i' j' serumBook ftxBook := by
  -- The two books are the last of the handlers that have run.
  have hserumLatest : latest (serumBooks s.startedLabels) i = some serumBook := by
    have heq := hkept.mirrors.serum.eq_getD hserum
    cases hlatest : latest (serumBooks s.startedLabels) i with
    | none => exact absurd (by rw [heq, hlatest, Option.getD_none, Book.get_empty]) hearns.serum
    | some book => rw [heq, hlatest, Option.getD_some]
  have hftxLatest : latest (ftxBooks s.startedLabels) i = some ftxBook := by
    have heq := hkept.mirrors.ftx.eq_getD hftx
    cases hlatest : latest (ftxBooks s.startedLabels) i with
    | none => exact absurd (by rw [heq, hlatest, Option.getD_none, Book.get_empty]) hearns.ftx
    | some book => rw [heq, hlatest, Option.getD_some]
  have hposted : s.startedLabels ⊆ s.posted := List.take_subset _ _
  have hserumPosted : (i, serumBook) ∈ serumBooks s.posted :=
    mem_serumBooks.mpr (hposted (mem_serumBooks.mp (mem_of_latest hserumLatest)))
  have hftxPosted : (i, ftxBook) ∈ ftxBooks s.posted :=
    mem_ftxBooks.mpr (hposted (mem_ftxBooks.mp (mem_of_latest hftxLatest)))
  obtain ⟨i', hi', hsides⟩ := hkept.fed.serum _ hserumPosted
  obtain ⟨account, haccount, haccountSide, haggregates⟩ :=
    (hsides side hside).resolve_left hearns.serum
  rw [hkept.fed.published] at hftxPosted
  obtain ⟨call, hcall, heq⟩ := List.mem_map.mp hftxPosted
  obtain ⟨hj', rfl⟩ := Prod.mk.inj heq
  -- Something was walked, so the price is that of a level.
  have hserumNonneg : NonnegLevels (serumBook.get side) := by
    rw [haggregates]
    exact fun level hlevel => (mem_aggregateOrders hlevel).1
  have hsize : 0 < totalSize (tradedPairs side
      (facingLevels 0 0 (serumBook.get side) (call.2.get (sideFlip side)))) := by
    have hsum := hmin.trans_le hearns.profit
    refine totalSize_pos_of_sum_pos (fun pair hpair => ?_) hsum
    exact pairSize_nonneg hserumNonneg (hnonneg.published call hcall _)
      (List.takeWhile_subset _ hpair)
  obtain ⟨⟨level, hlevel, hprice⟩, hprofitable⟩ := exists_levels_of_totalSize_pos hsize
  rw [haggregates] at hlevel
  obtain ⟨-, leaf, hleaf, hleafPrice⟩ := mem_aggregateOrders hlevel
  have hquantity : (takeOrder config i side serumBook call.2).quantity =
      min (totalSize (tradedPairs side
        (facingLevels 0 0 (serumBook.get side) (call.2.get (sideFlip side))))) 1 := by
    rw [takeOrder, takeLiquidityOrder_quantity hmax, foundArbitrage_quantity]
  exact ⟨i', call.1,
    { pair := ⟨hi', hj'⟩
      started_le := hkept.mirrors.started_le
      serum_latest := hi' ▸ hserumLatest
      ftx_latest := hj' ▸ hftxLatest
      earns := hearns
      profitable := hprofitable
      account := ⟨account, haccount, haccountSide, haggregates, leaf, hleaf,
        hprice.trans hleafPrice⟩
      message := hkept.fed.ftx call hcall
      quantity_pos := by
        rw [hquantity]
        exact lt_min hsize one_pos
      quantity_le := by
        rw [hquantity]
        exact min_le_right _ _ }⟩

/-- At most one order was sent, and it is justified. -/
structure SentJustified (stdSort : StdSort PriceQuantity) (str : Price → List UInt8)
    (s : TradingSystem config) : Prop where
  flag : s.sent.length = if s.strategy.isTrading then 1 else 0
  justified : ∀ sent ∈ s.sent, ∃ i j serumBook ftxBook,
    Justified stdSort str s sent i j serumBook ftxBook

theorem SentJustified.of_prefix (h : SentJustified stdSort str s) (hsent : s'.sent = s.sent)
    (hflag : s'.strategy.isTrading = s.strategy.isTrading) (hposted : s.posted <+: s'.posted)
    (haccounts : s.accounts <+: s'.accounts) (hmessages : s.messages <+: s'.messages) :
    SentJustified stdSort str s' := by
  refine ⟨by rw [hsent, hflag, h.flag], ?_⟩
  rw [hsent]
  intro sent hmem
  obtain ⟨i, j, serumBook, ftxBook, hjustified⟩ := h.justified sent hmem
  exact ⟨i, j, serumBook, ftxBook, hjustified.of_prefix hposted haccounts hmessages⟩

theorem SentJustified.step {event : Event config} (hmin : 0 < config.minUsdTradeProfit)
    (hmax : config.maxUsdTradeSize ≠ 0) (hkept : Kept stdSort str s) (hnonneg : s.NonnegFtx)
    (h : SentJustified stdSort str s) (hstep : step stdSort asserts str s event = some s') :
    SentJustified stdSort str s' := by
  obtain ⟨labels, hposts, -⟩ | ⟨label, strategy, hlabel, hstrategy, rfl⟩ | ⟨k, hk⟩ | ⟨k, -, rfl⟩ :=
    step_cases hstep
  · exact h.of_prefix hposts.sent (by rw [hposts.strategy]) (by rw [hposts.posted]; simp)
      hposts.accounts hposts.messages
  · have hhandled := TakeStrategy.handled_of_step
      (hkept.mirrors.handlers label (List.mem_of_getElem? hlabel)) hstrategy
    exact h.of_prefix rfl hhandled.isTrading List.prefix_rfl List.prefix_rfl List.prefix_rfl
  · obtain ⟨i, side, hspawned, ⟨rfl, -⟩ | ⟨hflag, serumBook, ftxBook, hserum, hftx, hearns, rfl⟩⟩ :=
      doBookUpdate_earns hk
    · exact h.of_prefix rfl rfl List.prefix_rfl List.prefix_rfl List.prefix_rfl
    · have hnil : s.sent = [] := by simpa [hflag] using h.flag
      have hside : side ≠ .invalid :=
        hkept.checked.sides (i, side) (List.mem_of_getElem? hspawned)
      obtain ⟨i', j', hjustified⟩ :=
        justified_of_earns hmin hmax hkept hnonneg hside hserum hftx hearns
      refine ⟨by simp [sending, hnil], ?_⟩
      simp only [sending, hnil, List.nil_append, List.mem_singleton, forall_eq]
      exact ⟨i', j', serumBook, ftxBook,
        hjustified.of_prefix List.prefix_rfl List.prefix_rfl List.prefix_rfl⟩
  · exact h.of_prefix rfl rfl List.prefix_rfl List.prefix_rfl List.prefix_rfl

/-- **Every order is justified.** Where a trade has to earn something, and no
quantity of an FTX message is negative: in every run, whichever way the messages,
the handlers and the side updates interleave, the strategy sends at most one take
order, and it is justified. -/
theorem takeOrders_justified (stdSort : StdSort PriceQuantity) (asserts : Bool)
    (str : Price → List UInt8) (hmin : 0 < config.minUsdTradeProfit)
    (hmax : config.maxUsdTradeSize ≠ 0) {events : List (Event config)}
    (hnonneg : ∀ event ∈ events, event.Nonneg) {t : TradingSystem config}
    (hrun : run (step stdSort asserts str) (init config) events = some t) :
    t.sent.length ≤ 1 ∧ ∀ sent ∈ t.sent, ∃ i j serumBook ftxBook,
      Justified stdSort str t sent i j serumBook ftxBook := by
  have hstep : ∀ (u : TradingSystem config) (event : Event config) (u' : TradingSystem config),
      (Kept stdSort str u ∧ u.NonnegFtx ∧ SentJustified stdSort str u) → Event.Nonneg event →
      step stdSort asserts str u event = some u' →
      Kept stdSort str u' ∧ u'.NonnegFtx ∧ SentJustified stdSort str u' := by
    rintro u event u' ⟨hkept, hbooks, hsent⟩ hevent hstep
    exact ⟨hkept.step hstep, hbooks.step hevent hstep,
      hsent.step hmin hmax hkept hbooks hstep⟩
  have hinit : Kept stdSort str (init config) ∧ (init config).NonnegFtx ∧
      SentJustified stdSort str (init config) := by
    refine ⟨kept_init config, ⟨fun i side => ?_, nofun⟩, ⟨rfl, nofun⟩⟩
    simp [init, FtxMarketDataClient.init, NonnegLevels]
  obtain ⟨-, -, hsent⟩ := invariant_along hstep hinit (along_of_forall_mem hnonneg) hrun
  refine ⟨?_, hsent.justified⟩
  rw [hsent.flag]
  split <;> simp

theorem nonneg_marketOpens {bid ask : Price} :
    ∀ event ∈ marketOpens bid ask, event.Nonneg := by
  have hlevels : ∀ price far : Price, NonnegLevels [⟨price, 10⟩, ⟨far, 1⟩] := fun price far =>
    List.forall_mem_cons.mpr ⟨by norm_num, List.forall_mem_singleton.mpr (by norm_num)⟩
  have hmessage : Event.Nonneg (.ftxMessage (ftxSnapshot bid ask) : Event oneMarket) := by
    intro side
    cases side
    · exact hlevels bid 1
    · exact hlevels ask 1000
    · exact hlevels ask 1000
  simp only [marketOpens, List.forall_mem_cons]
  exact ⟨trivial, trivial, trivial, hmessage, trivial, trivial, trivial, trivial, trivial, trivial,
    nofun⟩

theorem takeOrders_justified_marketOpens :
    ∃ t, run (step (StdSort.insertionSort _) true fun _ => []) (init oneMarket)
        (marketOpens 99 100) = some t ∧
      t.sent = [⟨2, 0, .create 110 (1 / 2000) .bid .immediateOrCancel 0⟩] ∧
      ∀ sent ∈ t.sent, ∃ i j serumBook ftxBook,
        Justified (StdSort.insertionSort _) (fun _ => []) t sent i j serumBook ftxBook := by
  have hsent : (run (step (StdSort.insertionSort _) true fun _ => []) (init oneMarket)
      (marketOpens 99 100)).map sent =
        some [⟨2, 0, .create 110 (1 / 2000) .bid .immediateOrCancel 0⟩] := by
    decide +kernel
  obtain ⟨t, ht, hsent⟩ := Option.map_eq_some_iff.mp hsent
  exact ⟨t, ht, hsent, (takeOrders_justified _ true _ (by decide +kernel) (by decide +kernel)
    nonneg_marketOpens ht).2⟩

end TradingSystem

end Synthfi.Strategy
