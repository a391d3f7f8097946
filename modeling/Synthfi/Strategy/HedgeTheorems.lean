/-
Synthfi.Strategy.HedgeTheorems — which short positions a Mango wallet hedges.

Each currency with a short position is to be hedged on its own, on a pair that
has it as its base. The loop over the currencies returns at the first short
position it cannot hedge, and it looks at the first pair of a base alone.
`hedgesEach_iff` finds the wallets and books for which every position is
hedged all the same.
-/
import Synthfi.Lib.Matching
import Synthfi.Strategy.TakeStrategyTheorems

namespace Synthfi.Strategy.TakeStrategy

open Trading Ftx

variable {config : TakeStrategyConfig} {s : TakeStrategy}

/-! ## The price of a hedge -/

/-- What the first levels of a book side hold. -/
def cumulative (levels : SideBook) (k : ℕ) : Quantity :=
  Matching.depth ((levels.take k).map fun level => (level.price, level.quantity))

/-- The price of the first level at which the quantity is reached, or of the
last level. -/
def CoversAt (quantity : Quantity) (levels : SideBook) (price : Price) : Prop :=
  ∃ k level, levels[k]? = some level ∧ price = level.price ∧
    (∀ i ≤ k, cumulative levels i < quantity) ∧
    (quantity ≤ cumulative levels (k + 1) ∨ k + 1 = levels.length)

theorem cumulative_cons (level : PriceQuantity) (levels : SideBook) (k : ℕ) :
    cumulative (level :: levels) (k + 1) = level.quantity + cumulative levels k := rfl

/-- The loop over the levels, from what the levels before hold. -/
theorem tradePrice_cons {quantity total : Quantity} {level : PriceQuantity} {levels : SideBook}
    (price : Price) (h : total < quantity) :
    CoversAt (quantity - total) (level :: levels)
      (tradePrice quantity (level :: levels) price total) := by
  induction levels generalizing level price total with
  | nil =>
    refine ⟨0, level, rfl, by simp [tradePrice, h], ?_, .inr rfl⟩
    intro i hi
    obtain rfl : i = 0 := by omega
    simpa [cumulative] using h
  | cons next levels ih =>
    rw [tradePrice, if_pos h]
    by_cases hnext : total + level.quantity < quantity
    · obtain ⟨k, found, hk, hprice, hbefore, hend⟩ := ih level.price hnext
      refine ⟨k + 1, found, hk, hprice, ?_, ?_⟩
      · intro i hi
        cases i with
        | zero => simpa [cumulative] using h
        | succ i =>
          have hlt := hbefore i (by omega)
          rw [cumulative_cons]
          linarith
      · obtain hreached | hlast := hend
        · rw [cumulative_cons]
          exact .inl (by linarith)
        · exact .inr (by simpa using hlast)
    · refine ⟨0, level, rfl, by simp [tradePrice, hnext], ?_, ?_⟩
      · intro i hi
        obtain rfl : i = 0 := by omega
        simpa [cumulative] using h
      · rw [cumulative_cons]
        have hzero : cumulative (next :: levels) 0 = 0 := rfl
        exact .inl (by rw [hzero]; linarith)

/-! ## Positions and their hedges -/

/-- The short position of the currency can be hedged on the pair: not in USD,
the pair has the currency as its base, its book has both sides, and the
position is at least its increment. -/
structure HedgeableOn (config : TakeStrategyConfig) (s : TakeStrategy)
    (currencyIndex tradingPairIndex : ℕ) (currency : FtxCurrency) (ftxTradingPair : FtxTradingPair)
    (ftxBook : Book) : Prop where
  currency_eq : config.ftxReferenceData.currencies[currencyIndex]? = some currency
  not_usd : currency.currencyName ≠ "USD"
  pair_eq : config.ftxReferenceData.tradingPairs[tradingPairIndex]? = some ftxTradingPair
  base_eq : ftxTradingPair.marketInformation.baseCurrency = currency.currencyName
  book_eq : s.ftxBooks[tradingPairIndex]? = some ftxBook
  valid : isValid ftxBook = true
  short : 0 < s.shortPosition currencyIndex
  increment_le : ftxTradingPair.marketInformation.quantityIncrement ≤ s.shortPosition currencyIndex

/-- Some pair can take the hedge of the currency. -/
def Eligible (config : TakeStrategyConfig) (s : TakeStrategy) (currencyIndex : ℕ) : Prop :=
  ∃ tradingPairIndex currency ftxTradingPair ftxBook,
    s.HedgeableOn config currencyIndex tradingPairIndex currency ftxTradingPair ftxBook

/-- The order hedges the whole short position of the currency, on a pair that
can take it, at the ask price that covers it. -/
def IsHedge (config : TakeStrategyConfig) (s : TakeStrategy) (currencyIndex : ℕ)
    (order : Order) : Prop :=
  ∃ tradingPairIndex currency ftxTradingPair ftxBook price,
    s.HedgeableOn config currencyIndex tradingPairIndex currency ftxTradingPair ftxBook ∧
    CoversAt (s.shortPosition currencyIndex) (ftxBook.get .ask) price ∧
    order = .create price (s.shortPosition currencyIndex) .bid .immediateOrCancel
      (UInt64.ofNat tradingPairIndex)

/-- One hedge for each short position that can be hedged, and no other order. -/
structure HedgesEach (config : TakeStrategyConfig) (s : TakeStrategy)
    (hedges : List (ℕ × Order)) : Prop where
  once : (hedges.map Prod.fst).Nodup
  each : ∀ currencyIndex, s.Eligible config currencyIndex → currencyIndex ∈ hedges.map Prod.fst
  no_other : ∀ hedge ∈ hedges, s.IsHedge config hedge.1 hedge.2

/-- The loop comes to every position that can be hedged: of the currency and
of each short one before it, the first pair of the base can take the hedge. -/
def LoopReaches (config : TakeStrategyConfig) (s : TakeStrategy) : Prop :=
  ∀ currencyIndex, s.Eligible config currencyIndex →
    s.HedgedIn config config.ftxReferenceData.currencies 0 currencyIndex

/-! ## One pass -/

theorem tradePrice_covers {quantity : Quantity} {levels : SideBook} (hquantity : 0 < quantity)
    (hlevels : levels ≠ []) : CoversAt quantity levels (tradePrice quantity levels 0 0) := by
  cases levels with
  | nil => exact absurd rfl hlevels
  | cons level levels =>
    have hcovers : CoversAt (quantity - 0) (level :: levels)
        (tradePrice quantity (level :: levels) 0 0) := tradePrice_cons 0 hquantity
    rwa [sub_zero] at hcovers

/-- A pass sends a hedge. -/
theorem isHedge_of_hedgeCurrency {currencyIndex : ℕ} {currency : FtxCurrency} {order : Order}
    (hcurrency : config.ftxReferenceData.currencies[currencyIndex]? = some currency)
    (h : s.hedgeCurrency config currencyIndex currency.currencyName = some (.hedge order)) :
    s.IsHedge config currencyIndex order := by
  obtain ⟨hhedgeable, tradingPairIndex, ftxBook, hfind, hbook, rfl⟩ := hedgeCurrency_cases h
  obtain ⟨tradingPairIndex', ftxTradingPair, ftxBook', hfind', hpair, hincrement, hbook', hvalid⟩ :=
    hhedgeable.paired
  obtain rfl := Option.some.inj (hfind.symm.trans hfind')
  obtain rfl := Option.some.inj (hbook.symm.trans hbook')
  refine ⟨tradingPairIndex, currency, ftxTradingPair, ftxBook, _,
    ⟨hcurrency, hhedgeable.not_usd, hpair, ?_, hbook, hvalid, hhedgeable.short, hincrement⟩, ?_,
    rfl⟩
  · obtain ⟨hlt, hbase, -⟩ := List.findIdx?_eq_some_iff_getElem.mp hfind
    obtain ⟨-, rfl⟩ := List.getElem?_eq_some_iff.mp hpair
    simpa using hbase
  · refine tradePrice_covers hhedgeable.short ?_
    intro hnil
    simp [isValid, hnil] at hvalid

/-- With a position in both wallets and a book for every pair, a pass decides. -/
theorem exists_hedgeCurrency {currencyIndex : ℕ} (currencyName : String)
    (hmango : currencyIndex < s.mangoWallet.positions.length)
    (hftx : currencyIndex < s.ftxWallet.positions.length)
    (hbooks : s.ftxBooks.length = config.ftxReferenceData.tradingPairs.length) :
    ∃ decision, s.hedgeCurrency config currencyIndex currencyName = some decision := by
  simp only [hedgeCurrency, List.getElem?_eq_getElem hmango, List.getElem?_eq_getElem hftx,
    Option.bind_eq_bind, Option.bind_some]
  split
  · split
    · exact ⟨_, rfl⟩
    · split
      · exact ⟨_, rfl⟩
      · next tradingPairIndex hfind =>
        have hpair := (List.findIdx?_eq_some_iff_getElem.mp hfind).1
        rw [List.getElem?_eq_getElem hpair, Option.bind_some]
        split
        · exact ⟨_, rfl⟩
        · rw [List.getElem?_eq_getElem (hbooks ▸ hpair), Option.bind_some]
          split
          · exact ⟨_, rfl⟩
          · exact ⟨_, rfl⟩
  · exact ⟨_, rfl⟩

/-! ## The loop -/

theorem exists_hedgeLoop {currencies : List FtxCurrency} {start : ℕ}
    (hmango : start + currencies.length = s.mangoWallet.positions.length)
    (hftx : start + currencies.length = s.ftxWallet.positions.length)
    (hbooks : s.ftxBooks.length = config.ftxReferenceData.tradingPairs.length) :
    ∃ hedges, s.hedgeLoop config currencies start = some hedges := by
  induction currencies generalizing start with
  | nil => exact ⟨[], rfl⟩
  | cons currency currencies ih =>
    rw [List.length_cons] at hmango hftx
    have hpass : ∃ decision, s.hedgeCurrency config start currency.currencyName = some decision :=
      exists_hedgeCurrency _ (by omega) (by omega) hbooks
    have hnext : ∃ rest, s.hedgeLoop config currencies (start + 1) = some rest :=
      ih (by omega) (by omega)
    obtain ⟨decision, hdecision⟩ := hpass
    obtain ⟨rest, hrest⟩ := hnext
    rw [hedgeLoop, hdecision, Option.bind_eq_bind, Option.bind_some]
    cases decision with
    | skip => exact ⟨rest, hrest⟩
    | stop => exact ⟨[], rfl⟩
    | hedge order =>
      rw [hrest]
      exact ⟨(start, order) :: rest, rfl⟩

/-- The loop hedges the currencies it comes to, each once. -/
theorem hedgeLoop_exact {currencies : List FtxCurrency} {start : ℕ} {hedges : List (ℕ × Order)}
    (hdrop : config.ftxReferenceData.currencies.drop start = currencies)
    (h : s.hedgeLoop config currencies start = some hedges) :
    (hedges.map Prod.fst).Nodup ∧
      (∀ currencyIndex, currencyIndex ∈ hedges.map Prod.fst ↔
        s.HedgedIn config currencies start currencyIndex) ∧
      ∀ hedge ∈ hedges, s.IsHedge config hedge.1 hedge.2 := by
  induction currencies generalizing start hedges with
  | nil =>
    cases h
    refine ⟨List.nodup_nil, fun currencyIndex => ?_, by simp⟩
    simp [hedgedIn_nil]
  | cons currency currencies ih =>
    have hcurrency : config.ftxReferenceData.currencies[start]? = some currency := by
      rw [← List.head?_drop, hdrop, List.head?_cons]
    have hnext : config.ftxReferenceData.currencies.drop (start + 1) = currencies := by
      rw [← List.tail_drop, hdrop, List.tail_cons]
    obtain ⟨hpassed, h⟩ | ⟨hshort, hnot, rfl⟩ | ⟨order, rest, hdecision, hrest, rfl⟩ :=
      hedgeLoop_cons_cases h
    · obtain ⟨honce, hreached, horders⟩ := ih hnext h
      refine ⟨honce, fun currencyIndex => ?_, horders⟩
      rw [hreached, hedgedIn_cons_of_nonpos hpassed]
    · refine ⟨List.nodup_nil, fun currencyIndex => ?_, by simp⟩
      simp [not_hedgedIn_cons hshort hnot]
    · obtain ⟨hhedgeable, -⟩ := hedgeCurrency_cases hdecision
      obtain ⟨honce, hreached, horders⟩ := ih hnext hrest
      refine ⟨?_, fun currencyIndex => ?_, ?_⟩
      · rw [List.map_cons, List.nodup_cons]
        refine ⟨fun hmem => ?_, honce⟩
        exact absurd ((hreached start).mp hmem).le (Nat.not_succ_le_self start)
      · rw [List.map_cons, List.mem_cons, hreached, hedgedIn_cons_of_hedgeable hhedgeable]
      · rw [List.forall_mem_cons]
        exact ⟨isHedge_of_hedgeCurrency hcurrency hdecision, horders⟩

/-- **Hedges.** With a position of every currency in both wallets and a book
for every pair, a Mango wallet requests one hedge for each short position that
can be hedged, and no other order, exactly when the loop comes to all of them. -/
theorem hedgesEach_iff (config : TakeStrategyConfig) (s : TakeStrategy) (mangoWallet : Wallet)
    (hmango : mangoWallet.positions.length = config.ftxReferenceData.currencies.length)
    (hftx : s.ftxWallet.positions.length = config.ftxReferenceData.currencies.length)
    (hbooks : s.ftxBooks.length = config.ftxReferenceData.tradingPairs.length) :
    ∃ s' hedges, s.doOnMangoWallet config mangoWallet = some s' ∧
      s'.hedges = s.hedges ++ hedges ∧
      ({ s with mangoWallet }.HedgesEach config hedges ↔
        { s with mangoWallet }.LoopReaches config) := by
  have hdefined : ∃ hedges, { s with mangoWallet }.hedgeLoop config
      config.ftxReferenceData.currencies 0 = some hedges :=
    exists_hedgeLoop (by rw [Nat.zero_add, hmango]) (by rw [Nat.zero_add, hftx]) hbooks
  obtain ⟨hedges, hloop⟩ := hdefined
  obtain ⟨honce, hreached, horders⟩ := hedgeLoop_exact List.drop_zero hloop
  refine ⟨_, hedges, by rw [doOnMangoWallet, hloop]; rfl, rfl, ?_⟩
  constructor
  · intro hgood currencyIndex heligible
    exact (hreached currencyIndex).mp (hgood.each currencyIndex heligible)
  · intro hloop
    exact ⟨honce, fun currencyIndex heligible =>
      (hreached currencyIndex).mpr (hloop currencyIndex heligible), horders⟩

/-- 10 SOL are offered on FTX at 100 dollars; no positions. -/
def solOffered : TakeStrategy := { init 1 2 with ftxBooks := [bookAt 99 100] }

/-- 5 SOL short: they are bought at 100 dollars. -/
theorem hedgesEach_iff_solShort :
    ∃ s' hedges, solOffered.doOnMangoWallet solUsd ⟨[-5, 700], [0, 0]⟩ = some s' ∧
      s'.hedges = solOffered.hedges ++ hedges ∧
      { solOffered with mangoWallet := ⟨[-5, 700], [0, 0]⟩ }.HedgesEach solUsd hedges := by
  obtain ⟨s', hedges, hs', hhedges, hiff⟩ :=
    hedgesEach_iff solUsd solOffered ⟨[-5, 700], [0, 0]⟩ rfl rfl rfl
  refine ⟨s', hedges, hs', hhedges, hiff.mpr ?_⟩
  intro currencyIndex heligible
  obtain ⟨tradingPairIndex, currency, ftxTradingPair, ftxBook, hon⟩ := heligible
  have hget := hon.currency_eq
  cases currencyIndex with
  | zero =>
    refine ⟨0, ⟨"SOL"⟩, rfl, rfl, ⟨by decide +kernel, by decide, ?_⟩, ?_⟩
    · exact ⟨0, _, _, rfl, rfl, by decide +kernel, rfl, rfl⟩
    · intro i earlier hi
      exact absurd hi (Nat.not_lt_zero i)
  | succ i =>
    cases i with
    | zero =>
      obtain rfl : FtxCurrency.mk "USD" = currency := by simpa [solUsd] using hget
      exact absurd rfl hon.not_usd
    | succ i => simp [solUsd] at hget

/-- The same pair, with the dollars configured before the SOL. -/
def usdSol : TakeStrategyConfig :=
  { solUsd with ftxReferenceData := ⟨solUsd.ftxReferenceData.tradingPairs, [⟨"USD"⟩, ⟨"SOL"⟩]⟩ }

/-- 700 dollars short and 5 SOL short: the dollars are not to be hedged, and
the SOL are not bought. -/
theorem hedgesEach_fails :
    { solOffered with mangoWallet := ⟨[-700, -5], [0, 0]⟩ }.Eligible usdSol 1 ∧
      ∃ s', solOffered.doOnMangoWallet usdSol ⟨[-700, -5], [0, 0]⟩ = some s' ∧ s'.hedges = [] ∧
        ∀ hedges, s'.hedges = solOffered.hedges ++ hedges →
          ¬ { solOffered with mangoWallet := ⟨[-700, -5], [0, 0]⟩ }.HedgesEach usdSol hedges := by
  have heligible : { solOffered with mangoWallet := ⟨[-700, -5], [0, 0]⟩ }.Eligible usdSol 1 :=
    ⟨0, ⟨"SOL"⟩, ⟨⟨1 / 10, "SOL", "SOL/USD"⟩⟩, bookAt 99 100, rfl, by decide, rfl, rfl, rfl, rfl,
      by decide +kernel, by decide +kernel⟩
  have hstate : (solOffered.doOnMangoWallet usdSol ⟨[-700, -5], [0, 0]⟩).map
      (fun s' => s'.hedges) = some [] := by decide +kernel
  obtain ⟨s', hs', hnil⟩ := Option.map_eq_some_iff.mp hstate
  refine ⟨heligible, s', hs', hnil, ?_⟩
  intro hedges hhedges hgood
  have hempty : hedges = [] := by
    rw [hnil] at hhedges
    exact hhedges.symm
  have hmem := hgood.each 1 heligible
  rw [hempty] at hmem
  exact List.not_mem_nil hmem

end Synthfi.Strategy.TakeStrategy
