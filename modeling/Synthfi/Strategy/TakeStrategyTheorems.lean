/-
Synthfi.Strategy.TakeStrategyTheorems — what the strategy has in flight.

Two properties over all interleavings of events.

* One arbitrage order at a time, and trading goes on when it has completed
  (`OneOrderAtATime`). The flag is set when an order is sent and nothing
  clears it: the property lasts until the first order completes.
* The hedges requested between two FTX wallets are covered by a short
  position seen (`HedgesCovered`). A hedge does not change the wallets, and
  the next Mango wallet hedges the same position again.
-/
import Mathlib.Tactic.Linarith
import Synthfi.Strategy.TakeStrategy

namespace Synthfi.Strategy.TakeStrategy

open Run Trading Ftx

variable {config : TakeStrategyConfig} {s s' t : TakeStrategy}

/-! ## Orders in flight -/

/-- A profit large enough is traded on: `do_book_update` sends an order. -/
def Sends (config : TakeStrategyConfig) (s : TakeStrategy) : Prop :=
  ∀ (tradingPairIndex : ℕ) (side : Side) (serumBook ftxBook : Book) (arbitrage : Arbitrage),
    tradingPairIndex < config.ftxReferenceData.tradingPairs.length →
    s.serumBooks[tradingPairIndex]? = some serumBook →
    s.ftxBooks[tradingPairIndex]? = some ftxBook →
    findArbitrage side (serumBook.get side) (ftxBook.get (sideFlip side)) = some arbitrage →
    config.minUsdTradeProfit ≤ arbitrage.expectedProfit →
    ∃ s', s.doBookUpdate config tradingPairIndex side = some s' ∧
      s'.inFlight = s.inFlight ++ [takeLiquidityOrder config tradingPairIndex side arbitrage]

structure OneOrderAtATime (config : TakeStrategyConfig) (s : TakeStrategy) : Prop where
  one : s.inFlight.length ≤ 1
  resumes : s.inFlight = [] → s.isTrading = false
  sends : s.inFlight = [] → s.Sends config

/-- The steps that keep `OneOrderAtATime`: no order completes. -/
def Label.IsPending : Label → Prop
  | .orderDone .. => False
  | _ => True

instance (label : Label) : Decidable label.IsPending := by
  unfold Label.IsPending
  split <;> infer_instance

/-- The flag is set exactly while there is an order in flight. -/
def FlagExact (s : TakeStrategy) : Prop := s.inFlight.length = if s.isTrading then 1 else 0

theorem sends_of_not_isTrading (h : s.isTrading = false) : s.Sends config := by
  intro tradingPairIndex side serumBook ftxBook arbitrage hpair hserum hftx hfind hprofit
  simp [doBookUpdate, hpair, hserum, hftx, hfind, h, not_lt.mpr hprofit]

theorem FlagExact.oneOrderAtATime (h : s.FlagExact) : s.OneOrderAtATime config := by
  cases hflag : s.isTrading with
  | false =>
    have hnil : s.inFlight.length = 0 := by simpa [FlagExact, hflag] using h
    exact ⟨by omega, fun _ => hflag, fun _ => sends_of_not_isTrading hflag⟩
  | true =>
    have hone : s.inFlight.length = 1 := by simpa [FlagExact, hflag] using h
    have hne : s.inFlight ≠ [] := fun hnil => by simp [hnil] at hone
    exact ⟨hone.le, fun hnil => absurd hnil hne, fun hnil => absurd hnil hne⟩

/-- What a book update changes: nothing, or it sends the order for what the
loop found and sets the flag, which was cleared. -/
theorem doBookUpdate_cases {tradingPairIndex : ℕ} {side : Side}
    (h : s.doBookUpdate config tradingPairIndex side = some s') :
    s' = s ∨ s.isTrading = false ∧ ∃ serumBook ftxBook arbitrage,
      s.serumBooks[tradingPairIndex]? = some serumBook ∧
      s.ftxBooks[tradingPairIndex]? = some ftxBook ∧
      findArbitrage side (serumBook.get side) (ftxBook.get (sideFlip side)) = some arbitrage ∧
      s' = { s with
        isTrading := true
        inFlight := s.inFlight ++ [takeLiquidityOrder config tradingPairIndex side arbitrage] } := by
  simp only [doBookUpdate, Option.bind_eq_bind, Option.bind_eq_some_iff] at h
  obtain ⟨-, -, serumBook, hserum, ftxBook, hftx, h⟩ := h
  split at h
  · exact .inl (Option.some.inj h).symm
  · next arbitrage hfind =>
    split at h
    · exact .inl (Option.some.inj h).symm
    · next hflag =>
      split at h
      · exact .inl (Option.some.inj h).symm
      · exact .inr ⟨by simpa using hflag, serumBook, ftxBook, arbitrage, hserum, hftx, hfind,
          (Option.some.inj h).symm⟩

/-- Only book updates and completions touch the flag and the orders. -/
theorem flagExact_step {label : Label} (h : s.FlagExact) (hlabel : label.IsPending)
    (hstep : step config s label = some s') : s'.FlagExact := by
  cases label with
  | mangoWallet wallet =>
    simp only [step, doOnMangoWallet, Option.bind_eq_bind, Option.bind_eq_some_iff] at hstep
    obtain ⟨hedges, -, hstep⟩ := hstep
    cases hstep
    exact h
  | ftxWallet wallet =>
    cases hstep
    exact h
  | serumBook tradingPairIndex book =>
    obtain ⟨-, hstep⟩ := Option.ite_none_right_eq_some.mp hstep
    cases hstep
    exact h
  | ftxBook tradingPairIndex book =>
    obtain ⟨-, hstep⟩ := Option.ite_none_right_eq_some.mp hstep
    cases hstep
    exact h
  | bookUpdate k =>
    obtain ⟨update, -, hupdate⟩ := Option.bind_eq_some_iff.mp hstep
    obtain rfl | ⟨hflag, -, -, arbitrage, -, -, -, rfl⟩ := doBookUpdate_cases hupdate
    · exact h
    · have hnil : s.inFlight = [] := by
        simpa [FlagExact, show s.isTrading = false from hflag] using h
      simp [FlagExact, hnil]
  | orderDone k outcome => exact hlabel.elim

/-- The completion of an order leaves the flag set with nothing in flight. -/
theorem not_oneOrderAtATime_orderDone {k : ℕ} {outcome : OrderOutcome} (h : s.FlagExact)
    (hstep : step config s (.orderDone k outcome) = some s') : ¬ s'.OneOrderAtATime config := by
  obtain ⟨hk, hstep⟩ := Option.ite_none_right_eq_some.mp hstep
  cases hstep
  cases hflag : s.isTrading with
  | false =>
    have hnil : s.inFlight = [] := by simpa [FlagExact, hflag] using h
    simp [hnil] at hk
  | true =>
    have hone : s.inFlight.length = 1 := by simpa [FlagExact, hflag] using h
    have hgone : s.inFlight.eraseIdx k = [] := by
      rw [← List.length_eq_zero_iff, List.length_eraseIdx_of_lt hk, hone]
    intro hgood
    cases hgood.resumes hgone

/-- **One order at a time.** Where nothing is in flight and the flag is
cleared, over all interleavings: there is at most one order in flight and
trading goes on without one, in every state of a run, exactly when none of
the orders sent completes in it. -/
theorem oneOrderAtATime_iff {labels : List Label} (hinFlight : s.inFlight = [])
    (hflag : s.isTrading = false) (hrun : run (step config) s labels = some t) :
    (∀ k u, run (step config) s (labels.take k) = some u → u.OneOrderAtATime config) ↔
      Along (step config) (fun _ label => label.IsPending) s labels := by
  have hexact : s.FlagExact := by simp [FlagExact, hinFlight, hflag]
  refine along_iff_prefixes (fun _ _ _ hu _ hok hstep => flagExact_step hu hok hstep)
    (fun u label u' hu _ hstep => ?_) hexact hexact.oneOrderAtATime hrun
  constructor
  · intro hgood
    cases label with
    | orderDone k outcome => exact not_oneOrderAtATime_orderDone hu hstep hgood
    | _ => trivial
  · intro hok
    exact (flagExact_step hu hok hstep).oneOrderAtATime

/-- SOL against USD: one pair, trades from one dollar of profit on. -/
def solUsd : TakeStrategyConfig where
  maxUsdTradeSize := 100
  minUsdTradeProfit := 1
  ftxReferenceData := ⟨[⟨⟨1 / 10, "SOL", "SOL/USD"⟩⟩], [⟨"SOL"⟩, ⟨"USD"⟩]⟩

/-- Ten on both sides. -/
def bookAt (bid ask : Price) : Book := ⟨0, 0, ⟨[⟨bid, 10⟩], [⟨ask, 10⟩]⟩⟩

/-- The same, and one far behind on each side, where the walk stops. -/
def deepBookAt (bid ask : Price) : Book :=
  ⟨0, 0, ⟨[⟨bid, 10⟩, ⟨1, 1⟩], [⟨ask, 10⟩, ⟨1000, 1⟩]⟩⟩

/-- The Serum bid is worth an order, which is still in flight when the book
of the other exchange comes again. -/
def orderInFlight : List Label :=
  [.ftxBook 0 (deepBookAt 99 100), .serumBook 0 (deepBookAt 110 111), .bookUpdate 2,
    .bookUpdate 0, .ftxBook 0 (deepBookAt 99 100), .bookUpdate 0]

theorem oneOrderAtATime_iff_orderInFlight :
    ∃ t, run (step solUsd) (init 1 2) orderInFlight = some t ∧ t.inFlight.length = 1 ∧
      ∀ k u, run (step solUsd) (init 1 2) (orderInFlight.take k) = some u →
        u.OneOrderAtATime solUsd := by
  have hlength : (run (step solUsd) (init 1 2) orderInFlight).map (fun t => t.inFlight.length) =
      some 1 := by decide +kernel
  obtain ⟨t, ht, hlength⟩ := Option.map_eq_some_iff.mp hlength
  exact ⟨t, ht, hlength, (oneOrderAtATime_iff rfl rfl ht).mpr (by decide +kernel)⟩

/-- The order returns, and the same books come again. -/
def orderReturned : List Label :=
  [.ftxBook 0 (deepBookAt 99 100), .serumBook 0 (deepBookAt 110 111), .bookUpdate 2,
    .orderDone 0 .returned, .ftxBook 0 (deepBookAt 99 100)]

/-- Nothing is in flight, and the book update of the bids sends nothing. -/
theorem oneOrderAtATime_fails :
    ∃ t, run (step solUsd) (init 1 2) orderReturned = some t ∧
      t.inFlight = [] ∧ t.isTrading = true ∧ ¬ t.OneOrderAtATime solUsd ∧
      (findArbitrage .bid (deepBookAt 110 111).sideBooks.bid
        (deepBookAt 99 100).sideBooks.ask).any
          (fun arbitrage => solUsd.minUsdTradeProfit ≤ arbitrage.expectedProfit) ∧
      ∀ t', t.doBookUpdate solUsd 0 .bid = some t' → t'.inFlight = [] := by
  have hstate : (run (step solUsd) (init 1 2) orderReturned).map
      (fun t => (t.inFlight, t.isTrading)) = some ([], true) := by decide +kernel
  obtain ⟨t, ht, hstate⟩ := Option.map_eq_some_iff.mp hstate
  rw [Prod.mk.injEq] at hstate
  obtain ⟨hnil, hflag⟩ := hstate
  refine ⟨t, ht, hnil, hflag, fun hgood => ?_, by decide +kernel, fun t' ht' => ?_⟩
  · rw [hgood.resumes hnil] at hflag
    cases hflag
  · obtain rfl | ⟨hcleared, -⟩ := doBookUpdate_cases ht'
    · exact hnil
    · rw [hcleared] at hflag
      cases hflag

/-! ## Hedges -/

/-- What the hedges of a list request for one currency. -/
def total (hedges : List (ℕ × Order)) (currencyIndex : ℕ) : Quantity :=
  ((hedges.filter fun hedge => hedge.1 = currencyIndex).map fun hedge => hedge.2.quantity).sum

@[simp] theorem total_nil (currencyIndex : ℕ) : total [] currencyIndex = 0 := rfl

@[simp] theorem total_cons (hedge : ℕ × Order) (hedges : List (ℕ × Order)) (currencyIndex : ℕ) :
    total (hedge :: hedges) currencyIndex =
      (if hedge.1 = currencyIndex then hedge.2.quantity else 0) + total hedges currencyIndex := by
  by_cases h : hedge.1 = currencyIndex <;> simp [total, h]

@[simp] theorem total_append (hedges more : List (ℕ × Order)) (currencyIndex : ℕ) :
    total (hedges ++ more) currencyIndex =
      total hedges currencyIndex + total more currencyIndex := by
  simp [total]

/-- The hedges requested since the last FTX wallet are covered by a short
position seen since. -/
def HedgesCovered (s : TakeStrategy) : Prop :=
  ∀ currencyIndex, total s.hedges currencyIndex ≤ s.largestShort currencyIndex

/-- A short position that can be hedged: not in USD, on a configured pair, of
at least the increment of the pair, whose book is valid. -/
structure Hedgeable (config : TakeStrategyConfig) (s : TakeStrategy) (currencyIndex : ℕ)
    (currencyName : String) : Prop where
  short : 0 < s.shortPosition currencyIndex
  not_usd : currencyName ≠ "USD"
  paired : ∃ tradingPairIndex ftxTradingPair ftxBook,
    (config.ftxReferenceData.tradingPairs.findIdx? fun tradingPair =>
      tradingPair.marketInformation.baseCurrency = currencyName) = some tradingPairIndex ∧
    config.ftxReferenceData.tradingPairs[tradingPairIndex]? = some ftxTradingPair ∧
    ftxTradingPair.marketInformation.quantityIncrement ≤ s.shortPosition currencyIndex ∧
    s.ftxBooks[tradingPairIndex]? = some ftxBook ∧ isValid ftxBook = true

/-- The currency is hedged by the loop over `currencies`, the first of which
has the index `start`: it can be, and the loop does not end before it. -/
def HedgedIn (config : TakeStrategyConfig) (s : TakeStrategy) (currencies : List FtxCurrency)
    (start currencyIndex : ℕ) : Prop :=
  ∃ k currency, currencies[k]? = some currency ∧ currencyIndex = start + k ∧
    s.Hedgeable config currencyIndex currency.currencyName ∧
    ∀ i earlier, i < k → currencies[i]? = some earlier →
      s.shortPosition (start + i) ≤ 0 ∨ s.Hedgeable config (start + i) earlier.currencyName

/-- The steps that keep `HedgesCovered`. A currency that a Mango wallet makes
the loop hedge has not been hedged since the last FTX wallet, or a short
position seen since covers this hedge too. -/
def CoveredStep (config : TakeStrategyConfig) (s : TakeStrategy) : Label → Prop
  | .mangoWallet mangoWallet => ∀ currencyIndex,
    { s with mangoWallet }.HedgedIn config config.ftxReferenceData.currencies 0 currencyIndex →
      total s.hedges currencyIndex = 0 ∨
        total s.hedges currencyIndex + { s with mangoWallet }.shortPosition currencyIndex ≤
          s.largestShort currencyIndex
  | _ => True

theorem shortPosition_eq {currencyIndex : ℕ} {mangoPosition ftxPosition : Quantity}
    (hmango : s.mangoWallet.positions[currencyIndex]? = some mangoPosition)
    (hftx : s.ftxWallet.positions[currencyIndex]? = some ftxPosition) :
    s.shortPosition currencyIndex = -(mangoPosition + ftxPosition) := by
  simp [shortPosition, hmango, hftx]

/-- What one pass of the loop decides. -/
theorem hedgeCurrency_cases {currencyIndex : ℕ} {currencyName : String} {decision : HedgeDecision}
    (h : s.hedgeCurrency config currencyIndex currencyName = some decision) :
    match decision with
    | .skip => s.shortPosition currencyIndex ≤ 0
    | .stop => 0 < s.shortPosition currencyIndex ∧ ¬ s.Hedgeable config currencyIndex currencyName
    | .hedge order => s.Hedgeable config currencyIndex currencyName ∧
        ∃ tradingPairIndex ftxBook,
          (config.ftxReferenceData.tradingPairs.findIdx? fun tradingPair =>
            tradingPair.marketInformation.baseCurrency = currencyName) = some tradingPairIndex ∧
          s.ftxBooks[tradingPairIndex]? = some ftxBook ∧
          order = .create (tradePrice (s.shortPosition currencyIndex) (ftxBook.get .ask) 0 0)
            (s.shortPosition currencyIndex) .bid .immediateOrCancel
            (UInt64.ofNat tradingPairIndex) := by
  simp only [hedgeCurrency, Option.bind_eq_bind, Option.bind_eq_some_iff] at h
  obtain ⟨mangoPosition, hmango, ftxPosition, hftx, h⟩ := h
  have hshort := shortPosition_eq hmango hftx
  split at h
  · next hnet =>
    have hpos : 0 < s.shortPosition currencyIndex := by rw [hshort]; linarith
    split at h
    · next husd =>
      cases h
      exact ⟨hpos, fun hh => hh.not_usd husd⟩
    · next husd =>
      split at h
      · next hnone =>
        cases h
        refine ⟨hpos, fun hh => ?_⟩
        obtain ⟨tradingPairIndex, -, -, hfind, -⟩ := hh.paired
        simp [hnone] at hfind
      · next tradingPairIndex hfind =>
        obtain ⟨ftxTradingPair, hpair, h⟩ := Option.bind_eq_some_iff.mp h
        split at h
        · next hsmall =>
          cases h
          refine ⟨hpos, fun hh => ?_⟩
          obtain ⟨i, pair, -, hi, hp, hincrement, -⟩ := hh.paired
          obtain rfl : tradingPairIndex = i := Option.some.inj (hfind.symm.trans hi)
          obtain rfl : ftxTradingPair = pair := Option.some.inj (hpair.symm.trans hp)
          rw [hshort] at hincrement
          exact absurd hincrement (not_le.mpr hsmall)
        · next hlarge =>
          obtain ⟨ftxBook, hbook, h⟩ := Option.bind_eq_some_iff.mp h
          split at h
          · next hvalid =>
            cases h
            refine ⟨⟨hpos, husd, tradingPairIndex, ftxTradingPair, ftxBook, hfind, hpair, ?_, hbook,
              hvalid⟩, tradingPairIndex, ftxBook, hfind, hbook, by rw [hshort]⟩
            rw [hshort]; exact not_lt.mp hlarge
          · next hvalid =>
            cases h
            refine ⟨hpos, fun hh => ?_⟩
            obtain ⟨i, -, book, hi, -, -, hb, hv⟩ := hh.paired
            obtain rfl : tradingPairIndex = i := Option.some.inj (hfind.symm.trans hi)
            obtain rfl : ftxBook = book := Option.some.inj (hbook.symm.trans hb)
            exact hvalid hv
  · next hnet =>
    cases h
    show s.shortPosition currencyIndex ≤ 0
    rw [hshort]; linarith

theorem hedgedIn_nil (start currencyIndex : ℕ) :
    ¬ s.HedgedIn config [] start currencyIndex := by
  rintro ⟨k, currency, hk, -⟩
  simp at hk

/-- A loop that starts with `currency` hedges it, or passes it and goes on. -/
theorem hedgedIn_cons {currency : FtxCurrency} {currencies : List FtxCurrency}
    {start currencyIndex : ℕ} :
    s.HedgedIn config (currency :: currencies) start currencyIndex ↔
      (currencyIndex = start ∧ s.Hedgeable config start currency.currencyName) ∨
      ((s.shortPosition start ≤ 0 ∨ s.Hedgeable config start currency.currencyName) ∧
        s.HedgedIn config currencies (start + 1) currencyIndex) := by
  constructor
  · rintro ⟨k, found, hk, rfl, hhedgeable, hearlier⟩
    cases k with
    | zero =>
      obtain rfl : currency = found := by simpa using hk
      exact .inl ⟨rfl, hhedgeable⟩
    | succ k =>
      refine .inr ⟨hearlier 0 currency (Nat.succ_pos k) rfl, k, found, hk, by omega, hhedgeable, ?_⟩
      intro i earlier hi hget
      have h := hearlier (i + 1) earlier (Nat.succ_lt_succ hi) hget
      rwa [show start + (i + 1) = start + 1 + i by omega] at h
  · rintro (⟨rfl, hhedgeable⟩ | ⟨hpassed, k, found, hk, rfl, hhedgeable, hearlier⟩)
    · exact ⟨0, currency, rfl, rfl, hhedgeable, fun i _ hi => absurd hi (Nat.not_lt_zero i)⟩
    · refine ⟨k + 1, found, hk, by omega, hhedgeable, ?_⟩
      intro i earlier hi hget
      cases i with
      | zero =>
        obtain rfl : currency = earlier := by simpa using hget
        exact hpassed
      | succ i =>
        have h := hearlier i earlier (Nat.lt_of_succ_lt_succ hi) hget
        rwa [show start + 1 + i = start + (i + 1) by omega] at h

/-- A currency that is not short is passed. -/
theorem hedgedIn_cons_of_nonpos {currency : FtxCurrency} {currencies : List FtxCurrency}
    {start currencyIndex : ℕ} (h : s.shortPosition start ≤ 0) :
    s.HedgedIn config (currency :: currencies) start currencyIndex ↔
      s.HedgedIn config currencies (start + 1) currencyIndex := by
  have hnot : ¬ s.Hedgeable config start currency.currencyName := fun hh =>
    absurd hh.short (not_lt.mpr h)
  simp only [hedgedIn_cons, hnot, h, and_false, false_or, or_false, true_and]

/-- A short position that cannot be hedged ends the loop. -/
theorem not_hedgedIn_cons {currency : FtxCurrency} {currencies : List FtxCurrency}
    {start currencyIndex : ℕ} (hshort : 0 < s.shortPosition start)
    (hnot : ¬ s.Hedgeable config start currency.currencyName) :
    ¬ s.HedgedIn config (currency :: currencies) start currencyIndex := by
  simp only [hedgedIn_cons, hnot, not_le.mpr hshort, and_false, or_self, false_and, not_false_iff]

theorem hedgedIn_cons_of_hedgeable {currency : FtxCurrency} {currencies : List FtxCurrency}
    {start currencyIndex : ℕ} (h : s.Hedgeable config start currency.currencyName) :
    s.HedgedIn config (currency :: currencies) start currencyIndex ↔
      currencyIndex = start ∨ s.HedgedIn config currencies (start + 1) currencyIndex := by
  simp only [hedgedIn_cons, h, and_true, or_true, true_and]

/-- What the loop does with the first of its currencies. -/
theorem hedgeLoop_cons_cases {currency : FtxCurrency} {currencies : List FtxCurrency} {start : ℕ}
    {hedges : List (ℕ × Order)}
    (h : s.hedgeLoop config (currency :: currencies) start = some hedges) :
    (s.shortPosition start ≤ 0 ∧ s.hedgeLoop config currencies (start + 1) = some hedges) ∨
    (0 < s.shortPosition start ∧ ¬ s.Hedgeable config start currency.currencyName ∧
      hedges = []) ∨
    ∃ order rest, s.hedgeCurrency config start currency.currencyName = some (.hedge order) ∧
      s.hedgeLoop config currencies (start + 1) = some rest ∧
      hedges = (start, order) :: rest := by
  rw [hedgeLoop, Option.bind_eq_bind, Option.bind_eq_some_iff] at h
  obtain ⟨decision, hdecision, h⟩ := h
  have hcases := hedgeCurrency_cases hdecision
  cases decision with
  | skip => exact .inl ⟨hcases, h⟩
  | stop => exact .inr (.inl ⟨hcases.1, hcases.2, (Option.some.inj h).symm⟩)
  | hedge order =>
    obtain ⟨rest, hrest, h⟩ := Option.bind_eq_some_iff.mp h
    exact .inr (.inr ⟨order, rest, hdecision, hrest, (Option.some.inj h).symm⟩)

theorem HedgedIn.le {currencies : List FtxCurrency} {start currencyIndex : ℕ}
    (h : s.HedgedIn config currencies start currencyIndex) : start ≤ currencyIndex := by
  obtain ⟨k, -, -, rfl, -⟩ := h
  exact Nat.le_add_right start k

theorem HedgedIn.shortPosition_pos {currencies : List FtxCurrency} {start currencyIndex : ℕ}
    (h : s.HedgedIn config currencies start currencyIndex) :
    0 < s.shortPosition currencyIndex := by
  obtain ⟨_, _, _, _, hhedgeable, _⟩ := h
  exact hhedgeable.short

open Classical in
/-- The loop hedges each currency once at most, for its whole short position. -/
theorem total_hedgeLoop {currencies : List FtxCurrency} {start : ℕ} {hedges : List (ℕ × Order)}
    (h : s.hedgeLoop config currencies start = some hedges) (currencyIndex : ℕ) :
    total hedges currencyIndex =
      if s.HedgedIn config currencies start currencyIndex then s.shortPosition currencyIndex
      else 0 := by
  induction currencies generalizing start hedges with
  | nil =>
    cases h
    rw [if_neg (hedgedIn_nil start currencyIndex), total_nil]
  | cons currency currencies ih =>
    obtain ⟨hpassed, h⟩ | ⟨hshort, hnot, rfl⟩ | ⟨order, rest, hdecision, hrest, rfl⟩ :=
      hedgeLoop_cons_cases h
    · rw [ih h]
      simp only [hedgedIn_cons_of_nonpos hpassed]
    · rw [if_neg (not_hedgedIn_cons hshort hnot), total_nil]
    · obtain ⟨hhedgeable, tradingPairIndex, ftxBook, -, -, rfl⟩ := hedgeCurrency_cases hdecision
      rw [total_cons, ih hrest]
      simp only [hedgedIn_cons_of_hedgeable hhedgeable]
      by_cases hstart : start = currencyIndex
      · subst hstart
        have hlater : ¬ s.HedgedIn config currencies (start + 1) start := fun hh =>
          absurd hh.le (Nat.not_succ_le_self start)
        simp [hlater]
      · simp [hstart, Ne.symm hstart]

/-- What holds of the ghosts in every state. -/
structure GhostsNonneg (s : TakeStrategy) : Prop where
  requested : ∀ currencyIndex, 0 ≤ total s.hedges currencyIndex
  seen : ∀ currencyIndex, 0 ≤ s.largestShort currencyIndex

/-- A hedge for the whole short position is covered where it is the first
one, or where a position seen before covers it. -/
theorem add_hedge_le_max {p : Prop} [Decidable p] {requested seen short : Quantity}
    (hrequested : 0 ≤ requested) (hcovered : requested ≤ seen) :
    requested + (if p then short else 0) ≤ max seen short ↔
      (p → requested = 0 ∨ requested + short ≤ seen) := by
  by_cases hp : p
  · simp only [hp, if_true, forall_const, le_max_iff]
    constructor
    · rintro (hseen | hlast)
      · exact .inr hseen
      · exact .inl (by linarith)
    · rintro (hfirst | hseen)
      · exact .inr (by linarith)
      · exact .inl hseen
  · simp [hp, hcovered]

open Classical in
/-- A Mango wallet adds the hedges of the loop. -/
theorem doOnMangoWallet_exact {mangoWallet : Wallet} (hghosts : s.GhostsNonneg)
    (h : s.HedgesCovered) (hstep : s.doOnMangoWallet config mangoWallet = some s') :
    s'.GhostsNonneg ∧ (s'.HedgesCovered ↔ s.CoveredStep config (.mangoWallet mangoWallet)) := by
  simp only [doOnMangoWallet, Option.bind_eq_bind, Option.bind_eq_some_iff] at hstep
  obtain ⟨hedges, hloop, hstep⟩ := hstep
  cases hstep
  have htotal := total_hedgeLoop hloop
  have hnew : ∀ currencyIndex, 0 ≤ total hedges currencyIndex := by
    intro currencyIndex
    rw [htotal]
    split
    · next hhedged => exact hhedged.shortPosition_pos.le
    · exact le_rfl
  refine ⟨⟨fun currencyIndex => ?_, fun currencyIndex => ?_⟩, ?_⟩
  · rw [total_append]
    exact add_nonneg (hghosts.requested currencyIndex) (hnew currencyIndex)
  · exact le_max_of_le_left (hghosts.seen currencyIndex)
  · unfold HedgesCovered CoveredStep
    refine forall_congr' fun currencyIndex => ?_
    rw [total_append, htotal]
    exact add_hedge_le_max (hghosts.requested currencyIndex) (h currencyIndex)

theorem coveredStep_exact {label : Label} (hghosts : s.GhostsNonneg) (h : s.HedgesCovered)
    (hstep : step config s label = some s') :
    s'.GhostsNonneg ∧ (s'.HedgesCovered ↔ s.CoveredStep config label) := by
  cases label with
  | mangoWallet mangoWallet => exact doOnMangoWallet_exact hghosts h hstep
  | ftxWallet ftxWallet =>
    cases hstep
    exact ⟨⟨fun _ => le_rfl, fun _ => le_rfl⟩, iff_of_true (fun _ => le_rfl) trivial⟩
  | serumBook tradingPairIndex book =>
    obtain ⟨-, hstep⟩ := Option.ite_none_right_eq_some.mp hstep
    cases hstep
    exact ⟨⟨hghosts.requested, hghosts.seen⟩, iff_of_true h trivial⟩
  | ftxBook tradingPairIndex book =>
    obtain ⟨-, hstep⟩ := Option.ite_none_right_eq_some.mp hstep
    cases hstep
    exact ⟨⟨hghosts.requested, hghosts.seen⟩, iff_of_true h trivial⟩
  | bookUpdate k =>
    obtain ⟨update, -, hupdate⟩ := Option.bind_eq_some_iff.mp hstep
    obtain rfl | ⟨-, -, -, arbitrage, -, -, -, rfl⟩ := doBookUpdate_cases hupdate
    · exact ⟨⟨hghosts.requested, hghosts.seen⟩, iff_of_true h trivial⟩
    · exact ⟨⟨hghosts.requested, hghosts.seen⟩, iff_of_true h trivial⟩
  | orderDone k outcome =>
    obtain ⟨-, hstep⟩ := Option.ite_none_right_eq_some.mp hstep
    cases hstep
    exact ⟨⟨hghosts.requested, hghosts.seen⟩, iff_of_true h trivial⟩

/-- **Hedges.** Over all interleavings, from a state where nothing has been
hedged since the last FTX wallet: in every state of a run the hedges
requested since the FTX wallet before are covered by a short position seen
since, exactly when every step of the run is a `CoveredStep`. -/
theorem hedgesCovered_iff {labels : List Label} (hhedges : s.hedges = [])
    (hseen : s.largestShort = fun _ => 0) (hrun : run (step config) s labels = some t) :
    (∀ k u, run (step config) s (labels.take k) = some u → u.HedgesCovered) ↔
      Along (step config) (CoveredStep config) s labels := by
  have hghosts : s.GhostsNonneg := by
    constructor <;> intro currencyIndex <;> simp [hhedges, hseen]
  have hcovered : s.HedgesCovered := by
    intro currencyIndex
    simp [hhedges, hseen]
  exact along_iff_prefixes (fun _ _ _ hu hgood _ hstep => (coveredStep_exact hu hgood hstep).1)
    (fun _ _ _ hu hgood hstep => (coveredStep_exact hu hgood hstep).2) hghosts hcovered hrun

/-- A short position of 5 SOL is hedged; FTX reports the hedge; 2 more. -/
def hedgedAfterFtx : List Label :=
  [.ftxBook 0 (bookAt 99 100), .mangoWallet ⟨[-5, 0], [0, 0]⟩, .ftxWallet ⟨[5, 0], [0, 0]⟩,
    .mangoWallet ⟨[-7, 0], [0, 0]⟩]

theorem hedgesCovered_iff_hedgedAfterFtx :
    ∃ t, run (step solUsd) (init 1 2) hedgedAfterFtx = some t ∧
      t.hedges.map (fun hedge => (hedge.1, hedge.2.quantity)) = [(0, 2)] ∧
      ∀ k u, run (step solUsd) (init 1 2) (hedgedAfterFtx.take k) = some u → u.HedgesCovered := by
  have hquantity : (run (step solUsd) (init 1 2) hedgedAfterFtx).map
      (fun t => t.hedges.map fun hedge => (hedge.1, hedge.2.quantity)) = some [(0, 2)] := by
    decide +kernel
  obtain ⟨t, ht, hquantity⟩ := Option.map_eq_some_iff.mp hquantity
  refine ⟨t, ht, hquantity, (hedgesCovered_iff rfl rfl ht).mpr ?_⟩
  -- Both wallets come when nothing has been hedged since the FTX wallet.
  refine ⟨trivial, fun _ h => ?_⟩
  cases h
  refine ⟨fun _ _ => .inl rfl, fun u _ => ⟨trivial, fun _ h => ?_⟩⟩
  cases h
  exact ⟨fun _ _ => .inl rfl, fun _ _ => trivial⟩

/-- Two Mango wallets between two FTX wallets show the same short position. -/
def hedgedTwice : List Label :=
  [.ftxBook 0 (bookAt 99 100), .ftxWallet ⟨[0, 0], [0, 0]⟩, .mangoWallet ⟨[-5, 0], [0, 0]⟩,
    .mangoWallet ⟨[-5, 0], [0, 0]⟩]

/-- 10 SOL are bought against a short position of 5. -/
theorem hedgesCovered_fails :
    ∃ t, run (step solUsd) (init 1 2) hedgedTwice = some t ∧
      total t.hedges 0 = 10 ∧ t.largestShort 0 = 5 ∧ ¬ t.HedgesCovered := by
  have hstate : (run (step solUsd) (init 1 2) hedgedTwice).map
      (fun t => (total t.hedges 0, t.largestShort 0)) = some (10, 5) := by decide +kernel
  obtain ⟨t, ht, hstate⟩ := Option.map_eq_some_iff.mp hstate
  rw [Prod.mk.injEq] at hstate
  obtain ⟨htotal, hshort⟩ := hstate
  refine ⟨t, ht, htotal, hshort, fun hgood => ?_⟩
  have hcovered := hgood 0
  rw [htotal, hshort] at hcovered
  exact absurd hcovered (by norm_num)

end Synthfi.Strategy.TakeStrategy
