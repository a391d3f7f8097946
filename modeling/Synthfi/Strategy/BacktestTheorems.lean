/-
Synthfi.Strategy.BacktestTheorems — the backtest predicts the take strategy.

Both strategies replace a book and look at both sides of its pair. Where the
side updates of a book run before the next book comes, the take strategy sends
its order at the first measurement of the backtest that earns the least profit:
on that side, for that pair and for the quantity measured, up to the greatest
trade. `backtest_predicts` says so for any sequence of books, also that one of
the two reads past a vector exactly when the other does.
-/
import Synthfi.Lib.Run
import Synthfi.Strategy.BacktestStrategy
import Synthfi.Strategy.TakeStrategyTheorems

namespace Synthfi.Strategy

open Trading Ftx Run

/-- A book that one of the market data clients publishes. -/
inductive BookEvent where
  | serum (tradingPairIndex : ℕ) (book : Book)
  | ftx (tradingPairIndex : ℕ) (book : Book)

namespace BacktestStrategy

def step : BacktestStrategy → BookEvent → Option BacktestStrategy
  | s, .serum tradingPairIndex book => s.doOnSerumBook tradingPairIndex book
  | s, .ftx tradingPairIndex book => s.doOnFtxBook tradingPairIndex book

/-- After `run` has loaded the reference data. -/
def init (ftxReferenceData : FtxReferenceData) (tradingPairCount : ℕ) : BacktestStrategy where
  ftxReferenceData := ftxReferenceData
  ftxBooks := List.replicate tradingPairCount .empty
  serumBooks := List.replicate tradingPairCount .empty
  published := []

end BacktestStrategy

/-- The handler of a book and its side updates, without another handler in
between. -/
def promptly : BookEvent → List TakeStrategy.Label
  | .serum tradingPairIndex book =>
    [.serumBook tradingPairIndex book, .bookUpdate 0, .bookUpdate 0]
  | .ftx tradingPairIndex book => [.ftxBook tradingPairIndex book, .bookUpdate 0, .bookUpdate 0]

/-! ## What is predicted -/

/-- A measurement that the take strategy trades on. -/
def earnsEnough (config : TakeStrategyConfig) (measurement : ArbitrageMeasurement) : Bool :=
  decide (config.minUsdTradeProfit ≤ measurement.expectedProfit)

/-- What an order is for: its side, its pair and its quantity. -/
def orderedOf (order : Order) : Side × UInt64 × Quantity :=
  (order.side, order._tradingPairIndex, order.quantity)

/-- What a measurement says the order is for. -/
def predictedOf (config : TakeStrategyConfig) (measurement : ArbitrageMeasurement) :
    Side × UInt64 × Quantity :=
  (measurement.side, UInt64.ofNat measurement.tradingPairIndex,
    min measurement.arbitrageQuantity (maxTradeQuantity config))

def predicted (config : TakeStrategyConfig) (published : List ArbitrageMeasurement) :
    List (Side × UInt64 × Quantity) :=
  ((published.find? (earnsEnough config)).map (predictedOf config)).toList

/-! ## One update -/

/-- The two strategies hold the same books, and the take strategy has sent
what the backtest predicts. -/
structure Agrees (config : TakeStrategyConfig) (b : BacktestStrategy) (s : TakeStrategy) :
    Prop where
  reference : b.ftxReferenceData = config.ftxReferenceData
  serumBooks : b.serumBooks = s.serumBooks
  ftxBooks : b.ftxBooks = s.ftxBooks
  flag : s.isTrading = (b.published.find? (earnsEnough config)).isSome
  ordered : s.inFlight.map orderedOf = predicted config b.published

/-- Two states, or none, that are related. -/
def BothOrNone {α β : Type} (rel : α → β → Prop) : Option α → Option β → Prop
  | some a, some b => rel a b
  | none, none => True
  | _, _ => False

variable {config : TakeStrategyConfig} {b : BacktestStrategy} {s : TakeStrategy}

/-- A measurement that comes behind those there are. -/
theorem predicted_concat (published : List ArbitrageMeasurement)
    (measurement : ArbitrageMeasurement) :
    predicted config (published ++ [measurement]) =
      if (published.find? (earnsEnough config)).isSome then predicted config published
      else if earnsEnough config measurement then [predictedOf config measurement] else [] := by
  rw [predicted, predicted, List.find?_append]
  cases published.find? (earnsEnough config) with
  | some first => rfl
  | none => cases h : earnsEnough config measurement <;> simp [h]

theorem orderedOf_takeLiquidityOrder (arbitrage : Arbitrage) (i : ℕ) (side : Side) :
    orderedOf (takeLiquidityOrder config i side arbitrage) =
      (side, UInt64.ofNat i, min arbitrage.arbitrageQuantity (maxTradeQuantity config)) := by
  rw [orderedOf, takeLiquidityOrder, Order.quantity_create]
  rfl

/-- The order of an update against the measurement of the same update. -/
theorem Agrees.measured {arbitrage : Arbitrage} {i : ℕ} {side : Side} (h : Agrees config b s)
    {measurement : ArbitrageMeasurement}
    (hprofit : measurement.expectedProfit = arbitrage.expectedProfit)
    (hpredicted : predictedOf config measurement =
      orderedOf (takeLiquidityOrder config i side arbitrage)) :
    BothOrNone (fun b' s' => Agrees config b' s' ∧ s'.spawned = s.spawned)
      (some { b with published := b.published ++ [measurement] })
      (if s.isTrading then some s
        else if arbitrage.expectedProfit < config.minUsdTradeProfit then some s
        else some { s with
          isTrading := true
          inFlight := s.inFlight ++ [takeLiquidityOrder config i side arbitrage] }) := by
  have hflag := h.flag
  have hordered := h.ordered
  have hfind : ((b.published ++ [measurement]).find? (earnsEnough config)).isSome =
      (s.isTrading || earnsEnough config measurement) := by
    rw [hflag, List.find?_append, Option.isSome_or]
    cases hearns : earnsEnough config measurement <;> simp [hearns]
  split
  · next htrading =>
    refine ⟨⟨h.reference, h.serumBooks, h.ftxBooks, ?_, ?_⟩, rfl⟩
    · rw [hfind, htrading, Bool.true_or]
    · rw [predicted_concat, ← hflag, if_pos htrading, hordered]
  · next htrading =>
    split
    · next hlt =>
      have hnot : earnsEnough config measurement = false := by
        simpa [earnsEnough, hprofit] using hlt
      refine ⟨⟨h.reference, h.serumBooks, h.ftxBooks, ?_, ?_⟩, rfl⟩
      · rw [hfind, hnot, Bool.or_false]
      · rw [predicted_concat, ← hflag, if_neg htrading, hnot, hordered, predicted]
        rw [hflag, Option.not_isSome_iff_eq_none] at htrading
        simp [htrading]
    · next hle =>
      have hearns : earnsEnough config measurement = true := by
        simpa [earnsEnough, hprofit] using hle
      refine ⟨⟨h.reference, h.serumBooks, h.ftxBooks, ?_, ?_⟩, rfl⟩
      · rw [hfind, hearns, Bool.or_true]
      · rw [predicted_concat, ← hflag, if_neg htrading, if_pos hearns, List.map_append, hordered,
          predicted]
        rw [hflag, Option.not_isSome_iff_eq_none] at htrading
        simp [htrading, hpredicted]

/-- One side update of each. -/
theorem agrees_doBookUpdate (h : Agrees config b s) (i : ℕ) (side : Side) :
    BothOrNone (fun b' s' => Agrees config b' s' ∧ s'.spawned = s.spawned)
      (b.doBookUpdate side i) (s.doBookUpdate config i side) := by
  obtain ⟨reference, ftxBooks, serumBooks, published⟩ := b
  obtain ⟨hreference, hserumBooks, hftxBooks, hflag, hordered⟩ := h
  obtain rfl : reference = config.ftxReferenceData := hreference
  obtain rfl : serumBooks = s.serumBooks := hserumBooks
  obtain rfl : ftxBooks = s.ftxBooks := hftxBooks
  simp only [BacktestStrategy.doBookUpdate, TakeStrategy.doBookUpdate, Option.bind_eq_bind]
  cases config.ftxReferenceData.tradingPairs[i]? with
  | none => trivial
  | some pair =>
    cases s.serumBooks[i]? with
    | none => trivial
    | some serumBook =>
      cases s.ftxBooks[i]? with
      | none => trivial
      | some ftxBook =>
        simp only [Option.bind_some, BacktestStrategy.arbitrageMeasurement]
        cases findArbitrage side (serumBook.get side) (ftxBook.get (sideFlip side)) with
        | none =>
          simp only [Option.map_none, Option.toList_none, List.append_nil]
          exact ⟨⟨rfl, rfl, rfl, hflag, hordered⟩, rfl⟩
        | some arbitrage =>
          simp only [Option.map_some, Option.toList_some]
          exact Agrees.measured ⟨rfl, rfl, rfl, hflag, hordered⟩ rfl
            (orderedOf_takeLiquidityOrder arbitrage i side).symm

/-! ## Books one after the other -/

theorem BothOrNone.bind {α β γ δ : Type} {rel : α → β → Prop} {rel' : γ → δ → Prop}
    {a : Option α} {b : Option β} {f : α → Option γ} {g : β → Option δ} (h : BothOrNone rel a b)
    (hnext : ∀ a b, rel a b → BothOrNone rel' (f a) (g b)) :
    BothOrNone rel' (a.bind f) (b.bind g) := by
  cases a with
  | none =>
    cases b with
    | none => trivial
    | some b => exact h.elim
  | some a =>
    cases b with
    | none => exact h.elim
    | some b => exact hnext a b h

/-- Both side updates of a pair. -/
theorem agrees_doBookUpdates (h : Agrees config b s) (i : ℕ)
    (hspawned : s.spawned = [(i, .bid), (i, .ask)]) :
    BothOrNone (fun b' s' => Agrees config b' s' ∧ s'.spawned = [])
      (b.doBookUpdates i) (run (TakeStrategy.step config) s [.bookUpdate 0, .bookUpdate 0]) := by
  have hkept : ∀ {b s} spawned, Agrees config b s → Agrees config b { s with spawned } :=
    fun _ h => ⟨h.reference, h.serumBooks, h.ftxBooks, h.flag, h.ordered⟩
  rw [BacktestStrategy.doBookUpdates, run_cons]
  simp only [TakeStrategy.step, hspawned, List.getElem?_cons_zero, Option.bind_some,
    List.eraseIdx_cons_zero]
  refine (agrees_doBookUpdate (hkept [(i, .ask)] h) i .bid).bind fun b' s' hbid => ?_
  obtain ⟨hagrees, hrest⟩ := hbid
  simp only [run_cons, run_nil, TakeStrategy.step, hrest, List.getElem?_cons_zero,
    Option.bind_some, List.eraseIdx_cons_zero, Option.bind_fun_some]
  exact agrees_doBookUpdate (hkept [] hagrees) i .ask

theorem agrees_step (h : Agrees config b s) (hspawned : s.spawned = []) (event : BookEvent) :
    BothOrNone (fun b' s' => Agrees config b' s' ∧ s'.spawned = []) (b.step event)
      (run (TakeStrategy.step config) s (promptly event)) := by
  cases event with
  | serum i book =>
    simp only [promptly, run_cons _ (TakeStrategy.Label.serumBook i book), TakeStrategy.step,
      TakeStrategy.doOnSerumBook, BacktestStrategy.step, BacktestStrategy.doOnSerumBook,
      h.serumBooks]
    split
    · apply agrees_doBookUpdates
      · exact ⟨h.reference, rfl, h.ftxBooks, h.flag, h.ordered⟩
      · simp [hspawned]
    · trivial
  | ftx i book =>
    simp only [promptly, run_cons _ (TakeStrategy.Label.ftxBook i book), TakeStrategy.step,
      TakeStrategy.doOnFtxBook, BacktestStrategy.step, BacktestStrategy.doOnFtxBook, h.ftxBooks]
    split
    · apply agrees_doBookUpdates
      · exact ⟨h.reference, h.serumBooks, rfl, h.flag, h.ordered⟩
      · simp [hspawned]
    · trivial

theorem agrees_run (h : Agrees config b s) (hspawned : s.spawned = []) (events : List BookEvent) :
    BothOrNone (fun b' s' => Agrees config b' s' ∧ s'.spawned = [])
      (run BacktestStrategy.step b events)
      (run (TakeStrategy.step config) s (events.flatMap promptly)) := by
  induction events generalizing b s with
  | nil => exact ⟨h, hspawned⟩
  | cons event events ih =>
    rw [List.flatMap_cons, run_append, run_cons]
    exact (agrees_step h hspawned event).bind fun b' s' hnext => ih hnext.1 hnext.2

/-- **The backtest predicts the take strategy.** For any books of any pairs in
any order: run one after the other, the take strategy sends an order exactly if
the backtest measures an arbitrage that earns the least profit, and it is the
order of the first. Neither strategy reads past a vector where the other does
not. -/
theorem backtest_predicts (config : TakeStrategyConfig) (tradingPairCount currencyCount : ℕ)
    (events : List BookEvent) :
    (run (TakeStrategy.step config) (.init tradingPairCount currencyCount)
        (events.flatMap promptly)).map (fun s => s.inFlight.map orderedOf) =
      (run BacktestStrategy.step (.init config.ftxReferenceData tradingPairCount) events).map
        fun b => predicted config b.published := by
  have hinit : Agrees config (.init config.ftxReferenceData tradingPairCount)
      (.init tradingPairCount currencyCount) := ⟨rfl, rfl, rfl, rfl, rfl⟩
  have hrun := agrees_run hinit rfl events
  revert hrun
  cases run BacktestStrategy.step (.init config.ftxReferenceData tradingPairCount) events with
  | none =>
    cases run (TakeStrategy.step config) _ (events.flatMap promptly) with
    | none => exact fun _ => rfl
    | some s => exact False.elim
  | some b =>
    cases run (TakeStrategy.step config) _ (events.flatMap promptly) with
    | none => exact False.elim
    | some s => exact fun hrun => congrArg some hrun.1.ordered

end Synthfi.Strategy
