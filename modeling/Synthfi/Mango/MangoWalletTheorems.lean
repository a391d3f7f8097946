/-
Synthfi.Mango.MangoWalletTheorems — when a wallet update is safe.

`health` is the health of a Mango account, stated over its accounts.
The loops of `get_health_components` and `get_health_from_components` compute
it through vectors that are indexed by pair, where each currency is looked up
as a base currency; `WalletSafe` says what is needed for that, and
`updates_safe_iff` that it is exactly what keeps `do_update_positions` from
undefined behaviour, over all sequences of updates.
-/
import Mathlib.Tactic.Linarith
import Synthfi.Mango.MangoOrderTheorems
import Synthfi.Mango.MangoWallet

namespace Synthfi.Mango

open Run Synthfi.Core Trading Serum CheckedVec

variable {mango : MangoReferenceData}

/-! ## What a currency adds -/

namespace MangoReferenceData

/-- The entries of the pair of a currency, with the position at hand. -/
def termOf (mango : MangoReferenceData) (mangoCurrencyIndex : Fin mangoMaxTokens) :
    Option MarketTerm :=
  if mango.HasOracle mangoCurrencyIndex then
    (mango.findTradingPair mangoCurrencyIndex).map fun tradingPair =>
      mango.marketTerm mangoCurrencyIndex tradingPair (mango.position mangoCurrencyIndex)
  else none

/-- What it adds to the quote funds: those of the open orders of its pair, or
the position in the quote currency. -/
def quoteOf (mango : MangoReferenceData) (mangoCurrencyIndex : Fin mangoMaxTokens) : Quantity :=
  if mango.HasOracle mangoCurrencyIndex then
    ((mango.termOf mangoCurrencyIndex).map MarketTerm.quote).getD 0
  else if mangoCurrencyIndex.val = mangoQuoteCurrencyIndex then mango.position mangoCurrencyIndex
  else 0

/-- The weighted value of its base position. -/
def valueOf (mango : MangoReferenceData) (mangoCurrencyIndex : Fin mangoMaxTokens) : Quantity :=
  ((mango.termOf mangoCurrencyIndex).map fun term => term.spot * term.price * term.weight).getD 0

/-- The health of the account. -/
def health (mango : MangoReferenceData) : Quantity :=
  (mango.currencies.map fun currency => mango.quoteOf currency.mangoCurrencyIndex).sum +
    (mango.currencies.map fun currency => mango.valueOf currency.mangoCurrencyIndex).sum

/-- What an update needs of the accounts at hand. -/
structure WalletSafe (mango : MangoReferenceData) : Prop where
  decimals : ∀ currency ∈ mango.currencies, mango.DecimalsOk currency.mangoCurrencyIndex
  /-- A currency with an oracle is the base of a pair, and the first such pair
  stands at its index among the markets. -/
  paired : ∀ currency ∈ mango.currencies, mango.HasOracle currency.mangoCurrencyIndex →
    ∃ tradingPair ∈ mango.findTradingPair currency.mangoCurrencyIndex,
      tradingPair.mangoTradingPairIndex.val = currency.mangoCurrencyIndex.val
  /-- If the market of the pair is in the margin basket, it has a price. -/
  priced : ∀ currency ∈ mango.currencies, mango.HasOracle currency.mangoCurrencyIndex →
    ∀ tradingPair ∈ mango.findTradingPair currency.mangoCurrencyIndex,
      mango.mangoAccount.inMarginBasket tradingPair.mangoTradingPairIndex = true →
      mango.mangoCache.price tradingPair.mangoTradingPairIndex ≠ 0
  /-- With a positive health no weight in force is 1. -/
  weighted : 0 < mango.health → ∀ currency ∈ mango.currencies,
    ∀ term ∈ mango.termOf currency.mangoCurrencyIndex, term.weight ≠ 1

theorem termOf_eq_none {mangoCurrencyIndex : Fin mangoMaxTokens}
    (h : ¬ mango.HasOracle mangoCurrencyIndex) : mango.termOf mangoCurrencyIndex = none := if_neg h

theorem termOf_eq_some {mangoCurrencyIndex : Fin mangoMaxTokens} {tradingPair : MangoTradingPair}
    (horacle : mango.HasOracle mangoCurrencyIndex)
    (h : mango.findTradingPair mangoCurrencyIndex = some tradingPair) :
    mango.termOf mangoCurrencyIndex = some (mango.marketTerm mangoCurrencyIndex tradingPair
      (mango.position mangoCurrencyIndex)) := by
  rw [termOf, if_pos horacle, h, Option.map_some]

theorem findTradingPair_of_termOf {mangoCurrencyIndex : Fin mangoMaxTokens} {term : MarketTerm}
    (h : mango.termOf mangoCurrencyIndex = some term) :
    ∃ tradingPair, mango.findTradingPair mangoCurrencyIndex = some tradingPair ∧
      term =
        mango.marketTerm mangoCurrencyIndex tradingPair (mango.position mangoCurrencyIndex) := by
  obtain ⟨-, h⟩ := Option.ite_none_right_eq_some.mp h
  obtain ⟨tradingPair, hpair, rfl⟩ := Option.map_eq_some_iff.mp h
  exact ⟨tradingPair, hpair, rfl⟩

theorem findTradingPairIndex_lt {mangoCurrencyIndex : Fin mangoMaxTokens}
    {tradingPair : MangoTradingPair}
    (h : mango.findTradingPair mangoCurrencyIndex = some tradingPair) :
    mango.findTradingPairIndex mangoCurrencyIndex < mango.tradingPairs.length :=
  (List.getElem?_eq_some_iff.mp h).1

/-- The pair found for a currency has it as its base. -/
theorem base_of_findTradingPair {mangoCurrencyIndex : Fin mangoMaxTokens}
    {tradingPair : MangoTradingPair}
    (h : mango.findTradingPair mangoCurrencyIndex = some tradingPair) :
    tradingPair.mangoBaseCurrencyIndex = mangoCurrencyIndex := by
  simpa using List.findIdx_of_getElem?_eq_some h

/-- Two currencies with the same pair are the same. -/
theorem eq_of_findTradingPairIndex_eq {i j : Fin mangoMaxTokens} {first second : MarketTerm}
    (hi : mango.termOf i = some first) (hj : mango.termOf j = some second)
    (h : mango.findTradingPairIndex i = mango.findTradingPairIndex j) : i = j := by
  obtain ⟨pair, hpair, -⟩ := findTradingPair_of_termOf hi
  obtain ⟨pair', hpair', -⟩ := findTradingPair_of_termOf hj
  have hsame : pair = pair' := by
    rw [findTradingPair, h, ← findTradingPair, hpair'] at hpair
    exact (Option.some.inj hpair).symm
  rw [← base_of_findTradingPair hpair, ← base_of_findTradingPair hpair', hsame]

end MangoReferenceData

open MangoReferenceData

/-! ## The components -/

/-- The vectors have an entry for each pair. -/
structure HealthComponents.Sized (components : HealthComponents) (pairCount : ℕ) : Prop where
  spot : components.spotComponent.length = pairCount
  price : components.priceComponent.length = pairCount
  weight : components.weightComponent.length = pairCount

/-- The entries that the currencies assign, by pair. -/
def marketsOf (mango : MangoReferenceData) (currencies : List MangoCurrency) :
    List (ℕ × MarketTerm) :=
  currencies.filterMap fun currency =>
    (mango.termOf currency.mangoCurrencyIndex).map fun term =>
      (mango.findTradingPairIndex currency.mangoCurrencyIndex, term)

/-- The components after the entries of some currencies were assigned. -/
def componentsAfter (mango : MangoReferenceData) (components : HealthComponents)
    (currencies : List MangoCurrency) : HealthComponents where
  quoteComponent := components.quoteComponent +
    (currencies.map fun currency => mango.quoteOf currency.mangoCurrencyIndex).sum
  spotComponent := assignAll ((marketsOf mango currencies).map fun market =>
    (market.1, market.2.spot)) components.spotComponent
  priceComponent := assignAll ((marketsOf mango currencies).map fun market =>
    (market.1, market.2.price)) components.priceComponent
  weightComponent := assignAll ((marketsOf mango currencies).map fun market =>
    (market.1, market.2.weight)) components.weightComponent

/-- The loop keeps the sizes. -/
theorem HealthComponents.Sized.after {components : HealthComponents} {pairCount : ℕ}
    (h : components.Sized pairCount) (currencies : List MangoCurrency) :
    (componentsAfter mango components currencies).Sized pairCount where
  spot := (length_assignAll ..).trans h.spot
  price := (length_assignAll ..).trans h.price
  weight := (length_assignAll ..).trans h.weight

/-- The markets of the loop are those of its currencies that have a term. -/
theorem mem_marketsOf {currencies : List MangoCurrency} {market : ℕ × MarketTerm} :
    market ∈ marketsOf mango currencies ↔
      ∃ currency ∈ currencies, mango.termOf currency.mangoCurrencyIndex = some market.2 ∧
        mango.findTradingPairIndex currency.mangoCurrencyIndex = market.1 := by
  obtain ⟨tradingPairIndex, term⟩ := market
  simp only [marketsOf, List.mem_filterMap, Option.map_eq_some_iff, Prod.mk.injEq]
  constructor
  · rintro ⟨currency, hmem, term', hterm, rfl, rfl⟩
    exact ⟨currency, hmem, hterm, rfl⟩
  · rintro ⟨currency, hmem, hterm, rfl⟩
    exact ⟨currency, hmem, term, hterm, rfl, rfl⟩

theorem mem_marketsOf_of_termOf {currencies : List MangoCurrency} {currency : MangoCurrency}
    {term : MarketTerm} (hmem : currency ∈ currencies)
    (hterm : mango.termOf currency.mangoCurrencyIndex = some term) :
    (mango.findTradingPairIndex currency.mangoCurrencyIndex, term) ∈ marketsOf mango currencies :=
  mem_marketsOf.mpr ⟨currency, hmem, hterm, rfl⟩

/-- Entries of the same pair are the same. -/
theorem marketsOf_agree {currencies : List MangoCurrency} {market other : ℕ × MarketTerm}
    (h : market ∈ marketsOf mango currencies) (hother : other ∈ marketsOf mango currencies)
    (hindex : other.1 = market.1) : other.2 = market.2 := by
  obtain ⟨currency, -, hterm, hpair⟩ := mem_marketsOf.mp h
  obtain ⟨currency', -, hterm', hpair'⟩ := mem_marketsOf.mp hother
  have hsame := eq_of_findTradingPairIndex_eq hterm' hterm (by rw [hpair', hpair, hindex])
  rw [hsame, hterm] at hterm'
  exact (Option.some.inj hterm').symm

/-- What a vector holds at the pair of a currency, whatever is read from the
entries. -/
theorem getElem?_assignAll_marketsOf {currencies : List MangoCurrency} {market : ℕ × MarketTerm}
    (h : market ∈ marketsOf mango currencies) (read : MarketTerm → Quantity)
    {component : List Quantity} (hlength : component.length = mango.tradingPairs.length) :
    (assignAll ((marketsOf mango currencies).map fun market => (market.1, read market.2))
      component)[market.1]? = some (read market.2) := by
  have hmem : (market.1, read market.2) ∈
      (marketsOf mango currencies).map fun market => (market.1, read market.2) :=
    List.mem_map_of_mem h
  refine getElem?_assignAll_of_mem hmem (fun other hother hindex => ?_) ?_
  · obtain ⟨market', hmarket', rfl⟩ := List.mem_map.mp hother
    rw [marketsOf_agree h hmarket' hindex]
  · obtain ⟨currency, -, hterm, hpair⟩ := mem_marketsOf.mp h
    obtain ⟨pair, hfound, -⟩ := findTradingPair_of_termOf hterm
    rw [hlength]
    exact hpair ▸ findTradingPairIndex_lt hfound

/-! ## The loops -/

/-- The look-up of the currency's pair is defined. -/
def CurrencyOk (mango : MangoReferenceData) (mangoCurrencyIndex : Fin mangoMaxTokens) : Prop :=
  mango.HasOracle mangoCurrencyIndex → ∃ tradingPair ∈ mango.findTradingPair mangoCurrencyIndex,
    mango.MarketOk mangoCurrencyIndex tradingPair

instance (mangoCurrencyIndex : Fin mangoMaxTokens) :
    Decidable (CurrencyOk mango mangoCurrencyIndex) := by
  unfold CurrencyOk; infer_instance

theorem componentsAfter_cons (components : HealthComponents) (currency : MangoCurrency)
    (currencies : List MangoCurrency) :
    componentsAfter mango (componentsAfter mango components [currency]) currencies =
      componentsAfter mango components (currency :: currencies) := by
  cases hterm : mango.termOf currency.mangoCurrencyIndex with
  | none => simp [componentsAfter, marketsOf, hterm, add_assoc]
  | some term => simp [componentsAfter, marketsOf, hterm, add_assoc]

theorem foldl_componentsAfter (components : HealthComponents) (currencies : List MangoCurrency) :
    currencies.foldl (fun components currency => componentsAfter mango components [currency])
      components = componentsAfter mango components currencies := by
  induction currencies generalizing components with
  | nil => simp [componentsAfter, marketsOf]
  | cons currency currencies ih => rw [List.foldl_cons, ih, componentsAfter_cons]

/-- One pass assigns the entries of the currency's pair. -/
theorem addCurrency_eq_some {components components' : HealthComponents} {currency : MangoCurrency}
    (hsized : components.Sized mango.tradingPairs.length) :
    mango.addCurrency components currency.mangoCurrencyIndex
        (mango.position currency.mangoCurrencyIndex) = some components' ↔
      CurrencyOk mango currency.mangoCurrencyIndex ∧
        components' = componentsAfter mango components [currency] := by
  unfold addCurrency CurrencyOk
  by_cases horacle : mango.HasOracle currency.mangoCurrencyIndex
  · rw [if_pos horacle]
    cases hpair : mango.findTradingPair currency.mangoCurrencyIndex with
    | none => simp [horacle]
    | some tradingPair =>
      have hterm := termOf_eq_some horacle hpair
      have hlt := findTradingPairIndex_lt hpair
      have hspot := hsized.spot ▸ hlt
      have hprice := hsized.price ▸ hlt
      have hweight := hsized.weight ▸ hlt
      by_cases hmarket : mango.MarketOk currency.mangoCurrencyIndex tradingPair
      · simp [hmarket, horacle, hterm, HealthComponents.assignMarket, componentsAfter, marketsOf,
          quoteOf, assign_of_lt hspot, assign_of_lt hprice, assign_of_lt hweight, eq_comm]
      · simp [hmarket, horacle]
  · rw [if_neg horacle]
    have hterm := termOf_eq_none horacle
    by_cases hquote : currency.mangoCurrencyIndex.val = mangoQuoteCurrencyIndex
    · simp [horacle, hquote, componentsAfter, marketsOf, hterm, quoteOf, eq_comm]
    · simp only [horacle, hquote, componentsAfter, marketsOf, hterm, quoteOf, if_false,
        false_implies, true_and, List.filterMap_cons, List.filterMap_nil, Option.map_none,
        List.map_nil, assignAll_nil, List.map_cons, List.sum_cons, List.sum_nil, add_zero,
        Option.some.injEq]
      exact eq_comm

/-- The loop of `get_position_component`. -/
theorem getPositionComponent_eq_some {positions positions' : List Quantity}
    (hlength : positions.length = mango.currencies.length) :
    mango.getPositionComponent positions = some positions' ↔
      (∀ currency ∈ mango.currencies, mango.DecimalsOk currency.mangoCurrencyIndex) ∧
        positions' =
          mango.currencies.map fun currency => mango.position currency.mangoCurrencyIndex := by
  have hpass : ∀ entry ∈ mango.currencies.zipIdx, ∀ position,
      (if mango.DecimalsOk entry.1.mangoCurrencyIndex then
        some (mango.position entry.1.mangoCurrencyIndex) else none) = some position ↔
      mango.DecimalsOk entry.1.mangoCurrencyIndex ∧
        position = mango.position entry.1.mangoCurrencyIndex := by
    intro entry _ position
    rw [Option.ite_none_right_eq_some, Option.some.injEq, eq_comm]
  have hmap : (mango.currencies.zipIdx.map fun entry =>
      mango.position entry.1.mangoCurrencyIndex) =
      mango.currencies.map fun currency => mango.position currency.mangoCurrencyIndex := by
    conv_rhs => rw [← List.zipIdx_map_fst 0 mango.currencies, List.map_map]
    rfl
  have hall : (∀ entry ∈ mango.currencies.zipIdx, mango.DecimalsOk entry.1.mangoCurrencyIndex) ↔
      ∀ currency ∈ mango.currencies, mango.DecimalsOk currency.mangoCurrencyIndex :=
    forall_mem_zipIdx_fst mango.currencies fun currency =>
      mango.DecimalsOk currency.mangoCurrencyIndex
  rw [getPositionComponent, foldlM_assign _ _ _ hlength, mapM_eq_some_iff hpass, hmap, hall]

/-- The loop of `get_health_components`, over the positions of the first. -/
theorem getHealthComponents_eq_some {components components' : HealthComponents}
    (hsized : components.Sized mango.tradingPairs.length) :
    mango.getHealthComponents components
        (mango.currencies.map fun currency => mango.position currency.mangoCurrencyIndex) =
        some components' ↔
      (∀ currency ∈ mango.currencies, CurrencyOk mango currency.mangoCurrencyIndex) ∧
        components' =
          componentsAfter mango { components with quoteComponent := 0 } mango.currencies := by
  let inv (s : HealthComponents) : Prop := s.Sized mango.tradingPairs.length
  have hpass : ∀ s, inv s → ∀ entry ∈ mango.currencies.zipIdx, ∀ s',
      ((mango.currencies.map fun currency =>
        mango.position currency.mangoCurrencyIndex)[entry.2]?.bind
          (mango.addCurrency s entry.1.mangoCurrencyIndex)) = some s' ↔
      CurrencyOk mango entry.1.mangoCurrencyIndex ∧
        s' = componentsAfter mango s [entry.1] := by
    intro s hs entry hentry s'
    have hget : mango.currencies[entry.2]? = some entry.1 :=
      List.mem_zipIdx_iff_getElem?.mp hentry
    rw [List.getElem?_map, hget, Option.map_some, Option.bind_some]
    exact addCurrency_eq_some hs
  have hfold : (mango.currencies.zipIdx.foldl (fun components entry =>
      componentsAfter mango components [entry.1]) { components with quoteComponent := 0 }) =
      componentsAfter mango { components with quoteComponent := 0 } mango.currencies := by
    rw [← foldl_componentsAfter]
    conv_rhs => rw [← List.zipIdx_map_fst 0 mango.currencies, List.foldl_map]
  have hstart : inv { components with quoteComponent := 0 } :=
    ⟨hsized.spot, hsized.price, hsized.weight⟩
  have hall : (∀ entry ∈ mango.currencies.zipIdx,
      CurrencyOk mango entry.1.mangoCurrencyIndex) ↔
      ∀ currency ∈ mango.currencies, CurrencyOk mango currency.mangoCurrencyIndex :=
    forall_mem_zipIdx_fst mango.currencies fun currency =>
      CurrencyOk mango currency.mangoCurrencyIndex
  have hkeep : ∀ s, inv s → ∀ entry ∈ mango.currencies.zipIdx,
      CurrencyOk mango entry.1.mangoCurrencyIndex → inv (componentsAfter mango s [entry.1]) :=
    fun s hs entry _ _ => hs.after [entry.1]
  rw [getHealthComponents, foldlM_eq_some_iff hstart hpass hkeep, hfold, hall]

/-- A loop that adds a value for each currency. -/
theorem foldlM_add {pass : Quantity → MangoCurrency → Option Quantity}
    {currencies : List MangoCurrency} (value : MangoCurrency → Quantity)
    (h : ∀ currency ∈ currencies, ∀ total, pass total currency = some (total + value currency))
    (total : Quantity) :
    currencies.foldlM pass total = some (total + (currencies.map value).sum) := by
  induction currencies generalizing total with
  | nil => simp
  | cons currency currencies ih =>
    obtain ⟨hhead, htail⟩ := List.forall_mem_cons.mp h
    simp [hhead, ih htail, add_assoc]

/-- The loop of `get_health_from_components` reads back what was assigned. -/
theorem getHealthFromComponents_eq {components : HealthComponents}
    (hsized : components.Sized mango.tradingPairs.length)
    (hok : ∀ currency ∈ mango.currencies, CurrencyOk mango currency.mangoCurrencyIndex) :
    mango.getHealthFromComponents
        (componentsAfter mango { components with quoteComponent := 0 } mango.currencies) =
      some mango.health := by
  unfold getHealthFromComponents
  rw [foldlM_add fun currency => mango.valueOf currency.mangoCurrencyIndex]
  · simp [componentsAfter, health]
  intro currency hmem total
  by_cases horacle : mango.HasOracle currency.mangoCurrencyIndex
  · obtain ⟨tradingPair, hpair, -⟩ := hok currency hmem horacle
    have hterm := termOf_eq_some horacle hpair
    have hmarket := mem_marketsOf_of_termOf hmem hterm
    have hspot := getElem?_assignAll_marketsOf hmarket MarketTerm.spot hsized.spot
    have hprice := getElem?_assignAll_marketsOf hmarket MarketTerm.price hsized.price
    have hweight := getElem?_assignAll_marketsOf hmarket MarketTerm.weight hsized.weight
    simp [horacle, componentsAfter, hspot, hprice, hweight, valueOf, hterm]
  · simp [horacle, valueOf, termOf_eq_none horacle]

/-! ## The margin -/

/-- The weights in force: those of the pairs of the currencies, and 0. -/
def weights (mango : MangoReferenceData) : List Quantity :=
  assignAll ((marketsOf mango mango.currencies).map fun market => (market.1, market.2.weight))
    (List.replicate mango.tradingPairs.length 0)

/-- What holds of 0 holds of every weight in force iff it holds of those of
the pairs of the currencies. -/
theorem forall_weights_iff {p : Quantity → Prop} (hzero : p 0) :
    (∀ tradingPairIndex < mango.tradingPairs.length,
      ∃ weight, (weights mango)[tradingPairIndex]? = some weight ∧ p weight) ↔
      ∀ currency ∈ mango.currencies, ∀ term ∈ mango.termOf currency.mangoCurrencyIndex,
        p term.weight := by
  constructor
  · intro h currency hmem term hterm
    have hmarket := mem_marketsOf_of_termOf hmem hterm
    obtain ⟨tradingPair, hpair, -⟩ := findTradingPair_of_termOf hterm
    obtain ⟨weight, hweight, hp⟩ := h _ (findTradingPairIndex_lt hpair)
    have hassigned := getElem?_assignAll_marketsOf hmarket MarketTerm.weight
      (List.length_replicate (n := mango.tradingPairs.length) (a := (0 : Quantity)))
    rw [weights, hassigned] at hweight
    exact Option.some.inj hweight ▸ hp
  · intro h tradingPairIndex hlt
    by_cases hassigned : ∃ market ∈ marketsOf mango mango.currencies, market.1 = tradingPairIndex
    · obtain ⟨market, hmarket, rfl⟩ := hassigned
      obtain ⟨currency, hmem, hterm, -⟩ := mem_marketsOf.mp hmarket
      exact ⟨market.2.weight,
        getElem?_assignAll_marketsOf hmarket MarketTerm.weight List.length_replicate,
        h currency hmem market.2 hterm⟩
    · refine ⟨0, ?_, hzero⟩
      rw [weights, getElem?_assignAll_of_notMem]
      · exact List.getElem?_replicate_of_lt hlt
      · intro write hwrite hindex
        obtain ⟨market, hmarket, rfl⟩ := List.mem_map.mp hwrite
        exact hassigned ⟨market, hmarket, hindex⟩

open MangoWalletClient

/-- The margin of each pair, all 0 without a positive health. -/
def marginsOf (health : Quantity) (weightComponent : List Quantity) (pairCount : ℕ) :
    List Quantity :=
  (List.range pairCount).map fun tradingPairIndex =>
    if health ≤ 0 then 0 else health / (1 - weightComponent[tradingPairIndex]?.getD 0)

@[simp] theorem length_marginsOf (health : Quantity) (weightComponent : List Quantity)
    (pairCount : ℕ) : (marginsOf health weightComponent pairCount).length = pairCount := by
  simp [marginsOf]

/-- A margin is computed where there is a weight other than 1. -/
theorem marginOf_eq_some {health margin : Quantity} {weightComponent : List Quantity}
    {tradingPairIndex : ℕ} :
    marginOf health weightComponent tradingPairIndex = some margin ↔
      (∃ weight, weightComponent[tradingPairIndex]? = some weight ∧ weight ≠ 1) ∧
        margin = health / (1 - weightComponent[tradingPairIndex]?.getD 0) := by
  unfold marginOf
  cases weightComponent[tradingPairIndex]? with
  | none => simp
  | some weight => simp [eq_comm]

theorem updateMargin_eq_some {health : Quantity}
    {weightComponent marginAvailable marginAvailable' : List Quantity} :
    updateMargin health weightComponent marginAvailable = some marginAvailable' ↔
      (0 < health → ∀ tradingPairIndex < marginAvailable.length,
        ∃ weight, weightComponent[tradingPairIndex]? = some weight ∧ weight ≠ 1) ∧
      marginAvailable' = marginsOf health weightComponent marginAvailable.length := by
  unfold updateMargin marginsOf
  by_cases hhealth : health ≤ 0
  · simp [hhealth, eq_comm, List.map_const']
  · have hall := forall_mem_zipIdx_snd marginAvailable fun tradingPairIndex =>
      ∃ weight, weightComponent[tradingPairIndex]? = some weight ∧ weight ≠ 1
    have hmap := map_zipIdx_snd marginAvailable fun tradingPairIndex =>
      health / (1 - weightComponent[tradingPairIndex]?.getD 0)
    rw [if_neg hhealth, foldlM_assign _ _ _ rfl,
      mapM_eq_some_iff (fun entry _ margin => marginOf_eq_some), hall, hmap]
    simp [hhealth, lt_of_not_ge hhealth]

theorem updateMeasurements_eq {measurements values : List Quantity}
    (h : measurements.length = values.length) :
    updateMeasurements measurements values = some values := by
  have hloop := foldlM_assign (fun entry : Quantity × ℕ => some entry.1) values measurements h
  have hpass : ∀ entry ∈ values.zipIdx, ∀ value, some entry.1 = some value ↔
      True ∧ value = entry.1 := by
    intro entry _ value
    rw [Option.some.injEq, true_and, eq_comm]
  have hread := (mapM_eq_some_iff hpass).mpr
    ⟨fun _ _ => trivial, (List.zipIdx_map_fst 0 values).symm⟩
  exact hloop.trans hread

/-! ## Updates -/

namespace MangoWalletClient

/-- What the client holds has an entry for each currency or for each pair. -/
structure Sized (client : MangoWalletClient) : Prop where
  positions : client.wallet.positions.length = client.mangoReferenceData.currencies.length
  marginAvailable :
    client.wallet.marginAvailable.length = client.mangoReferenceData.tradingPairs.length
  positionMeasurements :
    client.positionMeasurements.length = client.mangoReferenceData.currencies.length
  marginAvailableMeasurements :
    client.marginAvailableMeasurements.length = client.mangoReferenceData.tradingPairs.length

/-- The client after an update that is safe. -/
def updated (client : MangoWalletClient) : MangoWalletClient :=
  let mango := client.mangoReferenceData
  let positions := mango.currencies.map fun currency => mango.position currency.mangoCurrencyIndex
  let marginAvailable := marginsOf mango.health (weights mango) mango.tradingPairs.length
  ⟨mango, ⟨positions, marginAvailable⟩, positions, marginAvailable⟩

theorem Sized.updated (client : MangoWalletClient) : client.updated.Sized where
  positions := List.length_map _
  marginAvailable := length_marginsOf ..
  positionMeasurements := List.length_map _
  marginAvailableMeasurements := length_marginsOf ..

end MangoWalletClient

/-- What is asked of an update, by the loop that needs it. -/
theorem walletSafe_iff :
    mango.WalletSafe ↔
      (∀ currency ∈ mango.currencies, mango.DecimalsOk currency.mangoCurrencyIndex) ∧
      (∀ currency ∈ mango.currencies, CurrencyOk mango currency.mangoCurrencyIndex) ∧
      (0 < mango.health → ∀ currency ∈ mango.currencies,
        ∀ term ∈ mango.termOf currency.mangoCurrencyIndex, term.weight ≠ 1) := by
  constructor
  · intro hsafe
    refine ⟨hsafe.decimals, fun currency hmem horacle => ?_, hsafe.weighted⟩
    obtain ⟨tradingPair, hpair, hindex⟩ := hsafe.paired currency hmem horacle
    exact ⟨tradingPair, hpair, hindex, fun hbasket =>
      ⟨hsafe.decimals currency hmem, hsafe.priced currency hmem horacle tradingPair hpair hbasket⟩⟩
  · rintro ⟨hdecimals, hok, hweighted⟩
    refine ⟨hdecimals, fun currency hmem horacle => ?_, fun currency hmem horacle tradingPair
      hpair hbasket => ?_, hweighted⟩
    · obtain ⟨tradingPair, hpair, hindex, -⟩ := hok currency hmem horacle
      exact ⟨tradingPair, hpair, hindex⟩
    · obtain ⟨tradingPair', hpair', -, hprice⟩ := hok currency hmem horacle
      obtain rfl : tradingPair' = tradingPair := by
        rw [hpair] at hpair'
        exact (Option.some.inj hpair').symm
      exact (hprice hbasket).2

instance : Decidable mango.WalletSafe := decidable_of_iff' _ walletSafe_iff

variable {client client' : MangoWalletClient}

namespace MangoWalletClient.Sized

/-- The components that `do_update_positions` starts from. -/
theorem healthComponents (h : client.Sized) :
    HealthComponents.Sized
      (let zeros := List.replicate client.wallet.marginAvailable.length 0
      ⟨0, zeros, zeros, zeros⟩) client.mangoReferenceData.tradingPairs.length where
  spot := List.length_replicate.trans h.marginAvailable
  price := List.length_replicate.trans h.marginAvailable
  weight := List.length_replicate.trans h.marginAvailable

/-- With the weights of the components, the margins are defined iff no weight
in force is 1. -/
theorem updateMargin_eq_some (h : client.Sized) {marginAvailable : List Quantity} :
    updateMargin client.mangoReferenceData.health
        (assignAll ((marketsOf client.mangoReferenceData
          client.mangoReferenceData.currencies).map fun market => (market.1, market.2.weight))
          (List.replicate client.wallet.marginAvailable.length 0))
        client.wallet.marginAvailable = some marginAvailable ↔
      (0 < client.mangoReferenceData.health →
        ∀ currency ∈ client.mangoReferenceData.currencies,
          ∀ term ∈ client.mangoReferenceData.termOf currency.mangoCurrencyIndex,
            term.weight ≠ 1) ∧
        marginAvailable = client.updated.wallet.marginAvailable := by
  rw [h.marginAvailable, ← weights, Mango.updateMargin_eq_some, h.marginAvailable,
    forall_weights_iff (p := fun weight => weight ≠ 1) zero_ne_one]
  rfl

theorem updatePositionMeasurements (h : client.Sized) :
    updateMeasurements client.positionMeasurements client.updated.wallet.positions =
      some client.updated.wallet.positions :=
  updateMeasurements_eq (h.positionMeasurements.trans (Sized.updated client).positions.symm)

theorem updateMarginMeasurements (h : client.Sized) :
    updateMeasurements client.marginAvailableMeasurements client.updated.wallet.marginAvailable =
      some client.updated.wallet.marginAvailable :=
  updateMeasurements_eq
    (h.marginAvailableMeasurements.trans (Sized.updated client).marginAvailable.symm)

end MangoWalletClient.Sized

/-- **One update.** It is defined iff it is safe, and then it leaves the
positions and the margins of the accounts at hand. -/
theorem doUpdatePositions_eq_some (hsized : client.Sized) :
    client.doUpdatePositions = some client' ↔
      client.mangoReferenceData.WalletSafe ∧ client' = client.updated := by
  rw [walletSafe_iff]
  constructor
  · intro h
    simp only [doUpdatePositions, Option.bind_eq_bind, Option.bind_eq_some_iff, Option.pure_def,
      Option.some.injEq] at h
    obtain ⟨positions, hpositions, components, hcomponents, health, hhealth, margins, hmargins,
      measured, hmeasured, measured', hmeasured', rfl⟩ := h
    obtain ⟨hdecimals, rfl⟩ := (getPositionComponent_eq_some hsized.positions).mp hpositions
    obtain ⟨hok, rfl⟩ := (getHealthComponents_eq_some hsized.healthComponents).mp hcomponents
    obtain rfl := Option.some.inj
      ((getHealthFromComponents_eq hsized.healthComponents hok).symm.trans hhealth)
    obtain ⟨hweighted, rfl⟩ := hsized.updateMargin_eq_some.mp hmargins
    obtain rfl := Option.some.inj (hsized.updatePositionMeasurements.symm.trans hmeasured)
    obtain rfl := Option.some.inj (hsized.updateMarginMeasurements.symm.trans hmeasured')
    exact ⟨⟨hdecimals, hok, hweighted⟩, rfl⟩
  · rintro ⟨⟨hdecimals, hok, hweighted⟩, rfl⟩
    simp only [doUpdatePositions, Option.bind_eq_bind, Option.bind_eq_some_iff, Option.pure_def,
      Option.some.injEq]
    exact ⟨_, (getPositionComponent_eq_some hsized.positions).mpr ⟨hdecimals, rfl⟩,
      _, (getHealthComponents_eq_some hsized.healthComponents).mpr ⟨hok, rfl⟩,
      _, getHealthFromComponents_eq hsized.healthComponents hok,
      _, hsized.updateMargin_eq_some.mpr ⟨hweighted, rfl⟩,
      _, hsized.updatePositionMeasurements, _, hsized.updateMarginMeasurements, rfl⟩

namespace MangoWalletClient

variable {pairCount : ℕ}

/-- No account that is received changes how many currencies or pairs there are. -/
theorem Sized.receive (h : client.Sized) (update : Update pairCount) :
    (client.receive update).Sized := by
  cases update with
  | initial => exact h
  | mangoAccount account => exact ⟨h.1, h.2, h.3, h.4⟩
  | mangoCache account => exact ⟨h.1, h.2, h.3, h.4⟩
  | openOrders tradingPairIndex account =>
    have hlength : (client.receive
        (.openOrders tradingPairIndex account)).mangoReferenceData.tradingPairs.length =
        client.mangoReferenceData.tradingPairs.length := List.length_modify ..
    exact ⟨h.positions, h.marginAvailable.trans hlength.symm, h.positionMeasurements,
      h.marginAvailableMeasurements.trans hlength.symm⟩

/-- **One update.** It runs through exactly if the reference data it leaves is safe. -/
theorem isSome_step_iff (h : client.Sized) (update : Update pairCount) :
    (client.step update).isSome ↔ (client.receive update).mangoReferenceData.WalletSafe := by
  rw [step, Option.isSome_iff_exists]
  constructor
  · rintro ⟨client', hclient'⟩
    exact ((doUpdatePositions_eq_some (h.receive update)).mp hclient').1
  · intro hsafe
    exact ⟨_, (doUpdatePositions_eq_some (h.receive update)).mpr ⟨hsafe, rfl⟩⟩

/-- An update keeps the sizes. -/
theorem Sized.step (h : client.Sized) {update : Update pairCount}
    (hstep : client.step update = some client') : client'.Sized := by
  obtain ⟨-, rfl⟩ := (doUpdatePositions_eq_some (h.receive update)).mp hstep
  exact Sized.updated _

/-- The client as it subscribes. -/
theorem Sized.subscribed {serum : SerumReferenceData}
    (hpairs : mango.tradingPairs.length = serum.tradingPairs.length)
    (hcurrencies : mango.currencies.length = serum.currencies.length) :
    (subscribed serum mango).Sized where
  positions := List.length_replicate.trans hcurrencies.symm
  marginAvailable := List.length_replicate.trans hpairs.symm
  positionMeasurements := List.length_replicate.trans hcurrencies.symm
  marginAvailableMeasurements := List.length_replicate.trans hpairs.symm

end MangoWalletClient

/-- **Wallet updates.** From any reference data a load finishes with, a
sequence of updates is without undefined behaviour and failed assertions iff
each of its updates is safe for the accounts then at hand. -/
theorem updates_safe_iff {answers : MangoAnswers} {programId₀ : PublicKey}
    {serum : SerumReferenceData} {mangoAccountAddress : PublicKey}
    (hload : doLoadReferenceData answers programId₀ serum mangoAccountAddress = .ok mango)
    (updates : List (Update serum.tradingPairs.length)) :
    (run MangoWalletClient.step (subscribed serum mango) updates).isSome ↔
      Along MangoWalletClient.step (fun client update =>
        (client.receive update).mangoReferenceData.WalletSafe) (subscribed serum mango) updates :=
  isSome_run_iff_along (fun _ _ _ hsized hstep => hsized.step hstep)
    (fun _ update hsized => isSome_step_iff hsized update)
    (Sized.subscribed (lengths_of_load hload).1 (lengths_of_load hload).2)

/-! ## Two groups -/

/-- A group with mint 2 at token 0 and mint 3 at another. Market 1 is spot
market 0, with the weights 1/2 and 3/2. -/
def oracleGroupImage (numOracles : UInt8) (quoteToken : ℕ) : List UInt8 :=
  Bytes.sparse MangoGroupAccount.size
    [(8, [numOracles]), (16, (keyOf 2).1), (48, (keyOf 22).1),
      (16 + 72 * quoteToken, (keyOf 3).1), (48 + 72 * quoteToken, (keyOf 23).1),
      (1168, (keyOf 1).1), (1221, [128]), (1253, [128, 1])]

/-- An account with market 0 in its basket and a deposit of 1 in token 15. -/
def depositImage : List UInt8 :=
  Bytes.sparse MangoAccount.size [(72, [1]), (334, [1]), (600, (keyOf 50).1)]

/-- Market 0 has the given price, and token 15 the deposit index 1. -/
def cacheImage (price : UInt8) : List UInt8 :=
  Bytes.sparse MangoCacheAccount.size [(14, [price]), (974, [1])]

def loadOracleGroup (numOracles : UInt8) (quoteToken : ℕ) :
    Except SynthfiError MangoReferenceData :=
  doLoadReferenceData
    { oneMarketAnswers 2 3 with
      getMangoAccount := fun _ => .ok (accountOf 12 depositImage)
      getMangoGroup := fun _ => .ok (accountOf 12 (oracleGroupImage numOracles quoteToken))
      getMangoCache := fun _ => .ok (accountOf 12 (cacheImage 2)) }
    (keyOf 12) oneMarket (keyOf 13)

/-- The only mint with an oracle is the base mint. -/
@[irreducible] def baseOracleGroup : MangoReferenceData :=
  (loadOracleGroup 1 15).toOption.get (by decide +kernel)

theorem baseOracleGroup_loaded : loadOracleGroup 1 15 = .ok baseOracleGroup := by
  unfold baseOracleGroup
  exact ExceptList.eq_ok_get _

/-- Both mints have an oracle. -/
@[irreducible] def bothOraclesGroup : MangoReferenceData :=
  (loadOracleGroup 2 1).toOption.get (by decide +kernel)

theorem bothOraclesGroup_loaded : loadOracleGroup 2 1 = .ok bothOraclesGroup := by
  unfold bothOraclesGroup
  exact ExceptList.eq_ok_get _

/-- The first update, a new price and new open orders. -/
def someUpdates : List (Update oneMarket.tradingPairs.length) :=
  [.initial, .mangoCache ⟨cacheImage 3⟩,
    .openOrders (thePair baseOracleGroup) ⟨List.replicate SerumOpenOrdersAccount.size 0⟩]

/-- Updates of a group in which only the base token has an oracle run through. -/
theorem updates_safe_iff_baseOracleGroup :
    (run MangoWalletClient.step (subscribed oneMarket baseOracleGroup) someUpdates).isSome :=
  (updates_safe_iff baseOracleGroup_loaded _).mpr (by decide +kernel)

/-- The quote mint has an oracle and is the base of no pair: its search ends
behind the only pair, and the first update reads there. -/
theorem updates_unsafe :
    loadOracleGroup 2 1 = .ok bothOraclesGroup ∧ bothOraclesGroup.tradingPairs.length = 1 ∧
      (bothOraclesGroup.currencies.map fun currency =>
        bothOraclesGroup.findTradingPairIndex currency.mangoCurrencyIndex) = [0, 1] ∧
      ¬ (run MangoWalletClient.step (subscribed oneMarket bothOraclesGroup)
        ([.initial] : List (Update oneMarket.tradingPairs.length))).isSome :=
  ⟨bothOraclesGroup_loaded, by decide +kernel, by decide +kernel, by decide +kernel⟩

end Synthfi.Mango
