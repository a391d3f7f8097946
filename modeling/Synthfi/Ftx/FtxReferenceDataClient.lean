/-
Synthfi.Ftx.FtxReferenceDataClient — loading the FTX reference data
(`Ftx/FtxReferenceDataClient/FtxReferenceDataClientImpl.cpp`).

`doLoadReferenceData` is `do_load_reference_data` on the markets that
`GetMarketsRequest` answers. The loop moves the market it finds out of the
answer and leaves one behind whose strings are empty, so a second pair of the
same name goes on to the next market of that name. Statistics are left out.
-/
import Synthfi.Ftx.FtxTypes
import Synthfi.Lib.ExceptList
import Synthfi.Solana.SolanaTypes

namespace Synthfi.Ftx

open Trading

inductive FtxMarketType where
  | invalid
  | spot
  | future
  deriving DecidableEq

/-- `FtxMarketInformation` with all its fields. -/
structure FtxMarket extends FtxMarketInformation where
  /-- If the market is enabled. -/
  enabled : Bool
  /-- If the market has nonstandard restrictions on which jurisdictions can
  trade it. -/
  restricted : Bool
  marketType : FtxMarketType
  /-- Price tick size. -/
  priceIncrement : Price
  /-- Quote currency if spot, else null. -/
  quoteCurrency : String
  deriving DecidableEq

/-- A market after `std::move`. The library leaves open what is in a string that
was moved from; it is taken to be empty, as implementations leave it. -/
def FtxMarket.movedFrom (market : FtxMarket) : FtxMarket :=
  { market with baseCurrency := "", quoteCurrency := "", name := "" }

/-- A trading pair with the indices of its currencies. -/
structure IndexedTradingPair (currencyCount : ℕ) where
  marketInformation : FtxMarket
  baseCurrencyIndex : Fin currencyCount
  quoteCurrencyIndex : Fin currencyCount
  deriving DecidableEq

/-- `_referenceData` once it is loaded. -/
structure LoadedReferenceData (currencyNames : List String) where
  tradingPairs : List (IndexedTradingPair currencyNames.length)
  deriving DecidableEq

/-- What the clients read of it. -/
def LoadedReferenceData.toFtxReferenceData {currencyNames : List String}
    (referenceData : LoadedReferenceData currencyNames) : FtxReferenceData where
  tradingPairs := referenceData.tradingPairs.map fun tradingPair =>
    ⟨tradingPair.marketInformation.toFtxMarketInformation⟩
  currencies := currencyNames.map FtxCurrency.mk

/-- The position of a currency among the configured ones. -/
def findCurrency (currencyNames : List String) (currency : String) :
    Except SynthfiError (Fin currencyNames.length) :=
  match currencyNames.findFinIdx? (currency = ·) with
  | some index => .ok index
  | none => .error ⟨"Ftx markets missing configured currency for trading pair"⟩

/-- The base currency is looked for first. -/
def indexMarket (currencyNames : List String) (market : FtxMarket) :
    Except SynthfiError (IndexedTradingPair currencyNames.length) := do
  let baseCurrencyIndex ← findCurrency currencyNames market.baseCurrency
  let quoteCurrencyIndex ← findCurrency currencyNames market.quoteCurrency
  .ok ⟨market, baseCurrencyIndex, quoteCurrencyIndex⟩

/-- The loop over the market names, with the answer as it stands. -/
def loadTradingPairs (currencyNames : List String) : List FtxMarket → List String →
    Except SynthfiError (List (IndexedTradingPair currencyNames.length))
  | _, [] => .ok []
  | markets, ftxMarketName :: ftxMarketNames =>
    match markets.findFinIdx? (·.name = ftxMarketName) with
    | none => .error ⟨"Invalid FTX market"⟩
    | some index => do
      let tradingPair ← indexMarket currencyNames markets[index]
      let tradingPairs ←
        loadTradingPairs currencyNames (markets.set index markets[index].movedFrom) ftxMarketNames
      .ok (tradingPair :: tradingPairs)

def doLoadReferenceData (markets : List FtxMarket) (ftxMarketNames currencyNames : List String) :
    Except SynthfiError (LoadedReferenceData currencyNames) := do
  let tradingPairs ← loadTradingPairs currencyNames markets ftxMarketNames
  .ok ⟨tradingPairs⟩

/-! ## The market of each name -/

/-- The markets of a name, in the order in which they are listed. -/
def listings (markets : List FtxMarket) (name : String) : List FtxMarket :=
  markets.filter fun market => market.name = name

/-- The trading pair of a market, if there is one. -/
def indexListing (currencyNames : List String) :
    Option FtxMarket → Except SynthfiError (IndexedTradingPair currencyNames.length)
  | none => .error ⟨"Invalid FTX market"⟩
  | some market => indexMarket currencyNames market

/-- The trading pair with number `i`: of the markets of its name it gets the
one behind those of the pairs before it. -/
def tradingPairAt (currencyNames : List String) (markets : List FtxMarket)
    (ftxMarketNames : List String) (ftxMarketName : String) (i : ℕ) :
    Except SynthfiError (IndexedTradingPair currencyNames.length) :=
  indexListing currencyNames
    ((listings markets ftxMarketName)[(ftxMarketNames.take i).count ftxMarketName]?)

variable {currencyNames : List String} {markets current : List FtxMarket} {name : String}

/-- The markets of a name, around one of the answer. -/
theorem listings_split (index : Fin current.length) (name : String) :
    listings current name = listings (current.take index) name ++
      if current[index].name = name
      then current[index] :: listings (current.drop (index + 1)) name
      else listings (current.drop (index + 1)) name := by
  have hsplit : current = current.take index ++ current[index] :: current.drop (index + 1) := by
    rw [Fin.getElem_fin, List.getElem_cons_drop, List.take_append_drop]
  conv_lhs => rw [hsplit, listings, List.filter_append, List.filter_cons]
  simp only [decide_eq_true_eq]
  rfl

theorem listings_set_movedFrom {index : Fin current.length} (hname : name ≠ "") :
    listings (current.set index current[index].movedFrom) name =
      listings (current.take index) name ++ listings (current.drop (index + 1)) name := by
  have hmoved : ¬ current[index].movedFrom.name = name := fun h => hname h.symm
  have hset : current.set index current[index].movedFrom =
      current.take index ++ current[index].movedFrom :: current.drop (index + 1) :=
    List.set_eq_take_append_cons_drop.trans (if_pos index.2)
  rw [hset, listings, List.filter_append, List.filter_cons_of_neg (by simpa using hmoved)]
  rfl

/-- No market of the name. -/
theorem listings_of_none {found : String}
    (h : current.findFinIdx? (fun market => market.name = found) = none) :
    listings current found = [] := by
  rw [listings, List.filter_eq_nil_iff]
  exact List.findFinIdx?_eq_none_iff.mp h

/-- The first market of a name is found, and is taken away from it alone. -/
theorem listings_of_some {found : String} {index : Fin current.length}
    (h : current.findFinIdx? (fun market => market.name = found) = some index) :
    (listings current found).head? = some current[index] ∧ ∀ name ≠ "",
      listings (current.set index current[index].movedFrom) name =
        if name = found then (listings current name).tail else listings current name := by
  obtain ⟨hfound, hbefore⟩ := List.findFinIdx?_eq_some_iff.mp h
  have hfound : current[index].name = found := by simpa using hfound
  have hnone : listings (current.take index) found = [] := by
    rw [listings, List.filter_eq_nil_iff]
    intro market hmarket
    obtain ⟨k, hk, rfl⟩ := List.mem_take_iff_getElem.mp hmarket
    exact hbefore ⟨k, (lt_min_iff.mp hk).2⟩ (lt_min_iff.mp hk).1
  have hsplit : listings current found =
      current[index] :: listings (current.drop (index + 1)) found := by
    rw [listings_split index, hnone, if_pos hfound, List.nil_append]
  refine ⟨by rw [hsplit]; rfl, fun name hname => ?_⟩
  rw [listings_set_movedFrom hname]
  by_cases heq : name = found
  · subst heq
    rw [if_pos rfl, hsplit, hnone]
    rfl
  · have hother : ¬ current[index].name = name := fun h => heq (h.symm.trans hfound)
    rw [if_neg heq, listings_split index name, if_neg hother]

/-! ## The load -/

/-- What the loop has used up of the markets of each name. -/
def Remaining (markets : List FtxMarket) (used : List String) (current : List FtxMarket) : Prop :=
  ∀ name ≠ "", listings current name = (listings markets name).drop (used.count name)

theorem Remaining.head? {used : List String} (h : Remaining markets used current)
    (hname : name ≠ "") :
    (listings current name).head? = (listings markets name)[used.count name]? := by
  rw [h name hname, List.head?_drop]

theorem Remaining.movedFrom {used : List String} {index : Fin current.length}
    (h : Remaining markets used current)
    (hindex : current.findFinIdx? (fun market => market.name = name) = some index) :
    Remaining markets (used ++ [name]) (current.set index current[index].movedFrom) := by
  intro other hother
  rw [(listings_of_some hindex).2 other hother, List.count_append, List.count_singleton,
    h other hother]
  by_cases heq : other = name
  · rw [if_pos heq, List.tail_drop, if_pos (by simp [heq])]
  · rw [if_neg heq, if_neg (by simp [Ne.symm heq]), Nat.add_zero]

/-- The loop behind the pairs of `used`, by induction on the names to come. -/
theorem loadTradingPairs_eq {used ftxMarketNames : List String}
    (h : Remaining markets used current) (hnames : ∀ name ∈ ftxMarketNames, name ≠ "") :
    loadTradingPairs currencyNames current ftxMarketNames =
      (ftxMarketNames.zipIdx used.length).mapM fun entry =>
        tradingPairAt currencyNames markets (used ++ ftxMarketNames) entry.1 entry.2 := by
  induction ftxMarketNames generalizing used current with
  | nil => rfl
  | cons name ftxMarketNames ih =>
    obtain ⟨hname, hrest⟩ := List.forall_mem_cons.mp hnames
    have hat : tradingPairAt currencyNames markets (used ++ name :: ftxMarketNames) name
        used.length = indexListing currencyNames (listings current name).head? := by
      rw [tradingPairAt, List.take_left, h.head? hname]
    rw [List.zipIdx_cons, List.mapM_cons, hat, loadTradingPairs]
    cases hindex : current.findFinIdx? (fun market => market.name = name) with
    | none =>
      rw [listings_of_none hindex]
      rfl
    | some index =>
      have hih := ih (h.movedFrom hindex) hrest
      rw [List.append_assoc, List.singleton_append, List.length_append, List.length_singleton]
        at hih
      rw [(listings_of_some hindex).1]
      simp only [hih]
      rfl

/-- **The reference data that is loaded.** For any answer of the exchange, where
no configured name is empty (an empty one would find the markets moved from): the
load gives every configured name the market of that name behind those of the
names before it and the first configured currencies with the names of its two,
and it fails with the error of the first name for which there is no such market
or no such currency. -/
theorem doLoadReferenceData_eq (markets : List FtxMarket)
    (ftxMarketNames currencyNames : List String) (hnames : ∀ name ∈ ftxMarketNames, name ≠ "") :
    doLoadReferenceData markets ftxMarketNames currencyNames =
      (ftxMarketNames.zipIdx.mapM fun entry =>
        tradingPairAt currencyNames markets ftxMarketNames entry.1 entry.2).map
        LoadedReferenceData.mk := by
  have hstart : Remaining markets [] markets := fun name _ => by simp
  rw [doLoadReferenceData, loadTradingPairs_eq hstart hnames]
  rfl

/-- SOL against USD, as the exchange lists it. -/
def solUsdMarket : FtxMarket where
  quantityIncrement := 1 / 10
  baseCurrency := "SOL"
  name := "SOL/USD"
  enabled := true
  restricted := false
  marketType := .spot
  priceIncrement := 1 / 100
  quoteCurrency := "USD"

/-- The market is listed once, and two pairs are traded on it. -/
theorem doLoadReferenceData_eq_twice :
    (["SOL/USD", "SOL/USD"].zipIdx.mapM fun entry =>
      tradingPairAt ["SOL", "USD"] [solUsdMarket] ["SOL/USD", "SOL/USD"] entry.1 entry.2).map
      LoadedReferenceData.mk = .error ⟨"Invalid FTX market"⟩ :=
  (doLoadReferenceData_eq [solUsdMarket] ["SOL/USD", "SOL/USD"] ["SOL", "USD"]
    (by decide)).symm.trans rfl

/-! ## What a load leaves -/

theorem findCurrency_eq_ok {index : Fin currencyNames.length}
    (h : findCurrency currencyNames name = .ok index) : currencyNames[index] = name := by
  unfold findCurrency at h
  split at h
  · next found hfound =>
    obtain rfl := Except.ok.inj h
    have heq := (List.findFinIdx?_eq_some_iff.mp hfound).1
    exact (of_decide_eq_true heq).symm
  · cases h

/-- A pair that was loaded, with the name it was loaded for. -/
structure LoadedPair (currencyNames : List String) (ftxMarketName : String)
    (tradingPair : IndexedTradingPair currencyNames.length) : Prop where
  name : tradingPair.marketInformation.name = ftxMarketName
  base : currencyNames[tradingPair.baseCurrencyIndex] =
    tradingPair.marketInformation.baseCurrency
  quote : currencyNames[tradingPair.quoteCurrencyIndex] =
    tradingPair.marketInformation.quoteCurrency

/-- Every configured name has its pair, by induction on the names. -/
theorem loadedPairs_of_loop {ftxMarketNames : List String}
    {tradingPairs : List (IndexedTradingPair currencyNames.length)}
    (h : loadTradingPairs currencyNames markets ftxMarketNames = .ok tradingPairs) :
    List.Forall₂ (LoadedPair currencyNames) ftxMarketNames tradingPairs := by
  induction ftxMarketNames generalizing markets tradingPairs with
  | nil =>
    obtain rfl := Except.ok.inj h
    exact .nil
  | cons ftxMarketName ftxMarketNames ih =>
    rw [loadTradingPairs] at h
    split at h
    · cases h
    · next index hindex =>
      simp only [indexMarket, ExceptList.bind_eq_ok] at h
      obtain ⟨tradingPair, ⟨base, hbase, quote, hquote, hpair⟩, rest, hrest, hok⟩ := h
      obtain rfl := Except.ok.inj hpair
      obtain rfl := Except.ok.inj hok
      have hname : markets[index].name = ftxMarketName := by
        simpa using (List.findFinIdx?_eq_some_iff.mp hindex).1
      exact .cons ⟨hname, findCurrency_eq_ok hbase, findCurrency_eq_ok hquote⟩ (ih hrest)

theorem loadedPairs_of_load {ftxMarketNames : List String}
    {referenceData : LoadedReferenceData currencyNames}
    (h : doLoadReferenceData markets ftxMarketNames currencyNames = .ok referenceData) :
    List.Forall₂ (LoadedPair currencyNames) ftxMarketNames referenceData.tradingPairs := by
  obtain ⟨tradingPairs, hpairs, hok⟩ := ExceptList.bind_eq_ok.mp h
  obtain rfl := Except.ok.inj hok
  exact loadedPairs_of_loop hpairs

/-- The pairs are those of the configured names, in their order. -/
theorem names_of_load {ftxMarketNames : List String}
    {referenceData : LoadedReferenceData currencyNames}
    (h : doLoadReferenceData markets ftxMarketNames currencyNames = .ok referenceData) :
    (referenceData.tradingPairs.map fun tradingPair => tradingPair.marketInformation.name) =
      ftxMarketNames := by
  have hpairs := loadedPairs_of_load h
  clear h
  generalize referenceData.tradingPairs = tradingPairs at hpairs ⊢
  induction hpairs with
  | nil => rfl
  | cons hpair _ ih => rw [List.map_cons, hpair.name, ih]

end Synthfi.Ftx
