/-
Synthfi.Serum.SerumMarketDataTheorems — an order book side is the
aggregation of the latest account.

`Aggregates` states what a side of a book must be for an orderbook account:
sorted best-first, and one level for each distinct limit price, with the
total size of the orders at it. `aggregates_aggregateOrders` shows that one
conversion, sort and merge builds it, whichever way the sort orders equal
prices; `get_doUpdateBook` is the frame of one call. The run result follows
from the two by induction on the calls.
-/
import Mathlib.Data.List.Dedup
import Mathlib.Tactic.FieldSimp
import Mathlib.Tactic.Ring
import Synthfi.Serum.SerumMarketData

namespace Synthfi.Serum

open Trading SortedVec MergeRuns

variable {referenceData : SerumReferenceData} {i : referenceData.PairIndex}

/-! ## What a book side must be -/

/-- A market with positive lot sizes. -/
structure SerumReferenceData.PositiveLots (referenceData : SerumReferenceData)
    (i : referenceData.PairIndex) : Prop where
  base : 0 < (referenceData.pair i).serumMarketAccount.baseLotSize.toNat
  quote : 0 < (referenceData.pair i).serumMarketAccount.quoteLotSize.toNat

/-- The lots offered at a limit price. -/
def lotsAt (orders : List SerumLeafNode) (limitPrice : UInt64) : ℕ :=
  ((orders.filter fun order => order.key.limitPrice = limitPrice).map
    fun order => order.quantity.toNat).sum

/-- The level of a limit price. -/
def levelAt (referenceData : SerumReferenceData) (i : referenceData.PairIndex)
    (orders : List SerumLeafNode) (limitPrice : UInt64) : PriceQuantity :=
  let market := (referenceData.pair i).serumMarketAccount
  let baseScale := pow10 (referenceData.baseMint i).decimals
  let quoteScale := pow10 (referenceData.quoteMint i).decimals
  { price :=
      limitPrice.toNat * market.quoteLotSize.toNat * baseScale /
        (market.baseLotSize.toNat * quoteScale)
    quantity := lotsAt orders limitPrice * market.baseLotSize.toNat / baseScale }

/-- `book` is the aggregation of the orders of `account`. -/
structure Aggregates (referenceData : SerumReferenceData) (i : referenceData.PairIndex)
    (account : SerumOrderbookAccount) (book : SideBook) : Prop where
  sorted : SortedBy account.side.Better PriceQuantity.price book
  levels : book.Perm
    ((account.orders.map fun order => order.key.limitPrice).dedup.map
      (levelAt referenceData i account.orders))

/-- The account determines the side. -/
theorem Aggregates.unique {account : SerumOrderbookAccount} {book book' : SideBook}
    (h : Aggregates referenceData i account book)
    (h' : Aggregates referenceData i account book') : book = book' :=
  h.sorted.eq_of_mem_iff h'.sorted fun _ => (h.levels.trans h'.levels.symm).mem_iff

/-! ## Conversion -/

/-- The conversion of prices is strictly monotone. -/
theorem slabPrice_strictMono (hlots : referenceData.PositiveLots i) {p q : UInt64}
    (h : p.toNat < q.toNat) : referenceData.slabPrice i p < referenceData.slabPrice i q := by
  have hbase : (0 : ℚ) < (referenceData.pair i).serumMarketAccount.baseLotSize.toNat := by
    exact_mod_cast hlots.base
  have hquote : (0 : ℚ) < (referenceData.pair i).serumMarketAccount.quoteLotSize.toNat := by
    exact_mod_cast hlots.quote
  have hbaseScale := pow10_pos (referenceData.baseMint i).decimals
  have hquoteScale := pow10_pos (referenceData.quoteMint i).decimals
  have hpq : (p.toNat : ℚ) < q.toNat := by exact_mod_cast h
  simp only [SerumReferenceData.slabPrice]
  gcongr

theorem slabPrice_injective (hlots : referenceData.PositiveLots i) {p q : UInt64}
    (h : referenceData.slabPrice i p = referenceData.slabPrice i q) : p = q := by
  rcases Nat.lt_trichotomy p.toNat q.toNat with hlt | heq | hgt
  · exact absurd h (slabPrice_strictMono hlots hlt).ne
  · exact UInt64.toNat_inj.mp heq
  · exact absurd h (slabPrice_strictMono hlots hgt).ne'

theorem levelAt_price (orders : List SerumLeafNode) (limitPrice : UInt64) :
    (levelAt referenceData i orders limitPrice).price =
      referenceData.slabPrice i limitPrice := by
  simp only [levelAt, SerumReferenceData.slabPrice, mul_comm]

/-- Sizes add up before or after the conversion. -/
theorem sum_slabQuantity (orders : List SerumLeafNode) :
    (orders.map fun order => referenceData.slabQuantity i order.quantity).sum =
      ((orders.map fun order => order.quantity.toNat).sum : ℕ) *
        (referenceData.pair i).serumMarketAccount.baseLotSize.toNat /
        pow10 (referenceData.baseMint i).decimals := by
  induction orders with
  | nil => simp
  | cons order orders ih =>
    rw [List.map_cons, List.sum_cons, ih, List.map_cons, List.sum_cons, Nat.cast_add,
      SerumReferenceData.slabQuantity]
    ring

/-- The size of the converted orders at a converted limit price. -/
theorem weightAt_convertOrder (hlots : referenceData.PositiveLots i)
    (orders : List SerumLeafNode) (limitPrice : UInt64) :
    weightAt PriceQuantity.price PriceQuantity.quantity
        (orders.map (convertOrder referenceData i)) (referenceData.slabPrice i limitPrice) =
      (levelAt referenceData i orders limitPrice).quantity := by
  have hfilter : ∀ order : SerumLeafNode,
      decide ((convertOrder referenceData i order).price = referenceData.slabPrice i limitPrice) =
        decide (order.key.limitPrice = limitPrice) := fun order =>
    decide_eq_decide.mpr ⟨slabPrice_injective hlots, fun h => by rw [convertOrder, h]⟩
  simp only [weightAt, List.filter_map, List.map_map, Function.comp_def, hfilter]
  exact sum_slabQuantity _

/-! ## Sort and merge -/

theorem sortsBefore_eq_true {side : Side} {lhs rhs : PriceQuantity} :
    sortsBefore side lhs rhs = true ↔ side.Better lhs.price rhs.price := by
  unfold sortsBefore Side.Better
  split <;> simp

theorem strictWeak_sortsBefore (side : Side) : StrictWeak (sortsBefore side) where
  asymm a b h := by
    rw [← Bool.not_eq_true, sortsBefore_eq_true]
    exact asymm_of side.Better (sortsBefore_eq_true.mp h)
  cotrans a b c h := by
    rw [sortsBefore_eq_true] at h ⊢
    rw [sortsBefore_eq_true]
    rcases trichotomous_of side.Better a.price c.price with hac | hac | hca
    · exact .inl hac
    · exact .inr (hac ▸ h)
    · exact .inr (trans_of side.Better hca h)

/-- **One update.** Converting, sorting and merging builds the aggregation. -/
theorem aggregates_aggregateOrders (stdSort : StdSort PriceQuantity)
    (hlots : referenceData.PositiveLots i) (account : SerumOrderbookAccount) :
    Aggregates referenceData i account (aggregateOrders stdSort referenceData i account) := by
  obtain ⟨side, orders, hside⟩ := account
  let converted := orders.map (convertOrder referenceData i)
  have hperm := stdSort.perm (sortsBefore side) converted
  have hsorted : (stdSort.sort (sortsBefore side) converted).Pairwise
      fun a b => ¬ side.Better b.price a.price :=
    (stdSort.sorted _ converted (strictWeak_sortsBefore side)).imp fun {a b} h => by
      rwa [← Bool.not_eq_true, sortsBefore_eq_true] at h
  have hmerged : Merged side.Better PriceQuantity.price PriceQuantity.quantity
      (stdSort.sort (sortsBefore side) converted)
      (mergeRuns PriceQuantity.price PriceQuantity.add
        (stdSort.sort (sortsBefore side) converted)) :=
    merged_mergeRuns PriceQuantity.add_price PriceQuantity.add_quantity hsorted
  -- A level of the result is the level of a limit price of the account.
  have hlevel : ∀ level ∈ mergeRuns PriceQuantity.price PriceQuantity.add
      (stdSort.sort (sortsBefore side) converted), ∀ limitPrice,
      level.price = referenceData.slabPrice i limitPrice →
      level = levelAt referenceData i orders limitPrice := by
    intro level hl limitPrice hp
    have hq := hmerged.weights level hl
    rw [weightAt_perm hperm, hp, weightAt_convertOrder hlots] at hq
    have hprice : level.price = (levelAt referenceData i orders limitPrice).price := by
      rw [hp, levelAt_price]
    cases level
    simp only at hq hprice
    rw [hq, hprice]
  have hkeys : ∀ p, (∃ level ∈ mergeRuns PriceQuantity.price PriceQuantity.add
      (stdSort.sort (sortsBefore side) converted), level.price = p) ↔
      ∃ order ∈ orders, referenceData.slabPrice i order.key.limitPrice = p := by
    intro p
    rw [hmerged.keys p]
    simp only [hperm.mem_iff, converted, List.mem_map, exists_exists_and_eq_and, convertOrder]
  refine ⟨hmerged.sorted, (List.perm_ext_iff_of_nodup hmerged.sorted.nodup ?_).mpr fun level => ?_⟩
  · refine (List.nodup_dedup _).map fun p q hpq => slabPrice_injective hlots ?_
    rw [← levelAt_price orders p, ← levelAt_price orders q, hpq]
  · simp only [List.mem_map, List.mem_dedup, exists_exists_and_eq_and]
    constructor
    · intro hl
      obtain ⟨order, ho, hp⟩ := (hkeys level.price).mp ⟨level, hl, rfl⟩
      exact ⟨order, ho, (hlevel level hl _ hp.symm).symm⟩
    · rintro ⟨order, ho, rfl⟩
      obtain ⟨level, hl, hp⟩ := (hkeys _).mpr ⟨order, ho, rfl⟩
      rwa [← hlevel level hl _ hp]

/-! ## Runs -/

/-- The frame of one update: it replaces the side of the account in the book
of the pair, and no other. -/
theorem get_doUpdateBook (stdSort : StdSort PriceQuantity)
    (client : SerumMarketDataClient referenceData) (update : BookUpdate referenceData) {side : Side}
    (hside : side ≠ .invalid) :
    ((doUpdateBook stdSort client update.tradingPairIndex update.now update.account
        update.doPublish).books i).get side =
      if update.tradingPairIndex = i ∧ update.account.side = side then
        aggregateOrders stdSort referenceData i update.account
      else (client.books i).get side := by
  have hvalid := update.account.side_valid
  simp only [doUpdateBook, Function.update_apply]
  by_cases hi : update.tradingPairIndex = i
  · subst hi
    rw [if_pos rfl, Book.get_set]
    have hbid : (side = .bid ↔ update.account.side = .bid) ↔ update.account.side = side := by
      cases side <;> cases hs : update.account.side <;> simp_all
    simp only [hbid, true_and]
    rfl
  · rw [if_neg (fun h => hi h.symm), if_neg (fun h => hi h.1)]

/-- The account of the latest update of a side of a pair. -/
def latestAccount (updates : List (BookUpdate referenceData)) (i : referenceData.PairIndex)
    (side : Side) : Option SerumOrderbookAccount :=
  (updates.reverse.find? fun update =>
    decide (update.tradingPairIndex = i ∧ update.account.side = side)).map BookUpdate.account

theorem latestAccount_concat (updates : List (BookUpdate referenceData))
    (update : BookUpdate referenceData) (side : Side) :
    latestAccount (updates ++ [update]) i side =
      if update.tradingPairIndex = i ∧ update.account.side = side then some update.account
      else latestAccount updates i side := by
  rw [latestAccount, List.reverse_append, List.reverse_singleton, List.singleton_append,
    List.find?_cons]
  by_cases h : update.tradingPairIndex = i ∧ update.account.side = side
  · rw [if_pos h, decide_eq_true h]; rfl
  · rw [if_neg h, decide_eq_false h]; rfl

theorem latestAccount_side {updates : List (BookUpdate referenceData)} {side : Side}
    {account : SerumOrderbookAccount} (h : latestAccount updates i side = some account) :
    account.side = side := by
  obtain ⟨update, hfind, rfl⟩ := Option.map_eq_some_iff.mp h
  have hupdate := List.find?_some hfind
  exact (of_decide_eq_true hupdate).2

/-- After any updates, a side of a book is what the latest account for it
builds; without one it is as before. -/
theorem get_doUpdateBooks (stdSort : StdSort PriceQuantity)
    (client : SerumMarketDataClient referenceData) (updates : List (BookUpdate referenceData))
    {side : Side} (hside : side ≠ .invalid) :
    ((doUpdateBooks stdSort client updates).books i).get side =
      (latestAccount updates i side).elim ((client.books i).get side)
        (aggregateOrders stdSort referenceData i) := by
  induction updates using List.reverseRecOn with
  | nil => rfl
  | append_singleton updates update ih =>
    have hconcat : doUpdateBooks stdSort client (updates ++ [update]) =
        doUpdateBook stdSort (doUpdateBooks stdSort client updates) update.tradingPairIndex
          update.now update.account update.doPublish := by
      rw [doUpdateBooks, List.foldl_append]; rfl
    rw [hconcat, get_doUpdateBook stdSort _ update hside, latestAccount_concat, ih]
    split <;> rfl

/-- **Order book aggregation.** Whatever accounts came, a side of the book
of a market with positive lot sizes is the aggregation of the latest account
for that pair and side, and unchanged when there was none. -/
theorem books_aggregate_latest_account (stdSort : StdSort PriceQuantity)
    (client : SerumMarketDataClient referenceData) (updates : List (BookUpdate referenceData))
    (hlots : referenceData.PositiveLots i) (side : Side) (hside : side ≠ .invalid) :
    (latestAccount updates i side = none →
      ((doUpdateBooks stdSort client updates).books i).get side = (client.books i).get side) ∧
    ∀ account, latestAccount updates i side = some account →
      account.side = side ∧
      Aggregates referenceData i account
        (((doUpdateBooks stdSort client updates).books i).get side) := by
  constructor
  · intro hnone
    rw [get_doUpdateBooks stdSort client updates hside, hnone]; rfl
  · intro account hsome
    rw [get_doUpdateBooks stdSort client updates hside, hsome]
    exact ⟨latestAccount_side hsome, aggregates_aggregateOrders stdSort hlots account⟩

/-- Two bids at 5 lots and one at 7, on a market with decimals 6 and 6. -/
def twoPriceBids : SerumOrderbookAccount where
  side := .bid
  orders := [(5, 2), (7, 1), (5, 3)].map fun order =>
    { ownerSlot := 0, feeTier := 0, key := ⟨0, order.1⟩, owner := Bytes.ByteArr.fill 32 0,
      quantity := order.2, clientOrderId := 0 }
  side_valid := by decide

theorem books_aggregate_latest_account_twoPriceBids :
    Aggregates (SerumReferenceData.onePair 6 6 100 10) SerumReferenceData.thePair twoPriceBids
      (((doUpdateBooks (StdSort.insertionSort _) (.init (SerumReferenceData.onePair 6 6 100 10))
        [⟨SerumReferenceData.thePair, 1, twoPriceBids, true⟩]).books
          SerumReferenceData.thePair).get .bid) :=
  ((books_aggregate_latest_account _ _ [⟨SerumReferenceData.thePair, 1, twoPriceBids, true⟩]
    ⟨by decide, by decide⟩ .bid (by decide)).2 twoPriceBids rfl).2

example :
    ((doUpdateBooks (StdSort.insertionSort _) (.init (SerumReferenceData.onePair 6 6 100 10))
      [⟨SerumReferenceData.thePair, 1, twoPriceBids, true⟩]).books
        SerumReferenceData.thePair).get .bid =
      [⟨7 / 10, 1 / 10000⟩, ⟨1 / 2, 5 / 10000⟩] := by
  decide +kernel

end Synthfi.Serum
