/-
Synthfi.Mango.MarginTheorems — the sign of the margin available.

The margin of a pair is the health divided by 1 less the weight in force.
Where the base position is positive in the worst case that is the asset
weight, below 1; anywhere else it is the liability weight, above 1, and the
divisor is negative. `marginsFine_iff` says which accounts do not meet it.
-/
import Synthfi.Mango.HealthTheorems

namespace Synthfi.Mango

open Trading MangoReferenceData MangoWalletClient

/-- Initial weights as a margin system has them, for the configured pairs. -/
structure MangoReferenceData.WeightsInRange (mango : MangoReferenceData) : Prop where
  asset_lt_one : ∀ pair ∈ mango.tradingPairs,
    mango.mangoGroup.initialAssetWeight pair.mangoTradingPairIndex < 1
  one_lt_liability : ∀ pair ∈ mango.tradingPairs,
    1 < mango.mangoGroup.initialLiabilityWeight pair.mangoTradingPairIndex

/-- A margin for each pair, none negative: 0 without a positive health, and
positive with one. -/
structure MarginsFine (mango : MangoReferenceData) (marginAvailable : List Quantity) : Prop where
  each : marginAvailable.length = mango.tradingPairs.length
  nonneg : ∀ margin ∈ marginAvailable, 0 ≤ margin
  eq_zero : mango.health ≤ 0 → ∀ margin ∈ marginAvailable, margin = 0
  pos : 0 < mango.health → ∀ margin ∈ marginAvailable, 0 < margin

/-- The worst-case base position is positive for each configured currency
with an oracle: no such currency is flat or short. -/
def MangoReferenceData.AllLong (mango : MangoReferenceData) : Prop :=
  ∀ currency ∈ mango.currencies, ∀ term ∈ mango.termOf currency.mangoCurrencyIndex, 0 < term.spot

instance (mango : MangoReferenceData) : Decidable mango.AllLong := by
  unfold MangoReferenceData.AllLong
  infer_instance

variable {mango : MangoReferenceData}

/-! ## The weight in force -/

/-- It is below 1 where the worst-case base position is positive. -/
theorem MangoReferenceData.WeightsInRange.weight_lt_one_iff (h : mango.WeightsInRange)
    {mangoCurrencyIndex : Fin mangoMaxTokens} {term : MarketTerm}
    (hterm : mango.termOf mangoCurrencyIndex = some term) : term.weight < 1 ↔ 0 < term.spot := by
  obtain ⟨pair, hpair, rfl⟩ := findTradingPair_of_termOf hterm
  have hmem : pair ∈ mango.tradingPairs := List.mem_of_getElem? hpair
  have hweight : (mango.marketTerm mangoCurrencyIndex pair
        (mango.position mangoCurrencyIndex)).weight =
      if 0 < (mango.marketTerm mangoCurrencyIndex pair (mango.position mangoCurrencyIndex)).spot
      then mango.mangoGroup.initialAssetWeight pair.mangoTradingPairIndex
      else mango.mangoGroup.initialLiabilityWeight pair.mangoTradingPairIndex := rfl
  rw [hweight]
  split
  · next hspot => exact iff_of_true (h.asset_lt_one pair hmem) hspot
  · next hspot => exact iff_of_false (h.one_lt_liability pair hmem).not_gt hspot

/-- All weights in force are below 1 iff all positions are long. -/
theorem MangoReferenceData.WeightsInRange.forall_weights_iff (h : mango.WeightsInRange) :
    (∀ tradingPairIndex < mango.tradingPairs.length,
      ∃ weight, (weights mango)[tradingPairIndex]? = some weight ∧ weight < 1) ↔
      mango.AllLong := by
  rw [Mango.forall_weights_iff (p := fun weight => weight < 1) zero_lt_one]
  constructor
  · intro hall currency hmem term hterm
    exact (h.weight_lt_one_iff hterm).mp (hall currency hmem term hterm)
  · intro hall currency hmem term hterm
    exact (h.weight_lt_one_iff hterm).mpr (hall currency hmem term hterm)

/-! ## The margins -/

/-- Without health no pair has a margin, as it should be. -/
theorem marginsFine_of_nonpos (h : mango.health ≤ 0) :
    MarginsFine mango (marginsOf mango.health (weights mango) mango.tradingPairs.length) := by
  have hzero : ∀ margin ∈ marginsOf mango.health (weights mango) mango.tradingPairs.length,
      margin = 0 := by
    intro margin hmargin
    obtain ⟨tradingPairIndex, -, rfl⟩ := List.mem_map.mp hmargin
    exact if_pos h
  exact ⟨length_marginsOf .., fun margin hmargin => (hzero margin hmargin).ge, fun _ => hzero,
    fun hpos => absurd h hpos.not_ge⟩

/-- With a positive health the margins have the sign of 1 less the weight. -/
theorem marginsFine_iff_weights (h : 0 < mango.health) :
    MarginsFine mango (marginsOf mango.health (weights mango) mango.tradingPairs.length) ↔
      ∀ tradingPairIndex < mango.tradingPairs.length,
        ∃ weight, (weights mango)[tradingPairIndex]? = some weight ∧ weight < 1 := by
  have hmargin : ∀ tradingPairIndex : ℕ,
      (if mango.health ≤ 0 then (0 : Quantity)
        else mango.health / (1 - (weights mango)[tradingPairIndex]?.getD 0)) =
      mango.health / (1 - (weights mango)[tradingPairIndex]?.getD 0) :=
    fun _ => if_neg h.not_ge
  have hlength : (weights mango).length = mango.tradingPairs.length :=
    (CheckedVec.length_assignAll ..).trans List.length_replicate
  constructor
  · intro hfine tradingPairIndex hlt
    have hpos := hfine.pos h _ (List.mem_map_of_mem (List.mem_range.mpr hlt))
    rw [hmargin, div_pos_iff_of_pos_left h, sub_pos] at hpos
    refine ⟨_, List.getElem?_eq_getElem (hlength ▸ hlt), ?_⟩
    rwa [List.getElem?_eq_getElem (hlength ▸ hlt), Option.getD_some] at hpos
  · intro hall
    have hpos : ∀ margin ∈ marginsOf mango.health (weights mango) mango.tradingPairs.length,
        0 < margin := by
      intro margin hmem
      obtain ⟨tradingPairIndex, hlt, rfl⟩ := List.mem_map.mp hmem
      obtain ⟨weight, hweight, hlt⟩ := hall tradingPairIndex (List.mem_range.mp hlt)
      rw [hmargin, div_pos_iff_of_pos_left h, sub_pos, hweight, Option.getD_some]
      exact hlt
    exact ⟨length_marginsOf .., fun margin hmem => (hpos margin hmem).le,
      fun hnonpos => absurd hnonpos h.not_ge, fun _ => hpos⟩

/-- **The margin available.** With initial weights in their range, whatever
the accounts: an update that passes a wallet on has computed the health, and
the margins in the wallet are as they should be exactly where the health is
not positive or no base position is flat or short. -/
theorem marginsFine_iff {client client' : MangoWalletClient} (hsized : client.Sized)
    (hweights : client.mangoReferenceData.WeightsInRange)
    (h : client.doUpdatePositions = some client') :
    client.mangoReferenceData.computeHealth client.wallet.positions
        (let zeros := List.replicate client.wallet.marginAvailable.length 0
        ⟨0, zeros, zeros, zeros⟩) = some client.mangoReferenceData.health ∧
      (MarginsFine client.mangoReferenceData client'.wallet.marginAvailable ↔
        client.mangoReferenceData.health ≤ 0 ∨ client.mangoReferenceData.AllLong) := by
  obtain ⟨hsafe, rfl⟩ := (doUpdatePositions_eq_some hsized).mp h
  obtain ⟨hdecimals, hok, -⟩ := walletSafe_iff.mp hsafe
  refine ⟨(computeHealth_eq_some hsized.positions hsized.healthComponents).mpr
    ⟨hdecimals, hok, rfl⟩, ?_⟩
  obtain hnonpos | hpos := le_or_gt client.mangoReferenceData.health 0
  · exact iff_of_true (marginsFine_of_nonpos hnonpos) (.inl hnonpos)
  · rw [← hweights.forall_weights_iff, or_iff_right hpos.not_ge]
    exact marginsFine_iff_weights hpos

theorem weightsInRange_equalGroup : equalGroup.WeightsInRange :=
  ⟨by decide +kernel, by decide +kernel⟩

/-- A deposit of one base token: the margin is twice the health. -/
theorem marginsFine_iff_equalGroup :
    0 < equalGroup.health ∧
      ∃ client', (subscribed oneMarket equalGroup).doUpdatePositions = some client' ∧
        MarginsFine equalGroup client'.wallet.marginAvailable := by
  have hdefined : (subscribed oneMarket equalGroup).doUpdatePositions.isSome = true := by
    decide +kernel
  obtain ⟨client', hclient'⟩ := Option.isSome_iff_exists.mp hdefined
  have hsized : (subscribed oneMarket equalGroup).Sized :=
    Sized.subscribed (by decide +kernel) (by decide +kernel)
  refine ⟨by decide +kernel, client', hclient', ?_⟩
  exact (marginsFine_iff hsized weightsInRange_equalGroup hclient').2.mpr
    (.inr (by decide +kernel))

/-- A deposit of one quote token and no base position: the health is 1, the
weight in force is the liability weight 3/2, and the margin is -2. -/
theorem margins_negative :
    loadOracleGroup 1 15 = .ok baseOracleGroup ∧
      (baseOracleGroup.tradingPairs.map fun pair =>
        (baseOracleGroup.mangoGroup.initialAssetWeight pair.mangoTradingPairIndex,
          baseOracleGroup.mangoGroup.initialLiabilityWeight pair.mangoTradingPairIndex,
          baseOracleGroup.mangoCache.price pair.mangoTradingPairIndex)) = [(1 / 2, 3 / 2, 2)] ∧
      baseOracleGroup.health = 1 ∧
      ∃ client', (subscribed oneMarket baseOracleGroup).doUpdatePositions = some client' ∧
        client'.wallet.marginAvailable = [-2] ∧
        ¬ MarginsFine baseOracleGroup client'.wallet.marginAvailable := by
  have hmargins : (subscribed oneMarket baseOracleGroup).doUpdatePositions.map
      (fun client' => client'.wallet.marginAvailable) = some [-2] := by decide +kernel
  obtain ⟨client', hclient', hnegative⟩ := Option.map_eq_some_iff.mp hmargins
  refine ⟨baseOracleGroup_loaded, by decide +kernel, by decide +kernel, client', hclient',
    hnegative, ?_⟩
  intro hfine
  have hnonneg := hfine.nonneg (-2) (by rw [hnegative]; exact List.mem_singleton_self (-2))
  exact absurd hnonneg (by norm_num)

end Synthfi.Mango
