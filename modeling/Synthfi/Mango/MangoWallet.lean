/-
Synthfi.Mango.MangoWallet — keeping a wallet up to date with the accounts of
a Mango user (`Mango/MangoWalletClient/MangoWalletClientImpl.cpp`).

`subscribed` is the client as `do_subscribe_wallet` leaves it before its
first update. Every update runs `do_update_positions` without a break; `none`
is undefined behaviour or a failed assertion in it. Of the measurements only
the values that updates assign are kept; publishing them, and the
subscriptions themselves, are left out.
-/
import Synthfi.Lib.Run
import Synthfi.Mango.MangoHealth
import Synthfi.Serum.SerumReferenceData
import Synthfi.Trading.Wallet

namespace Synthfi.Mango

open Trading Solana Serum CheckedVec

structure MangoWalletClient where
  mangoReferenceData : MangoReferenceData
  wallet : Wallet
  positionMeasurements : List Quantity
  marginAvailableMeasurements : List Quantity
  deriving DecidableEq

namespace MangoWalletClient

/-- Initialize wallet state and measurements: an entry for each configured
currency and pair. -/
def subscribed (serumReferenceData : SerumReferenceData) (mangoReferenceData : MangoReferenceData) :
    MangoWalletClient where
  mangoReferenceData := mangoReferenceData
  wallet :=
    ⟨List.replicate serumReferenceData.currencies.length 0,
      List.replicate serumReferenceData.tradingPairs.length 0⟩
  positionMeasurements := List.replicate serumReferenceData.currencies.length 0
  marginAvailableMeasurements := List.replicate serumReferenceData.tradingPairs.length 0

/-- The margin of a pair; a weight of 1 is asserted not to occur. -/
def marginOf (health : Quantity) (weightComponent : List Quantity) (tradingPairIndex : ℕ) :
    Option Quantity :=
  weightComponent[tradingPairIndex]?.bind fun weight =>
    if weight = 1 then none else some (health / (1 - weight))

/-- Update margin available. -/
def updateMargin (health : Quantity) (weightComponent marginAvailable : List Quantity) :
    Option (List Quantity) :=
  if health ≤ 0 then some (List.replicate marginAvailable.length 0)
  else
    marginAvailable.zipIdx.foldlM (fun marginAvailable entry =>
      (marginOf health weightComponent entry.2).bind (assign marginAvailable entry.2))
      marginAvailable

/-- Update the measurements of the positions, or of the margin available. -/
def updateMeasurements (measurements values : List Quantity) : Option (List Quantity) :=
  values.zipIdx.foldlM (fun measurements entry => assign measurements entry.2 entry.1)
    measurements

def doUpdatePositions (client : MangoWalletClient) : Option MangoWalletClient := do
  let mango := client.mangoReferenceData
  let positions ← mango.getPositionComponent client.wallet.positions
  let zeros := List.replicate client.wallet.marginAvailable.length 0
  let components ← mango.getHealthComponents ⟨0, zeros, zeros, zeros⟩ positions
  let health ← mango.getHealthFromComponents components
  let marginAvailable ←
    updateMargin health components.weightComponent client.wallet.marginAvailable
  let positionMeasurements ← updateMeasurements client.positionMeasurements positions
  let marginAvailableMeasurements ←
    updateMeasurements client.marginAvailableMeasurements marginAvailable
  return ⟨mango, ⟨positions, marginAvailable⟩, positionMeasurements, marginAvailableMeasurements⟩

/-- An account that has been received and decoded. Only pairs have their open
orders subscribed. -/
inductive Update (pairCount : ℕ) where
  /-- The first update, with the reference data as it was loaded. -/
  | initial
  | mangoAccount (account : MangoAccount)
  | mangoCache (account : MangoCacheAccount)
  | openOrders (tradingPairIndex : Fin pairCount) (account : SerumOpenOrdersAccount)

/-- `tradingPairs[ tradingPairIndex ].openOrdersAccount` is assigned. -/
def setOpenOrders (mango : MangoReferenceData) (tradingPairIndex : ℕ)
    (openOrdersAccount : SerumOpenOrdersAccount) : MangoReferenceData :=
  { mango with
    tradingPairs := mango.tradingPairs.modify tradingPairIndex fun tradingPair =>
      { tradingPair with openOrdersAccount } }

variable {pairCount : ℕ}

/-- The account of an update replaces the one at hand. -/
def receive (client : MangoWalletClient) : Update pairCount → MangoWalletClient
  | .initial => client
  | .mangoAccount mangoAccount =>
    { client with mangoReferenceData := { client.mangoReferenceData with mangoAccount } }
  | .mangoCache mangoCache =>
    { client with mangoReferenceData := { client.mangoReferenceData with mangoCache } }
  | .openOrders tradingPairIndex account =>
    { client with
      mangoReferenceData := setOpenOrders client.mangoReferenceData tradingPairIndex account }

def step (client : MangoWalletClient) (update : Update pairCount) : Option MangoWalletClient :=
  (client.receive update).doUpdatePositions

end MangoWalletClient

end Synthfi.Mango
