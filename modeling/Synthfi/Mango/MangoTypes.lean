/-
Synthfi.Mango.MangoTypes — the accounts of the Mango program and the
reference data derived from them (`Mango/MangoTypes.hpp`,
`Mango/MangoTypes.cpp`).

`account_to` checks the size of an account and reinterprets its bytes, so an
account is kept as its image and a field is a read at its offset. Fields
that nothing here reads have no reader.
-/
import Synthfi.Serum.SerumTypes

namespace Synthfi.Mango

open Synthfi.Core Bytes Solana

abbrev mangoMaxTokens : ℕ := 16

/-- `mango_max_tokens( ) - 1`. -/
abbrev mangoMaxPairs : ℕ := 15

abbrev mangoMaxNodeBanks : ℕ := 8

/-- `mango_quote_currency_index( )`. -/
abbrev mangoQuoteCurrencyIndex : ℕ := 15

/-- A fixed point number with 48 fraction bits: `mango_int128_to_price` and
`mango_int128_to_quantity`. -/
def mangoInt128ToQuantity (value : ℤ) : Trading.Quantity := value / (2 ^ 48 : ℕ)

/-! ## Accounts -/

structure MangoTokenInfo where
  mintAddress : PublicKey
  rootBankAddress : PublicKey
  deriving DecidableEq, Repr

structure SpotMarketInfo where
  spotMarketAddress : PublicKey
  deriving DecidableEq, Repr

structure MangoGroupAccount where
  image : List UInt8
  deriving DecidableEq, Repr

namespace MangoGroupAccount

variable (group : MangoGroupAccount)

def size : ℕ := 6032

def tokens (i : Fin mangoMaxTokens) : MangoTokenInfo :=
  ⟨readAt 32 group.image (16 + 72 * i), readAt 32 group.image (16 + 72 * i + 32)⟩

def spotMarkets (i : Fin mangoMaxPairs) : SpotMarketInfo :=
  ⟨readAt 32 group.image (1168 + 112 * i)⟩

def numOracles : UInt64 := readU64 group.image 8

/-- `tokens[ i ].decimals`. -/
def tokenDecimals (i : Fin mangoMaxTokens) : UInt8 := readU8 group.image (16 + 72 * i + 64)

/-- `spotMarkets[ i ].initial_asset_weight( )`. -/
def initialAssetWeight (i : Fin mangoMaxPairs) : Trading.Quantity :=
  mangoInt128ToQuantity (readI128 group.image (1168 + 112 * i + 48))

/-- `spotMarkets[ i ].initial_liability_weight( )`. -/
def initialLiabilityWeight (i : Fin mangoMaxPairs) : Trading.Quantity :=
  mangoInt128ToQuantity (readI128 group.image (1168 + 112 * i + 80))

def signerKey : PublicKey := readAt 32 group.image 5736

def dexProgramId : PublicKey := readAt 32 group.image 5800

def mangoCache : PublicKey := readAt 32 group.image 5832

def msrmVault : PublicKey := readAt 32 group.image 5936

end MangoGroupAccount

structure MangoAccount where
  image : List UInt8
  deriving DecidableEq, Repr

namespace MangoAccount

variable (account : MangoAccount)

def size : ℕ := 4296

def mangoGroupAddress : PublicKey := readAt 32 account.image 8

def owner : PublicKey := readAt 32 account.image 40

def inMarginBasket (i : Fin mangoMaxPairs) : Bool := readU8 account.image (72 + i) != 0

def deposits (i : Fin mangoMaxTokens) : Trading.Quantity :=
  mangoInt128ToQuantity (readI128 account.image (88 + 16 * i))

def borrows (i : Fin mangoMaxTokens) : Trading.Quantity :=
  mangoInt128ToQuantity (readI128 account.image (344 + 16 * i))

def openOrdersAddresses (i : Fin mangoMaxPairs) : PublicKey :=
  readAt 32 account.image (600 + 32 * i)

end MangoAccount

structure MangoCacheAccount where
  image : List UInt8
  deriving DecidableEq, Repr

namespace MangoCacheAccount

variable (cache : MangoCacheAccount)

def size : ℕ := 1608

/-- `priceCaches[ i ].price`: quote native tokens for one base native token. -/
def price (i : Fin mangoMaxPairs) : Trading.Price :=
  mangoInt128ToQuantity (readI128 cache.image (8 + 24 * i))

/-- `rootBankCaches[ i ].depositIndex`. -/
def depositIndex (i : Fin mangoMaxTokens) : Trading.Quantity :=
  mangoInt128ToQuantity (readI128 cache.image (368 + 40 * i))

/-- `rootBankCaches[ i ].borrowIndex`. -/
def borrowIndex (i : Fin mangoMaxTokens) : Trading.Quantity :=
  mangoInt128ToQuantity (readI128 cache.image (368 + 40 * i + 16))

end MangoCacheAccount

structure RootBank where
  image : List UInt8
  deriving DecidableEq, Repr

def RootBank.size : ℕ := 424

def RootBank.nodeBanks (bank : RootBank) (i : Fin mangoMaxNodeBanks) : PublicKey :=
  readAt 32 bank.image (64 + 32 * i)

structure NodeBank where
  image : List UInt8
  deriving DecidableEq, Repr

def NodeBank.size : ℕ := 72

def NodeBank.vaultAddress (bank : NodeBank) : PublicKey := readAt 32 bank.image 40

/-- The reader all Mango accounts share: at least `size` bytes. -/
def reinterpretAccount {α : Type} (size : ℕ) (what : String) (make : List UInt8 → α)
    (accountInfo : AccountInfo) : Except SynthfiError α :=
  if accountInfo.data.length < size then .error ⟨what⟩ else .ok (make accountInfo.data)

def accountToMangoGroupAccount : AccountInfo → Except SynthfiError MangoGroupAccount :=
  reinterpretAccount MangoGroupAccount.size "Invalid MangoGroupAccount size" MangoGroupAccount.mk

def accountToMangoAccount : AccountInfo → Except SynthfiError MangoAccount :=
  reinterpretAccount MangoAccount.size "Invalid MangoAccount size" MangoAccount.mk

def accountToMangoCacheAccount : AccountInfo → Except SynthfiError MangoCacheAccount :=
  reinterpretAccount MangoCacheAccount.size "Invalid MangoCacheAccount size" MangoCacheAccount.mk

def accountToRootBank : AccountInfo → Except SynthfiError RootBank :=
  reinterpretAccount RootBank.size "Invalid RootBank size" RootBank.mk

/-- The text of the error names the root bank here as well. -/
def accountToNodeBank : AccountInfo → Except SynthfiError NodeBank :=
  reinterpretAccount NodeBank.size "Invalid RootBank size" NodeBank.mk

/-! ## Reference data -/

structure MangoTradingPair where
  mangoTradingPairIndex : Fin mangoMaxPairs
  mangoBaseCurrencyIndex : Fin mangoMaxTokens
  mangoQuoteCurrencyIndex : Fin mangoMaxTokens
  openOrdersAccount : Serum.SerumOpenOrdersAccount
  deriving DecidableEq, Repr

structure MangoCurrency where
  mangoCurrencyIndex : Fin mangoMaxTokens
  nodeBankAddress : PublicKey
  nodeBank : NodeBank
  rootBank : RootBank
  deriving DecidableEq, Repr

/-- One entry for each configured pair and each configured currency. -/
structure MangoReferenceData where
  mangoAccountAddress : PublicKey
  mangoProgramId : PublicKey
  mangoGroup : MangoGroupAccount
  mangoAccount : MangoAccount
  mangoCache : MangoCacheAccount
  tradingPairs : List MangoTradingPair
  currencies : List MangoCurrency
  deriving DecidableEq, Repr

end Synthfi.Mango
