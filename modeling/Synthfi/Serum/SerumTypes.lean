/-
Synthfi.Serum.SerumTypes — the accounts of the Serum exchange and the
reference data derived from them (`Serum/SerumTypes.hpp`,
`Serum/SerumTypes.cpp`).

Account data is framed by 5 bytes "serum" and 7 bytes "padding"; the readers
cut both off and read the fields at their offsets. Of the market account the
fields that something reads back are kept.

`SerumReferenceData` carries the fact that its currency indices are valid,
so that the clients that look a currency up cannot miss it.
-/
import Mathlib.Data.Rat.Defs
import Mathlib.Algebra.Order.Ring.Rat
import Mathlib.Tactic.Positivity
import Synthfi.Solana.SolanaTypes
import Synthfi.Trading.Book

namespace Synthfi.Serum

open Trading Synthfi.Core Bytes Solana

/-! ## Units -/

/-- `10` to the number of decimals of a token. -/
def pow10 (tokenDecimals : UInt8) : ℚ := 10 ^ tokenDecimals.toNat

theorem pow10_pos (tokenDecimals : UInt8) : 0 < pow10 tokenDecimals := by
  unfold pow10; positivity

theorem pow10_ne_zero (tokenDecimals : UInt8) : pow10 tokenDecimals ≠ 0 :=
  (pow10_pos tokenDecimals).ne'

def serumToSynthfiPrice (serumPrice : Price) (tokenDecimals : UInt8) : Price :=
  serumPrice / pow10 tokenDecimals

def serumToSynthfiQuantity (serumQuantity : Quantity) (tokenDecimals : UInt8) : Quantity :=
  serumQuantity / pow10 tokenDecimals

/-- `serum_taker_fee`: 3 basis points, as the double 0.0003. -/
def serumTakerFee : Quantity := 5534023222112865 / 2 ^ 64

/-! ## Accounts -/

/-- The data between the leading and the trailing padding. -/
def alignSerumData (data : List UInt8) : List UInt8 := 
  (data.drop 5).take (data.length - 12)

structure SerumMarketAccount where
  vaultSignerNonce : UInt64
  baseMint : PublicKey
  quoteMint : PublicKey
  baseVault : PublicKey
  quoteVault : PublicKey
  requestQueue : PublicKey
  eventQueue : PublicKey
  bids : PublicKey
  asks : PublicKey
  baseLotSize : UInt64
  quoteLotSize : UInt64
  deriving DecidableEq, Repr

def SerumMarketAccount.size : ℕ := 388

def accountToSerumMarketAccount (accountInfo : AccountInfo) :
    Except SynthfiError SerumMarketAccount :=
  if accountInfo.data.length ≠ SerumMarketAccount.size then
    .error ⟨"Invalid SerumMarketAccount size"⟩
  else
    let data := alignSerumData accountInfo.data
    .ok
      { vaultSignerNonce := readU64 data 40
        baseMint := readAt 32 data 48
        quoteMint := readAt 32 data 80
        baseVault := readAt 32 data 112
        quoteVault := readAt 32 data 160
        requestQueue := readAt 32 data 216
        eventQueue := readAt 32 data 248
        bids := readAt 32 data 280
        asks := readAt 32 data 312
        baseLotSize := readU64 data 344
        quoteLotSize := readU64 data 352 }

/-- The open orders of one owner on one market, as the image of the aligned
account. -/
structure SerumOpenOrdersAccount where
  image : List UInt8
  deriving DecidableEq, Repr

namespace SerumOpenOrdersAccount

variable (account : SerumOpenOrdersAccount)

def size : ℕ := 3228

def nativeBaseFree : UInt64 := readU64 account.image 72

def nativeBaseTotal : UInt64 := readU64 account.image 80

def nativeQuoteFree : UInt64 := readU64 account.image 88

def nativeQuoteTotal : UInt64 := readU64 account.image 96

def referrerRebatesAccrued : UInt64 := readU64 account.image 3208

end SerumOpenOrdersAccount

def accountToSerumOpenOrdersAccount (accountInfo : AccountInfo) :
    Except SynthfiError SerumOpenOrdersAccount :=
  if accountInfo.data.length ≠ SerumOpenOrdersAccount.size then
    .error ⟨"Invalid SerumOpenOrdersAccount size"⟩
  else .ok ⟨alignSerumData accountInfo.data⟩

structure SerumNodeKey where
  sequenceNumber : UInt64
  limitPrice : UInt64
  deriving DecidableEq, Repr

structure SerumLeafNode where
  ownerSlot : UInt8
  feeTier : UInt8
  key : SerumNodeKey
  owner : PublicKey
  quantity : UInt64
  clientOrderId : UInt64
  deriving DecidableEq, Repr

/-- A decoded orderbook account: the reader sets the side from the account
flags, bid or ask. -/
structure SerumOrderbookAccount where
  side : Side
  orders : List SerumLeafNode
  side_valid : side ≠ .invalid

structure SerumEvent where
  eventFlags : UInt8
  ownerSlot : UInt8
  feeTier : UInt8
  nativeQtyReleased : UInt64
  nativeQtyPaid : UInt64
  nativeFeeOrRebate : UInt64
  orderId : SerumNodeKey
  owner : PublicKey
  clientOrderId : UInt64
  deriving DecidableEq, Repr

structure SerumEventQueueAccount where
  sequenceNumber : UInt64
  events : List SerumEvent
  deriving DecidableEq, Repr

/-! ## Reference data -/

structure SerumTradingPair where
  serumMarketAddress : PublicKey
  serumMarketAccount : SerumMarketAccount
  priceIncrement : Price
  quantityIncrement : Quantity
  baseCurrencyIndex : ℕ
  quoteCurrencyIndex : ℕ
  deriving DecidableEq, Repr

structure SerumCurrency where
  mintAddress : PublicKey
  mintAccount : TokenMintAccount
  deriving DecidableEq, Repr

structure SerumReferenceData where
  serumProgramId : PublicKey
  tradingPairs : List SerumTradingPair
  currencies : List SerumCurrency
  base_valid : ∀ pair ∈ tradingPairs, pair.baseCurrencyIndex < currencies.length
  quote_valid : ∀ pair ∈ tradingPairs, pair.quoteCurrencyIndex < currencies.length

namespace SerumReferenceData

variable (referenceData : SerumReferenceData)

/-- A trading pair index: a position in the vector of configured pairs. -/
abbrev PairIndex := Fin referenceData.tradingPairs.length

def pair (i : referenceData.PairIndex) : SerumTradingPair := referenceData.tradingPairs[i]

def baseCurrency (i : referenceData.PairIndex) : SerumCurrency :=
  referenceData.currencies.get
    ⟨(referenceData.pair i).baseCurrencyIndex,
      referenceData.base_valid _ (List.getElem_mem i.2)⟩

def quoteCurrency (i : referenceData.PairIndex) : SerumCurrency :=
  referenceData.currencies.get
    ⟨(referenceData.pair i).quoteCurrencyIndex,
      referenceData.quote_valid _ (List.getElem_mem i.2)⟩

/-- The mint of the pair's base currency. -/
def baseMint (i : referenceData.PairIndex) : TokenMintAccount :=
  (referenceData.baseCurrency i).mintAccount

/-- The mint of the pair's quote currency. -/
def quoteMint (i : referenceData.PairIndex) : TokenMintAccount :=
  (referenceData.quoteCurrency i).mintAccount

theorem getElem?_pair (i : referenceData.PairIndex) :
    referenceData.tradingPairs[i.val]? = some (referenceData.pair i) :=
  List.getElem?_eq_getElem i.2

theorem getElem?_baseCurrency (i : referenceData.PairIndex) :
    referenceData.currencies[(referenceData.pair i).baseCurrencyIndex]? =
      some (referenceData.baseCurrency i) :=
  List.getElem?_eq_getElem _

theorem getElem?_quoteCurrency (i : referenceData.PairIndex) :
    referenceData.currencies[(referenceData.pair i).quoteCurrencyIndex]? =
      some (referenceData.quoteCurrency i) :=
  List.getElem?_eq_getElem _

/-- One pair of two currencies, with the given decimals and lot sizes. -/
def onePair (baseDecimals quoteDecimals : UInt8) (baseLotSize quoteLotSize : UInt64) :
    SerumReferenceData where
  serumProgramId := ByteArr.fill 32 0
  tradingPairs :=
    [{ serumMarketAddress := ByteArr.fill 32 1
       serumMarketAccount :=
         { vaultSignerNonce := 0
           baseMint := ByteArr.fill 32 2
           quoteMint := ByteArr.fill 32 3
           baseVault := ByteArr.fill 32 4
           quoteVault := ByteArr.fill 32 5
           requestQueue := ByteArr.fill 32 6
           eventQueue := ByteArr.fill 32 7
           bids := ByteArr.fill 32 8
           asks := ByteArr.fill 32 9
           baseLotSize, quoteLotSize }
       priceIncrement := 0
       quantityIncrement := 0
       baseCurrencyIndex := 0
       quoteCurrencyIndex := 1 }]
  currencies :=
    [⟨ByteArr.fill 32 2, ⟨none, 0, baseDecimals, true, none⟩⟩,
     ⟨ByteArr.fill 32 3, ⟨none, 0, quoteDecimals, true, none⟩⟩]
  base_valid := by simp
  quote_valid := by simp

def thePair {baseDecimals quoteDecimals : UInt8} {baseLotSize quoteLotSize : UInt64} :
    (onePair baseDecimals quoteDecimals baseLotSize quoteLotSize).PairIndex :=
  ⟨0, Nat.one_pos⟩

end SerumReferenceData

end Synthfi.Serum
