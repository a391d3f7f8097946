/-
Synthfi.Mango.MangoOrder — placing an order on a Serum market through a
Mango account (`Mango/MangoOrderClient/MangoOrderClientImpl.cpp`,
`Mango/MangoInstruction.cpp`).

`doSendOrder` is `do_send_order` up to the transaction it builds: the key
table, the account indices and the instruction data. `none` is undefined
behaviour, an index past a vector or a division by zero. Encoding the
transaction is `Solana.dynamicTransaction`; sending it and waiting for its
signature is not modelled.
-/
import Synthfi.Mango.MangoReferenceData
import Synthfi.Solana.Transaction
import Synthfi.Trading.Order

namespace Synthfi.Mango

open Trading Synthfi.Core Bytes Solana Serum

/-! ## The instruction -/

/-- `MangoInstructionType::PlaceSpotOrder2`. -/
def placeSpotOrder2 : ℕ := 41

/-- `SerumSelfTradeBehavior::DecrementTake`. -/
def decrementTake : ℕ := 0

/-- The `SerumOrderType` sent for an order type. -/
def serumOrderType (orderType : Trading.OrderType) : ℕ := if orderType = .limit then 0 else 1

/-- An integer of `size` bytes. -/
def integralItem (size : ℕ) (h : 0 < size) (value : ℕ) : IntegralItem :=
  ⟨size, h, BitVec.ofNat _ value⟩

def uint16Item (value : ℕ) : IntegralItem := integralItem 2 (by decide) value

def uint32Item (value : ℕ) : IntegralItem := integralItem 4 (by decide) value

def uint64Item (value : UInt64) : IntegralItem := integralItem 8 (by decide) value.toNat

/-- `PlaceSpotOrderInstruction`. -/
def placeSpotOrderInstruction (programId : UInt8) (accountIndices : List UInt8) (side : Side)
    (price quantity : UInt64) (orderType : Trading.OrderType)
    (maxQuoteQuantity clientOrderId : UInt64) : DynamicInstruction where
  programId := programId
  accountIndices := accountIndices
  items :=
    [uint32Item placeSpotOrder2, uint32Item side.toInteger, uint64Item price, uint64Item quantity,
      uint64Item maxQuoteQuantity, uint32Item decrementTake, uint32Item (serumOrderType orderType),
      uint64Item clientOrderId, uint16Item 65535]
  uninit := 0

/-! ## Prices and quantities -/

/-- Division of 64-bit integers; by zero it is undefined. -/
def divUInt64 (a b : UInt64) : Option UInt64 := if b = 0 then none else some (a / b)

/-- The limit price sent for a price. -/
def serumPrice (price : Price) (quoteDecimals : UInt8) (quoteLotSize : UInt64) : Option UInt64 :=
  divUInt64 (toUInt64 (price * pow10 quoteDecimals)) quoteLotSize

/-- The lots sent for a quantity. -/
def serumQuantity (quantity : Quantity) (baseDecimals : UInt8) (baseLotSize : UInt64) :
    Option UInt64 :=
  divUInt64 (toUInt64 (quantity * pow10 baseDecimals)) baseLotSize

/-- The greatest amount of quote tokens the order may spend. -/
def maxQuoteQuantity (price : Price) (quantity : Quantity) (baseDecimals quoteDecimals : UInt8)
    (baseLotSize quoteLotSize : UInt64) : UInt64 :=
  toUInt64 <|
    ((1 + serumTakerFee) * price * pow10 quoteDecimals / quoteLotSize.toNat) *
      (quantity * pow10 baseDecimals / baseLotSize.toNat)

/-! ## The client -/

/-- What `do_load_mango_account` has loaded. -/
structure MangoOrderClient where
  serumReferenceData : SerumReferenceData
  mangoReferenceData : MangoReferenceData
  mangoOwnerKey : KeyPair
  splTokenProgram : PublicKey
  recentBlockhash : Hash

/-- `create_program_address`: the address derived from a key, a program and
a nonce. -/
abbrev ProgramAddress := PublicKey → PublicKey → UInt64 → PublicKey

/-- The keys and indices that the margin basket loop appends to. -/
structure BasketAccounts where
  readOnlyPublicKeys : List PublicKey
  accountIndices : List UInt8
  accountIndexIt : ℕ
  deriving DecidableEq, Repr

/-- One pass of the loop over the margin basket. -/
def appendOpenOrders (mangoAccount : MangoAccount) (mangoTradingPairIndex : Fin mangoMaxPairs)
    (accounts : BasketAccounts) (i : Fin mangoMaxPairs) : BasketAccounts :=
  if mangoAccount.inMarginBasket i && i != mangoTradingPairIndex then
    { readOnlyPublicKeys := accounts.readOnlyPublicKeys ++ [mangoAccount.openOrdersAddresses i]
      accountIndices := accounts.accountIndices ++ [UInt8.ofNat accounts.accountIndexIt]
      accountIndexIt := accounts.accountIndexIt + 1 }
  else accounts

/-- `do_send_order`, at clock reading `now`. -/
def doSendOrder (createProgramAddress : ProgramAddress) (client : MangoOrderClient) (now : UInt64)
    (order : Order) : Option TransactionArgs := do
  let serum := client.serumReferenceData
  let mango := client.mangoReferenceData
  let serumTradingPair ← serum.tradingPairs[order.tradingPairIndex.toNat]?
  let mangoTradingPair ← mango.tradingPairs[order.tradingPairIndex.toNat]?
  let market := serumTradingPair.serumMarketAccount
  let mangoTradingPairIndex := mangoTradingPair.mangoTradingPairIndex
  let mangoBaseCurrencyIndex := mangoTradingPair.mangoBaseCurrencyIndex
  let mangoQuoteCurrencyIndex := mangoTradingPair.mangoQuoteCurrencyIndex
  -- The vector has an entry for each configured currency, the index is one of the group.
  let mangoBaseCurrency ← mango.currencies[mangoBaseCurrencyIndex.val]?
  let mangoQuoteCurrency ← mango.currencies[mangoQuoteCurrencyIndex.val]?
  let serumBaseCurrency ← serum.currencies[serumTradingPair.baseCurrencyIndex]?
  let serumQuoteCurrency ← serum.currencies[serumTradingPair.quoteCurrencyIndex]?
  let writablePublicKeys :=
    [ mango.mangoAccountAddress, -- 2 ( 1 )
      serumTradingPair.serumMarketAddress, -- 6 ( 2 )
      market.bids, -- 7 ( 3 )
      market.asks, -- 8 ( 4 )
      market.requestQueue, -- 9 ( 5 )
      market.eventQueue, -- 10 ( 6 )
      market.baseVault, -- 11 ( 7 )
      market.quoteVault, -- 12 ( 8 )
      mangoBaseCurrency.nodeBankAddress, -- 14 ( 9 )
      mangoBaseCurrency.nodeBank.vaultAddress, -- 15 ( 10 )
      mangoQuoteCurrency.nodeBankAddress, -- 17 ( 11 )
      mangoQuoteCurrency.nodeBank.vaultAddress, -- 18 ( 12 )
      mango.mangoAccount.openOrdersAddresses mangoTradingPairIndex ] -- 23 ( 13 )
  let dexSigner :=
    createProgramAddress (mango.mangoGroup.spotMarkets mangoTradingPairIndex).spotMarketAddress
      serum.serumProgramId market.vaultSignerNonce
  let readOnlyPublicKeys :=
    [ mango.mangoAccount.mangoGroupAddress, -- 1 ( 14 )
      mango.mangoGroup.mangoCache, -- 4 ( 15 )
      mango.mangoGroup.dexProgramId, -- 5 ( 16 )
      (mango.mangoGroup.tokens mangoBaseCurrencyIndex).rootBankAddress, -- 13 ( 17 )
      (mango.mangoGroup.tokens mangoQuoteCurrencyIndex).rootBankAddress, -- 16 ( 18 )
      client.splTokenProgram, -- 19 ( 19 )
      mango.mangoGroup.signerKey, -- 20 ( 20 )
      dexSigner, -- 21 ( 21 )
      mango.mangoGroup.msrmVault, -- 22 ( 22 )
      mango.mangoProgramId ] -- programId ( 23 )
  let accountIndices : List UInt8 :=
    [14, 1, 0, 15, 16, 2, 3, 4, 5, 6, 7, 8, 17, 9, 10, 18, 11, 12, 19, 20, 21, 22, 13]
  let accounts :=
    (List.finRange mangoMaxPairs).foldl (appendOpenOrders mango.mangoAccount mangoTradingPairIndex)
      ⟨readOnlyPublicKeys, accountIndices, 24⟩
  let serumPrice ← serumPrice order.price serumQuoteCurrency.mintAccount.decimals
    market.quoteLotSize
  let serumQuantity ← serumQuantity order.quantity serumBaseCurrency.mintAccount.decimals
    market.baseLotSize
  let maxQuoteQuantity := maxQuoteQuantity order.price order.quantity
    serumBaseCurrency.mintAccount.decimals serumQuoteCurrency.mintAccount.decimals
    market.baseLotSize market.quoteLotSize
  -- Set client order id, use current timestamp as unique id.
  let clientOrderId := now
  some
    { recentBlockhash := client.recentBlockhash
      signingWritableKeyPairs := [client.mangoOwnerKey] -- 3 ( 0 )
      signingReadOnlyKeyPairs := []
      writablePublicKeys := writablePublicKeys
      readOnlyPublicKeys := accounts.readOnlyPublicKeys
      instructions :=
        [placeSpotOrderInstruction 23 accounts.accountIndices order.side serumPrice serumQuantity
          order.orderType maxQuoteQuantity clientOrderId] }

end Synthfi.Mango
