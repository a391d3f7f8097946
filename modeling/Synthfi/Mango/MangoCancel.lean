/-
Synthfi.Mango.MangoCancel — cancelling an order on a Serum market and
settling its funds (`Mango/MangoOrderClient/MangoOrderClientImpl.cpp`,
`Mango/MangoInstruction.hpp`).

`doCancelOrder` is `do_cancel_order` up to the transaction it builds, as
`doSendOrder` is: `none` is an index past a vector or a division by zero. The
two instructions are templates over the program and the account indices; a
static transaction takes the arguments of a dynamic one.
-/
import Synthfi.Mango.MangoOrder

namespace Synthfi.Mango

open Trading Synthfi.Core Bytes Solana Serum

/-- `MangoInstructionType::SettleFunds`. -/
def settleFunds : ℕ := 19

/-- `MangoInstructionType::CancelSpotOrder`. -/
def cancelSpotOrder : ℕ := 20

/-- `SettleFundsInstruction`. -/
def settleFundsInstruction (programId : UInt8) (accountIndices : List UInt8) :
    DynamicInstruction where
  programId := programId
  accountIndices := accountIndices
  items := [uint32Item settleFunds]
  uninit := 0

/-- `CancelSpotOrderInstruction`. -/
def cancelSpotOrderInstruction (programId : UInt8) (accountIndices : List UInt8) (side : Side)
    (sequenceNumber price : UInt64) : DynamicInstruction where
  programId := programId
  accountIndices := accountIndices
  items :=
    [uint32Item cancelSpotOrder, uint32Item side.toInteger, uint64Item sequenceNumber,
      uint64Item price]
  uninit := 0

/-- `do_cancel_order`. -/
def doCancelOrder (createProgramAddress : ProgramAddress) (client : MangoOrderClient)
    (order : Order) : Option TransactionArgs := do
  let serum := client.serumReferenceData
  let mango := client.mangoReferenceData
  let serumTradingPair ← serum.tradingPairs[order.tradingPairIndex.toNat]?
  let mangoTradingPair ← mango.tradingPairs[order.tradingPairIndex.toNat]?
  let market := serumTradingPair.serumMarketAccount
  let mangoTradingPairIndex := mangoTradingPair.mangoTradingPairIndex
  let mangoBaseCurrencyIndex := mangoTradingPair.mangoBaseCurrencyIndex
  let mangoQuoteCurrencyIndex := mangoTradingPair.mangoQuoteCurrencyIndex
  let mangoBaseCurrency ← mango.currencies[mangoBaseCurrencyIndex.val]?
  let mangoQuoteCurrency ← mango.currencies[mangoQuoteCurrencyIndex.val]?
  -- The base currency is looked up and not read.
  let _serumBaseCurrency ← serum.currencies[serumTradingPair.baseCurrencyIndex]?
  let serumQuoteCurrency ← serum.currencies[serumTradingPair.quoteCurrencyIndex]?
  let writablePublicKeys :=
    [ mango.mangoAccountAddress, -- 3 - settle ( 1 )
      serumTradingPair.serumMarketAddress, -- 0 - cancel, 5 - settle ( 2 )
      market.bids, -- 1 - cancel, 6 - settle ( 3 )
      market.asks, -- 2 - cancel, 7 - settle ( 4 )
      market.requestQueue, -- 9 ( 5 )
      market.eventQueue, -- 5 - cancel ( 6 )
      market.baseVault, -- 8 - settle ( 7 )
      market.quoteVault, -- 9 - settle ( 8 )
      mangoBaseCurrency.nodeBankAddress, -- 11 - settle ( 9 )
      mangoBaseCurrency.nodeBank.vaultAddress, -- 14 - settle ( 10 )
      mangoQuoteCurrency.nodeBankAddress, -- 13 - settle ( 11 )
      mangoQuoteCurrency.nodeBank.vaultAddress, -- 15 - settle ( 12 )
      mango.mangoAccount.openOrdersAddresses mangoTradingPairIndex ] -- 3 - cancel, 6 - settle ( 13 )
  let dexSigner :=
    createProgramAddress (mango.mangoGroup.spotMarkets mangoTradingPairIndex).spotMarketAddress
      serum.serumProgramId market.vaultSignerNonce
  let readOnlyPublicKeys :=
    [ mango.mangoAccount.mangoGroupAddress, -- 0 - settle ( 14 )
      mango.mangoGroup.mangoCache, -- 1 - settle ( 15 )
      mango.mangoGroup.dexProgramId, -- 4 - settle ( 16 )
      (mango.mangoGroup.tokens mangoBaseCurrencyIndex).rootBankAddress, -- 10 - settle ( 17 )
      (mango.mangoGroup.tokens mangoQuoteCurrencyIndex).rootBankAddress, -- 12 - settle ( 18 )
      client.splTokenProgram, -- 17 - settle ( 19 )
      mango.mangoGroup.signerKey, -- 7 - settle ( 20 )
      dexSigner, -- 16 - settle ( 21 )
      mango.mangoGroup.msrmVault, -- 22 ( 22 )
      mango.mangoProgramId ] -- programId ( 23 )
  let serumPrice ← serumPrice order.price serumQuoteCurrency.mintAccount.decimals
    market.quoteLotSize
  let cancelOrderInstruction :=
    cancelSpotOrderInstruction 23
      [ 2, -- market
        3, -- bids
        4, -- asks
        13, -- open orders
        0, -- owner
        6 ] -- event queue
      order.side
      order.orderId -- upper 64 bits
      serumPrice -- lower 64 bits
  let settleFundsInstruction :=
    settleFundsInstruction 23
      [ 14, -- mango group
        15, -- mango cache
        0, -- owner
        3, -- mango account
        16, -- dex program id
        13, -- open orders
        20, -- mango group signer key
        7, -- base vault
        8, -- quote vault
        17, -- base root bank
        9, -- base node bank
        18, -- quote root bank
        11, -- quote node bank
        10, -- base vault
        12, -- quote vault
        21, -- dex signer
        19 ] -- settle
  some
    { recentBlockhash := client.recentBlockhash
      signingWritableKeyPairs := [client.mangoOwnerKey] -- 4 - cancel, 2 - settle ( 0 )
      signingReadOnlyKeyPairs := []
      writablePublicKeys := writablePublicKeys
      readOnlyPublicKeys := readOnlyPublicKeys
      instructions := [cancelOrderInstruction, settleFundsInstruction] }

end Synthfi.Mango
