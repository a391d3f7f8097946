/-
Synthfi.Ftx.FtxWallet — the wallet on the FTX exchange
(`Ftx/FtxWalletClient/FtxWalletClientImpl.{hpp,cpp}`).

A subscription spawns a loop `do_update_positions` that asks for the balances,
makes the wallet of them, calls the subscriber back, publishes statistics and
waits for a timer. All of it runs on one strand. The loops of several
subscriptions share the wallet, the callback and the timer, and setting the
timer anew ends the waits of the other loops.

The reference data client, the REST client and the statistics publisher are
outside: labels name what they do. `none` is a label that is not enabled, an
index past a vector or a call of an empty callback. Statistics are not
modelled: the loops that assign the measurements, and with them what they read
of the two vectors of measurements, are left out.
-/
import Synthfi.Ftx.FtxTypes
import Synthfi.Lib.CheckedVec
import Synthfi.Lib.Run
import Synthfi.Trading.Wallet

namespace Synthfi.Ftx

open Trading CheckedVec

/-- The fields of a balance that the wallet reads. -/
structure Balance where
  coin : String
  /-- Free amount. -/
  free : Quantity
  deriving DecidableEq

/-- The free amount of a currency; one that is not listed has none. -/
def freeOf (balances : List Balance) (currencyName : String) : Quantity :=
  match balances.find? (currencyName = ·.coin) with
  | some balance => balance.free
  | none => 0

/-- Where a loop of `do_update_positions` stands. -/
inductive DoUpdatePositions where
  /-- It awaits the balances. -/
  | requesting
  /-- It awaits that the statistics are published. -/
  | publishing
  /-- It awaits the timer. -/
  | waiting
  /-- The timer expired; it has not resumed yet. -/
  | expired
  /-- The wait ended with an error; it has not resumed yet. -/
  | cancelled
  | ended
  deriving DecidableEq, Repr

/-- Where a call of `do_subscribe_wallet` stands. -/
inductive DoSubscribeWallet where
  /-- It awaits the reference data. -/
  | loading
  | returned
  | threw
  deriving DecidableEq, Repr

structure FtxWalletClient where
  referenceData : FtxReferenceData
  /-- `none` is the greatest integer, which it holds at first. -/
  quoteCurrencyIndex : Option ℕ
  wallet : Wallet
  /-- The callback, by the call that passed it. -/
  onWallet : Option ℕ
  calls : List DoSubscribeWallet
  loops : List DoUpdatePositions
  /-- The callbacks made so far. -/
  callbacks : List (ℕ × Wallet)
  deriving DecidableEq

namespace FtxWalletClient

def init : FtxWalletClient := ⟨⟨[], []⟩, none, ⟨[], []⟩, none, [], [], []⟩

/-- `std::vector::resize`. -/
def resize (quantities : List Quantity) (n : ℕ) : List Quantity :=
  quantities.take n ++ List.replicate (n - quantities.length) 0

/-- The loop over the currencies: USD is FTX's quote currency. -/
def findQuoteCurrency (currencies : List FtxCurrency) (quoteCurrencyIndex : Option ℕ) : Option ℕ :=
  currencies.zipIdx.foldl
    (fun found entry => if entry.1.currencyName = "USD" then some entry.2 else found)
    quoteCurrencyIndex

variable (s : FtxWalletClient)

/-- `do_subscribe_wallet` of call `c` goes on with the reference data. -/
def doSubscribeWallet (c : ℕ) (referenceData : FtxReferenceData) : FtxWalletClient :=
  let s := { s with
    referenceData
    wallet :=
      { positions := resize s.wallet.positions referenceData.currencies.length
        marginAvailable := resize s.wallet.marginAvailable referenceData.tradingPairs.length }
    quoteCurrencyIndex := findQuoteCurrency referenceData.currencies s.quoteCurrencyIndex }
  if s.quoteCurrencyIndex = none then { s with calls := s.calls.set c .threw }
  else
    { s with
      onWallet := some c
      loops := s.loops ++ [.requesting]
      calls := s.calls.set c .returned }

/-- The loop over the currencies of `do_update_positions`. -/
def updatePositions (balances : List Balance) : Option (List Quantity) :=
  s.referenceData.currencies.zipIdx.foldlM
    (fun positions entry => assign positions entry.2 (freeOf balances entry.1.currencyName))
    s.wallet.positions

/-- Loop `k` goes on with the balances, up to the publication of statistics. -/
def doUpdatePositions (k : ℕ) (balances : List Balance) : Option FtxWalletClient := do
  let positions ← s.updatePositions balances
  -- USD balance is the total available quote currency.
  let quoteCurrencyIndex ← s.quoteCurrencyIndex
  let quotePosition ← positions[quoteCurrencyIndex]?
  let wallet : Wallet :=
    ⟨positions, List.replicate s.wallet.marginAvailable.length quotePosition⟩
  let subscriber ← s.onWallet
  return { s with
    wallet
    loops := s.loops.set k .publishing
    callbacks := s.callbacks ++ [(subscriber, wallet)] }

/-- The waits for the timer end. -/
def endWaits (status : DoUpdatePositions) : FtxWalletClient :=
  { s with loops := s.loops.map fun loop => if loop = .waiting then status else loop }

def setLoop (k : ℕ) (status : DoUpdatePositions) : FtxWalletClient :=
  { s with loops := s.loops.set k status }

inductive Label where
  | subscribe
  /-- Call `c` gets the reference data. -/
  | referenceData (c : ℕ)
  /-- The reference data of call `c` cannot be had. -/
  | noReferenceData (c : ℕ)
  /-- Loop `k` gets its balances; `none` is a request that throws. -/
  | balances (k : ℕ) (response : Option (List Balance))
  /-- The statistics of loop `k` are published, or that throws. -/
  | published (k : ℕ) (failed : Bool)
  /-- The timer expires. -/
  | expire
  /-- The wait of loop `k` fails. -/
  | timerError (k : ℕ)
  /-- Loop `k` resumes after its wait. -/
  | resume (k : ℕ)
  deriving DecidableEq

/-- `referenceData` is what the reference data client has loaded. -/
def step (referenceData : FtxReferenceData) (s : FtxWalletClient) :
    Label → Option FtxWalletClient
  | .subscribe => some { s with calls := s.calls ++ [.loading] }
  | .referenceData c =>
    if s.calls[c]? = some .loading then some (s.doSubscribeWallet c referenceData) else none
  | .noReferenceData c =>
    if s.calls[c]? = some .loading then some { s with calls := s.calls.set c .threw } else none
  | .balances k (some balances) =>
    if s.loops[k]? = some .requesting then s.doUpdatePositions k balances else none
  | .balances k none =>
    if s.loops[k]? = some .requesting then some (s.setLoop k .ended) else none
  | .published k failed =>
    if s.loops[k]? = some .publishing then
      -- `expires_from_now` cancels what waits for the timer.
      if failed then some (s.setLoop k .ended)
      else some ((s.endWaits .cancelled).setLoop k .waiting)
    else none
  | .expire => some (s.endWaits .expired)
  | .timerError k => if s.loops[k]? = some .waiting then some (s.setLoop k .cancelled) else none
  | .resume k =>
    match s.loops[k]? with
    | some .expired => some (s.setLoop k .requesting)
    | some .cancelled => some (s.setLoop k .ended)
    | _ => none

end FtxWalletClient

end Synthfi.Ftx
