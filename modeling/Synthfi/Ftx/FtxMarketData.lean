/-
Synthfi.Ftx.FtxMarketData — book maintenance of the FTX market data client
(`Ftx/FtxMarketDataClient/FtxMarketDataClientImpl.cpp`).

The client holds one book per configured trading pair and handles two
messages, each in one strand step: a snapshot replaces both sides of a
book, an update edits them level by level. A failed checksum is only
logged; it leaves the book as it is and withholds the callback.

`BOOST_ASSERT_MSG` is compiled out of a release build and aborts in every
other, so `updateLevel` takes `asserts` and returns `none` for an abort.
The statistics publishing at the end of both handlers does not touch a book
and is not part of this model.
-/
import Mathlib.Logic.Function.Basic
import Synthfi.Lib.Run
import Synthfi.Ftx.FtxUtils

namespace Synthfi.Ftx

open Trading

structure FtxOrderbookMessage where
  checksum : UInt32
  time : Timestamp
  levels : SidePair SideBook
  deriving DecidableEq, Repr

/-! ## One side of an update -/

/-- The loop state of `update_side`: the vector and the iterator into it. -/
abbrev SideCursor := SideBook × ℕ

/-- `std::lower_bound` from an iterator, with the comparator of the side. -/
def searchFrom (side : Side) (bookSide : SideBook) (start : ℕ) (price : Price) : ℕ :=
  SortedVec.lowerBound (fun pq => decide (side.Better pq.price price)) bookSide start

/-- One pass of the loop. The search starts at the iterator the previous
level left, not at the beginning of the vector. -/
def updateLevel (asserts : Bool) (side : Side) (cursor : SideCursor) (level : PriceQuantity) :
    Option SideCursor :=
  let (bookSide, start) := cursor
  let bookSideIt := searchFrom side bookSide start level.price
  match bookSide[bookSideIt]? with
  | none =>
    -- Add new level to end of book; a zero quantity is only asserted against.
    if asserts && decide (level.quantity = 0) then none
    else some (bookSide.insertIdx bookSideIt level, bookSideIt)
  | some found =>
    if found.price = level.price then
      if level.quantity = 0 then some (bookSide.eraseIdx bookSideIt, bookSideIt)
      else
        some (bookSide.set bookSideIt { found with quantity := level.quantity }, bookSideIt)
    else some (bookSide.insertIdx bookSideIt level, bookSideIt)

/-- All levels of one side of a message, in the order they came. -/
def updateLevels (asserts : Bool) (side : Side) (bookSide : SideBook)
    (levels : List PriceQuantity) : Option SideBook :=
  (Run.run (updateLevel asserts side) (bookSide, 0) levels).map Prod.fst

def updateSide (asserts : Bool) (side : Side) (message : FtxOrderbookMessage) (book : Book) :
    Option Book :=
  (updateLevels asserts side (book.get side) (message.levels.get side)).map (book.set side)

/-! ## The client -/

/-- `_books`, and the calls made to `_onBook`. -/
structure FtxMarketDataClient (n : ℕ) where
  books : Fin n → Book
  onBook : List (Fin n × Book)

/-- After `_books.resize( tradingPairSize )`. -/
def FtxMarketDataClient.init (n : ℕ) : FtxMarketDataClient n := ⟨fun _ => Book.empty, []⟩

variable {n : ℕ}

/-- The end of both handlers: the book is published when its checksum is
the one the message carries. -/
def checkAndPublish (str : Price → List UInt8) (client : FtxMarketDataClient n)
    (tradingPairIndex : Fin n) (message : FtxOrderbookMessage) (book : Book) :
    FtxMarketDataClient n where
  books := Function.update client.books tradingPairIndex book
  onBook :=
    if ftxOrderbookChecksum str book = message.checksum then
      client.onBook ++ [(tradingPairIndex, book)]
    else client.onBook

def doOnOrderbookSnapshot (str : Price → List UInt8) (client : FtxMarketDataClient n)
    (tradingPairIndex : Fin n) (now : Timestamp) (message : FtxOrderbookMessage) :
    FtxMarketDataClient n :=
  let book :=
    { client.books tradingPairIndex with
      receiveTimestamp := now, exchangeTimestamp := message.time }
  let book := (book.set .bid (message.levels.get .bid)).set .ask (message.levels.get .ask)
  checkAndPublish str client tradingPairIndex message book

def doOnOrderbookUpdate (asserts : Bool) (str : Price → List UInt8)
    (client : FtxMarketDataClient n) (tradingPairIndex : Fin n) (now : Timestamp)
    (message : FtxOrderbookMessage) : Option (FtxMarketDataClient n) := do
  let book :=
    { client.books tradingPairIndex with
      receiveTimestamp := now, exchangeTimestamp := message.time }
  let book ← updateSide asserts .bid message book
  let book ← updateSide asserts .ask message book
  some (checkAndPublish str client tradingPairIndex message book)

/-- What the websocket client hands to the market data client. -/
inductive OrderbookEvent (n : ℕ) where
  | snapshot (tradingPairIndex : Fin n) (now : Timestamp) (message : FtxOrderbookMessage)
  | update (tradingPairIndex : Fin n) (now : Timestamp) (message : FtxOrderbookMessage)

/-- One handler call; `none` is an assertion failure. -/
def FtxMarketDataClient.step (asserts : Bool) (str : Price → List UInt8)
    (client : FtxMarketDataClient n) : OrderbookEvent n → Option (FtxMarketDataClient n)
  | .snapshot i now message => some (doOnOrderbookSnapshot str client i now message)
  | .update i now message => doOnOrderbookUpdate asserts str client i now message

end Synthfi.Ftx
