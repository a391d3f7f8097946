/-
Synthfi.Serum.SerumQueue — decoding the request and event queues
(`Serum/SerumTypes.hpp`, `Serum/SerumTypes.cpp`).

A queue account is a header and an array used as a ring, between the paddings
of a Serum account. Both readers copy `count` items from `head` on, modulo
the number of items the array holds. The reader of the event queue cuts the
paddings off first, that of the request queue reads behind the leading one.

A reader returns `none` where its behaviour is undefined: an item or a header
past the data, or a division by zero.
-/
import Synthfi.Serum.SerumTypes

namespace Synthfi.Serum

open Bytes Solana

/-! ## Items -/

structure SerumRequest where
  requestFlags : UInt8
  ownerSlot : UInt8
  feeTier : UInt8
  selfTradeBehavior : UInt8
  maxCoinQtyOrCancelId : UInt64
  nativeQuoteQtyLocked : UInt64
  orderId : SerumNodeKey
  owner : Core.PublicKey
  clientOrderId : UInt64
  deriving DecidableEq, Repr

structure SerumRequestQueueAccount where
  nextSequenceNumber : UInt64
  requests : List SerumRequest
  deriving DecidableEq, Repr

/-- The order id in an item. -/
def readNodeKey (image : List UInt8) (offset : ℕ) : SerumNodeKey :=
  ⟨readU64 image offset, readU64 image (offset + 8)⟩

/-- An item of a queue, by its size and its image. -/
structure QueueItem (ItemType : Type) where
  size : ℕ
  ofImage : ByteArr size → ItemType
  size_pos : 0 < size
  size_lt : size < 2 ^ 64

def serumRequest : QueueItem SerumRequest where
  size := 80
  ofImage image :=
    { requestFlags := readU8 image.1 0
      ownerSlot := readU8 image.1 1
      feeTier := readU8 image.1 2
      selfTradeBehavior := readU8 image.1 3
      maxCoinQtyOrCancelId := readU64 image.1 8
      nativeQuoteQtyLocked := readU64 image.1 16
      orderId := readNodeKey image.1 24
      owner := readAt 32 image.1 40
      clientOrderId := readU64 image.1 72 }
  size_pos := by decide
  size_lt := by decide

def serumEvent : QueueItem SerumEvent where
  size := 88
  ofImage image :=
    { eventFlags := readU8 image.1 0
      ownerSlot := readU8 image.1 1
      feeTier := readU8 image.1 2
      nativeQtyReleased := readU64 image.1 8
      nativeQtyPaid := readU64 image.1 16
      nativeFeeOrRebate := readU64 image.1 24
      orderId := readNodeKey image.1 32
      owner := readAt 32 image.1 48
      clientOrderId := readU64 image.1 80 }
  size_pos := by decide
  size_lt := by decide

/-! ## Queues -/

structure SerumQueueHeader where
  serumAccountFlags : UInt64
  head : UInt64
  count : UInt64
  sequenceNumber : UInt64
  deriving DecidableEq, Repr

def SerumQueueHeader.size : ℕ := 32

def SerumQueueHeader.read (data : List UInt8) (offset : ℕ) : SerumQueueHeader :=
  ⟨readU64 data offset, readU64 data (offset + 8), readU64 data (offset + 16),
    readU64 data (offset + 24)⟩

def serumBeginPaddingSize : ℕ := 5

def serumEndPaddingSize : ℕ := 7

variable {ItemType : Type} (item : QueueItem ItemType)

/-- The item in slot `slot` of the array at `start`. -/
def QueueItem.read (data : List UInt8) (start slot : ℕ) : Option ItemType :=
  let offset := start + slot * item.size
  if offset + item.size ≤ data.length then some (item.ofImage (readAt item.size data offset))
  else none

/-- The loop of both readers. -/
def copyItems (data : List UInt8) (start : ℕ) (head itemCount maxItemCount : UInt64) :
    Option (List ItemType) :=
  (List.range itemCount.toNat).mapM fun i =>
    if maxItemCount = 0 then none
    else item.read data start ((head + UInt64.ofNat i) % maxItemCount).toNat

/-- The header at `offset`, and the items of the array behind it. -/
def readQueue (data : List UInt8) (offset : ℕ) (queueDataSize : UInt64) :
    Option (SerumQueueHeader × List ItemType) :=
  if offset + SerumQueueHeader.size ≤ data.length then
    let header := SerumQueueHeader.read data offset
    let maxItemCount := queueDataSize % UInt64.ofNat item.size
    (copyItems item data (offset + SerumQueueHeader.size) header.head header.count
      maxItemCount).map (header, ·)
  else none

def accountToSerumRequestQueueAccount (accountInfo : AccountInfo) :
    Except SynthfiError (Option SerumRequestQueueAccount) :=
  if accountInfo.data.length < SerumQueueHeader.size then
    .error ⟨"Invalid SerumRequestQueue size"⟩
  else
    let requestQueueDataSize := UInt64.ofNat accountInfo.data.length -
      UInt64.ofNat (serumBeginPaddingSize + serumEndPaddingSize + SerumQueueHeader.size)
    .ok ((readQueue serumRequest accountInfo.data serumBeginPaddingSize requestQueueDataSize).map
      fun queue => ⟨queue.1.sequenceNumber, queue.2⟩)

def accountToSerumEventQueueAccount (accountInfo : AccountInfo) :
    Except SynthfiError (Option SerumEventQueueAccount) :=
  if accountInfo.data.length < SerumQueueHeader.size then
    .error ⟨"Invalid SerumEventQueue size"⟩
  else
    let accountData := alignSerumData accountInfo.data
    let eventQueueDataSize := UInt64.ofNat accountData.length -
      UInt64.ofNat SerumQueueHeader.size
    .ok ((readQueue serumEvent accountData 0 eventQueueDataSize).map
      fun queue => ⟨queue.1.sequenceNumber, queue.2⟩)

end Synthfi.Serum
