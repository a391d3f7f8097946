/-
Synthfi.Solana.SlotSubscriber — the recent blockhash
(`Solana/SlotSubscriber/SlotSubscriberImpl.cpp`).

Each slot notification spawns a coroutine on the strand; between two
`co_await`s it runs alone, and which coroutine goes on next is open. The
state keeps the suspended ones with the operation they await, a label says
which goes on and with what result.

A callback is kept as the blockhashes it was called with. `joined`,
`published` and `requests` are ghosts: the blockhashes published before a
callback came, those published with the slot of the notification that
refreshed them, and the slots of the requests sent, each with the number of
blockhashes published before it.
-/
import Synthfi.Lib.Run
import Synthfi.Core.KeyPair

namespace Synthfi.Solana

open Synthfi.Core Bytes

structure SlotNotification where
  parent : UInt64
  root : UInt64
  slot : UInt64
  deriving DecidableEq, Repr

structure GetLatestBlockhashResponse where
  blockhash : Hash
  lastValidBlockHeight : UInt64
  deriving DecidableEq, Repr

/-- Where a `do_on_slot_notification` coroutine is suspended. -/
inductive SlotHandler where
  | spawned (slotNotification : SlotNotification)
  /-- At the publication of the slot measurement. -/
  | publishingSlot (slotNotification : SlotNotification)
  /-- At the `getLatestBlockhash` request. -/
  | requesting (slotNotification : SlotNotification)
  /-- At the publication of the blockhash measurement. -/
  | publishingBlockhash
  deriving DecidableEq, Repr

structure BlockhashCallback where
  received : List Hash
  joined : ℕ
  deriving DecidableEq, Repr

structure Publication where
  slot : UInt64
  blockhash : Hash
  lastValidBlockHeight : UInt64
  deriving DecidableEq, Repr

structure BlockhashRequest where
  slot : UInt64
  publishedBefore : ℕ
  deriving DecidableEq, Repr

structure SlotSubscriber where
  /-- The fields last set in the slot measurement. -/
  slotMeasurement : SlotNotification
  /-- The fields last set in the blockhash measurement. -/
  recentBlockhashMeasurement : Hash × UInt64
  recentBlockhashSlot : UInt64
  lastValidBlockHeight : UInt64
  recentBlockhash : Hash
  onBlockhashCallbacks : List BlockhashCallback
  handlers : List SlotHandler
  published : List Publication
  requests : List BlockhashRequest
  deriving DecidableEq, Repr

/-- A refresh is due this many slots after the last. -/
def recentBlockhashRefreshSlotInterval : UInt64 := 30

namespace SlotSubscriber

def init : SlotSubscriber where
  slotMeasurement := ⟨0, 0, 0⟩
  recentBlockhashMeasurement := (ByteArr.fill 32 0, 0)
  recentBlockhashSlot := 0
  lastValidBlockHeight := 0
  recentBlockhash := ByteArr.fill 32 0
  onBlockhashCallbacks := []
  handlers := []
  published := []
  requests := []

/-- Handler `k` is suspended at its next operation. -/
def suspend (s : SlotSubscriber) (k : ℕ) (handler : SlotHandler) : SlotSubscriber :=
  { s with handlers := s.handlers.set k handler }

/-- Handler `k` returned, or ended with an exception. -/
def finish (s : SlotSubscriber) (k : ℕ) : SlotSubscriber :=
  { s with handlers := s.handlers.eraseIdx k }

/-- `do_on_slot_notification` up to its first `co_await`. -/
def enter (s : SlotSubscriber) (k : ℕ) (slotNotification : SlotNotification) : SlotSubscriber :=
  { s with slotMeasurement := slotNotification }.suspend k (.publishingSlot slotNotification)

/-- After the slot measurement: the request, where a refresh is due. -/
def checkSlot (s : SlotSubscriber) (k : ℕ) (slotNotification : SlotNotification) :
    SlotSubscriber :=
  if slotNotification.slot < s.recentBlockhashSlot + recentBlockhashRefreshSlotInterval then
    s.finish k
  else
    let requests := s.requests ++ [⟨slotNotification.slot, s.published.length⟩]
    { s with requests }.suspend k (.requesting slotNotification)

/-- After the request. -/
def onResponse (s : SlotSubscriber) (k : ℕ) (slotNotification : SlotNotification)
    (response : GetLatestBlockhashResponse) : SlotSubscriber :=
  if response.lastValidBlockHeight ≤ s.lastValidBlockHeight then s.finish k
  else
    let s : SlotSubscriber :=
      { s with
        recentBlockhash := response.blockhash
        lastValidBlockHeight := response.lastValidBlockHeight
        onBlockhashCallbacks := s.onBlockhashCallbacks.map fun callback =>
          { callback with received := callback.received ++ [response.blockhash] }
        recentBlockhashMeasurement := (response.blockhash, response.lastValidBlockHeight)
        published := s.published ++
          [⟨slotNotification.slot, response.blockhash, response.lastValidBlockHeight⟩] }
    s.suspend k .publishingBlockhash

def doSubscribeRecentBlockhash (s : SlotSubscriber) : SlotSubscriber :=
  -- Notify subscriber if blockhash is available.
  let received := if s.recentBlockhash.isZero then [] else [s.recentBlockhash]
  { s with
    onBlockhashCallbacks := s.onBlockhashCallbacks ++ [⟨received, s.published.length⟩] }

inductive Label where
  /-- `on_slot_notification`. -/
  | notification (slotNotification : SlotNotification)
  | enter (k : ℕ)
  /-- The measurement that handler `k` publishes is out. -/
  | statistic (k : ℕ)
  | response (k : ℕ) (response : GetLatestBlockhashResponse)
  /-- What handler `k` awaits throws. -/
  | throws (k : ℕ)
  | subscribe
  deriving DecidableEq, Repr

def step (s : SlotSubscriber) : Label → Option SlotSubscriber
  | .notification slotNotification =>
    some { s with handlers := s.handlers ++ [.spawned slotNotification] }
  | .enter k =>
    match s.handlers[k]? with
    | some (.spawned slotNotification) => some (s.enter k slotNotification)
    | _ => none
  | .statistic k =>
    match s.handlers[k]? with
    | some (.publishingSlot slotNotification) => some (s.checkSlot k slotNotification)
    | some .publishingBlockhash => some (s.finish k)
    | _ => none
  | .response k response =>
    match s.handlers[k]? with
    | some (.requesting slotNotification) => some (s.onResponse k slotNotification response)
    | _ => none
  | .throws k =>
    match s.handlers[k]? with
    | some (.spawned _) => none
    | some _ => some (s.finish k)
    | none => none
  | .subscribe => some s.doSubscribeRecentBlockhash

end SlotSubscriber

end Synthfi.Solana
