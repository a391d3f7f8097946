/-
Synthfi.Serum.SerumQueueTheorems — when a queue account decodes in order.

A queue whose array holds `C` items stores item `head + i` in slot
`(head + i) mod C`. Both readers reduce it modulo the number of bytes left
over behind the last item instead. `queues_decode_iff` finds the accounts
that decode all the same: where nothing is queued, or each slot read is the
one meant or happens to hold the same item.
-/
import Synthfi.Lib.ByteStore
import Synthfi.Lib.CheckedVec
import Synthfi.Serum.SerumQueue

namespace Synthfi.Serum

open Bytes Solana CheckedVec

variable {ItemType : Type} {item : QueueItem ItemType}

/-! ## Queue accounts -/

/-- The header, at the start of the aligned data. -/
def queueHeader (accountInfo : AccountInfo) : SerumQueueHeader :=
  .read (alignSerumData accountInfo.data) 0

/-- The array, from the header to the trailing padding. -/
def queueArray (accountInfo : AccountInfo) : List UInt8 :=
  (alignSerumData accountInfo.data).drop SerumQueueHeader.size

def queueCapacity (item : QueueItem ItemType) (accountInfo : AccountInfo) : ℕ :=
  (queueArray accountInfo).length / item.size

/-- The account of a queue that holds at least one item and whose header fits
the array. The data is a `std::vector`, whose size is below `2 ^ 63`. -/
structure SerumQueue (item : QueueItem ItemType) where
  accountInfo : AccountInfo
  fits : accountInfo.data.length < 2 ^ 63
  capacity_pos : 1 ≤ queueCapacity item accountInfo
  head_lt : (queueHeader accountInfo).head.toNat < queueCapacity item accountInfo
  count_le : (queueHeader accountInfo).count.toNat ≤ queueCapacity item accountInfo

namespace SerumQueue

variable (queue : SerumQueue item)

def header : SerumQueueHeader := queueHeader queue.accountInfo

def array : List UInt8 := queueArray queue.accountInfo

def capacity : ℕ := queueCapacity item queue.accountInfo

/-- The item stored in a slot of the array. -/
def stored (slot : ℕ) : ItemType :=
  item.ofImage (readAt item.size queue.array (slot * item.size))

/-- The queued items, from the head on. -/
def items : List ItemType :=
  (List.range queue.header.count.toNat).map fun i =>
    queue.stored ((queue.header.head.toNat + i) % queue.capacity)

/-- The bytes left over behind the last item. -/
def remainder : ℕ := queue.array.length % item.size

/-- The condition under which a reader returns `items`, where `readable` is
what it reads behind the header. -/
def InOrder (readable : List UInt8) : Prop :=
  queue.header.count.toNat = 0 ∨ queue.remainder ≠ 0 ∧ ∀ i < queue.header.count.toNat,
    let position := queue.header.head.toNat + i
    position % queue.remainder = position % queue.capacity ∨
      item.read readable 0 (position % queue.remainder) =
        some (queue.stored (position % queue.capacity))

/-! ## Slots -/

theorem length_alignSerumData (data : List UInt8) :
    (alignSerumData data).length = data.length - 12 := by
  simp only [alignSerumData, List.length_take, List.length_drop]
  omega

theorem length_array : queue.array.length = queue.accountInfo.data.length - 44 := by
  simp only [array, queueArray, List.length_drop, length_alignSerumData, SerumQueueHeader.size]
  omega

/-- The account is long enough for its header. -/
theorem le_length : 44 < queue.accountInfo.data.length := by
  have hpos := queue.capacity_pos
  have hlength := queue.length_array
  have hle : item.size * 1 ≤ queue.array.length :=
    (Nat.mul_le_mul_left _ hpos).trans (Nat.mul_div_le _ _)
  have := item.size_pos
  omega

/-- The array, as the start of what follows the leading padding and the
header. -/
theorem array_eq_take : queue.array =
    (queue.accountInfo.data.drop (serumBeginPaddingSize + SerumQueueHeader.size)).take
      (queue.accountInfo.data.length - 44) := by
  rw [array, queueArray, alignSerumData, List.drop_take, List.drop_drop]
  rfl

/-- A slot of the array is inside it. -/
theorem slot_le {slot : ℕ} (h : slot < queue.capacity) :
    slot * item.size + item.size ≤ queue.array.length := by
  rw [← Nat.succ_mul]
  exact (Nat.mul_le_mul_right _ h).trans (Nat.div_mul_le_self _ _)

theorem read_eq_read_drop (item : QueueItem ItemType) (data : List UInt8) (start slot : ℕ) :
    item.read data start slot = item.read (data.drop start) 0 slot := by
  have hpos := item.size_pos
  have hle : start + slot * item.size + item.size ≤ data.length ↔
      0 + slot * item.size + item.size ≤ (data.drop start).length := by
    rw [List.length_drop]
    omega
  simp only [QueueItem.read, hle, readAt_drop, Nat.zero_add]

/-- What a reader finds in a slot of the array. -/
theorem read_slot {readable : List UInt8} (harray : queue.array = readable.take queue.array.length)
    {slot : ℕ} (h : slot < queue.capacity) :
    item.read readable 0 slot = some (queue.stored slot) := by
  have hle := queue.slot_le h
  have hlength : queue.array.length ≤ readable.length := by
    rw [harray]
    exact List.length_take_le' ..
  have hread : readAt item.size readable (slot * item.size) =
      readAt item.size queue.array (slot * item.size) := by
    rw [harray, readAt_take hle]
  rw [QueueItem.read, Nat.zero_add, if_pos (by omega), hread]
  rfl

/-! ## The loop -/

/-- No position overflows. -/
theorem toNat_position {i : ℕ} (hi : i < queue.header.count.toNat) :
    (queue.header.head + UInt64.ofNat i).toNat = queue.header.head.toNat + i := by
  have hfits := queue.fits
  have hhead : queue.header.head.toNat < queue.capacity := queue.head_lt
  have hcount : queue.header.count.toNat ≤ queue.capacity := queue.count_le
  have hcapacity : queue.capacity ≤ queue.array.length := Nat.div_le_self _ _
  have hlength := queue.length_array
  have hi : i < 2 ^ 64 := by omega
  rw [UInt64.toNat_add, UInt64.toNat_ofNat_of_lt' hi, Nat.mod_eq_of_lt (by omega)]

theorem toNat_maxItemCount :
    (UInt64.ofNat queue.array.length % UInt64.ofNat item.size).toNat = queue.remainder := by
  have hfits := queue.fits
  have hlength := queue.length_array
  have harray : queue.array.length < 2 ^ 64 := by omega
  rw [UInt64.toNat_mod, UInt64.toNat_ofNat_of_lt' harray, UInt64.toNat_ofNat_of_lt' item.size_lt]
  rfl

/-- The position meant is one of the array. -/
theorem position_lt (position : ℕ) : position % queue.capacity < queue.capacity :=
  Nat.mod_lt _ queue.capacity_pos

/-- A reader copies the queued items exactly in a queue it reads in order. -/
theorem copyItems_iff {data : List UInt8} {start : ℕ}
    (harray : queue.array = (data.drop start).take queue.array.length) :
    copyItems item data start queue.header.head queue.header.count
        (UInt64.ofNat queue.array.length % UInt64.ofNat item.size) = some queue.items ↔
      queue.InOrder (data.drop start) := by
  have hzero : UInt64.ofNat queue.array.length % UInt64.ofNat item.size = 0 ↔
      queue.remainder = 0 := by
    rw [← UInt64.toNat_inj, toNat_maxItemCount]
    rfl
  rw [copyItems, items, mapM_eq_some_map_iff, InOrder]
  simp only [List.mem_range, hzero]
  constructor
  · intro h
    by_cases hcount : queue.header.count.toNat = 0
    · exact .inl hcount
    · have hremainder : queue.remainder ≠ 0 := by
        intro hremainder
        have hfirst := h 0 (by omega)
        rw [if_pos hremainder] at hfirst
        cases hfirst
      refine .inr ⟨hremainder, fun i hi => .inr ?_⟩
      have hread := h i hi
      rwa [if_neg hremainder, UInt64.toNat_mod, toNat_maxItemCount, toNat_position queue hi,
        read_eq_read_drop] at hread
  · intro h i hi
    obtain hcount | ⟨hremainder, hslots⟩ := h
    · omega
    · rw [if_neg hremainder, UInt64.toNat_mod, toNat_maxItemCount, toNat_position queue hi,
        read_eq_read_drop]
      obtain hsame | hread := hslots i hi
      · rw [hsame]
        exact queue.read_slot harray (queue.position_lt _)
      · exact hread

/-- A reader returns the queued items exactly in a queue it reads in order. -/
theorem readQueue_iff {data : List UInt8} {offset : ℕ} {queueDataSize : UInt64} {AccountType : Type}
    (account : SerumQueueHeader × List ItemType → AccountType)
    (haccount : Function.Injective fun items => account (queue.header, items))
    (hheader : SerumQueueHeader.read data offset = queue.header)
    (hsize : queueDataSize = UInt64.ofNat queue.array.length)
    (hlength : offset + SerumQueueHeader.size ≤ data.length)
    (harray : queue.array =
      (data.drop (offset + SerumQueueHeader.size)).take queue.array.length) :
    (readQueue item data offset queueDataSize).map account =
        some (account (queue.header, queue.items)) ↔
      queue.InOrder (data.drop (offset + SerumQueueHeader.size)) := by
  rw [← queue.copyItems_iff harray, readQueue, if_pos hlength, hheader, hsize, Option.map_map]
  simp only [Option.map_eq_some_iff, Function.comp_apply, haccount.eq_iff, exists_eq_right]

end SerumQueue

/-! ## The readers -/

theorem readU64_alignSerumData {data : List UInt8} {offset : ℕ}
    (h : offset + 8 ≤ data.length - 12) :
    readU64 (alignSerumData data) offset = readU64 data (serumBeginPaddingSize + offset) := by
  rw [readU64, alignSerumData, readAt_take h, readAt_drop]
  rfl

/-- The reader of the request queue finds the header behind the padding. -/
theorem read_header {data : List UInt8} (h : 44 < data.length) :
    SerumQueueHeader.read data serumBeginPaddingSize =
      SerumQueueHeader.read (alignSerumData data) 0 := by
  simp only [SerumQueueHeader.read]
  rw [readU64_alignSerumData (by omega), readU64_alignSerumData (by omega),
    readU64_alignSerumData (by omega), readU64_alignSerumData (by omega)]
  rfl

theorem ofNat_sub {n k : ℕ} (hk : k ≤ n) (hn : n < 2 ^ 64) :
    UInt64.ofNat n - UInt64.ofNat k = UInt64.ofNat (n - k) := by
  have hk' : k < 2 ^ 64 := by omega
  have hsub : n - k < 2 ^ 64 := by omega
  have hle : UInt64.ofNat k ≤ UInt64.ofNat n := by
    rw [UInt64.le_iff_toNat_le, UInt64.toNat_ofNat_of_lt' hk', UInt64.toNat_ofNat_of_lt' hn]
    exact hk
  rw [← UInt64.toNat_inj, UInt64.toNat_sub_of_le _ _ hle, UInt64.toNat_ofNat_of_lt' hk',
    UInt64.toNat_ofNat_of_lt' hn, UInt64.toNat_ofNat_of_lt' hsub]

/-- The size check of a reader passes. -/
theorem not_length_lt (queue : SerumQueue item) :
    ¬ queue.accountInfo.data.length < SerumQueueHeader.size := by
  have hlt := queue.le_length
  simp only [SerumQueueHeader.size]
  omega

theorem eventQueue_iff (queue : SerumQueue serumEvent) :
    accountToSerumEventQueueAccount queue.accountInfo =
        .ok (some ⟨queue.header.sequenceNumber, queue.items⟩) ↔
      queue.InOrder queue.array := by
  have hlt := queue.le_length
  have hfits := queue.fits
  have halign := SerumQueue.length_alignSerumData queue.accountInfo.data
  have hheader : 0 + SerumQueueHeader.size ≤ (alignSerumData queue.accountInfo.data).length := by
    simp only [SerumQueueHeader.size]
    omega
  have hsize : UInt64.ofNat (alignSerumData queue.accountInfo.data).length -
      UInt64.ofNat SerumQueueHeader.size = UInt64.ofNat queue.array.length := by
    rw [ofNat_sub (by omega) (by omega), SerumQueue.array, queueArray, List.length_drop]
  have harray : queue.array = ((alignSerumData queue.accountInfo.data).drop
      (0 + SerumQueueHeader.size)).take queue.array.length := by
    rw [Nat.zero_add]
    exact (List.take_length ..).symm
  have hinjective : Function.Injective fun items =>
      SerumEventQueueAccount.mk queue.header.sequenceNumber items :=
    fun _ _ h => (SerumEventQueueAccount.mk.inj h).2
  rw [accountToSerumEventQueueAccount, if_neg (not_length_lt queue), Except.ok.injEq]
  rw [queue.readQueue_iff
    (fun decoded => SerumEventQueueAccount.mk decoded.1.sequenceNumber decoded.2) hinjective rfl
    hsize hheader harray, Nat.zero_add]
  rfl

theorem requestQueue_iff (queue : SerumQueue serumRequest) :
    accountToSerumRequestQueueAccount queue.accountInfo =
        .ok (some ⟨queue.header.sequenceNumber, queue.items⟩) ↔
      queue.InOrder
        (queue.accountInfo.data.drop (serumBeginPaddingSize + SerumQueueHeader.size)) := by
  have hlt := queue.le_length
  have hfits := queue.fits
  have hlength := queue.length_array
  have hpaddings : serumBeginPaddingSize + serumEndPaddingSize + SerumQueueHeader.size = 44 := rfl
  have hheader : serumBeginPaddingSize + SerumQueueHeader.size ≤
      queue.accountInfo.data.length := by
    simp only [SerumQueueHeader.size, serumBeginPaddingSize]
    omega
  have hsize : UInt64.ofNat queue.accountInfo.data.length -
      UInt64.ofNat (serumBeginPaddingSize + serumEndPaddingSize + SerumQueueHeader.size) =
        UInt64.ofNat queue.array.length := by
    rw [ofNat_sub (by omega) (by omega), hlength, hpaddings]
  have harray : queue.array = (queue.accountInfo.data.drop
      (serumBeginPaddingSize + SerumQueueHeader.size)).take queue.array.length := by
    rw [hlength]
    exact queue.array_eq_take
  have hinjective : Function.Injective fun items =>
      SerumRequestQueueAccount.mk queue.header.sequenceNumber items :=
    fun _ _ h => (SerumRequestQueueAccount.mk.inj h).2
  rw [accountToSerumRequestQueueAccount, if_neg (not_length_lt queue), Except.ok.injEq]
  rw [queue.readQueue_iff
    (fun decoded => SerumRequestQueueAccount.mk decoded.1.sequenceNumber decoded.2) hinjective
    (read_header hlt) hsize hheader harray]

/-- **Queues decode in order.** For every account of an event queue and of a
request queue whose header fits its array, the reader returns the queued
items in order exactly when the queue is empty, or the array leaves a
remainder and each slot read is the one meant or holds the same item. -/
theorem queues_decode_iff (events : SerumQueue serumEvent)
    (requests : SerumQueue serumRequest) :
    (accountToSerumEventQueueAccount events.accountInfo =
          .ok (some ⟨events.header.sequenceNumber, events.items⟩) ↔
        events.InOrder events.array) ∧
      (accountToSerumRequestQueueAccount requests.accountInfo =
          .ok (some ⟨requests.header.sequenceNumber, requests.items⟩) ↔
        requests.InOrder
          (requests.accountInfo.data.drop (serumBeginPaddingSize + SerumQueueHeader.size))) :=
  ⟨eventQueue_iff events, requestQueue_iff requests⟩

/-- An event queue of two slots and one byte: the events with flags 1 and 2,
both queued. -/
def twoEventsAccount : AccountInfo where
  executable := false
  lamports := 0
  owner := ByteArr.fill 32 0
  data := sparse 221 [(21, leBytes 8 2), (29, leBytes 8 7), (37, [1]), (125, [2])]

def twoEvents : SerumQueue serumEvent where
  accountInfo := twoEventsAccount
  fits := by decide +kernel
  capacity_pos := by decide +kernel
  head_lt := by decide +kernel
  count_le := by decide +kernel

/-- The first is returned twice. -/
theorem queues_decode_fails :
    (accountToSerumEventQueueAccount twoEvents.accountInfo).toOption.join.map
        (fun account => account.events.map SerumEvent.eventFlags) = some [1, 1] ∧
      twoEvents.items.map SerumEvent.eventFlags = [1, 2] ∧
      accountToSerumEventQueueAccount twoEvents.accountInfo ≠
        .ok (some ⟨twoEvents.header.sequenceNumber, twoEvents.items⟩) := by
  have hread : (accountToSerumEventQueueAccount twoEvents.accountInfo).toOption.join.map
      (fun account => account.events.map SerumEvent.eventFlags) = some [1, 1] := by decide +kernel
  have hitems : twoEvents.items.map SerumEvent.eventFlags = [1, 2] := by decide +kernel
  refine ⟨hread, hitems, fun h => ?_⟩
  rw [h] at hread
  simp [Except.toOption, hitems] at hread

end Synthfi.Serum
