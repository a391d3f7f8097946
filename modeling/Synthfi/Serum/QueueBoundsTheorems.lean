/-
Synthfi.Serum.QueueBoundsTheorems — which queue accounts decode at all.

A queue account is read safely if the sizes subtract without a wrap, the
vector for the items can be made, nothing is divided by zero, and every item
lies in the data. The positions of the items run on through 64 bits and are
reduced modulo what the item size leaves of the array, so the last condition
is one about two runs of consecutive slots.
-/
import Synthfi.Serum.SerumQueueTheorems

namespace Synthfi.Serum

open Bytes Solana CheckedVec

/-! ## Runs of positions -/

/-- Consecutive positions stay in the first slots of a longer ring exactly if
they do not come to its end. -/
theorem forall_mod_lt_iff {r slots start n : ℕ} (hslots : slots < r) (hn : 0 < n) :
    (∀ i < n, (start + i) % r < slots) ↔ start % r + n ≤ slots := by
  constructor
  · intro h
    by_contra hgt
    have hfirst : start % r < slots := h 0 hn
    have hlast := h (slots - start % r) (by omega)
    have hmod : (start + (slots - start % r)) % r = slots := by
      rw [Nat.add_mod, Nat.mod_eq_of_lt (show slots - start % r < r by omega),
        Nat.add_sub_cancel' (by omega), Nat.mod_eq_of_lt hslots]
    omega
  · intro h i hi
    rw [Nat.add_mod, Nat.mod_eq_of_lt (show i < r by omega), Nat.mod_eq_of_lt (by omega)]
    omega

/-- The positions before a counter of 64 bits wraps. -/
def beforeWrap (head count : ℕ) : ℕ := min count (2 ^ 64 - head)

/-- Positions that wrap at `2 ^ 64` stay in the first slots if both runs
do. -/
theorem forall_wrapped_lt_iff {r slots head count : ℕ} (hslots : slots < r)
    (hhead : head < 2 ^ 64) (hpos : 0 < count) (hcount : count < 2 ^ 64) :
    (∀ i < count, (head + i) % 2 ^ 64 % r < slots) ↔
      head % r + beforeWrap head count ≤ slots ∧ count - beforeWrap head count ≤ slots := by
  have hfront : 0 < beforeWrap head count := by
    rw [beforeWrap]
    omega
  have hback : (∀ i < count - beforeWrap head count, (0 + i) % r < slots) ↔
      count - beforeWrap head count ≤ slots := by
    by_cases hzero : count - beforeWrap head count = 0
    · simp [hzero]
    · rw [forall_mod_lt_iff hslots (by omega), Nat.zero_mod, Nat.zero_add]
  rw [← forall_mod_lt_iff hslots hfront, ← hback]
  constructor
  · intro h
    constructor
    · intro i hi
      rw [beforeWrap] at hi
      have hlt := h i (by omega)
      have hsmall : (head + i) % 2 ^ 64 = head + i := Nat.mod_eq_of_lt (by omega)
      rwa [hsmall] at hlt
    · intro i hi
      have hlt := h (beforeWrap head count + i) (by omega)
      have hwrap : (head + (beforeWrap head count + i)) % 2 ^ 64 = 0 + i := by
        rw [beforeWrap] at hi ⊢
        omega
      rwa [hwrap] at hlt
  · intro h i hi
    obtain ⟨hbefore, hafter⟩ := h
    by_cases hlt : i < beforeWrap head count
    · have hsmall : (head + i) % 2 ^ 64 = head + i := by
        rw [beforeWrap] at hlt
        exact Nat.mod_eq_of_lt (by omega)
      rw [hsmall]
      exact hbefore i hlt
    · have hwrap : (head + i) % 2 ^ 64 = 0 + (i - beforeWrap head count) := by
        rw [beforeWrap] at hlt ⊢
        omega
      rw [hwrap]
      exact hafter _ (by omega)

/-! ## The loop -/

variable {ItemType : Type} (item : QueueItem ItemType)

/-- `max_size` of a vector of items. -/
def QueueItem.maxSize : ℕ := (2 ^ 63 - 1) / item.size

/-- What a header has to satisfy for the items to be read from `readable`
bytes, where the array takes `arrayLength`: nothing is queued, or the array
leaves a remainder `r`, and the slots modulo `r` are all there or the queue
does not come to the first that is not. -/
def SlotsInside (header : SerumQueueHeader) (arrayLength readable : ℕ) : Prop :=
  header.count.toNat = 0 ∨
    let r := arrayLength % item.size
    let slots := readable / item.size
    let front := beforeWrap header.head.toNat header.count.toNat
    r ≠ 0 ∧ (r ≤ slots ∨
      header.head.toNat % r + front ≤ slots ∧ header.count.toNat - front ≤ slots)

variable {item}

theorem exists_read_iff {data : List UInt8} {start slot : ℕ} (hstart : start ≤ data.length) :
    (∃ a, item.read data start slot = some a) ↔ slot < (data.length - start) / item.size := by
  have hdiv : slot < (data.length - start) / item.size ↔
      (slot + 1) * item.size ≤ data.length - start := by
    rw [← Nat.succ_le_iff, Nat.le_div_iff_mul_le item.size_pos]
  have hle : start + slot * item.size + item.size ≤ data.length ↔
      (slot + 1) * item.size ≤ data.length - start := by
    rw [Nat.succ_mul]
    omega
  rw [hdiv, ← hle, QueueItem.read]
  by_cases h : start + slot * item.size + item.size ≤ data.length
  · simp [h]
  · simp [h]

theorem exists_copyItems_iff {data : List UInt8} {start arrayLength : ℕ}
    {header : SerumQueueHeader} (hstart : start ≤ data.length) (hfits : arrayLength < 2 ^ 64) :
    (∃ items, copyItems item data start header.head header.count
        (UInt64.ofNat arrayLength % UInt64.ofNat item.size) = some items) ↔
      SlotsInside item header arrayLength (data.length - start) := by
  have hmax : (UInt64.ofNat arrayLength % UInt64.ofNat item.size).toNat =
      arrayLength % item.size := by
    rw [UInt64.toNat_mod, UInt64.toNat_ofNat_of_lt' hfits,
      UInt64.toNat_ofNat_of_lt' item.size_lt]
  have hzero : UInt64.ofNat arrayLength % UInt64.ofNat item.size = 0 ↔
      arrayLength % item.size = 0 := by
    rw [← UInt64.toNat_inj, hmax]
    rfl
  have hhead := header.head.toNat_lt
  have hcount := header.count.toNat_lt
  have hslot : ∀ i < header.count.toNat,
      ((header.head + UInt64.ofNat i) % (UInt64.ofNat arrayLength %
        UInt64.ofNat item.size)).toNat =
      (header.head.toNat + i) % 2 ^ 64 % (arrayLength % item.size) := by
    intro i hi
    rw [UInt64.toNat_mod, hmax, UInt64.toNat_add,
      UInt64.toNat_ofNat_of_lt' (show i < 2 ^ 64 by omega)]
  have hall : (∃ items, copyItems item data start header.head header.count
        (UInt64.ofNat arrayLength % UInt64.ofNat item.size) = some items) ↔
      ∀ i < header.count.toNat, arrayLength % item.size ≠ 0 ∧
        (header.head.toNat + i) % 2 ^ 64 % (arrayLength % item.size) <
          (data.length - start) / item.size := by
    rw [copyItems, exists_mapM_iff]
    simp only [List.mem_range, hzero]
    refine forall₂_congr fun i hi => ?_
    by_cases hremainder : arrayLength % item.size = 0
    · simp [hremainder]
    · rw [if_neg hremainder, hslot i hi, exists_read_iff hstart]
      simp [hremainder]
  rw [hall, SlotsInside]
  by_cases hempty : header.count.toNat = 0
  · simp [hempty]
  by_cases hremainder : arrayLength % item.size = 0
  · simp only [hremainder, hempty, ne_eq, not_true_eq_false, false_and, or_false, iff_false]
    intro h
    exact h 0 (by omega)
  · simp only [hremainder, hempty, ne_eq, not_false_eq_true, true_and, false_or]
    by_cases hslots : arrayLength % item.size ≤ (data.length - start) / item.size
    · simp only [hslots, true_or, iff_true]
      intro i hi
      have := Nat.mod_lt ((header.head.toNat + i) % 2 ^ 64) (Nat.pos_of_ne_zero hremainder)
      omega
    · simp only [hslots, false_or]
      exact forall_wrapped_lt_iff (by omega) hhead (by omega) hcount

/-! ## The readers -/

/-- Decoding as an event queue throws a `SynthfiError`, or completes: the size
of the array does not wrap, the vector of events can be made, and only the
data is read. -/
def EventQueueSafe (accountInfo : AccountInfo) : Prop :=
  (∃ error, accountToSerumEventQueueAccount accountInfo = .error error) ∨
    SerumQueueHeader.size ≤ (alignSerumData accountInfo.data).length ∧
    (SerumQueueHeader.read (alignSerumData accountInfo.data) 0).count.toNat ≤
      serumEvent.maxSize ∧
    ∃ account, accountToSerumEventQueueAccount accountInfo = .ok (some account)

/-- Decoding as a request queue, likewise. -/
def RequestQueueSafe (accountInfo : AccountInfo) : Prop :=
  (∃ error, accountToSerumRequestQueueAccount accountInfo = .error error) ∨
    serumBeginPaddingSize + serumEndPaddingSize + SerumQueueHeader.size ≤
      accountInfo.data.length ∧
    (SerumQueueHeader.read accountInfo.data serumBeginPaddingSize).count.toNat ≤
      serumRequest.maxSize ∧
    ∃ account, accountToSerumRequestQueueAccount accountInfo = .ok (some account)

/-- The account is refused for its size, or holds both paddings and a header,
with no more items than a vector holds and all of them inside. -/
def Bounded (item : QueueItem ItemType) (header : SerumQueueHeader) (length readable : ℕ) : Prop :=
  length < SerumQueueHeader.size ∨
    44 ≤ length ∧ header.count.toNat ≤ item.maxSize ∧
      SlotsInside item header (length - 44) readable

/-- A reader has a result exactly if the slots of the header are inside. -/
theorem exists_map_readQueue_iff {AccountType : Type} {data : List UInt8} {offset arrayLength : ℕ}
    (account : SerumQueueHeader × List ItemType → AccountType)
    (hheader : offset + SerumQueueHeader.size ≤ data.length) (hfits : arrayLength < 2 ^ 64) :
    (∃ a, (readQueue item data offset (UInt64.ofNat arrayLength)).map account = some a) ↔
      SlotsInside item (.read data offset) arrayLength
        (data.length - (offset + SerumQueueHeader.size)) := by
  rw [← exists_copyItems_iff hheader hfits, readQueue, if_pos hheader]
  simp only [Option.map_map, Option.map_eq_some_iff]
  constructor
  · intro h
    obtain ⟨_, items, hitems, _⟩ := h
    exact ⟨items, hitems⟩
  · intro h
    obtain ⟨items, hitems⟩ := h
    exact ⟨_, items, hitems, rfl⟩

theorem eventQueueSafe_iff {accountInfo : AccountInfo} (hfits : accountInfo.data.length < 2 ^ 63) :
    EventQueueSafe accountInfo ↔
      Bounded serumEvent (.read (alignSerumData accountInfo.data) 0) accountInfo.data.length
        (accountInfo.data.length - 44) := by
  have halign := SerumQueue.length_alignSerumData accountInfo.data
  rw [EventQueueSafe, Bounded]
  by_cases hshort : accountInfo.data.length < SerumQueueHeader.size
  · simp [accountToSerumEventQueueAccount, hshort]
  have hlength : SerumQueueHeader.size ≤ (alignSerumData accountInfo.data).length ↔
      44 ≤ accountInfo.data.length := by
    simp only [SerumQueueHeader.size]
    omega
  simp only [hshort, hlength, false_or, accountToSerumEventQueueAccount, if_false, reduceCtorEq,
    exists_false, Except.ok.injEq]
  refine and_congr_right fun hlong => and_congr_right fun _ => ?_
  have hsize : UInt64.ofNat (alignSerumData accountInfo.data).length -
      UInt64.ofNat SerumQueueHeader.size = UInt64.ofNat (accountInfo.data.length - 44) := by
    rw [ofNat_sub (hlength.mpr hlong) (by omega), halign, SerumQueueHeader.size]
    congr 1
  have hheader : 0 + SerumQueueHeader.size ≤ (alignSerumData accountInfo.data).length := by
    simpa using hlength.mpr hlong
  have hreadable : (alignSerumData accountInfo.data).length - (0 + SerumQueueHeader.size) =
      accountInfo.data.length - 44 := by
    simp only [SerumQueueHeader.size]
    omega
  rw [hsize, exists_map_readQueue_iff _ hheader (by omega), hreadable]

theorem requestQueueSafe_iff {accountInfo : AccountInfo}
    (hfits : accountInfo.data.length < 2 ^ 63) :
    RequestQueueSafe accountInfo ↔
      Bounded serumRequest (.read accountInfo.data serumBeginPaddingSize) accountInfo.data.length
        (accountInfo.data.length - 37) := by
  have hpaddings : serumBeginPaddingSize + serumEndPaddingSize + SerumQueueHeader.size = 44 := rfl
  rw [RequestQueueSafe, Bounded, hpaddings]
  by_cases hshort : accountInfo.data.length < SerumQueueHeader.size
  · simp [accountToSerumRequestQueueAccount, hshort]
  simp only [hshort, false_or, accountToSerumRequestQueueAccount, if_false, reduceCtorEq,
    exists_false, Except.ok.injEq, hpaddings]
  refine and_congr_right fun hlong => and_congr_right fun _ => ?_
  have hheader : serumBeginPaddingSize + SerumQueueHeader.size ≤ accountInfo.data.length := by
    simp only [serumBeginPaddingSize, SerumQueueHeader.size]
    omega
  rw [ofNat_sub hlong (by omega), exists_map_readQueue_iff _ hheader (by omega)]
  rfl

/-- **Queues decode safely.** For every account data, decoding it as a queue
is safe exactly if the account is bounded. The reader of the request queue may
read on into the trailing padding. -/
theorem queues_safe_iff (accountInfo : AccountInfo) (hfits : accountInfo.data.length < 2 ^ 63) :
    (EventQueueSafe accountInfo ↔
        Bounded serumEvent (.read (alignSerumData accountInfo.data) 0) accountInfo.data.length
          (accountInfo.data.length - 44)) ∧
      (RequestQueueSafe accountInfo ↔
        Bounded serumRequest (.read accountInfo.data serumBeginPaddingSize)
          accountInfo.data.length (accountInfo.data.length - 37)) :=
  ⟨eventQueueSafe_iff hfits, requestQueueSafe_iff hfits⟩

/-- The two events are read safely, though not in order. -/
theorem queues_safe_twoEvents : EventQueueSafe twoEventsAccount :=
  (queues_safe_iff twoEventsAccount twoEvents.fits).1.mpr
    (.inr ⟨by decide +kernel, by decide +kernel,
      .inr ⟨by decide +kernel, .inl (by decide +kernel)⟩⟩)

/-- One event in an array of one event: nothing remains to divide by. -/
def oneEventAccount : AccountInfo where
  executable := false
  lamports := 0
  owner := ByteArr.fill 32 0
  data := sparse 132 [(21, [1])]

/-- A header and no room for the paddings. -/
def headerAccount : AccountInfo where
  executable := false
  lamports := 0
  owner := ByteArr.fill 32 0
  data := List.replicate 32 0

theorem queues_safe_fails :
    ¬ EventQueueSafe oneEventAccount ∧ ¬ RequestQueueSafe headerAccount := by
  constructor
  · rw [eventQueueSafe_iff (by decide +kernel)]
    simp only [Bounded, SlotsInside]
    decide +kernel
  · rw [requestQueueSafe_iff (by decide +kernel)]
    simp only [Bounded, SlotsInside]
    decide +kernel

end Synthfi.Serum
