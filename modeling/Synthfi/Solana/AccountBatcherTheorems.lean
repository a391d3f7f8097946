/-
Synthfi.Solana.AccountBatcherTheorems — what a batched request returns.

`chunkRequests_eq` reads the chunk loop as the windows of the key list. The
invariant ties the entry of a batch to the chunks of its call: it counts the
chunks without a result, it holds an error exactly if one of them was
refused, and it holds what the others brought at their places while every
response has its chunk's size. A step adds a call or moves one call and its
entry (`Inv.step_cases`), so every step keeps the invariant (`inv_step`).

* `batching_of_run` — in every run whose successful chunk responses have one
  account for each key, a call that returns has the account the server
  returned for the `i`-th key at place `i`, and a call of which a chunk failed
  or the timer ran out throws.
-/
import Mathlib.Data.List.Nodup
import Synthfi.Solana.AccountBatcher

namespace Synthfi.Solana

open Synthfi.Core Bytes Windows Run

def Chunk.request (chunk : Chunk) : ℕ × List PublicKey := (chunk.batchIndex, chunk.keys)

/-- A response has one account for each key of its chunk. -/
def Chunk.Sized (chunk : Chunk) : Prop :=
  ∀ infos, chunk.result = some (.ok infos) → infos.length = chunk.keys.length

/-- The handler refuses the result of the chunk, in a call for `total` keys: a
failure, or a response that runs past the last key. -/
def Chunk.Refused (total : ℕ) (chunk : Chunk) : Prop :=
  match chunk.result with
  | none => False
  | some (.error _) => True
  | some (.ok infos) => total < infos.length + chunk.batchIndex

namespace AccountBatcherImpl

variable {batchSize : ℕ}

/-! ## The chunk loop -/

/-- From a multiple of the batch size on, the loop makes the windows that are
left, as long as the fuel lasts for them. -/
theorem chunkLoop_eq (hsize : 0 < batchSize) (keys : List PublicKey) (fuel k : ℕ)
    (hfuel : keys.length ≤ fuel + k * batchSize) :
    chunkLoop batchSize keys fuel (k * batchSize) =
      ((List.range' k (count batchSize keys.length - k)).map (window batchSize keys)).map
        fun w => ⟨w.1, w.2, none⟩ := by
  induction fuel generalizing k with
  | zero =>
    have hnone : count batchSize keys.length - k = 0 := by
      have := (lt_count_iff (n := keys.length) (k := k) hsize)
      omega
    simp [chunkLoop, hnone]
  | succ fuel ih =>
    rw [chunkLoop]
    split
    case isTrue hlt =>
      have hcount : k < count batchSize keys.length := (lt_count_iff hsize).mpr hlt
      have htake : (keys.drop (k * batchSize)).take
          (min batchSize (keys.length - k * batchSize)) =
          (keys.drop (k * batchSize)).take batchSize := by
        rw [← List.length_drop, ← List.take_eq_take_min]
      have hnext : k * batchSize + batchSize = (k + 1) * batchSize := (Nat.succ_mul ..).symm
      obtain ⟨left, hleft⟩ : ∃ left, count batchSize keys.length - k = left + 1 :=
        ⟨count batchSize keys.length - k - 1, by omega⟩
      have hrest : count batchSize keys.length - (k + 1) = left := by omega
      rw [htake, hnext, ih (k + 1) (by rw [← hnext]; omega), hleft, hrest, List.range'_succ]
      simp [window]
    case isFalse hge =>
      have hnone : count batchSize keys.length - k = 0 := by
        have := (lt_count_iff (n := keys.length) (k := k) hsize)
        omega
      simp [hnone]

/-- **The chunk requests are the windows of the key list**, none with a
result. -/
theorem chunkRequests_eq (hsize : 0 < batchSize) (keys : List PublicKey) :
    chunkRequests batchSize keys = (windows batchSize keys).map fun w => ⟨w.1, w.2, none⟩ := by
  have hloop := chunkLoop_eq hsize keys keys.length 0 (by simp)
  rw [Nat.zero_mul] at hloop
  rw [chunkRequests, hloop, windows, Nat.sub_zero, List.range_eq_range']

/-! ## The entry of a batch -/

/-- The accounts of every chunk that succeeded stand at their places. -/
def Answered (chunks : List Chunk) (response : List AccountInfo) : Prop :=
  ∀ chunk ∈ chunks, ∀ infos, chunk.result = some (.ok infos) →
    infos.length = chunk.keys.length ∧
      ∀ j < infos.length, response[chunk.batchIndex + j]? = infos[j]?

/-- What the entry of a call's batch holds. -/
structure BatchOk (call : BatchCall) (batch : MultipleAccountBatch) : Prop where
  pending : batch.pendingBatches = call.chunks.countP Chunk.isPending
  length : batch.response.length = call.keys.length
  answered : (∀ chunk ∈ call.chunks, chunk.Sized) → Answered call.chunks batch.response
  error_iff : batch.error.isSome ↔ ∃ chunk ∈ call.chunks, chunk.Refused call.keys.length

/-- What holds of a call, given the entry under its batch id. -/
structure CallInv (batchSize : ℕ) (entry : Option MultipleAccountBatch) (call : BatchCall) :
    Prop where
  requests : call.chunks.map Chunk.request = windows batchSize call.keys
  batch : call.status.ended = false → ∃ batch, entry = some batch ∧ BatchOk call batch
  cancelled : call.status = .cancelled → ∀ chunk ∈ call.chunks, chunk.isPending = false
  returned : ∀ infos, call.status = .returned infos → infos.length = call.keys.length ∧
    ((∀ chunk ∈ call.chunks, chunk.Sized) → Answered call.chunks infos) ∧
      ∀ chunk ∈ call.chunks, chunk.isPending = false ∧ ¬ chunk.Refused call.keys.length
  timedOut : call.timedOut → (∀ infos, call.status ≠ .returned infos) ∧ call.status ≠ .cancelled ∧
    call.status ≠ .spawned ∧ call.status ≠ .waiting
  defined : call.status ≠ .undefined
  keyless : call.keys = [] → call.status = .returned []

structure Inv (batchSize : ℕ) (s : AccountBatcherImpl) : Prop where
  calls : ∀ {c call}, s.calls c = some call →
    CallInv batchSize (s.multipleAccountBatches call.batchId) call
  owner : ∀ {c d call call'}, s.calls c = some call → s.calls d = some call' →
    call.keys ≠ [] → call'.keys ≠ [] → call.batchId = call'.batchId → c = d
  batchId_lt : ∀ {c call}, s.calls c = some call → call.keys ≠ [] → call.batchId < s.nextBatchId
  fresh : ∀ {batchId}, s.nextBatchId ≤ batchId → s.multipleAccountBatches batchId = none
  call_lt : ∀ {c call}, s.calls c = some call → c < s.callCount

theorem inv_init : Inv batchSize init where
  calls := nofun
  owner := nofun
  batchId_lt := nofun
  fresh := fun _ => rfl
  call_lt := nofun

/-! ## One chunk result -/

/-- The chunks after one of them got a result: that one, and the others. -/
theorem mem_set_iff {chunks : List Chunk} {k : ℕ} {old new chunk : Chunk}
    (hk : chunks[k]? = some old) :
    chunk ∈ chunks.set k new ↔ chunk = new ∨ ∃ k', k' ≠ k ∧ chunks[k']? = some chunk := by
  have hlt : k < chunks.length := (List.getElem?_eq_some_iff.mp hk).1
  rw [List.mem_iff_getElem?]
  constructor
  · rintro ⟨k', hk'⟩
    rw [List.getElem?_set] at hk'
    split at hk'
    case isTrue => exact .inl (by simpa [hlt, eq_comm] using hk')
    case isFalse hne => exact .inr ⟨k', Ne.symm hne, hk'⟩
  · rintro (rfl | ⟨k', hne, hk'⟩)
    · exact ⟨k, by simp [hlt]⟩
    · exact ⟨k', by rw [List.getElem?_set_ne hne.symm, hk']⟩

/-- A result keeps the requests. -/
theorem map_request_set {chunks : List Chunk} {k : ℕ} {chunk : Chunk}
    (hk : chunks[k]? = some chunk) (result : Option ChunkResult) :
    (chunks.set k { chunk with result }).map Chunk.request = chunks.map Chunk.request := by
  obtain ⟨hlt, rfl⟩ := List.getElem?_eq_some_iff.mp hk
  have hlt' : k < (chunks.map Chunk.request).length := by rwa [List.length_map]
  have hrequest : { chunks[k] with result }.request = (chunks.map Chunk.request)[k] := by
    rw [List.getElem_map]; rfl
  rw [List.map_set, hrequest, List.set_getElem_self]

/-- It takes one chunk off those without a result. -/
theorem countP_isPending_set {chunks : List Chunk} {k : ℕ} {chunk : Chunk}
    (hk : chunks[k]? = some chunk) (hpending : chunk.isPending = true) (result : ChunkResult) :
    (chunks.set k { chunk with result := some result }).countP Chunk.isPending + 1 =
      chunks.countP Chunk.isPending := by
  obtain ⟨hlt, rfl⟩ := List.getElem?_eq_some_iff.mp hk
  have hpos : 0 < chunks.countP Chunk.isPending :=
    List.countP_pos_iff.mpr ⟨_, List.getElem_mem hlt, hpending⟩
  rw [List.countP_set hlt, if_pos hpending]
  simp only [Chunk.isPending, Option.isNone_some, Bool.false_eq_true, if_false]
  omega

/-- The chunk requests of a call and their windows. -/
theorem window_of_chunk {chunks : List Chunk} {keys : List PublicKey}
    (hrequests : chunks.map Chunk.request = windows batchSize keys) {k : ℕ} {chunk : Chunk}
    (hk : chunks[k]? = some chunk) : (windows batchSize keys)[k]? = some chunk.request := by
  rw [← hrequests, List.getElem?_map, hk, Option.map_some]

theorem answered_set {call : BatchCall} {response : List AccountInfo} {k : ℕ} {chunk : Chunk}
    (hsize : 0 < batchSize)
    (hrequests : call.chunks.map Chunk.request = windows batchSize call.keys)
    (hlength : response.length = call.keys.length) (hanswered : Answered call.chunks response)
    (hk : call.chunks[k]? = some chunk) {infos : List AccountInfo}
    (hinfos : infos.length = chunk.keys.length) :
    Answered (call.chunks.set k { chunk with result := some (.ok infos) })
      (overwrite response chunk.batchIndex infos) := by
  have hwindow := window_of_chunk hrequests hk
  have hend : chunk.batchIndex + chunk.keys.length ≤ call.keys.length := window_le hsize hwindow
  intro chunk' hmem infos' hresult
  rcases (mem_set_iff hk).mp hmem with rfl | ⟨k', hne, hk'⟩
  · obtain rfl : infos = infos' := by simpa using hresult
    refine ⟨hinfos, fun j hj => ?_⟩
    show (overwrite response chunk.batchIndex infos)[chunk.batchIndex + j]? = infos[j]?
    rw [getElem?_overwrite (by omega), if_pos (by omega), Nat.add_sub_cancel_left]
  · obtain ⟨hinfos', hplace⟩ := hanswered chunk' (List.mem_of_getElem? hk') infos' hresult
    refine ⟨hinfos', fun j hj => ?_⟩
    -- the window of another chunk does not overlap with this one
    have hdisjoint : chunk'.batchIndex + chunk'.keys.length ≤ chunk.batchIndex ∨
        chunk.batchIndex + chunk.keys.length ≤ chunk'.batchIndex :=
      windows_disjoint (window_of_chunk hrequests hk') hwindow hne
    rw [getElem?_overwrite (by omega), if_neg (by omega), hplace j hj]

/-- What one of the chunks meets after one got a result, if that one did not
meet it before. -/
theorem exists_mem_set_iff {p : Chunk → Prop} {chunks : List Chunk} {k : ℕ} {old new : Chunk}
    (hk : chunks[k]? = some old) (hold : ¬ p old) :
    (∃ chunk ∈ chunks.set k new, p chunk) ↔ p new ∨ ∃ chunk ∈ chunks, p chunk := by
  constructor
  · rintro ⟨chunk, hmem, hp⟩
    rcases (mem_set_iff hk).mp hmem with rfl | ⟨k', -, hk'⟩
    · exact .inl hp
    · exact .inr ⟨chunk, List.mem_of_getElem? hk', hp⟩
  · rintro (hp | ⟨chunk, hmem, hp⟩)
    · exact ⟨new, (mem_set_iff hk).mpr (.inl rfl), hp⟩
    · obtain ⟨k', hk'⟩ := List.mem_iff_getElem?.mp hmem
      refine ⟨chunk, (mem_set_iff hk).mpr (.inr ⟨k', ?_, hk'⟩), hp⟩
      rintro rfl
      exact hold (Option.some.inj (hk.symm.trans hk') ▸ hp)

/-- A chunk without a result is neither refused nor of a wrong size. -/
theorem not_refused_of_isPending {chunk : Chunk} (h : chunk.isPending = true) (total : ℕ) :
    ¬ chunk.Refused total := by
  rw [Chunk.isPending, Option.isNone_iff_eq_none] at h
  simp [Chunk.Refused, h]

theorem sized_of_isPending {chunk : Chunk} (h : chunk.isPending = true) : chunk.Sized := by
  rw [Chunk.isPending, Option.isNone_iff_eq_none] at h
  simp [Chunk.Sized, h]

/-- If every chunk is of its size after one got a result, so was every chunk
before, and that result is. -/
theorem sized_of_set {chunks : List Chunk} {k : ℕ} {chunk new : Chunk}
    (hk : chunks[k]? = some chunk) (hpending : chunk.isPending = true)
    (hsized : ∀ chunk' ∈ chunks.set k new, chunk'.Sized) :
    new.Sized ∧ ∀ chunk' ∈ chunks, chunk'.Sized := by
  by_contra hnot
  have hold : ¬ ¬ chunk.Sized := not_not_intro (sized_of_isPending hpending)
  have hbad : ¬ new.Sized ∨ ∃ chunk' ∈ chunks, ¬ chunk'.Sized := by
    rw [not_and_or] at hnot
    exact hnot.imp id fun h => by simpa using h
  obtain ⟨chunk', hmem, hwrong⟩ := (exists_mem_set_iff (p := fun c => ¬ c.Sized) hk hold).mpr hbad
  exact hwrong (hsized chunk' hmem)

/-- A result leaves the size of the response and the count as they are. -/
theorem length_setResult (batchIndex : ℕ) (result : ChunkResult) (batch : MultipleAccountBatch) :
    (setResult batchIndex result batch).response.length = batch.response.length := by
  cases result with
  | error error => rfl
  | ok infos =>
    rw [setResult]
    split
    · rfl
    · exact length_overwrite (by omega)

theorem pendingBatches_setResult (batchIndex : ℕ) (result : ChunkResult)
    (batch : MultipleAccountBatch) :
    (setResult batchIndex result batch).pendingBatches = batch.pendingBatches := by
  cases result with
  | error error => rfl
  | ok infos => rw [setResult]; split <;> rfl

/-- **The only check of a response**: the entry holds an error afterwards if it
held one or the result is refused. -/
theorem setResult_error_isSome (chunk : Chunk) (result : ChunkResult)
    (batch : MultipleAccountBatch) :
    (setResult chunk.batchIndex result batch).error.isSome ↔
      { chunk with result := some result }.Refused batch.response.length ∨
        batch.error.isSome := by
  cases result with
  | error error => exact iff_of_true rfl (.inl trivial)
  | ok infos =>
    rw [setResult]
    split
    case isTrue hlong => exact iff_of_true rfl (.inl hlong)
    case isFalse hfits =>
      show batch.error.isSome ↔ batch.response.length < infos.length + chunk.batchIndex ∨ _
      rw [or_iff_right hfits]

theorem BatchOk.setResult {call : BatchCall} {batch : MultipleAccountBatch} (hsize : 0 < batchSize)
    (hrequests : call.chunks.map Chunk.request = windows batchSize call.keys)
    (hbatch : BatchOk call batch) {k : ℕ} {chunk : Chunk} (hk : call.chunks[k]? = some chunk)
    (hpending : chunk.isPending = true) (result : ChunkResult) :
    BatchOk { call with chunks := call.chunks.set k { chunk with result := some result } }
      { setResult chunk.batchIndex result batch with
        pendingBatches := (AccountBatcherImpl.setResult chunk.batchIndex result
          batch).pendingBatches - 1 } where
  pending := by
    have hcount := countP_isPending_set hk hpending result
    show (AccountBatcherImpl.setResult chunk.batchIndex result batch).pendingBatches - 1 =
      (call.chunks.set k { chunk with result := some result }).countP Chunk.isPending
    rw [pendingBatches_setResult, hbatch.pending]
    omega
  length := (length_setResult ..).trans hbatch.length
  answered := by
    intro hsized
    obtain ⟨hresult, hbefore⟩ := sized_of_set hk hpending hsized
    have hanswered := hbatch.answered hbefore
    match result with
    | .error error =>
      intro chunk' hmem infos' hresult'
      rcases (mem_set_iff hk).mp hmem with rfl | ⟨k', -, hk'⟩
      · simp at hresult'
      · exact hanswered chunk' (List.mem_of_getElem? hk') infos' hresult'
    | .ok infos =>
      have hinfos : infos.length = chunk.keys.length := hresult infos rfl
      have hend : chunk.batchIndex + chunk.keys.length ≤ call.keys.length :=
        window_le hsize (window_of_chunk hrequests hk)
      have hlength := hbatch.length
      have hfits : ¬ batch.response.length < infos.length + chunk.batchIndex := by omega
      show Answered _ (AccountBatcherImpl.setResult chunk.batchIndex (.ok infos) batch).response
      rw [AccountBatcherImpl.setResult, if_neg hfits]
      exact answered_set hsize hrequests hlength hanswered hk hinfos
  error_iff := by
    show (AccountBatcherImpl.setResult chunk.batchIndex result batch).error.isSome ↔ _
    rw [setResult_error_isSome, exists_mem_set_iff hk (not_refused_of_isPending hpending _),
      hbatch.error_iff, hbatch.length]

/-- A call without keys has ended and needs no entry. -/
theorem CallInv.of_no_keys {entry entry' : Option MultipleAccountBatch} {call : BatchCall}
    (h : CallInv batchSize entry call) (hempty : call.keys = []) : CallInv batchSize entry' call :=
  { h with batch := fun hended => by simp [h.keyless hempty, BatchStatus.ended] at hended }

/-- A result of a chunk, on the call and on the entry. -/
theorem CallInv.setResult (hsize : 0 < batchSize) {entry : Option MultipleAccountBatch}
    {call : BatchCall} (h : CallInv batchSize entry call) {k : ℕ} {chunk : Chunk}
    (hk : call.chunks[k]? = some chunk) (hpending : chunk.isPending = true)
    (result : ChunkResult) :
    CallInv batchSize
      (entry.map fun batch => { setResult chunk.batchIndex result batch with
        pendingBatches := (AccountBatcherImpl.setResult chunk.batchIndex result
          batch).pendingBatches - 1 })
      { call with chunks := call.chunks.set k { chunk with result := some result } } where
  requests := (map_request_set hk _).trans h.requests
  batch := by
    intro hended
    obtain ⟨batch, rfl, hbatch⟩ := h.batch hended
    exact ⟨_, rfl, hbatch.setResult hsize h.requests hk hpending result⟩
  cancelled := by
    intro hcancelled
    have hdone := h.cancelled hcancelled chunk (List.mem_of_getElem? hk)
    simp [hpending] at hdone
  returned := by
    intro infos hreturned
    have hdone := ((h.returned infos hreturned).2.2 chunk (List.mem_of_getElem? hk)).1
    simp [hpending] at hdone
  timedOut := h.timedOut
  defined := h.defined
  keyless := h.keyless

/-- The timer is cancelled once every chunk has a result. -/
theorem CallInv.wake {entry : Option MultipleAccountBatch} {call : BatchCall}
    (h : CallInv batchSize entry call)
    (hdone : call.status = .waiting → ∀ chunk ∈ call.chunks, chunk.isPending = false)
    (batchId : ℕ) : CallInv batchSize entry (wake batchId call) := by
  rw [AccountBatcherImpl.wake]
  split
  case isFalse => exact h
  case isTrue hwake =>
    have hwaiting := BatchStatus.isWaiting_iff.mp hwake.2
    refine
      { requests := h.requests, batch := fun _ => ?batch, cancelled := fun _ => hdone hwaiting,
        returned := nofun, timedOut := ?timedOut, defined := nofun, keyless := ?keyless }
    case batch =>
      obtain ⟨batch, hentry, hbatch⟩ := h.batch (by rw [hwaiting]; rfl)
      exact ⟨batch, hentry, ⟨hbatch.pending, hbatch.length, hbatch.answered, hbatch.error_iff⟩⟩
    case timedOut =>
      intro htimedOut
      exact absurd hwaiting (h.timedOut htimedOut).2.2.2
    case keyless =>
      intro hempty
      rw [h.keyless hempty] at hwaiting
      cases hwaiting

/-- When the count reaches zero, no chunk is without a result. -/
theorem CallInv.done {batch : MultipleAccountBatch} {call : BatchCall}
    (h : CallInv batchSize (some batch) call) (hzero : batch.pendingBatches = 0)
    (hwaiting : call.status = .waiting) : ∀ chunk ∈ call.chunks, chunk.isPending = false := by
  obtain ⟨batch', hbatch, hok⟩ := h.batch (by rw [hwaiting]; rfl)
  obtain rfl := Option.some.inj hbatch
  have hcount := hok.pending
  rw [hzero] at hcount
  intro chunk hmem
  simpa using List.countP_eq_zero.mp hcount.symm chunk hmem

/-! ## What each step changes -/

theorem wake_eq_self {batchId : ℕ} {call : BatchCall}
    (h : call.batchId = batchId → call.status ≠ .waiting) : wake batchId call = call := by
  rw [wake, if_neg]
  rintro ⟨hid, hwaiting⟩
  exact h hid (BatchStatus.isWaiting_iff.mp hwaiting)

@[simp] theorem wake_keys (batchId : ℕ) (call : BatchCall) :
    (wake batchId call).keys = call.keys := by
  rw [wake]; split <;> rfl

@[simp] theorem wake_batchId (batchId : ℕ) (call : BatchCall) :
    (wake batchId call).batchId = call.batchId := by
  rw [wake]; split <;> rfl

@[simp] theorem wake_chunks (batchId : ℕ) (call : BatchCall) :
    (wake batchId call).chunks = call.chunks := by
  rw [wake]; split <;> rfl

/-- A cancelled timer makes no call return. -/
theorem not_returned_wake {batchId : ℕ} {call : BatchCall} {infos : List AccountInfo}
    (h : call.status ≠ .returned infos) : (wake batchId call).status ≠ .returned infos := by
  rw [wake]
  split
  · nofun
  · exact h

/-- `putCall` at the key, elsewhere, and on the entries. -/
@[simp] theorem putCall_calls_self (s : AccountBatcherImpl) (c : ℕ) (call : BatchCall) :
    (s.putCall c call).calls c = some call := by simp [putCall]

@[simp] theorem putCall_calls_of_ne (s : AccountBatcherImpl) {c d : ℕ} (h : d ≠ c)
    (call : BatchCall) : (s.putCall c call).calls d = s.calls d := by simp [putCall, h]

@[simp] theorem putCall_multipleAccountBatches (s : AccountBatcherImpl) (c : ℕ)
    (call : BatchCall) : (s.putCall c call).multipleAccountBatches = s.multipleAccountBatches :=
  rfl

@[simp] theorem putBatch_calls (s : AccountBatcherImpl) (batchId : ℕ)
    (batch : Option MultipleAccountBatch) : (s.putBatch batchId batch).calls = s.calls := rfl

@[simp] theorem putBatch_self (s : AccountBatcherImpl) (batchId : ℕ)
    (batch : Option MultipleAccountBatch) :
    (s.putBatch batchId batch).multipleAccountBatches batchId = batch := by simp [putBatch]

@[simp] theorem putBatch_of_ne (s : AccountBatcherImpl) {batchId id : ℕ} (h : id ≠ batchId)
    (batch : Option MultipleAccountBatch) :
    (s.putBatch batchId batch).multipleAccountBatches id = s.multipleAccountBatches id := by
  simp [putBatch, h]

/-- What a step on behalf of call `c` leaves as it is, and what becomes of the
call and of its entry. -/
structure Moves (s s' : AccountBatcherImpl) (c : ℕ) (call call' : BatchCall)
    (entry' : Option MultipleAccountBatch) : Prop where
  nextBatchId : s'.nextBatchId = s.nextBatchId
  callCount : s'.callCount = s.callCount
  self : s'.calls c = some call'
  others : ∀ d ≠ c, s'.calls d = s.calls d
  entry : s'.multipleAccountBatches call.batchId = entry'
  entries : ∀ id ≠ call.batchId, s'.multipleAccountBatches id = s.multipleAccountBatches id
  keys : call'.keys = call.keys
  batchId : call'.batchId = call.batchId

/-- An invariant of the moved call and entry is one of the state. -/
theorem Inv.move {s s' : AccountBatcherImpl} {c : ℕ} {call call' : BatchCall}
    {entry' : Option MultipleAccountBatch} (hs : Inv batchSize s) (hc : s.calls c = some call)
    (hne : call.keys ≠ []) (hmove : Moves s s' c call call' entry')
    (hcall' : CallInv batchSize entry' call') : Inv batchSize s' where
  calls := by
    intro d other hd
    by_cases hdc : d = c
    · subst hdc
      obtain rfl : call' = other := Option.some.inj (hmove.self.symm.trans hd)
      rw [hmove.batchId, hmove.entry]
      exact hcall'
    · rw [hmove.others d hdc] at hd
      by_cases hempty : other.keys = []
      · exact (hs.calls hd).of_no_keys hempty
      · have hid : other.batchId ≠ call.batchId := fun hid => hdc (hs.owner hd hc hempty hne hid)
        rw [hmove.entries _ hid]
        exact hs.calls hd
  owner := by
    have hold : ∀ {d other}, s'.calls d = some other → ∃ other', s.calls d = some other' ∧
        other'.keys = other.keys ∧ other'.batchId = other.batchId := by
      intro d other hd
      by_cases hdc : d = c
      · subst hdc
        obtain rfl : call' = other := Option.some.inj (hmove.self.symm.trans hd)
        exact ⟨call, hc, hmove.keys.symm, hmove.batchId.symm⟩
      · exact ⟨other, (hmove.others d hdc).symm.trans hd, rfl, rfl⟩
    intro d e other other' hd he hkeys hkeys' hid
    obtain ⟨call₁, hd', hk₁, hi₁⟩ := hold hd
    obtain ⟨call₂, he', hk₂, hi₂⟩ := hold he
    exact hs.owner hd' he' (hk₁ ▸ hkeys) (hk₂ ▸ hkeys') (by rw [hi₁, hi₂, hid])
  batchId_lt := by
    intro d other hd hkeys
    rw [hmove.nextBatchId]
    by_cases hdc : d = c
    · subst hdc
      obtain rfl : call' = other := Option.some.inj (hmove.self.symm.trans hd)
      rw [hmove.batchId]
      exact hs.batchId_lt hc hne
    · exact hs.batchId_lt ((hmove.others d hdc).symm.trans hd) hkeys
  fresh := by
    intro id hid
    rw [hmove.nextBatchId] at hid
    have hlt := hs.batchId_lt hc hne
    rw [hmove.entries id (by omega)]
    exact hs.fresh hid
  call_lt := by
    intro d other hd
    rw [hmove.callCount]
    by_cases hdc : d = c
    · exact hdc ▸ hs.call_lt hc
    · exact hs.call_lt ((hmove.others d hdc).symm.trans hd)

theorem Inv.keys_ne_nil_of_chunk {s : AccountBatcherImpl} (hs : Inv batchSize s) {c k : ℕ}
    {call : BatchCall} {chunk : Chunk} (hc : s.calls c = some call)
    (hk : call.chunks[k]? = some chunk) : call.keys ≠ [] := by
  intro hempty
  have hwindow := window_of_chunk (hs.calls hc).requests hk
  simp [hempty, windows, count] at hwindow

/-- The other calls sleep on when the timer of a call is cancelled. -/
theorem Inv.wake_of_ne {s : AccountBatcherImpl} (hs : Inv batchSize s) {c d : ℕ}
    {call other : BatchCall} (hc : s.calls c = some call) (hne : call.keys ≠ [])
    (hd : s.calls d = some other) (hdc : d ≠ c) : wake call.batchId other = other := by
  refine wake_eq_self fun hid hwaiting => ?_
  by_cases hempty : other.keys = []
  · rw [(hs.calls hd).keyless hempty] at hwaiting
    cases hwaiting
  · exact hdc (hs.owner hd hc hempty hne hid)

/-- **A chunk result of one call** moves that call and its entry only. -/
theorem Inv.batchResult {s : AccountBatcherImpl} (hsize : 0 < batchSize) (hs : Inv batchSize s)
    {c k : ℕ} {call : BatchCall} {chunk : Chunk} {result : ChunkResult}
    (hc : s.calls c = some call) (hk : call.chunks[k]? = some chunk)
    (hpending : chunk.isPending = true) :
    ∃ call' entry', Moves s (s.batchResult c call k chunk result) c call call' entry' ∧
      CallInv batchSize entry' call' ∧
      call'.chunks = call.chunks.set k { chunk with result := some result } ∧
      ∀ infos, call'.status ≠ .returned infos := by
  have hne := hs.keys_ne_nil_of_chunk hc hk
  have hlive : ∀ infos, call.status ≠ .returned infos := by
    intro infos hreturned
    have hdone := (((hs.calls hc).returned infos hreturned).2.2 chunk (List.mem_of_getElem? hk)).1
    simp [hpending] at hdone
  let moved : BatchCall :=
    { call with chunks := call.chunks.set k { chunk with result := some result } }
  have hset := (hs.calls hc).setResult hsize hk hpending result
  cases hentry : s.multipleAccountBatches call.batchId with
  | none =>
    simp only [hentry, Option.map_none] at hset
    refine ⟨moved, _, ?_, hset, rfl, hlive⟩
    simp only [AccountBatcherImpl.batchResult, doHandleMultipleAccountBatch,
      putCall_multipleAccountBatches, hentry]
    exact
      { nextBatchId := rfl, callCount := rfl, self := putCall_calls_self .., entry := hentry,
        others := fun d hd => putCall_calls_of_ne s hd _, entries := fun _ _ => rfl,
        keys := rfl, batchId := rfl }
  | some batch =>
    simp only [hentry, Option.map_some] at hset
    simp only [AccountBatcherImpl.batchResult, doHandleMultipleAccountBatch,
      putCall_multipleAccountBatches, hentry]
    split
    case isFalse =>
      refine ⟨moved, _, ?_, hset, rfl, hlive⟩
      exact
        { nextBatchId := rfl, callCount := rfl, self := putCall_calls_self ..,
          others := fun d hd => putCall_calls_of_ne s hd _, entry := putBatch_self ..,
          entries := fun id hid => putBatch_of_ne _ hid _, keys := rfl, batchId := rfl }
    case isTrue hlast =>
      have hzero : (setResult chunk.batchIndex result batch).pendingBatches - 1 = 0 := by
        rw [hlast]
      refine ⟨wake call.batchId moved, _, ?_, hset.wake (hset.done hzero) call.batchId,
        wake_chunks .., fun infos => not_returned_wake (hlive infos)⟩
      refine
        { nextBatchId := rfl, callCount := rfl, self := ?self, others := ?others,
          entry := putBatch_self .., entries := fun id hid => putBatch_of_ne _ hid _,
          keys := wake_keys .., batchId := wake_batchId .. }
      case self =>
        simp only [cancelTimer, putBatch_calls, putCall_calls_self, Option.map_some, moved]
      case others =>
        intro d hd
        simp only [cancelTimer, putBatch_calls, putCall_calls_of_ne s hd]
        cases hother : s.calls d with
        | none => rfl
        | some other => rw [Option.map_some, hs.wake_of_ne hc hne hother hd]

/-- A step that changes the status of a call only. -/
theorem moves_putCall {s : AccountBatcherImpl} {c : ℕ} {call call' : BatchCall}
    (hkeys : call'.keys = call.keys) (hbatchId : call'.batchId = call.batchId) :
    Moves s (s.putCall c call') c call call' (s.multipleAccountBatches call.batchId) where
  nextBatchId := rfl
  callCount := rfl
  self := putCall_calls_self ..
  others := fun _ hd => putCall_calls_of_ne s hd _
  entry := rfl
  entries := fun _ _ => rfl
  keys := hkeys
  batchId := hbatchId

/-- A step that ends a call and erases its entry. -/
theorem moves_putBatch_none {s : AccountBatcherImpl} {c : ℕ} {call call' : BatchCall}
    (hkeys : call'.keys = call.keys) (hbatchId : call'.batchId = call.batchId) :
    Moves s ((s.putCall c call').putBatch call.batchId none) c call call' none where
  nextBatchId := rfl
  callCount := rfl
  self := putCall_calls_self ..
  others := fun _ hd => putCall_calls_of_ne s hd _
  entry := putBatch_self ..
  entries := fun _ hid => putBatch_of_ne _ hid _
  keys := hkeys
  batchId := hbatchId

theorem CallInv.keys_ne_nil {entry : Option MultipleAccountBatch} {call : BatchCall}
    (h : CallInv batchSize entry call) (hstatus : call.status.ended = false) : call.keys ≠ [] := by
  intro hempty
  rw [h.keyless hempty] at hstatus
  cases hstatus

/-- The call moves between the points where it neither returns nor is woken. -/
theorem CallInv.setStatus {entry : Option MultipleAccountBatch} {call : BatchCall}
    (h : CallInv batchSize entry call) (hstatus : call.status.ended = false)
    {status : BatchStatus} {timedOut : Bool} (hcancelled : status ≠ .cancelled)
    (hreturned : ∀ infos, status ≠ .returned infos) (hdefined : status ≠ .undefined)
    (htimedOut : timedOut = true → status ≠ .spawned ∧ status ≠ .waiting) :
    CallInv batchSize entry { call with status, timedOut } where
  requests := h.requests
  batch := by
    intro _
    obtain ⟨batch, hentry, hbatch⟩ := h.batch hstatus
    exact ⟨batch, hentry, ⟨hbatch.pending, hbatch.length, hbatch.answered, hbatch.error_iff⟩⟩
  cancelled := fun h => absurd h hcancelled
  returned := fun infos h => absurd h (hreturned infos)
  timedOut := fun ht => ⟨hreturned, hcancelled, htimedOut ht⟩
  defined := hdefined
  keyless := fun hempty => absurd hempty (h.keys_ne_nil hstatus)

/-! ## The invariant -/

theorem CallInv.fresh (hsize : 0 < batchSize) {keys : List PublicKey} (hne : keys ≠ [])
    (batchId : ℕ) :
    CallInv batchSize (some ⟨none, count batchSize keys.length,
        List.replicate keys.length AccountInfo.zero⟩)
      ⟨keys, batchId, chunkRequests batchSize keys, .spawned, false⟩ := by
  have hnone : ∀ chunk ∈ chunkRequests batchSize keys, chunk.result = none := by
    intro chunk hmem
    rw [chunkRequests_eq hsize] at hmem
    obtain ⟨w, -, rfl⟩ := List.mem_map.mp hmem
    rfl
  have hrequests : (chunkRequests batchSize keys).map Chunk.request = windows batchSize keys := by
    rw [chunkRequests_eq hsize, List.map_map]
    exact List.map_id _
  refine
    { requests := hrequests, batch := fun _ => ⟨_, rfl, ?batch⟩, cancelled := nofun,
      returned := nofun, timedOut := nofun, defined := nofun,
      keyless := fun hempty => absurd hempty hne }
  refine
    { pending := ?pending, length := List.length_replicate, answered := ?answered,
      error_iff := ?error }
  case pending =>
    have hall : (chunkRequests batchSize keys).countP Chunk.isPending =
        (chunkRequests batchSize keys).length :=
      List.countP_eq_length.mpr fun chunk hmem => by simp [Chunk.isPending, hnone chunk hmem]
    show count batchSize keys.length = (chunkRequests batchSize keys).countP Chunk.isPending
    rw [hall, ← length_windows, ← hrequests, List.length_map]
  case answered =>
    intro _ chunk hmem infos hresult
    simp [hnone chunk hmem] at hresult
  case error =>
    refine iff_of_false nofun ?_
    rintro ⟨chunk, hmem, hrefused⟩
    exact not_refused_of_isPending (by simp [Chunk.isPending, hnone chunk hmem]) _ hrefused

/-- A new call without keys has returned at once. -/
theorem callInv_empty (entry : Option MultipleAccountBatch) (batchId : ℕ) :
    CallInv batchSize entry ⟨[], batchId, [], .returned [], false⟩ where
  requests := by simp [windows, count]
  batch h := by cases h
  cancelled h := by cases h
  returned := by
    intro infos hreturned
    obtain rfl : [] = infos := by simpa using hreturned
    exact ⟨rfl, by simp [Answered], by simp⟩
  timedOut h := by cases h
  defined h := by cases h
  keyless := fun _ => rfl

/-- The calls after a new one. -/
theorem update_call_eq_some {s : AccountBatcherImpl} {call other : BatchCall} {d : ℕ}
    (h : Function.update s.calls s.callCount (some call) d = some other) :
    (d = s.callCount ∧ other = call) ∨ s.calls d = some other := by
  by_cases hd : d = s.callCount
  · subst hd
    simp only [Function.update_self, Option.some.injEq] at h
    exact .inl ⟨rfl, h.symm⟩
  · rw [Function.update_of_ne hd] at h
    exact .inr h

/-- A step that adds a call, with a batch of its own if it has keys. -/
theorem Inv.add {s s' : AccountBatcherImpl} {call : BatchCall} (hs : Inv batchSize s)
    (hcalls : s'.calls = Function.update s.calls s.callCount (some call))
    (hcount : s'.callCount = s.callCount + 1) (hnext : s.nextBatchId ≤ s'.nextBatchId)
    (hentries : ∀ id < s.nextBatchId, s'.multipleAccountBatches id = s.multipleAccountBatches id)
    (hfresh : ∀ {id}, s'.nextBatchId ≤ id → s'.multipleAccountBatches id = none)
    (hbatchId : call.keys ≠ [] → s.nextBatchId ≤ call.batchId ∧ call.batchId < s'.nextBatchId)
    (hcall : CallInv batchSize (s'.multipleAccountBatches call.batchId) call) :
    Inv batchSize s' := by
  have hcases : ∀ {d other}, s'.calls d = some other →
      (d = s.callCount ∧ other = call) ∨ s.calls d = some other := fun hd =>
    update_call_eq_some (hcalls ▸ hd)
  refine
    { calls := ?calls, owner := ?owner, batchId_lt := ?batchId_lt, fresh := hfresh,
      call_lt := ?call_lt }
  case calls =>
    intro d other hd
    rcases hcases hd with ⟨-, rfl⟩ | hd
    · exact hcall
    · by_cases hkeys : other.keys = []
      · exact (hs.calls hd).of_no_keys hkeys
      · rw [hentries _ (hs.batchId_lt hd hkeys)]
        exact hs.calls hd
  case owner =>
    intro d e other other' hd he hkeys hkeys' hid
    rcases hcases hd with ⟨rfl, rfl⟩ | hd
    · rcases hcases he with ⟨rfl, rfl⟩ | he
      · rfl
      · exact absurd hid ((hs.batchId_lt he hkeys').trans_le (hbatchId hkeys).1).ne'
    · rcases hcases he with ⟨rfl, rfl⟩ | he
      · exact absurd hid ((hs.batchId_lt hd hkeys).trans_le (hbatchId hkeys').1).ne
      · exact hs.owner hd he hkeys hkeys' hid
  case batchId_lt =>
    intro d other hd hkeys
    rcases hcases hd with ⟨-, rfl⟩ | hd
    · exact (hbatchId hkeys).2
    · exact (hs.batchId_lt hd hkeys).trans_le hnext
  case call_lt =>
    intro d other hd
    rw [hcount]
    rcases hcases hd with ⟨rfl, -⟩ | hd
    · exact Nat.lt_succ_self _
    · exact Nat.lt_succ_of_lt (hs.call_lt hd)

theorem Inv.getMultipleAccounts {s : AccountBatcherImpl} (hsize : 0 < batchSize)
    (hs : Inv batchSize s) (keys : List PublicKey) :
    Inv batchSize (s.doGetMultipleAccounts batchSize keys) := by
  by_cases hempty : keys = []
  · subst hempty
    exact hs.add rfl rfl (Nat.le_refl _) (fun _ _ => rfl) hs.fresh (absurd rfl) (callInv_empty _ _)
  · have hfresh : s.multipleAccountBatches s.nextBatchId = none := hs.fresh (Nat.le_refl _)
    have hnew : s.doGetMultipleAccounts batchSize keys =
        { nextBatchId := s.nextBatchId + 1
          multipleAccountBatches := Function.update s.multipleAccountBatches s.nextBatchId
            (some ⟨none, count batchSize keys.length,
              List.replicate keys.length AccountInfo.zero⟩)
          callCount := s.callCount + 1
          calls := Function.update s.calls s.callCount
            (some ⟨keys, s.nextBatchId, chunkRequests batchSize keys, .spawned, false⟩) } := by
      rw [doGetMultipleAccounts, if_neg (by simpa using hempty), hfresh]; rfl
    rw [hnew]
    refine hs.add rfl rfl (Nat.le_succ _) ?entries ?fresh ?batchId ?call
    case entries =>
      intro id hid
      exact Function.update_of_ne hid.ne _ _
    case fresh =>
      intro id hid
      have hlt : s.nextBatchId < id := hid
      exact (Function.update_of_ne hlt.ne' _ _).trans (hs.fresh hlt.le)
    case batchId =>
      intro _
      exact ⟨Nat.le_refl _, Nat.lt_succ_self _⟩
    case call => simpa only [Function.update_self] using CallInv.fresh hsize hempty s.nextBatchId

/-- What a step does to the call it moves: a chunk gets its result, or the
chunks stay and only a call that resumes after its timer was cancelled may
return. -/
inductive CallEffect (label : Label) (c : ℕ) (call call' : BatchCall) : Prop where
  | answered {k : ℕ} {chunk : Chunk} {result : ChunkResult}
      (hlabel : label = .batchResult c k result) (hk : call.chunks[k]? = some chunk)
      (hpending : chunk.isPending = true)
      (hchunks : call'.chunks = call.chunks.set k { chunk with result := some result })
      (hlive : ∀ infos, call'.status ≠ .returned infos)
  | moved (hresume : ∀ d, label = .resume d → d = c) (hchunks : call'.chunks = call.chunks)
      (hreturned : ∀ infos, call'.status = .returned infos →
        label = .resume c ∧ call.status = .cancelled)

/-- A step on behalf of one call. -/
def MovesCall (batchSize : ℕ) (s s' : AccountBatcherImpl) (label : Label) : Prop :=
  ∃ c call call' entry', s.calls c = some call ∧ call.keys ≠ [] ∧
    Moves s s' c call call' entry' ∧ CallInv batchSize entry' call' ∧ CallEffect label c call call'

/-- A step that changes the status only, to one where the call neither returns
nor is woken. -/
theorem movesCall_status {s : AccountBatcherImpl} {label : Label} {c : ℕ} {call : BatchCall}
    (hresume : ∀ d, label = .resume d → d = c) (hs : Inv batchSize s)
    (hc : s.calls c = some call) (hlive : call.status.ended = false) {status : BatchStatus}
    {timedOut : Bool} (hcancelled : status ≠ .cancelled)
    (hreturned : ∀ infos, status ≠ .returned infos) (hdefined : status ≠ .undefined)
    (htimedOut : timedOut = true → status ≠ .spawned ∧ status ≠ .waiting) :
    MovesCall batchSize s (s.putCall c { call with status, timedOut }) label := by
  have hcall := hs.calls hc
  have hcall' := hcall.setStatus hlive hcancelled hreturned hdefined htimedOut
  exact ⟨c, call, _, _, hc, hcall.keys_ne_nil hlive, moves_putCall rfl rfl, hcall',
    .moved hresume rfl fun infos h => absurd h (hreturned infos)⟩

theorem Inv.movesCall_complete {s s' : AccountBatcherImpl} (hs : Inv batchSize s) {c : ℕ}
    {call : BatchCall} (hc : s.calls c = some call) (h : s.complete c call = some s') :
    MovesCall batchSize s s' (.resume c) := by
  have hcall := hs.calls hc
  have hself : ∀ d, Label.resume c = .resume d → d = c := fun d h => (Label.resume.inj h).symm
  rw [AccountBatcherImpl.complete] at h
  cases hstatus : call.status with
  | cancelled =>
    have hlive : call.status.ended = false := by rw [hstatus]; rfl
    have hkeys := hcall.keys_ne_nil hlive
    obtain ⟨batch, hentry, hbatch⟩ := hcall.batch hlive
    have htimedOut : call.timedOut → False := fun ht => (hcall.timedOut ht).2.1 hstatus
    simp only [hstatus, hentry] at h
    cases herror : batch.error with
    | some error =>
      simp only [herror, Option.some.injEq] at h
      subst h
      refine ⟨c, call, _, _, hc, hkeys, moves_putBatch_none rfl rfl, ?_, .moved hself rfl nofun⟩
      exact
        { requests := hcall.requests, batch := nofun, cancelled := nofun, returned := nofun,
          timedOut := fun ht => (htimedOut ht).elim, defined := nofun,
          keyless := fun hempty => absurd hempty hkeys }
    | none =>
      simp only [herror, Option.some.injEq] at h
      subst h
      refine ⟨c, call, _, _, hc, hkeys, moves_putBatch_none rfl rfl, ?_,
        .moved hself rfl fun _ _ => ⟨rfl, hstatus⟩⟩
      -- the entry holds no error, so no chunk was refused
      have hnone : ¬ ∃ chunk ∈ call.chunks, chunk.Refused call.keys.length := by
        rw [← hbatch.error_iff, herror]
        simp
      have hall : ∀ chunk ∈ call.chunks,
          chunk.isPending = false ∧ ¬ chunk.Refused call.keys.length := fun chunk hmem =>
        ⟨hcall.cancelled hstatus chunk hmem, fun hrefused => hnone ⟨chunk, hmem, hrefused⟩⟩
      exact
        { requests := hcall.requests, batch := nofun, cancelled := nofun,
          returned := fun infos hreturned => by
            obtain rfl : batch.response = infos := by simpa using hreturned
            exact ⟨hbatch.length, hbatch.answered, hall⟩
          timedOut := fun ht => (htimedOut ht).elim, defined := nofun,
          keyless := fun hempty => absurd hempty hkeys }
  | expired =>
    simp only [hstatus, Option.some.injEq] at h
    subst h
    have hlive : call.status.ended = false := by rw [hstatus]; rfl
    exact movesCall_status hself hs hc hlive nofun nofun nofun fun _ => ⟨nofun, nofun⟩
  | timerFailed what =>
    simp only [hstatus, Option.some.injEq] at h
    subst h
    have hlive : call.status.ended = false := by rw [hstatus]; rfl
    exact movesCall_status hself hs hc hlive nofun nofun nofun fun _ => ⟨nofun, nofun⟩
  | spawned => simp [hstatus] at h
  | waiting => simp [hstatus] at h
  | returned infos => simp [hstatus] at h
  | threw error => simp [hstatus] at h
  | undefined => simp [hstatus] at h

/-- **What a step can do**: it adds a call or it moves one. -/
theorem Inv.step_cases (hsize : 0 < batchSize) {s s' : AccountBatcherImpl} {label : Label}
    (hs : Inv batchSize s) (h : step batchSize s label = some s') :
    (∃ keys, label = .getMultipleAccounts keys ∧ s' = s.doGetMultipleAccounts batchSize keys) ∨
      MovesCall batchSize s s' label := by
  cases label with
  | getMultipleAccounts keys => exact .inl ⟨keys, rfl, (Option.some.inj h).symm⟩
  | wait c =>
    have hself : ∀ d, Label.wait c = .resume d → d = c := nofun
    obtain ⟨call, hc, h⟩ := Option.bind_eq_some_iff.mp h
    rw [Option.ite_none_right_eq_some, BatchStatus.isSpawned_iff, Option.some.injEq] at h
    obtain ⟨hstatus, rfl⟩ := h
    have hlive : call.status.ended = false := by rw [hstatus]; rfl
    refine .inr (movesCall_status hself hs hc hlive nofun nofun nofun fun ht => ?_)
    exact absurd hstatus ((hs.calls hc).timedOut ht).2.2.1
  | batchResult c k result =>
    obtain ⟨call, hc, h⟩ := Option.bind_eq_some_iff.mp h
    obtain ⟨chunk, hk, h⟩ := Option.bind_eq_some_iff.mp h
    rw [Option.ite_none_right_eq_some, Option.some.injEq] at h
    obtain ⟨hpending, rfl⟩ := h
    obtain ⟨call', entry', hmove, hcall', hchunks, hlive⟩ := hs.batchResult hsize hc hk hpending
    exact .inr ⟨c, call, call', entry', hc, hs.keys_ne_nil_of_chunk hc hk, hmove, hcall',
      .answered rfl hk hpending hchunks hlive⟩
  | expire c =>
    have hself : ∀ d, Label.expire c = .resume d → d = c := nofun
    obtain ⟨call, hc, h⟩ := Option.bind_eq_some_iff.mp h
    rw [Option.ite_none_right_eq_some, BatchStatus.isWaiting_iff, Option.some.injEq] at h
    obtain ⟨hstatus, rfl⟩ := h
    have hlive : call.status.ended = false := by rw [hstatus]; rfl
    exact .inr (movesCall_status hself hs hc hlive nofun nofun nofun fun _ => ⟨nofun, nofun⟩)
  | timerError c what =>
    have hself : ∀ d, Label.timerError c what = .resume d → d = c := nofun
    obtain ⟨call, hc, h⟩ := Option.bind_eq_some_iff.mp h
    rw [Option.ite_none_right_eq_some, BatchStatus.isWaiting_iff, Option.some.injEq] at h
    obtain ⟨hstatus, rfl⟩ := h
    have hlive : call.status.ended = false := by rw [hstatus]; rfl
    exact .inr (movesCall_status hself hs hc hlive nofun nofun nofun fun _ => ⟨nofun, nofun⟩)
  | resume c =>
    obtain ⟨call, hc, h⟩ := Option.bind_eq_some_iff.mp h
    exact .inr (hs.movesCall_complete hc h)

theorem inv_step (hsize : 0 < batchSize) {s s' : AccountBatcherImpl} {label : Label}
    (hs : Inv batchSize s) (h : step batchSize s label = some s') : Inv batchSize s' := by
  rcases hs.step_cases hsize h with
    ⟨keys, -, rfl⟩ | ⟨c, call, call', entry', hc, hne, hmove, hcall', -⟩
  · exact hs.getMultipleAccounts hsize keys
  · exact hs.move hc hne hmove hcall'

/-! ## Runs -/

/-- A chunk request that succeeds brings one account for each of its keys. -/
def StepOk (s : AccountBatcherImpl) : Label → Prop
  | .batchResult c k (.ok infos) =>
    ∀ call ∈ s.calls c, ∀ chunk ∈ call.chunks[k]?, infos.length = chunk.keys.length
  | _ => True

instance (s : AccountBatcherImpl) : (label : Label) → Decidable (StepOk s label)
  | .getMultipleAccounts _ => .isTrue trivial
  | .wait _ => .isTrue trivial
  | .batchResult c k (.ok infos) => inferInstanceAs (Decidable
      (∀ call ∈ s.calls c, ∀ chunk ∈ call.chunks[k]?, infos.length = chunk.keys.length))
  | .batchResult _ _ (.error _) => .isTrue trivial
  | .expire _ => .isTrue trivial
  | .timerError _ _ => .isTrue trivial
  | .resume _ => .isTrue trivial

/-- Every response has its chunk's size. -/
def AllSized (s : AccountBatcherImpl) : Prop :=
  ∀ c call, s.calls c = some call → ∀ chunk ∈ call.chunks, chunk.Sized

/-- The calls a new one leaves, and the new one, of which no chunk has a
result and which returns at once only if it has no chunk. -/
theorem calls_doGetMultipleAccounts (hsize : 0 < batchSize) {s : AccountBatcherImpl}
    {keys : List PublicKey} {c : ℕ} {call : BatchCall}
    (hc : (s.doGetMultipleAccounts batchSize keys).calls c = some call) :
    s.calls c = some call ∨ (∀ chunk ∈ call.chunks, chunk.isPending = true) ∧
      ∀ infos, call.status = .returned infos → call.chunks = [] := by
  rw [doGetMultipleAccounts] at hc
  split at hc
  · rcases update_call_eq_some hc with ⟨-, rfl⟩ | hold
    · exact .inr ⟨nofun, fun _ _ => rfl⟩
    · exact .inl hold
  · rcases update_call_eq_some hc with ⟨-, rfl⟩ | hold
    · refine .inr ⟨fun chunk hmem => ?_, nofun⟩
      rw [chunkRequests_eq hsize] at hmem
      obtain ⟨w, -, rfl⟩ := List.mem_map.mp hmem
      rfl
    · exact .inl hold

theorem allSized_step (hsize : 0 < batchSize) {s s' : AccountBatcherImpl} {label : Label}
    (hs : Inv batchSize s) (hsized : AllSized s) (hok : StepOk s label)
    (h : step batchSize s label = some s') : AllSized s' := by
  rcases hs.step_cases hsize h with
    ⟨keys, -, rfl⟩ | ⟨c, call, call', entry', hc, -, hmove, -, heffect⟩
  · intro d other hd chunk hmem
    rcases calls_doGetMultipleAccounts hsize hd with hold | ⟨hpending, -⟩
    · exact hsized d other hold chunk hmem
    · exact sized_of_isPending (hpending chunk hmem)
  · intro d other hd chunk hmem
    by_cases hdc : d = c
    · subst hdc
      obtain rfl : call' = other := Option.some.inj (hmove.self.symm.trans hd)
      cases heffect with
      | @answered k chunk₀ result hlabel hk hpending hchunks hlive =>
        rw [hchunks] at hmem
        rcases (mem_set_iff hk).mp hmem with rfl | ⟨k', -, hk'⟩
        · intro infos hresult
          obtain rfl := Option.some.inj hresult
          subst hlabel
          exact hok call hc chunk₀ hk
        · exact hsized d call hc chunk (List.mem_of_getElem? hk')
      | moved _ hchunks _ => exact hsized d call hc chunk (hchunks ▸ hmem)
    · exact hsized d other ((hmove.others d hdc).symm.trans hd) chunk hmem

/-- What a call is promised. -/
structure Batching (batchSize : ℕ) (s : AccountBatcherImpl) : Prop where
  /-- A call that returned has, for each key, the account its chunk brought. -/
  returned : ∀ c call infos, s.calls c = some call → call.status = .returned infos →
    infos.length = call.keys.length ∧
      ∀ i key, call.keys[i]? = some key → ∃ chunk ∈ call.chunks, ∃ answer j,
        chunk.result = some (.ok answer) ∧ chunk.batchIndex + j = i ∧
          chunk.keys[j]? = some key ∧ j < answer.length ∧ infos[i]? = answer[j]?
  /-- A call of which a chunk failed or the timer ran out ends by a throw. -/
  threw : ∀ c call, s.calls c = some call → call.status.ended = true →
    (call.timedOut = true ∨ ∃ chunk ∈ call.chunks, ∃ error, chunk.result = some (.error error)) →
      ∃ error, call.status = .threw error
  /-- A chunk result of one call leaves the other calls and their entries. -/
  isolated : ∀ c k result s', step batchSize s (.batchResult c k result) = some s' →
    ∀ d ≠ c, s'.calls d = s.calls d ∧ ∀ other, s.calls d = some other → other.keys ≠ [] →
      s'.multipleAccountBatches other.batchId = s.multipleAccountBatches other.batchId

/-- A call that returned when every response was of its chunk's size has each
account at the place of its key. -/
theorem CallInv.placed (hsize : 0 < batchSize) {entry : Option MultipleAccountBatch}
    {call : BatchCall} (h : CallInv batchSize entry call) {infos : List AccountInfo}
    (hreturned : call.status = .returned infos) (hsized : ∀ chunk ∈ call.chunks, chunk.Sized) :
    infos.length = call.keys.length ∧
      ∀ i key, call.keys[i]? = some key → ∃ chunk ∈ call.chunks, ∃ answer j,
        chunk.result = some (.ok answer) ∧ chunk.batchIndex + j = i ∧
          chunk.keys[j]? = some key ∧ j < answer.length ∧ infos[i]? = answer[j]? := by
  obtain ⟨hlength, hanswered, hall⟩ := h.returned infos hreturned
  refine ⟨hlength, fun i key hkey => ?_⟩
  obtain ⟨hi, -⟩ := List.getElem?_eq_some_iff.mp hkey
  obtain ⟨k, w, hwindow, j, hj, rfl⟩ := exists_window hsize hi
  have hplace := getElem?_window hwindow hj
  rw [← h.requests, List.getElem?_map, Option.map_eq_some_iff] at hwindow
  obtain ⟨chunk, hk, rfl⟩ := hwindow
  have hmem := List.mem_of_getElem? hk
  obtain ⟨hdone, hnot⟩ := hall chunk hmem
  match hresult : chunk.result with
  | none => simp [Chunk.isPending, hresult] at hdone
  | some (.error error) => simp [Chunk.Refused, hresult] at hnot
  | some (.ok answer) =>
    obtain ⟨hanswer, hentries⟩ := hanswered hsized chunk hmem answer hresult
    have hj' : j < answer.length := hanswer ▸ hj
    exact ⟨chunk, hmem, answer, j, hresult, rfl, hplace.trans hkey, hj', hentries j hj'⟩

/-- A call ends by a throw or a return. -/
theorem CallInv.ended_cases {entry : Option MultipleAccountBatch} {call : BatchCall}
    (h : CallInv batchSize entry call) (hended : call.status.ended = true) :
    (∃ error, call.status = .threw error) ∨ ∃ infos, call.status = .returned infos := by
  cases hstatus : call.status with
  | threw error => exact .inl ⟨error, rfl⟩
  | returned infos => exact .inr ⟨infos, rfl⟩
  | undefined => exact absurd hstatus h.defined
  | spawned => simp [hstatus, BatchStatus.ended] at hended
  | waiting => simp [hstatus, BatchStatus.ended] at hended
  | cancelled => simp [hstatus, BatchStatus.ended] at hended
  | expired => simp [hstatus, BatchStatus.ended] at hended
  | timerFailed what => simp [hstatus, BatchStatus.ended] at hended

theorem Inv.batching (hsize : 0 < batchSize) {s : AccountBatcherImpl} (hs : Inv batchSize s)
    (hsized : AllSized s) : Batching batchSize s where
  returned := by
    intro c call infos hc hreturned
    exact (hs.calls hc).placed hsize hreturned (hsized c call hc)
  threw := by
    intro c call hc hended hfailed
    have hcall := hs.calls hc
    rcases hcall.ended_cases hended with hthrew | ⟨infos, hreturned⟩
    · exact hthrew
    · exfalso
      rcases hfailed with ht | ⟨chunk, hmem, error, hresult⟩
      · exact (hcall.timedOut ht).1 infos hreturned
      · have hnot := ((hcall.returned infos hreturned).2.2 chunk hmem).2
        simp [Chunk.Refused, hresult] at hnot
  isolated := by
    intro c k result s' hstep d hd
    obtain ⟨call, hc, hstep⟩ := Option.bind_eq_some_iff.mp hstep
    obtain ⟨chunk, hk, hstep⟩ := Option.bind_eq_some_iff.mp hstep
    rw [Option.ite_none_right_eq_some, Option.some.injEq] at hstep
    obtain ⟨hpending, rfl⟩ := hstep
    obtain ⟨call', entry', hmove, -⟩ := hs.batchResult hsize hc hk hpending
    refine ⟨hmove.others d hd, fun other hother hkeys => hmove.entries _ fun hid => hd ?_⟩
    exact hs.owner hother hc hkeys (hs.keys_ne_nil_of_chunk hc hk) hid

/-- **Account batching.** For every positive batch size and every run in which
the successful chunk responses have one account for each of their keys,
whatever the order of the chunk results, failures and time-outs of any number
of calls. -/
theorem batching_of_run (hsize : 0 < batchSize) {labels : List Label} {s : AccountBatcherImpl}
    (hok : Along (step batchSize) StepOk init labels)
    (hrun : run (step batchSize) init labels = some s) : Batching batchSize s := by
  have hinit : Inv batchSize init ∧ AllSized init := ⟨inv_init, nofun⟩
  have hstep : ∀ s label s', Inv batchSize s ∧ AllSized s → StepOk s label →
      step batchSize s label = some s' → Inv batchSize s' ∧ AllSized s' :=
    fun _ _ _ hs hok h => ⟨inv_step hsize hs.1 h, allSized_step hsize hs.1 hs.2 hok h⟩
  obtain ⟨hinv, hsized⟩ := invariant_along hstep hinit hok hrun
  exact hinv.batching hsize hsized

/-- An account that tells its key apart. -/
def infoOf (b : UInt8) : AccountInfo := ⟨false, 0, ByteArr.fill 32 b, [b]⟩

/-- Two calls at once, with chunks of two keys. The second chunk of call 0
comes before its first; the chunk of call 1 fails. -/
def twoCalls : List Label :=
  [.getMultipleAccounts [ByteArr.fill 32 1, ByteArr.fill 32 2, ByteArr.fill 32 3],
    .getMultipleAccounts [ByteArr.fill 32 4], .wait 0, .wait 1, .batchResult 0 1 (.ok [infoOf 3]),
    .batchResult 1 0 (.error ⟨"connection lost"⟩), .batchResult 0 0 (.ok [infoOf 1, infoOf 2]),
    .resume 1, .resume 0]

def infos? : BatchStatus → Option (List AccountInfo)
  | .returned infos => some infos
  | _ => none

theorem batching_of_run_twoCalls :
    ∃ s, run (step 2) init twoCalls = some s ∧ Batching 2 s ∧
      (s.calls 0).bind (fun call => infos? call.status) = some [infoOf 1, infoOf 2, infoOf 3] ∧
      (s.calls 1).bind (fun call => infos? call.status) = none := by
  have hinfos : (run (step 2) init twoCalls).map (fun s =>
      ((s.calls 0).bind fun call => infos? call.status,
        (s.calls 1).bind fun call => infos? call.status)) =
      some (some [infoOf 1, infoOf 2, infoOf 3], none) := by decide +kernel
  obtain ⟨s, hs, hinfos⟩ := Option.map_eq_some_iff.mp hinfos
  rw [Prod.mk.injEq] at hinfos
  exact ⟨s, hs, batching_of_run (by decide) (by decide +kernel) hs, hinfos⟩

end AccountBatcherImpl

end Synthfi.Solana
