/-
Synthfi.Solana.AccountBatcher — requests for many accounts, sent in chunks
(`Solana/AccountBatcher/AccountBatcherImpl.{hpp,cpp}`).

`do_get_multiple_accounts` is a coroutine on the strand. Each call is kept
with the point where it stands and with its chunk requests; a chunk holds its
result once `do_handle_multiple_account_batch` has taken it. The result of
any chunk without one may come at any time, also before the call waits and
after it has ended. Batch ids are counted without a bound: a `uint64_t` takes
2^64 calls to come round. `timedOut` is a ghost.
-/
import Mathlib.Logic.Function.Basic
import Synthfi.Lib.Run
import Synthfi.Lib.Windows
import Synthfi.Solana.SolanaTypes

namespace Synthfi.Solana

open Synthfi.Core Bytes

/-- A value-initialised account. -/
def AccountInfo.zero : AccountInfo := ⟨false, 0, ByteArr.fill 32 0, []⟩

/-- What one chunk request brings. -/
abbrev ChunkResult := Except SynthfiError (List AccountInfo)

/-- One chunk request of a call, with its result once that was handled. -/
structure Chunk where
  batchIndex : ℕ
  keys : List PublicKey
  result : Option ChunkResult

def Chunk.isPending (chunk : Chunk) : Bool := chunk.result.isNone

structure MultipleAccountBatch where
  error : Option SynthfiError
  pendingBatches : ℕ
  response : List AccountInfo
  deriving DecidableEq

inductive BatchStatus where
  /-- The chunk requests are spawned, the timer is not waited for yet. -/
  | spawned
  | waiting
  /-- The timer was cancelled; the call has not resumed yet. -/
  | cancelled
  | expired
  | timerFailed (what : String)
  | returned (infos : List AccountInfo)
  | threw (error : SynthfiError)
  /-- It read an entry that is not there. -/
  | undefined

namespace BatchStatus

def isSpawned : BatchStatus → Bool
  | spawned => true
  | _ => false

def isWaiting : BatchStatus → Bool
  | waiting => true
  | _ => false

def ended : BatchStatus → Bool
  | returned _ => true
  | threw _ => true
  | undefined => true
  | _ => false

@[simp] theorem isSpawned_iff {status : BatchStatus} :
    status.isSpawned = true ↔ status = .spawned := by
  cases status <;> simp [isSpawned]

@[simp] theorem isWaiting_iff {status : BatchStatus} :
    status.isWaiting = true ↔ status = .waiting := by
  cases status <;> simp [isWaiting]

end BatchStatus

structure BatchCall where
  keys : List PublicKey
  batchId : ℕ
  chunks : List Chunk
  status : BatchStatus
  timedOut : Bool

structure AccountBatcherImpl where
  nextBatchId : ℕ
  multipleAccountBatches : ℕ → Option MultipleAccountBatch
  callCount : ℕ
  calls : ℕ → Option BatchCall

namespace AccountBatcherImpl

def init : AccountBatcherImpl := ⟨0, fun _ => none, 0, fun _ => none⟩

/-! ## `do_get_multiple_accounts` -/

/-- The loop over the chunks. Every pass moves on by the batch size, which is
positive, so as many passes as there are keys are enough. -/
def chunkLoop (batchSize : ℕ) (keys : List PublicKey) : ℕ → ℕ → List Chunk
  | 0, _ => []
  | fuel + 1, batchIndex =>
    if batchIndex < keys.length then
      ⟨batchIndex, (keys.drop batchIndex).take (min batchSize (keys.length - batchIndex)), none⟩ ::
        chunkLoop batchSize keys fuel (batchIndex + batchSize)
    else []

def chunkRequests (batchSize : ℕ) (keys : List PublicKey) : List Chunk :=
  chunkLoop batchSize keys keys.length 0

variable (s : AccountBatcherImpl)

def putBatch (batchId : ℕ) (batch : Option MultipleAccountBatch) : AccountBatcherImpl :=
  { s with multipleAccountBatches := Function.update s.multipleAccountBatches batchId batch }

def putCall (c : ℕ) (call : BatchCall) : AccountBatcherImpl :=
  { s with calls := Function.update s.calls c (some call) }

/-- A new call, up to the wait. `emplace` keeps an entry that is there. -/
def doGetMultipleAccounts (batchSize : ℕ) (keys : List PublicKey) : AccountBatcherImpl :=
  let s' := { s with callCount := s.callCount + 1 }
  if keys.isEmpty then s'.putCall s.callCount ⟨keys, s.nextBatchId, [], .returned [], false⟩
  else
    let requestCount := keys.length / batchSize + if 0 < keys.length % batchSize then 1 else 0
    let batch := (s.multipleAccountBatches s.nextBatchId).getD
      ⟨none, requestCount, List.replicate keys.length AccountInfo.zero⟩
    { ((s'.putCall s.callCount
        ⟨keys, s.nextBatchId, chunkRequests batchSize keys, .spawned, false⟩).putBatch
          s.nextBatchId (some batch)) with
      nextBatchId := s.nextBatchId + 1 }

/-- After the wait. The entry is erased only when the timer was cancelled. -/
def complete (c : ℕ) (call : BatchCall) : Option AccountBatcherImpl :=
  match call.status with
  | .cancelled =>
    match s.multipleAccountBatches call.batchId with
    | none => some (s.putCall c { call with status := .undefined })
    | some batch =>
      match batch.error with
      | some error => some ((s.putCall c { call with status := .threw error }).putBatch
          call.batchId none)
      | none => some ((s.putCall c { call with status := .returned batch.response }).putBatch
          call.batchId none)
  | .expired => some (s.putCall c { call with status := .threw ⟨"Timed out "⟩ })
  | .timerFailed what => some (s.putCall c { call with status := .threw ⟨what⟩ })
  | _ => none

/-! ## `do_handle_multiple_account_batch` -/

def wake (batchId : ℕ) (call : BatchCall) : BatchCall :=
  if call.batchId = batchId ∧ call.status.isWaiting then { call with status := .cancelled }
  else call

/-- `expiryTimer.cancel( )`: it wakes the call that waits for it. -/
def cancelTimer (batchId : ℕ) : AccountBatcherImpl :=
  { s with calls := fun c => (s.calls c).map (wake batchId) }

/-- What a chunk result does to the entry of its batch. -/
def setResult (batchIndex : ℕ) (result : ChunkResult) (batch : MultipleAccountBatch) :
    MultipleAccountBatch :=
  match result with
  | .error error => { batch with error := some error }
  | .ok infos =>
    if batch.response.length < infos.length + batchIndex then
      { batch with error := some ⟨"Invalid GetMultipleAccountsResponse size"⟩ }
    else { batch with response := Windows.overwrite batch.response batchIndex infos }

/-- The timer is cancelled when the decrement reaches zero. -/
def doHandleMultipleAccountBatch (batchId batchIndex : ℕ) (result : ChunkResult) :
    AccountBatcherImpl :=
  match s.multipleAccountBatches batchId with
  | none => s
  | some batch =>
    let batch' := setResult batchIndex result batch
    let s' := s.putBatch batchId
      (some { batch' with pendingBatches := batch'.pendingBatches - 1 })
    if batch'.pendingBatches = 1 then s'.cancelTimer batchId else s'

/-- The result of a chunk request is handled. -/
def batchResult (c : ℕ) (call : BatchCall) (k : ℕ) (chunk : Chunk) (result : ChunkResult) :
    AccountBatcherImpl :=
  (s.putCall c { call with chunks := call.chunks.set k { chunk with result := some result } })
    |>.doHandleMultipleAccountBatch call.batchId chunk.batchIndex result

/-! ## Steps -/

inductive Label where
  | getMultipleAccounts (keys : List PublicKey)
  /-- The call starts to wait. -/
  | wait (c : ℕ)
  /-- The result of the chunk with number `k` of call `c`. -/
  | batchResult (c k : ℕ) (result : ChunkResult)
  | expire (c : ℕ)
  | timerError (c : ℕ) (what : String)
  | resume (c : ℕ)

def step (batchSize : ℕ) : AccountBatcherImpl → Label → Option AccountBatcherImpl
  | s, .getMultipleAccounts keys => some (s.doGetMultipleAccounts batchSize keys)
  | s, .wait c => (s.calls c).bind fun call =>
    if call.status.isSpawned then some (s.putCall c { call with status := .waiting }) else none
  | s, .batchResult c k result => (s.calls c).bind fun call =>
    (call.chunks[k]?).bind fun chunk =>
      if chunk.isPending then some (s.batchResult c call k chunk result) else none
  | s, .expire c => (s.calls c).bind fun call =>
    if call.status.isWaiting then
      some (s.putCall c { call with status := .expired, timedOut := true }) else none
  | s, .timerError c what => (s.calls c).bind fun call =>
    if call.status.isWaiting then
      some (s.putCall c { call with status := .timerFailed what, timedOut := true }) else none
  | s, .resume c => (s.calls c).bind fun call => s.complete c call

end AccountBatcherImpl

end Synthfi.Solana
