/-
Synthfi.Solana.ResponseSizeTheorems — responses that do not have one account
for each key of their chunk.

The handler compares the end of a response with the number of keys of the
whole call. That refuses what runs past the last key; a short response of any
chunk, and a long one of any chunk but the last, is copied in. The call then
returns, with default-constructed accounts or with accounts at the places of
other keys.

* `CallInv.keeps_iff` — a call keeps the promise exactly if it did
  not return or every response has its chunk's size.
* `refusesMalformed_iff` — a run keeps the promise for every call exactly when
  no call resumes after its timer was cancelled with a response of a wrong
  size and none refused.
-/
import Synthfi.Solana.AccountBatcherTheorems

namespace Synthfi.Solana

open Synthfi.Core Bytes Windows Run

deriving instance DecidableEq for BatchStatus

instance (chunk : Chunk) : Decidable chunk.Sized :=
  match h : chunk.result with
  | none => .isTrue (by simp [Chunk.Sized, h])
  | some (.error _) => .isTrue (by simp [Chunk.Sized, h])
  | some (.ok infos) =>
    decidable_of_iff (infos.length = chunk.keys.length) (by simp [Chunk.Sized, h])

instance (total : ℕ) (chunk : Chunk) : Decidable (chunk.Refused total) :=
  match h : chunk.result with
  | none => .isFalse (by simp [Chunk.Refused, h])
  | some (.error _) => .isTrue (by simp [Chunk.Refused, h])
  | some (.ok infos) =>
    decidable_of_iff (total < infos.length + chunk.batchIndex) (by simp [Chunk.Refused, h])

/-- What is promised of a call: it throws if a response does not have one
account for each key of its chunk, and what it returns has at the place of
each key the account its chunk brought for it. -/
structure BatchCall.RefusesMalformed (call : BatchCall) : Prop where
  threw : call.status.ended = true → (∃ chunk ∈ call.chunks, ¬ chunk.Sized) →
    ∃ error, call.status = .threw error
  placed : ∀ infos, call.status = .returned infos → infos.length = call.keys.length ∧
    ∀ i key, call.keys[i]? = some key → ∃ chunk ∈ call.chunks, ∃ answer j,
      chunk.result = some (.ok answer) ∧ chunk.batchIndex + j = i ∧
        chunk.keys[j]? = some key ∧ j < answer.length ∧ infos[i]? = answer[j]?

/-- A call that returned had all its responses of their chunk's size. -/
def BatchCall.ReturnedSized (call : BatchCall) : Prop :=
  ∀ infos, call.status = .returned infos → ∀ chunk ∈ call.chunks, chunk.Sized

namespace AccountBatcherImpl

variable {batchSize : ℕ} {s s' : AccountBatcherImpl} {label : Label}

/-- Every call keeps the promise. -/
def RefusesMalformed (s : AccountBatcherImpl) : Prop :=
  ∀ c call, s.calls c = some call → call.RefusesMalformed

/-- **One call.** The promise is kept exactly if the call did not return or
every response has its chunk's size. -/
theorem CallInv.keeps_iff (hsize : 0 < batchSize)
    {entry : Option MultipleAccountBatch} {call : BatchCall} (h : CallInv batchSize entry call) :
    call.RefusesMalformed ↔ call.ReturnedSized := by
  constructor
  · intro hkept infos hreturned chunk hmem
    by_contra hwrong
    have hended : call.status.ended = true := by rw [hreturned]; rfl
    obtain ⟨error, hthrew⟩ := hkept.threw hended ⟨chunk, hmem, hwrong⟩
    rw [hthrew] at hreturned
    cases hreturned
  · intro hsized
    refine ⟨fun hended ⟨chunk, hmem, hwrong⟩ => ?_, fun infos hreturned => ?_⟩
    · rcases h.ended_cases hended with hthrew | ⟨infos, hreturned⟩
      · exact hthrew
      · exact absurd (hsized infos hreturned chunk hmem) hwrong
    · exact h.placed hsize hreturned (hsized infos hreturned)

/-! ## Steps -/

/-- A call resumes after its timer was cancelled only with every response of
its chunk's size, or with one that the handler refused. -/
def ResumeOk (s : AccountBatcherImpl) : Label → Prop
  | .resume c => ∀ call ∈ s.calls c, call.status = .cancelled →
    (∀ chunk ∈ call.chunks, chunk.Sized) ∨
      ∃ chunk ∈ call.chunks, chunk.Refused call.keys.length
  | _ => True

instance (s : AccountBatcherImpl) : (label : Label) → Decidable (ResumeOk s label)
  | .getMultipleAccounts _ => .isTrue trivial
  | .wait _ => .isTrue trivial
  | .batchResult _ _ _ => .isTrue trivial
  | .expire _ => .isTrue trivial
  | .timerError _ _ => .isTrue trivial
  | .resume c => inferInstanceAs (Decidable
      (∀ call ∈ s.calls c, call.status = .cancelled →
        (∀ chunk ∈ call.chunks, chunk.Sized) ∨
          ∃ chunk ∈ call.chunks, chunk.Refused call.keys.length))

/-- A call that resumes after its timer was cancelled returns exactly if no
result was refused. -/
theorem Inv.resume_returned_iff (hs : Inv batchSize s) {c : ℕ} {call call' : BatchCall}
    (hc : s.calls c = some call) (hcancelled : call.status = .cancelled)
    (hstep : step batchSize s (.resume c) = some s') (hc' : s'.calls c = some call') :
    (∃ infos, call'.status = .returned infos) ↔
      ¬ ∃ chunk ∈ call.chunks, chunk.Refused call.keys.length := by
  have hlive : call.status.ended = false := by rw [hcancelled]; rfl
  obtain ⟨batch, hentry, hbatch⟩ := (hs.calls hc).batch hlive
  rw [← hbatch.error_iff]
  simp only [step, hc, Option.bind_some, AccountBatcherImpl.complete, hcancelled, hentry] at hstep
  cases herror : batch.error with
  | some error =>
    simp only [herror, Option.some.injEq] at hstep
    subst hstep
    rw [putBatch_calls, putCall_calls_self, Option.some.injEq] at hc'
    subst hc'
    exact iff_of_false (by simp) (by simp)
  | none =>
    simp only [herror, Option.some.injEq] at hstep
    subst hstep
    rw [putBatch_calls, putCall_calls_self, Option.some.injEq] at hc'
    subst hc'
    exact iff_of_true ⟨batch.response, rfl⟩ (by simp)

/-- The call a step moves keeps the promise exactly if the step is `ResumeOk`. -/
theorem CallEffect.returnedSized_iff (hs : Inv batchSize s) {c : ℕ} {call call' : BatchCall}
    (hc : s.calls c = some call) (hc' : s'.calls c = some call')
    (hstep : step batchSize s label = some s') (heffect : CallEffect label c call call') :
    call'.ReturnedSized ↔ ResumeOk s label := by
  cases heffect with
  | answered hlabel _ _ _ hlive =>
    subst hlabel
    exact iff_of_true (fun infos hreturned => absurd hreturned (hlive infos)) trivial
  | moved hresume hchunks hreturned =>
    by_cases hwoken : label = .resume c ∧ call.status = .cancelled
    · obtain ⟨rfl, hcancelled⟩ := hwoken
      have hreturns := hs.resume_returned_iff hc hcancelled hstep hc'
      have hok : ResumeOk s (.resume c) ↔ (∀ chunk ∈ call.chunks, chunk.Sized) ∨
          ∃ chunk ∈ call.chunks, chunk.Refused call.keys.length := by
        simp [ResumeOk, hc, hcancelled]
      rw [hok]
      constructor
      · intro hsized
        by_cases hrefused : ∃ chunk ∈ call.chunks, chunk.Refused call.keys.length
        · exact .inr hrefused
        · obtain ⟨infos, hstatus⟩ := hreturns.mpr hrefused
          exact .inl (hchunks ▸ hsized infos hstatus)
      · intro hguard infos hstatus
        rcases hguard with hsized | hrefused
        · exact hchunks ▸ hsized
        · exact absurd hrefused (hreturns.mp ⟨infos, hstatus⟩)
    · -- it does not return
      refine iff_of_true (fun infos hstatus => absurd (hreturned infos hstatus) hwoken) ?_
      cases label with
      | resume d =>
        obtain rfl := hresume d rfl
        intro other hother hcancelled
        obtain rfl : call = other := Option.some.inj (hc.symm.trans hother)
        exact absurd ⟨rfl, hcancelled⟩ hwoken
      | getMultipleAccounts keys => trivial
      | wait d => trivial
      | batchResult d k result => trivial
      | expire d => trivial
      | timerError d what => trivial

/-- **One step.** From a state where every call keeps the promise, it leads to
one exactly if it is `ResumeOk`. -/
theorem refusesMalformed_step (hsize : 0 < batchSize) (hs : Inv batchSize s)
    (hgood : s.RefusesMalformed) (hstep : step batchSize s label = some s') :
    s'.RefusesMalformed ↔ ResumeOk s label := by
  have hs' := inv_step hsize hs hstep
  have hiff : ∀ {d other}, s'.calls d = some other →
      (other.RefusesMalformed ↔ other.ReturnedSized) := fun hd =>
    (hs'.calls hd).keeps_iff hsize
  rcases hs.step_cases hsize hstep with
    ⟨keys, rfl, rfl⟩ | ⟨c, call, call', entry', hc, -, hmove, -, heffect⟩
  · refine iff_of_true (fun d other hd => ?_) trivial
    rcases calls_doGetMultipleAccounts hsize hd with hold | ⟨-, hkeyless⟩
    · exact hgood d other hold
    · refine (hiff hd).mpr fun infos hreturned chunk hmem => ?_
      rw [hkeyless infos hreturned] at hmem
      cases hmem
  · rw [← heffect.returnedSized_iff hs hc hmove.self hstep, ← hiff hmove.self]
    constructor
    · intro hgood'
      exact hgood' c call' hmove.self
    · intro hkept d other hd
      by_cases hdc : d = c
      · subst hdc
        obtain rfl : call' = other := Option.some.inj (hmove.self.symm.trans hd)
        exact hkept
      · exact hgood d other ((hmove.others d hdc).symm.trans hd)

/-! ## Runs -/

/-- **Malformed responses.** For every positive batch size and every run, over
all orders of the results of any number of calls: every call keeps the promise
in every state reached exactly when no call resumes after its timer was
cancelled with a response of a wrong size and none refused. -/
theorem refusesMalformed_iff (hsize : 0 < batchSize) {labels : List Label}
    {t : AccountBatcherImpl} (hrun : run (step batchSize) init labels = some t) :
    (∀ n u, run (step batchSize) init (labels.take n) = some u → u.RefusesMalformed) ↔
      Along (step batchSize) ResumeOk init labels := by
  have hkeeps : ∀ s label s', Inv batchSize s → s.RefusesMalformed → ResumeOk s label →
      step batchSize s label = some s' → Inv batchSize s' :=
    fun _ _ _ hs _ _ hstep => inv_step hsize hs hstep
  have hexact : ∀ s label s', Inv batchSize s → s.RefusesMalformed →
      step batchSize s label = some s' → (s'.RefusesMalformed ↔ ResumeOk s label) :=
    fun _ _ _ hs hgood hstep => refusesMalformed_step hsize hs hgood hstep
  exact along_iff_prefixes hkeeps hexact inv_init nofun hrun

def threeKeys : List PublicKey := [ByteArr.fill 32 1, ByteArr.fill 32 2, ByteArr.fill 32 3]

/-- Chunks of two keys. The response to the last chunk has two accounts: it
runs past the last key. -/
def longLastChunk : List Label :=
  [.getMultipleAccounts threeKeys, .wait 0, .batchResult 0 1 (.ok [infoOf 3, infoOf 4]),
    .batchResult 0 0 (.ok [infoOf 1, infoOf 2]), .resume 0]

theorem refusesMalformed_iff_longLastChunk :
    ∃ t, run (step 2) init longLastChunk = some t ∧
      (t.calls 0).map BatchCall.status =
        some (.threw ⟨"Invalid GetMultipleAccountsResponse size"⟩) ∧
      ∀ n u, run (step 2) init (longLastChunk.take n) = some u → u.RefusesMalformed := by
  have hstatus : (run (step 2) init longLastChunk).map (fun t =>
      (t.calls 0).map BatchCall.status) =
        some (some (.threw ⟨"Invalid GetMultipleAccountsResponse size"⟩)) := by decide +kernel
  obtain ⟨t, ht, hstatus⟩ := Option.map_eq_some_iff.mp hstatus
  exact ⟨t, ht, hstatus, (refusesMalformed_iff (by decide) ht).mpr (by decide +kernel)⟩

/-- The response to the first chunk has one account instead of two. -/
def shortFirstChunk : List Label :=
  [.getMultipleAccounts threeKeys, .wait 0, .batchResult 0 0 (.ok [infoOf 1]),
    .batchResult 0 1 (.ok [infoOf 3]), .resume 0]

/-- The call returns, with a default-constructed account for the second key. -/
theorem refusesMalformed_fails :
    ∃ t, run (step 2) init shortFirstChunk = some t ∧
      (t.calls 0).map BatchCall.status =
        some (.returned [infoOf 1, AccountInfo.zero, infoOf 3]) ∧ ¬ t.RefusesMalformed := by
  have hcall : (run (step 2) init shortFirstChunk).map (fun t =>
      (t.calls 0).map fun call => (call.status, decide (∀ chunk ∈ call.chunks, chunk.Sized))) =
        some (some (.returned [infoOf 1, AccountInfo.zero, infoOf 3], false)) := by decide +kernel
  obtain ⟨t, ht, hcall⟩ := Option.map_eq_some_iff.mp hcall
  obtain ⟨call, hc, hstatus⟩ := Option.map_eq_some_iff.mp hcall
  obtain ⟨hreturned, hwrong⟩ := Prod.mk.inj hstatus
  refine ⟨t, ht, by rw [hc, Option.map_some, hreturned], fun hgood => ?_⟩
  have hended : call.status.ended = true := by rw [hreturned]; rfl
  have hexists : ∃ chunk ∈ call.chunks, ¬ chunk.Sized := by
    simpa using of_decide_eq_false hwrong
  obtain ⟨error, hthrew⟩ := (hgood 0 call hc).threw hended hexists
  rw [hthrew] at hreturned
  cases hreturned

end AccountBatcherImpl

end Synthfi.Solana
