/-
Synthfi.Io.RpcSocketTheorems — a request gets its own response.

`Correlates` states it for a socket: every call ends at most once, and with
the decoded result of a message that carried its id and came while it was
registered; no two calls get the same message; and the pending requests are
those of the registered calls. `correlates_of_run` proves it for every
interleaving in which no request outlives 2^32 others, so that the ids of
the live calls differ.
-/
import Mathlib.Algebra.Order.Ring.Nat
import Mathlib.Data.List.Nodup
import Synthfi.Lib.PartialMap
import Synthfi.Io.RpcSocket

namespace Synthfi.Io.RpcSocket

open Run PartialMap RequestStatus

variable {ResponseType Json Error Value : Type}
  {jsonTo : ResponseType → Json → Except Error Value}
  {s : RpcSocket ResponseType Json Error Value}

/-! ## What is proved -/

/-- `response` is the decoded result of message `source`, which carried the
id of the call and came while it was registered. -/
def Carries (jsonTo : ResponseType → Json → Except Error Value)
    (received : List (Message Json)) (call : Request ResponseType Json Error Value)
    (response : Value) (source : ℕ) : Prop :=
  call.registeredAt ≤ source ∧
    ∃ result, received[source]? = some (.response call.id.toUInt64 (.result result)) ∧
      jsonTo call.responseType result = .ok response

structure Correlates (jsonTo : ResponseType → Json → Except Error Value)
    (s : RpcSocket ResponseType Json Error Value) : Prop where
  once : (s.ends.map Prod.fst).Nodup
  own : ∀ c response source, (c, .returned response source) ∈ s.ends →
    ∃ call, s.calls c = some call ∧ Carries jsonTo s.received call response source
  others : ∀ c c' response response' source, (c, .returned response source) ∈ s.ends →
    (c', .returned response' source) ∈ s.ends → c = c'
  pending : ∀ id, s.pendingRequests id ≠ none ↔
    ∃ c call, s.calls c = some call ∧ call.status.registered ∧ call.id.toUInt64 = id
  distinct : ∀ c c' call call', s.calls c = some call → s.calls c' = some call' →
    call.status.live → call'.status.live → call.id = call'.id → c = c'
  defined : ∀ c, (c, .undefined) ∉ s.ends

/-- A request is issued while every live call is less than 2^32 calls old. -/
def StepOk (s : RpcSocket ResponseType Json Error Value) : Label ResponseType Json → Prop
  | .issue _ => ∀ c call, s.calls c = some call → call.status.live → s.callCount < c + 2 ^ 32
  | _ => True

/-- The first 2^32 requests meet it. -/
theorem stepOk_of_callCount_lt (h : s.callCount < 2 ^ 32) (label : Label ResponseType Json) :
    StepOk s label := by
  cases label with
  | issue responseType =>
    intro c call hc hlive
    omega
  | _ => trivial

/-! ## Ids -/

/-- Numbers less than 2^32 apart have different ids. -/
theorem eq_of_ofNat_eq {c c' : ℕ} (h : UInt32.ofNat c = UInt32.ofNat c') (hle : c ≤ c')
    (hlt : c' < c + 2 ^ 32) : c = c' := by
  have hmod : c % 2 ^ 32 = c' % 2 ^ 32 := by simpa using congrArg UInt32.toNat h
  omega

/-! ## The invariant -/

/-- The entry of a registered call. -/
structure EntryOf (jsonTo : ResponseType → Json → Except Error Value)
    (received : List (Message Json)) (ends : List (ℕ × Outcome Json Error Value))
    (call : Request ResponseType Json Error Value)
    (entry : PendingRequest ResponseType Json Error Value) : Prop where
  responseType : entry.responseType = call.responseType
  since : call.registeredAt ≤ received.length
  carries : ∀ response source, entry.response = some (response, source) →
    Carries jsonTo received call response source
  unused : ∀ response source, entry.response = some (response, source) →
    ∀ c response', (c, .returned response' source) ∉ ends
  answered : call.status = .cancelled → entry.error ≠ none ∨ entry.response ≠ none

structure Inv (jsonTo : ResponseType → Json → Except Error Value)
    (s : RpcSocket ResponseType Json Error Value) : Prop where
  fresh : ∀ c, s.callCount ≤ c → s.calls c = none
  nextId : s.nextRequestId = UInt32.ofNat s.callCount
  ids : ∀ c call, s.calls c = some call → call.id = UInt32.ofNat c
  window : ∀ c call, s.calls c = some call → call.status.live → s.callCount ≤ c + 2 ^ 32
  entries : ∀ id, s.pendingRequests id ≠ none →
    ∃ c call, s.calls c = some call ∧ call.status.registered ∧ call.id.toUInt64 = id
  registered : ∀ c call, s.calls c = some call → call.status.registered →
    ∃ entry, s.pendingRequests call.id.toUInt64 = some entry ∧
      EntryOf jsonTo s.received s.ends call entry
  ended : ∀ c outcome, (c, outcome) ∈ s.ends ↔
    ∃ call, s.calls c = some call ∧ call.status = .ended outcome
  once : (s.ends.map Prod.fst).Nodup
  own : ∀ c response source, (c, .returned response source) ∈ s.ends →
    ∃ call, s.calls c = some call ∧ Carries jsonTo s.received call response source
  others : ∀ c c' response response' source, (c, .returned response source) ∈ s.ends →
    (c', .returned response' source) ∈ s.ends → c = c'
  defined : ∀ c, (c, .undefined) ∉ s.ends

theorem inv_init : Inv jsonTo init where
  fresh _ _ := rfl
  nextId := rfl
  ids _ _ h := by simp [init] at h
  window _ _ h := by simp [init] at h
  entries _ h := by simp [init] at h
  registered _ _ h := by simp [init] at h
  ended _ _ := by simp [init]
  once := by simp [init]
  own _ _ _ h := by simp [init] at h
  others _ _ _ _ _ h := by simp [init] at h
  defined _ := by simp [init]

theorem Inv.distinct (h : Inv jsonTo s) {c c' : ℕ}
    {call call' : Request ResponseType Json Error Value} (hc : s.calls c = some call)
    (hc' : s.calls c' = some call') (hlive : call.status.live) (hlive' : call'.status.live)
    (hid : call.id = call'.id) : c = c' := by
  have hlt : c < s.callCount := by
    by_contra hge
    simp [h.fresh c (by omega)] at hc
  have hlt' : c' < s.callCount := by
    by_contra hge
    simp [h.fresh c' (by omega)] at hc'
  have hwindow := h.window c call hc hlive
  have hwindow' := h.window c' call' hc' hlive'
  rw [h.ids c call hc, h.ids c' call' hc'] at hid
  rcases Nat.le_total c c' with hle | hle
  · exact eq_of_ofNat_eq hid hle (by omega)
  · exact (eq_of_ofNat_eq hid.symm hle (by omega)).symm

/-- The invariant has all that is claimed. -/
theorem Inv.correlates (h : Inv jsonTo s) : Correlates jsonTo s where
  once := h.once
  own := h.own
  others := h.others
  pending id := by
    constructor
    · exact h.entries id
    · rintro ⟨c, call, hc, hregistered, rfl⟩
      obtain ⟨entry, hentry, -⟩ := h.registered c call hc hregistered
      simp [hentry]
  distinct _ _ _ _ hc hc' hlive hlive' hid := h.distinct hc hc' hlive hlive' hid
  defined := h.defined

/-! ## One call changes -/

section Update

variable {c : ℕ} {call call' : Request ResponseType Json Error Value}

theorem Inv.fresh_update (h : Inv jsonTo s) (hc : s.calls c = some call) :
    ∀ c', s.callCount ≤ c' → Function.update s.calls c (some call') c' = none :=
  fun c' hle => update_eq_none_of_eq_none hc (h.fresh c' hle) _

theorem Inv.ids_update (h : Inv jsonTo s) (hc : s.calls c = some call) (hid : call'.id = call.id) :
    ∀ c' call'', Function.update s.calls c (some call') c' = some call'' →
      call''.id = UInt32.ofNat c' :=
  forall_update_some h.ids (hid.trans (h.ids c call hc))

theorem Inv.window_update (h : Inv jsonTo s) (hc : s.calls c = some call)
    (hlive : call.status.live) :
    ∀ c' call'', Function.update s.calls c (some call') c' = some call'' → call''.status.live →
      s.callCount ≤ c' + 2 ^ 32 :=
  forall_update_some h.window fun _ => h.window c call hc hlive

/-- A call that has not ended is not among the ends. -/
theorem Inv.not_mem_ends (h : Inv jsonTo s) (hc : s.calls c = some call)
    (hlive : call.status.live) (outcome : Outcome Json Error Value) : (c, outcome) ∉ s.ends := by
  intro hmem
  obtain ⟨call', hc', hended⟩ := (h.ended c outcome).mp hmem
  obtain rfl := Option.some.inj (hc.symm.trans hc')
  simp [hended, live] at hlive

theorem Inv.ended_update (h : Inv jsonTo s) (hc : s.calls c = some call)
    (hlive : call.status.live) (hlive' : call'.status.live) :
    ∀ c' outcome, (c', outcome) ∈ s.ends ↔
      ∃ call'', Function.update s.calls c (some call') c' = some call'' ∧
        call''.status = .ended outcome := by
  intro c' outcome
  by_cases heq : c' = c
  · subst heq
    refine iff_of_false (h.not_mem_ends hc hlive outcome) fun hended => ?_
    obtain ⟨call'', hc', hended⟩ := hended
    obtain rfl : call' = call'' := by simpa using hc'
    simp [hended, live] at hlive'
  · rw [Function.update_of_ne heq]
    exact h.ended c' outcome

theorem Inv.own_update (h : Inv jsonTo s) (hc : s.calls c = some call) (hlive : call.status.live) :
    ∀ c' response source, (c', .returned response source) ∈ s.ends →
      ∃ call'', Function.update s.calls c (some call') c' = some call'' ∧
        Carries jsonTo s.received call'' response source := by
  intro c' response source hmem
  obtain ⟨call'', hc', hcarries⟩ := h.own c' response source hmem
  have hne : c' ≠ c := fun heq => h.not_mem_ends hc hlive _ (heq ▸ hmem)
  exact ⟨call'', (Function.update_of_ne hne ..).trans hc', hcarries⟩

/-- The calls with other ids stay what they are. -/
theorem update_of_id_ne {c' : ℕ} {call'' : Request ResponseType Json Error Value}
    (hc : s.calls c = some call) (hc' : s.calls c' = some call'')
    (hid : call''.id.toUInt64 ≠ call.id.toUInt64) :
    Function.update s.calls c (some call') c' = some call'' := by
  have hne : c' ≠ c := fun heq => by
    subst heq
    obtain rfl := Option.some.inj (hc.symm.trans hc')
    exact hid rfl
  exact (Function.update_of_ne hne ..).trans hc'

end Update

/-- The timer of a registered call ends without a message. -/
theorem Inv.setStatus (h : Inv jsonTo s) {c : ℕ} {call : Request ResponseType Json Error Value}
    (hc : s.calls c = some call) (hregistered : call.status.registered)
    {status : RequestStatus Json Error Value} (hstatus : status.registered)
    (hne : status ≠ .cancelled) : Inv jsonTo (s.setStatus c call status) := by
  have hlive := live_of_registered hregistered
  refine {
    fresh := h.fresh_update hc
    nextId := h.nextId
    ids := h.ids_update hc rfl
    window := h.window_update hc hlive
    entries := ?entries
    registered := ?registered
    ended := h.ended_update hc hlive (live_of_registered hstatus)
    once := h.once
    own := h.own_update hc hlive
    others := h.others
    defined := h.defined }
  case entries =>
    intro id hid
    obtain ⟨c', call', hc', hregistered', rfl⟩ := h.entries id hid
    by_cases heq : c' = c
    · subst heq
      obtain rfl := Option.some.inj (hc.symm.trans hc')
      exact ⟨c', _, Function.update_self .., hstatus, rfl⟩
    · exact ⟨c', call', (Function.update_of_ne heq ..).trans hc', hregistered', rfl⟩
  case registered =>
    intro c' call' hc' hregistered'
    rcases update_some_eq_some.mp hc' with ⟨rfl, rfl⟩ | ⟨-, hc'⟩
    · obtain ⟨entry, hentry, hof⟩ := h.registered c' call hc hregistered
      exact ⟨entry, hentry, hof.responseType, hof.since, hof.carries, hof.unused,
        fun heq => absurd heq hne⟩
    · exact h.registered c' call' hc' hregistered'

theorem Inv.id_ne_of_sending (h : Inv jsonTo s) {c c' : ℕ}
    {call call' : Request ResponseType Json Error Value} (hc : s.calls c = some call)
    (hsending : call.status = .sending) (hc' : s.calls c' = some call')
    (hregistered : call'.status.registered) : call'.id ≠ call.id := by
  intro hid
  have hlive : call.status.live := by simp [hsending, live]
  obtain rfl := h.distinct hc' hc (live_of_registered hregistered) hlive hid
  obtain rfl := Option.some.inj (hc.symm.trans hc')
  simp [hsending, RequestStatus.registered] at hregistered

/-- A call that sends has no entry. -/
theorem Inv.pending_of_sending (h : Inv jsonTo s) {c : ℕ}
    {call : Request ResponseType Json Error Value} (hc : s.calls c = some call)
    (hsending : call.status = .sending) : s.pendingRequests call.id.toUInt64 = none := by
  by_contra hsome
  obtain ⟨c', call', hc', hregistered, hid⟩ := h.entries _ hsome
  exact h.id_ne_of_sending hc hsending hc' hregistered (UInt32.toUInt64_inj.mp hid)

/-- Sending is over and the call registers. -/
theorem Inv.register (h : Inv jsonTo s) {c : ℕ} {call : Request ResponseType Json Error Value}
    (hc : s.calls c = some call) (hsending : call.status = .sending) :
    Inv jsonTo (s.register c call) := by
  have hlive : call.status.live := by simp [hsending, live]
  have hpending : (s.register c call).pendingRequests =
      Function.update s.pendingRequests call.id.toUInt64
        (some ⟨call.responseType, none, none⟩) := by
    simp [RpcSocket.register, putPending, RpcSocket.setStatus, h.pending_of_sending hc hsending]
  refine {
    fresh := h.fresh_update hc
    nextId := h.nextId
    ids := h.ids_update hc rfl
    window := h.window_update hc hlive
    entries := ?entries
    registered := ?registered
    ended := h.ended_update hc hlive rfl
    once := h.once
    own := h.own_update hc hlive
    others := h.others
    defined := h.defined }
  case entries =>
    intro id hid
    by_cases heq : id = call.id.toUInt64
    · subst heq
      exact ⟨c, _, Function.update_self .., rfl, rfl⟩
    · rw [hpending, Function.update_of_ne heq] at hid
      obtain ⟨c', call', hc', hregistered', rfl⟩ := h.entries id hid
      exact ⟨c', call', update_of_id_ne hc hc' heq, hregistered', rfl⟩
  case registered =>
    intro c' call' hc' hregistered'
    rw [hpending]
    rcases update_some_eq_some.mp hc' with ⟨rfl, rfl⟩ | ⟨-, hc'⟩
    · exact ⟨_, Function.update_self .., rfl, Nat.le_refl _, by simp, by simp, by simp⟩
    · have hid : call'.id.toUInt64 ≠ call.id.toUInt64 := fun heq =>
        h.id_ne_of_sending hc hsending hc' hregistered' (UInt32.toUInt64_inj.mp heq)
      rw [Function.update_of_ne hid]
      exact h.registered c' call' hc' hregistered'

/-- A new call: its id is that of no live call, since none is old enough. -/
theorem Inv.issue (h : Inv jsonTo s) (responseType : ResponseType)
    (hok : StepOk s (.issue responseType : Label ResponseType Json)) :
    Inv jsonTo (s.issue responseType) := by
  have hold : ∀ {c call}, s.calls c = some call → c ≠ s.callCount := by
    intro c call hc heq
    simp [heq, h.fresh s.callCount (Nat.le_refl _)] at hc
  refine {
    fresh := ?fresh
    nextId := ?nextId
    ids := forall_update_some h.ids h.nextId
    window := ?window
    entries := ?entries
    registered := ?registered
    ended := ?ended
    once := h.once
    own := ?own
    others := h.others
    defined := h.defined }
  case fresh =>
    intro c hle
    have hlt : s.callCount < c := hle
    exact (Function.update_of_ne hlt.ne' ..).trans (h.fresh c hlt.le)
  case nextId =>
    show s.nextRequestId + 1 = UInt32.ofNat (s.callCount + 1)
    rw [h.nextId, UInt32.ofNat_add]
    rfl
  case window =>
    intro c call hc hlive
    show s.callCount + 1 ≤ c + 2 ^ 32
    rcases update_some_eq_some.mp hc with ⟨rfl, rfl⟩ | ⟨-, hc⟩
    · omega
    · exact hok c call hc hlive
  case entries =>
    intro id hid
    obtain ⟨c, call, hc, hregistered, hcall⟩ := h.entries id hid
    exact ⟨c, call, (Function.update_of_ne (hold hc) ..).trans hc, hregistered, hcall⟩
  case registered =>
    intro c call hc hregistered
    rcases update_some_eq_some.mp hc with ⟨rfl, rfl⟩ | ⟨-, hc⟩
    · simp [RequestStatus.registered] at hregistered
    · exact h.registered c call hc hregistered
  case ended =>
    intro c outcome
    refine (h.ended c outcome).trans ⟨?_, ?_⟩
    · intro hcall
      obtain ⟨call, hc, hended⟩ := hcall
      exact ⟨call, (Function.update_of_ne (hold hc) ..).trans hc, hended⟩
    · intro hcall
      obtain ⟨call, hc, hended⟩ := hcall
      rcases update_some_eq_some.mp hc with ⟨rfl, rfl⟩ | ⟨-, hc⟩
      · cases hended
      · exact ⟨call, hc, hended⟩
  case own =>
    intro c response source hmem
    obtain ⟨call, hc, hcarries⟩ := h.own c response source hmem
    exact ⟨call, (Function.update_of_ne (hold hc) ..).trans hc, hcarries⟩

/-- A message carries one id. -/
theorem Carries.id_eq {received : List (Message Json)}
    {call call' : Request ResponseType Json Error Value} {response response' : Value} {source : ℕ}
    (h : Carries jsonTo received call response source)
    (h' : Carries jsonTo received call' response' source) : call.id = call'.id := by
  obtain ⟨-, result, hmessage, -⟩ := h
  obtain ⟨-, result', hmessage', -⟩ := h'
  rw [hmessage] at hmessage'
  simp only [Option.some.injEq, Message.response.injEq] at hmessage'
  exact UInt32.toUInt64_inj.mp hmessage'.1

/-- A live call ends and its entry is erased. What it returns is no other
call's. -/
theorem Inv.finish (h : Inv jsonTo s) {c : ℕ} {call : Request ResponseType Json Error Value}
    (hc : s.calls c = some call) (hlive : call.status.live)
    {outcome : Outcome Json Error Value} (hdefined : outcome ≠ .undefined)
    (hreturned : ∀ response source, outcome = .returned response source →
      Carries jsonTo s.received call response source ∧
        ∀ c' response', (c', .returned response' source) ∉ s.ends) :
    Inv jsonTo ((s.endCall c call outcome).putPending call.id.toUInt64 none) := by
  have hmem : ∀ {c' outcome'}, (c', outcome') ∈ s.ends ++ [(c, outcome)] ↔
      (c', outcome') ∈ s.ends ∨ (c' = c ∧ outcome' = outcome) := by simp
  have hid : ∀ {c' call'}, c' ≠ c → s.calls c' = some call' → call'.status.live →
      call'.id.toUInt64 ≠ call.id.toUInt64 := by
    intro c' call' hne hc' hlive' heq
    exact hne (h.distinct hc' hc hlive' hlive (UInt32.toUInt64_inj.mp heq))
  refine {
    fresh := h.fresh_update hc
    nextId := h.nextId
    ids := h.ids_update hc rfl
    window := h.window_update hc hlive
    entries := ?entries
    registered := ?registered
    ended := ?ended
    once := ?once
    own := ?own
    others := ?others
    defined := ?defined }
  case entries =>
    intro id hsome
    by_cases heq : id = call.id.toUInt64
    · exact absurd (heq ▸ Function.update_self ..) hsome
    · have hold : s.pendingRequests id ≠ none := fun hnone =>
        hsome ((Function.update_of_ne heq ..).trans hnone)
      obtain ⟨c', call', hc', hregistered', rfl⟩ := h.entries id hold
      exact ⟨c', call', update_of_id_ne hc hc' heq, hregistered', rfl⟩
  case registered =>
    intro c' call' hc' hregistered'
    rcases update_some_eq_some.mp hc' with ⟨rfl, rfl⟩ | ⟨hne, hc'⟩
    · simp [RequestStatus.registered] at hregistered'
    · have hne' := hid hne hc' (live_of_registered hregistered')
      obtain ⟨entry, hentry, hof⟩ := h.registered c' call' hc' hregistered'
      refine ⟨entry, (Function.update_of_ne hne' ..).trans hentry, hof.responseType, hof.since,
        hof.carries, ?_, hof.answered⟩
      intro response source hresponse c'' response' hin
      rcases hmem.mp hin with hin | ⟨-, hout⟩
      · exact hof.unused response source hresponse c'' response' hin
      · have hcarries := (hreturned response' source hout.symm).1
        have hsame := (hof.carries response source hresponse).id_eq hcarries
        exact hne' (congrArg UInt32.toUInt64 hsame)
  case ended =>
    intro c' outcome'
    refine hmem.trans ?_
    by_cases heq : c' = c
    · subst heq
      have hnot := h.not_mem_ends hc hlive outcome'
      simp [putPending, endCall, RpcSocket.setStatus, hnot, eq_comm]
    · simpa [putPending, endCall, RpcSocket.setStatus, heq] using h.ended c' outcome'
  case once =>
    show ((s.ends ++ [(c, outcome)]).map Prod.fst).Nodup
    rw [List.map_append, List.nodup_append]
    refine ⟨h.once, by simp, ?_⟩
    intro c' hc' d hd heq
    obtain ⟨⟨_, outcome'⟩, hin, rfl⟩ := List.mem_map.mp hc'
    obtain rfl : d = c := by simpa using hd
    exact h.not_mem_ends hc hlive outcome' (heq ▸ hin)
  case own =>
    intro c' response source hin
    rcases hmem.mp hin with hin | ⟨rfl, hout⟩
    · exact h.own_update hc hlive c' response source hin
    · exact ⟨_, Function.update_self .., (hreturned response source hout.symm).1⟩
  case others =>
    intro c' c'' response response' source hin hin'
    rcases hmem.mp hin with hold | ⟨hcc, hout⟩
    · rcases hmem.mp hin' with hold' | ⟨-, hout'⟩
      · exact h.others c' c'' response response' source hold hold'
      · exact absurd hold ((hreturned response' source hout'.symm).2 c' response)
    · rcases hmem.mp hin' with hold' | ⟨hcc', -⟩
      · exact absurd hold' ((hreturned response source hout.symm).2 c'' response')
      · exact hcc.trans hcc'.symm
  case defined =>
    intro c' hin
    rcases hmem.mp hin with hin | ⟨-, hout⟩
    · exact h.defined c' hin
    · exact hdefined hout.symm

/-! ## A message comes -/

theorem Carries.append {received : List (Message Json)}
    {call : Request ResponseType Json Error Value} {response : Value} {source : ℕ}
    (h : Carries jsonTo received call response source) (message : Message Json) :
    Carries jsonTo (received ++ [message]) call response source := by
  obtain ⟨hsince, result, hmessage, hresponse⟩ := h
  have hlt : source < received.length := (List.getElem?_eq_some_iff.mp hmessage).1
  exact ⟨hsince, result, (List.getElem?_append_left hlt).trans hmessage, hresponse⟩

theorem EntryOf.append {received : List (Message Json)} {ends : List (ℕ × Outcome Json Error Value)}
    {call : Request ResponseType Json Error Value}
    {entry : PendingRequest ResponseType Json Error Value}
    (h : EntryOf jsonTo received ends call entry) (message : Message Json) :
    EntryOf jsonTo (received ++ [message]) ends call entry where
  responseType := h.responseType
  since := by
    have := h.since
    simp only [List.length_append]
    omega
  carries response source heq := (h.carries response source heq).append message
  unused := h.unused
  answered := h.answered

theorem Inv.receive (h : Inv jsonTo s) (message : Message Json) :
    Inv jsonTo { s with received := s.received ++ [message] } := by
  refine { h with registered := ?_, own := ?_ }
  · intro c call hc hregistered
    obtain ⟨entry, hentry, hof⟩ := h.registered c call hc hregistered
    exact ⟨entry, hentry, hof.append message⟩
  · intro c response source hmem
    obtain ⟨call, hc, hcarries⟩ := h.own c response source hmem
    exact ⟨call, hc, hcarries.append message⟩

section Wake

variable (id : UInt64) (call : Request ResponseType Json Error Value)

@[simp] theorem wake_id : (wake id call).id = call.id := by
  unfold wake
  split <;> rfl

@[simp] theorem wake_responseType : (wake id call).responseType = call.responseType := by
  unfold wake
  split <;> rfl

@[simp] theorem wake_registeredAt : (wake id call).registeredAt = call.registeredAt := by
  unfold wake
  split <;> rfl

@[simp] theorem wake_registered : (wake id call).status.registered = call.status.registered := by
  unfold wake
  split
  · next h => simp [RequestStatus.isWaiting_iff.mp h.2, RequestStatus.registered]
  · rfl

@[simp] theorem wake_live : (wake id call).status.live = call.status.live := by
  unfold wake
  split
  · next h => simp [RequestStatus.isWaiting_iff.mp h.2, live]
  · rfl

@[simp] theorem wake_ended {outcome : Outcome Json Error Value} :
    (wake id call).status = .ended outcome ↔ call.status = .ended outcome := by
  unfold wake
  split
  · next h => simp [RequestStatus.isWaiting_iff.mp h.2]
  · rfl

variable {id call} in
/-- Only calls with the id are woken. -/
theorem wake_of_ne (h : call.id.toUInt64 ≠ id) : wake id call = call := by
  simp [wake, h]

variable {id call} in
@[simp] theorem carries_wake {received : List (Message Json)} {response : Value} {source : ℕ} :
    Carries jsonTo received (wake id call) response source ↔
      Carries jsonTo received call response source := by
  simp [Carries]

end Wake

theorem EntryOf.wake {received : List (Message Json)} {ends : List (ℕ × Outcome Json Error Value)}
    {call : Request ResponseType Json Error Value}
    {entry : PendingRequest ResponseType Json Error Value}
    (h : EntryOf jsonTo received ends call entry) (id : UInt64)
    (hanswered : entry.error ≠ none ∨ entry.response ≠ none) :
    EntryOf jsonTo received ends (wake id call) entry where
  responseType := by simpa using h.responseType
  since := by simpa using h.since
  carries := by simpa using h.carries
  unused := h.unused
  answered _ := hanswered

/-- The entry of a call is answered and the call is woken. -/
theorem Inv.answer (h : Inv jsonTo s) {id : UInt64} (hsome : s.pendingRequests id ≠ none)
    {entry : PendingRequest ResponseType Json Error Value}
    (hof : ∀ c call, s.calls c = some call → call.status.registered → call.id.toUInt64 = id →
      EntryOf jsonTo s.received s.ends call entry)
    (hanswered : entry.error ≠ none ∨ entry.response ≠ none) :
    Inv jsonTo ((s.putPending id (some entry)).cancelTimer id) := by
  have hcalls : ∀ {c call'}, ((s.putPending id (some entry)).cancelTimer id).calls c = some call' ↔
      ∃ call, s.calls c = some call ∧ RpcSocket.wake id call = call' := by
    intro c call'
    exact Option.map_eq_some_iff
  refine {
    fresh := ?fresh
    nextId := h.nextId
    ids := ?ids
    window := ?window
    entries := ?entries
    registered := ?registered
    ended := ?ended
    once := h.once
    own := ?own
    others := h.others
    defined := h.defined }
  case fresh =>
    intro c hle
    simp [cancelTimer, putPending, h.fresh c hle]
  case ids =>
    intro c call' hwoken
    obtain ⟨call, hc, rfl⟩ := hcalls.mp hwoken
    simpa using h.ids c call hc
  case window =>
    intro c call' hwoken hlive
    obtain ⟨call, hc, rfl⟩ := hcalls.mp hwoken
    exact h.window c call hc (by simpa using hlive)
  case entries =>
    intro id' hid'
    have hold : s.pendingRequests id' ≠ none := by
      by_cases heq : id' = id
      · exact heq ▸ hsome
      · exact fun hnone => hid' ((Function.update_of_ne heq ..).trans hnone)
    obtain ⟨c, call, hc, hregistered, hcall⟩ := h.entries id' hold
    exact ⟨c, _, hcalls.mpr ⟨call, hc, rfl⟩, by simpa using hregistered, by simpa using hcall⟩
  case registered =>
    intro c call' hwoken hregistered
    obtain ⟨call, hc, rfl⟩ := hcalls.mp hwoken
    rw [wake_registered] at hregistered
    rw [wake_id]
    by_cases heq : call.id.toUInt64 = id
    · have hwake := (hof c call hc hregistered heq).wake id hanswered
      exact ⟨entry, heq ▸ Function.update_self .., hwake⟩
    · obtain ⟨entry', hentry', hof'⟩ := h.registered c call hc hregistered
      rw [wake_of_ne heq]
      exact ⟨entry', (Function.update_of_ne heq ..).trans hentry', hof'⟩
  case ended =>
    intro c outcome
    refine (h.ended c outcome).trans ⟨?_, ?_⟩
    · intro hcall
      obtain ⟨call, hc, hended⟩ := hcall
      exact ⟨_, hcalls.mpr ⟨call, hc, rfl⟩, (wake_ended id call).mpr hended⟩
    · intro hcall
      obtain ⟨call', hwoken, hended⟩ := hcall
      obtain ⟨call, hc, rfl⟩ := hcalls.mp hwoken
      exact ⟨call, hc, (wake_ended id call).mp hended⟩
  case own =>
    intro c response source hmem
    obtain ⟨call, hc, hcarries⟩ := h.own c response source hmem
    exact ⟨_, hcalls.mpr ⟨call, hc, rfl⟩, carries_wake.mpr hcarries⟩

/-- The first answer that no call has returned yet. -/
theorem EntryOf.setResult {received : List (Message Json)}
    {ends : List (ℕ × Outcome Json Error Value)} {call : Request ResponseType Json Error Value}
    {entry : PendingRequest ResponseType Json Error Value}
    (h : EntryOf jsonTo received ends call entry)
    (hfresh : ∀ c response, (c, .returned response received.length) ∉ ends) (result : Json) :
    EntryOf jsonTo (received ++ [.response call.id.toUInt64 (.result result)]) ends call
      (setResult jsonTo received.length result entry) := by
  have hold := h.append (.response call.id.toUInt64 (.result result))
  cases hresult : jsonTo entry.responseType result with
  | error error =>
    simp only [RpcSocket.setResult, hresult]
    exact { hold with answered := fun _ => .inl (by simp) }
  | ok response =>
    simp only [RpcSocket.setResult, hresult]
    refine { hold with carries := ?_, unused := ?_, answered := fun _ => .inr (by simp) }
    · intro response' source heq
      obtain ⟨rfl, rfl⟩ : response = response' ∧ received.length = source := by simpa using heq
      refine ⟨h.since, result, by simp, ?_⟩
      rwa [← h.responseType]
    · intro response' source heq
      obtain ⟨rfl, rfl⟩ : response = response' ∧ received.length = source := by simpa using heq
      exact hfresh

theorem setResult_answered (source : ℕ) (result : Json)
    (entry : PendingRequest ResponseType Json Error Value) :
    (setResult jsonTo source result entry).error ≠ none ∨
      (setResult jsonTo source result entry).response ≠ none := by
  unfold setResult
  split <;> simp

theorem Inv.onMessage (h : Inv jsonTo s) (message : Message Json) :
    Inv jsonTo (s.onMessage jsonTo message) := by
  have hreceive := h.receive message
  cases message with
  | control => exact hreceive
  | invalidId => exact hreceive
  | response id body =>
    cases hid : s.pendingRequests id with
    | none => simpa only [RpcSocket.onMessage, hid] using hreceive
    | some entry =>
      have hsome : s.pendingRequests id ≠ none := by simp [hid]
      have hentry : ∀ c call, s.calls c = some call → call.status.registered →
          call.id.toUInt64 = id → EntryOf jsonTo s.received s.ends call entry := by
        intro c call hc hregistered heq
        obtain ⟨entry', hentry', hof⟩ := h.registered c call hc hregistered
        rw [heq, hid] at hentry'
        exact Option.some.inj hentry' ▸ hof
      simp only [RpcSocket.onMessage, hid]
      cases body with
      | error error =>
        refine hreceive.answer hsome ?_ (.inl (by simp))
        intro c call hc hregistered heq
        have hof := (hentry c call hc hregistered heq).append (.response id (.error error))
        exact { hof with answered := fun _ => .inl (by simp) }
      | result result =>
        refine hreceive.answer hsome ?_ (setResult_answered ..)
        intro c call hc hregistered heq
        subst heq
        refine (hentry c call hc hregistered rfl).setResult ?_ result
        -- No call has returned a message that had not come.
        intro c' response hmem
        obtain ⟨call', -, -, result', hmessage, -⟩ := h.own c' response _ hmem
        simp at hmessage
      | neither => exact hreceive

/-! ## A call resumes -/

theorem Inv.complete (h : Inv jsonTo s) {c : ℕ} {call : Request ResponseType Json Error Value}
    (hc : s.calls c = some call) {s' : RpcSocket ResponseType Json Error Value}
    (hcomplete : s.complete c call = some s') : Inv jsonTo s' := by
  unfold RpcSocket.complete at hcomplete
  split at hcomplete
  case h_1 hstatus =>
    obtain rfl := Option.some.inj hcomplete
    have hregistered : call.status.registered := by simp [hstatus, RequestStatus.registered]
    obtain ⟨entry, hentry, hof⟩ := h.registered c call hc hregistered
    refine h.finish hc (by simp [hstatus, live]) ?_ ?_
    · have := hof.answered hstatus
      simp only [completed, hentry]
      cases herror : entry.error with
      | some error => simp
      | none =>
        cases hresponse : entry.response with
        | some response => simp
        | none => simp [herror, hresponse] at this
    · intro response source heq
      simp only [completed, hentry] at heq
      cases herror : entry.error with
      | some error => simp [herror] at heq
      | none =>
        cases hresponse : entry.response with
        | none => simp [herror, hresponse] at heq
        | some answer =>
          simp only [herror, hresponse, Outcome.returned.injEq] at heq
          have hanswer : entry.response = some (response, source) := by
            rw [hresponse, ← heq.1, ← heq.2]
          exact ⟨hof.carries _ _ hanswer, hof.unused _ _ hanswer⟩
  case h_2 hstatus =>
    obtain rfl := Option.some.inj hcomplete
    exact h.finish hc (by simp [hstatus, live]) (by simp) (by simp)
  case h_3 hstatus =>
    obtain rfl := Option.some.inj hcomplete
    exact h.finish hc (by simp [hstatus, live]) (by simp) (by simp)
  case h_4 => cases hcomplete

/-- Sending fails before the call registers. -/
theorem Inv.sendFailed (h : Inv jsonTo s) {c : ℕ} {call : Request ResponseType Json Error Value}
    (hc : s.calls c = some call) (hsending : call.status = .sending) :
    Inv jsonTo (s.endCall c call (.threw .send)) := by
  have hfinish : Inv jsonTo ((s.endCall c call (.threw .send)).putPending call.id.toUInt64 none) :=
    h.finish hc (by simp [hsending, live]) (by simp) (by simp)
  have hpending : Function.update s.pendingRequests call.id.toUInt64 none = s.pendingRequests := by
    rw [← h.pending_of_sending hc hsending, Function.update_eq_self]
  simpa [putPending, endCall, RpcSocket.setStatus, hpending] using hfinish

/-! ## Runs -/

/-- A step of one call. -/
theorem of_call_step {c : ℕ} {enabled : Request ResponseType Json Error Value → Bool}
    {next : Request ResponseType Json Error Value → RpcSocket ResponseType Json Error Value}
    {s' : RpcSocket ResponseType Json Error Value}
    (h : ((s.calls c).bind fun call => if enabled call then some (next call) else none) = some s') :
    ∃ call, s.calls c = some call ∧ enabled call ∧ next call = s' := by
  obtain ⟨call, hc, hite⟩ := Option.bind_eq_some_iff.mp h
  obtain ⟨henabled, hnext⟩ := Option.ite_none_right_eq_some.mp hite
  exact ⟨call, hc, henabled, Option.some.inj hnext⟩

theorem inv_step {s s' : RpcSocket ResponseType Json Error Value} {label : Label ResponseType Json}
    (h : Inv jsonTo s) (hok : StepOk s label) (hstep : step jsonTo s label = some s') :
    Inv jsonTo s' := by
  cases label with
  | issue responseType =>
    obtain rfl := Option.some.inj hstep
    exact h.issue responseType hok
  | sendFailed c =>
    obtain ⟨call, hc, hsending, rfl⟩ := of_call_step hstep
    exact h.sendFailed hc (isSending_iff.mp hsending)
  | register c =>
    obtain ⟨call, hc, hsending, rfl⟩ := of_call_step hstep
    exact h.register hc (isSending_iff.mp hsending)
  | message message =>
    obtain rfl := Option.some.inj hstep
    exact h.onMessage message
  | expire c =>
    obtain ⟨call, hc, hwaiting, rfl⟩ := of_call_step hstep
    exact h.setStatus hc (registered_of_isWaiting hwaiting) rfl (by simp)
  | timerError c =>
    obtain ⟨call, hc, hwaiting, rfl⟩ := of_call_step hstep
    exact h.setStatus hc (registered_of_isWaiting hwaiting) rfl (by simp)
  | resume c =>
    obtain ⟨call, hc, hcomplete⟩ := Option.bind_eq_some_iff.mp hstep
    exact h.complete hc hcomplete

/-- Every run in which no request outlives 2^32 others matches the responses
with their requests. -/
theorem correlates_of_run {labels : List (Label ResponseType Json)}
    {s : RpcSocket ResponseType Json Error Value}
    (hok : Along (step jsonTo) StepOk init labels) (hrun : run (step jsonTo) init labels = some s) :
    Correlates jsonTo s :=
  (invariant_along (fun _ _ _ => inv_step) inv_init hok hrun).correlates

/-- Four requests of two kinds: a control message, an id that is no number
and one that is unknown, a result out of order, one twice, one that does not
decode and one after the time-out. -/
theorem correlates_of_run_four :
    let jsonTo : Bool → ℕ → Except ℕ ℕ := fun responseType result =>
      if responseType then .ok result
      else if result < 100 then .ok (result + 1000) else .error result
    let labels : List (Label Bool ℕ) :=
      [.issue true, .issue false, .register 1, .register 0, .message .control,
        .message .invalidId, .message (.response 7 (.result 4)), .message (.response 1 (.result 5)),
        .message (.response 0 (.result 9)), .message (.response 0 (.result 8)), .resume 0,
        .issue false, .register 2, .issue true, .register 3, .expire 3,
        .message (.response 2 (.result 500)), .message (.response 3 (.result 3)), .resume 3,
        .resume 2, .resume 1]
    ∃ s, run (step jsonTo) init labels = some s ∧
      s.ends = [(0, .returned 8 5), (3, .threw .timedOut), (2, .threw (.decode 500)),
        (1, .returned 1005 3)] ∧ Correlates jsonTo s := by
  intro jsonTo labels
  have hends : (run (step jsonTo) init labels).map (fun s => s.ends) =
      some [(0, .returned 8 5), (3, .threw .timedOut), (2, .threw (.decode 500)),
        (1, .returned 1005 3)] := by decide +kernel
  obtain ⟨s, hrun, hends⟩ := Option.map_eq_some_iff.mp hends
  have hcount : Along (step jsonTo) (fun s _ => s.callCount < 2 ^ 32) init labels := by
    decide +kernel
  have hok : Along (step jsonTo) StepOk init labels :=
    hcount.mono fun s label hlt => stepOk_of_callCount_lt hlt label
  exact ⟨s, hrun, hends, correlates_of_run hok hrun⟩

end Synthfi.Io.RpcSocket
