/-
Synthfi.Io.RpcStackTheorems — a request over a web socket gets the server's
answer to that request.

`EndToEnd` ties the outcome of a call to what the server did: what a call
returns is decoded from an answer to its own message, an error it rethrows
was such an answer, and that message was handed to a write before. A call
without an outcome has not resumed from its wait. There is one message for
each request, in call order, and `Accounts` of the web socket says what became
of it; what is queued is written while the writes succeed.

`endToEnd_of_run` proves it for every interleaving of both layers, the
network and a server that answers with what belongs to the request. Ids are
32 bits wide: no request and no answer may come 2^32 requests late, and of
the timer it is assumed, as for the web socket, that it does not fail.
-/
import Synthfi.Io.RpcSocketTheorems
import Synthfi.Io.RpcStack
import Synthfi.Io.WebSocketBaseTheorems

namespace Synthfi.Io

open Run PartialMap RequestStatus

variable {ResponseType Json Error Value : Type}
  {jsonTo : ResponseType → Json → Except Error Value}
  {answers : ResponseType → Body Json → Prop}

/-! ## The layers -/

namespace WebSocketBase

variable {α : Type} {s s' : WebSocketBase α}

/-- The messages handed over are among those sent, in their order. -/
theorem SingleWriter.handed_sublist (h : s.SingleWriter) {outcomes : List (α × Outcome)}
    (hacc : s.Accounts outcomes) : s.handed.Sublist s.sent := by
  rw [← hacc.handed, ← hacc.sent]
  refine List.Sublist.append (List.filter_sublist.map _) ?_
  have hone := h.one
  match hw : s.writers with
  | [] => simp [inFlight]
  | [.spawned] => simp [inFlight]
  | [.waiting] => simp [inFlight]
  | [.writing front] =>
    have hfront := h.front front (by simp [hw])
    cases hbuffer : s.writeBuffer with
    | nil => simp [inFlight, hfront, hbuffer]
    | cons message rest => simp [inFlight, hfront, hbuffer]
  | _ :: _ :: _ => simp [hw] at hone

theorem loopHead_sent (s : WebSocketBase α) (k : ℕ) :
    (s.loopHead k).sent = s.sent ∧ s.handed ⊆ (s.loopHead k).handed := by
  refine ⟨(loopHead_frame s k).1, ?_⟩
  unfold loopHead write
  split
  · exact fun _ => id
  · split
    · exact List.subset_append_left ..
    · exact fun _ => id

/-- Only `do_send_message` adds to what was sent; what was handed over stays
so. -/
theorem step_sent {label : Label α} (hlabel : ∀ message, label ≠ .send message)
    (hstep : s.step label = some s') : s'.sent = s.sent ∧ s.handed ⊆ s'.handed := by
  cases label with
  | send message => exact absurd rfl (hlabel message)
  | start k =>
    simp only [step] at hstep
    split at hstep
    · obtain rfl := Option.some.inj hstep
      exact loopHead_sent s k
    · cases hstep
  | timer k result =>
    simp only [step] at hstep
    split at hstep
    · obtain rfl := Option.some.inj hstep
      cases result with
      | operationAborted => exact ⟨rfl, List.subset_append_left ..⟩
      | timedOut => exact ⟨rfl, List.subset_append_left ..⟩
      | failed => exact ⟨rfl, fun _ => id⟩
    · cases hstep
  | wrote k failed =>
    simp only [step] at hstep
    split at hstep
    · obtain rfl := Option.some.inj hstep
      cases failed with
      | true => exact ⟨rfl, fun _ => id⟩
      | false => exact loopHead_sent { s with writeBuffer := s.writeBuffer.tail } k
    · cases hstep
  | connection isOpen =>
    obtain rfl := Option.some.inj hstep
    exact ⟨rfl, fun _ => id⟩

end WebSocketBase

namespace RpcSocket

variable {s s' : RpcSocket ResponseType Json Error Value}

/-- The calls of `s` are calls of `s'`, with the same id and request. -/
def CallsKept (s s' : RpcSocket ResponseType Json Error Value) : Prop :=
  ∀ c call, s.calls c = some call →
    ∃ call', s'.calls c = some call' ∧ call'.id = call.id ∧
      call'.responseType = call.responseType

theorem CallsKept.refl (s : RpcSocket ResponseType Json Error Value) : CallsKept s s :=
  fun _ call hc => ⟨call, hc, rfl, rfl⟩

theorem CallsKept.trans {s'' : RpcSocket ResponseType Json Error Value} (h : CallsKept s s')
    (h' : CallsKept s' s'') : CallsKept s s'' := by
  intro c call hc
  obtain ⟨call', hc', hid, htype⟩ := h c call hc
  obtain ⟨call'', hc'', hid', htype'⟩ := h' c call' hc'
  exact ⟨call'', hc'', hid'.trans hid, htype'.trans htype⟩

/-- One call changes, and keeps its id and request. -/
theorem callsKept_setStatus {c : ℕ} {call : Request ResponseType Json Error Value}
    (hc : s.calls c = some call) (status : RequestStatus Json Error Value) :
    CallsKept s (s.setStatus c call status) := by
  intro c' call' hc'
  by_cases heq : c' = c
  · subst heq
    obtain rfl := Option.some.inj (hc.symm.trans hc')
    exact ⟨_, Function.update_self .., rfl, rfl⟩
  · exact ⟨call', (Function.update_of_ne heq ..).trans hc', rfl, rfl⟩

theorem callsKept_register {c : ℕ} {call : Request ResponseType Json Error Value}
    (hc : s.calls c = some call) : CallsKept s (s.register c call) := by
  intro c' call' hc'
  by_cases heq : c' = c
  · subst heq
    obtain rfl := Option.some.inj (hc.symm.trans hc')
    exact ⟨_, Function.update_self .., rfl, rfl⟩
  · exact ⟨call', (Function.update_of_ne heq ..).trans hc', rfl, rfl⟩

theorem Inv.callsKept_issue (h : Inv jsonTo s) (responseType : ResponseType) :
    CallsKept s (s.issue responseType) := by
  intro c call hc
  have hne : c ≠ s.callCount := fun heq => by simp [heq, h.fresh s.callCount (Nat.le_refl _)] at hc
  exact ⟨call, (Function.update_of_ne hne ..).trans hc, rfl, rfl⟩

/-- A message wakes calls, and changes nothing else of them. -/
theorem calls_onMessage (jsonTo : ResponseType → Json → Except Error Value)
    (s : RpcSocket ResponseType Json Error Value) (message : Message Json) :
    (s.onMessage jsonTo message).calls = s.calls ∨
      ∃ id, (s.onMessage jsonTo message).calls = fun c => (s.calls c).map (wake id) := by
  cases message with
  | control => exact .inl rfl
  | invalidId => exact .inl rfl
  | response id body =>
    cases hid : s.pendingRequests id with
    | none => exact .inl (by simp only [onMessage, hid])
    | some entry =>
      cases body with
      | neither => exact .inl (by simp only [onMessage, hid]; rfl)
      | error error => exact .inr ⟨id, by simp only [onMessage, hid]; rfl⟩
      | result result => exact .inr ⟨id, by simp only [onMessage, hid]; rfl⟩

theorem callsKept_onMessage (jsonTo : ResponseType → Json → Except Error Value)
    (s : RpcSocket ResponseType Json Error Value) (message : Message Json) :
    CallsKept s (s.onMessage jsonTo message) := by
  intro c call hc
  rcases s.calls_onMessage jsonTo message with hcalls | ⟨id, hcalls⟩
  · exact ⟨call, by rw [hcalls, hc], rfl, rfl⟩
  · exact ⟨wake id call, by simp [hcalls, hc], by simp, by simp⟩

/-- A message starts no call. -/
theorem placed_onMessage (s : RpcSocket ResponseType Json Error Value) {message : Message Json}
    (h : ∀ c call, s.calls c = some call → call.status ≠ .sending) :
    ∀ c call, (s.onMessage jsonTo message).calls c = some call → call.status ≠ .sending := by
  intro c call hc
  rcases s.calls_onMessage jsonTo message with hcalls | ⟨id, hcalls⟩
  · exact h c call (by rw [← hcalls, hc])
  · rw [hcalls] at hc
    obtain ⟨call', hc', rfl⟩ := Option.map_eq_some_iff.mp hc
    unfold wake
    split
    · exact nofun
    · exact h c call' hc'

/-- A registered call after a message was registered before. -/
theorem registered_of_onMessage {message : Message Json} {c : ℕ}
    {call : Request ResponseType Json Error Value}
    (hc : (s.onMessage jsonTo message).calls c = some call) (hregistered : call.status.registered) :
    ∃ call', s.calls c = some call' ∧ call'.status.registered ∧ call'.id = call.id ∧
      call'.responseType = call.responseType := by
  rcases s.calls_onMessage jsonTo message with hcalls | ⟨id, hcalls⟩
  · exact ⟨call, by rw [← hcalls, hc], hregistered, rfl, rfl⟩
  · rw [hcalls] at hc
    obtain ⟨call', hc', rfl⟩ := Option.map_eq_some_iff.mp hc
    exact ⟨call', hc', by rwa [wake_registered] at hregistered, by simp, by simp⟩

/-- An entry after an answer with an id is an old one, or that id's old entry
with the answer set. -/
theorem pending_onMessage {id id' : UInt64} {body : Body Json}
    {entry : PendingRequest ResponseType Json Error Value}
    (h : (s.onMessage jsonTo (.response id body)).pendingRequests id' = some entry) :
    s.pendingRequests id' = some entry ∨ id' = id ∧ ∃ old, s.pendingRequests id = some old ∧
      ((∃ error, body = .error error ∧ entry = { old with error := some (.response error) }) ∨
        ∃ result, body = .result result ∧
          entry = setResult jsonTo s.received.length result old) := by
  cases hid : s.pendingRequests id with
  | none => exact .inl (by simpa only [onMessage, hid] using h)
  | some old =>
    simp only [onMessage, hid] at h
    cases body with
    | neither => exact .inl h
    | error error =>
      rcases update_some_eq_some.mp h with ⟨rfl, rfl⟩ | ⟨-, h⟩
      · exact .inr ⟨rfl, old, rfl, .inl ⟨error, rfl, rfl⟩⟩
      · exact .inl h
    | result result =>
      rcases update_some_eq_some.mp h with ⟨rfl, rfl⟩ | ⟨-, h⟩
      · exact .inr ⟨rfl, old, rfl, .inr ⟨result, rfl, rfl⟩⟩
      · exact .inl h

@[simp] theorem ends_onMessage (s : RpcSocket ResponseType Json Error Value)
    (message : Message Json) : (s.onMessage jsonTo message).ends = s.ends := by
  cases message with
  | control => rfl
  | invalidId => rfl
  | response id body =>
    cases hid : s.pendingRequests id with
    | none => simp only [onMessage, hid]
    | some entry => cases body <;> (simp only [onMessage, hid]; rfl)

@[simp] theorem callCount_onMessage (s : RpcSocket ResponseType Json Error Value)
    (message : Message Json) : (s.onMessage jsonTo message).callCount = s.callCount := by
  cases message with
  | control => rfl
  | invalidId => rfl
  | response id body =>
    cases hid : s.pendingRequests id with
    | none => simp only [onMessage, hid]
    | some entry => cases body <;> (simp only [onMessage, hid]; rfl)

theorem Inv.lt_callCount (h : Inv jsonTo s) {c : ℕ}
    {call : Request ResponseType Json Error Value} (hc : s.calls c = some call) :
    c < s.callCount := by
  by_contra hge
  simp [h.fresh c (by omega)] at hc

/-- Two of the last 2^32 calls, live or not, have different ids. -/
theorem Inv.eq_of_id_eq (h : Inv jsonTo s) {c c' : ℕ}
    {call call' : Request ResponseType Json Error Value} (hc : s.calls c = some call)
    (hc' : s.calls c' = some call') (hlast : s.callCount ≤ c + 2 ^ 32)
    (hlast' : s.callCount ≤ c' + 2 ^ 32) (hid : call.id = call'.id) : c = c' := by
  have hlt := h.lt_callCount hc
  have hlt' := h.lt_callCount hc'
  rw [h.ids c call hc, h.ids c' call' hc'] at hid
  rcases Nat.le_total c c' with hle | hle
  · exact eq_of_ofNat_eq hid hle (by omega)
  · exact (eq_of_ofNat_eq hid.symm hle (by omega)).symm

/-- How a call leaves its wait. -/
theorem complete_eq_some {c : ℕ} {call : Request ResponseType Json Error Value}
    (h : s.complete c call = some s') :
    ∃ outcome, s' = (s.endCall c call outcome).putPending call.id.toUInt64 none ∧
      call.status.registered ∧
      (outcome = s.completed call ∧ call.status = .cancelled ∨ outcome = .threw .timedOut ∨
        outcome = .threw .timer) := by
  unfold complete at h
  split at h
  case h_1 hstatus =>
    exact ⟨_, (Option.some.inj h).symm, by rw [hstatus]; rfl, .inl ⟨rfl, hstatus⟩⟩
  case h_2 hstatus =>
    exact ⟨_, (Option.some.inj h).symm, by rw [hstatus]; rfl, .inr (.inl rfl)⟩
  case h_3 hstatus =>
    exact ⟨_, (Option.some.inj h).symm, by rw [hstatus]; rfl, .inr (.inr rfl)⟩
  case h_4 => cases h

end RpcSocket

namespace RpcStack

variable {s s' : RpcStack ResponseType Json Error Value}

/-! ## What is proved -/

/-- The message of call `c` was handed to a write, and the server answered it
with a body that belongs to the request. -/
structure AnsweredWith (answers : ResponseType → Body Json → Prop)
    (s : RpcStack ResponseType Json Error Value) (c : ℕ) (request : ResponseType)
    (body : Body Json) : Prop where
  message : ∃ id, ⟨id, request, c⟩ ∈ s.webSocket.handed ∧ (⟨id, request, c⟩, body) ∈ s.answered
  belongs : answers request body

/-- What the outcome of a call says about the server. -/
def FromServer (jsonTo : ResponseType → Json → Except Error Value)
    (answers : ResponseType → Body Json → Prop) (s : RpcStack ResponseType Json Error Value)
    (c : ℕ) (request : ResponseType) : Outcome Json Error Value → Prop
  | .returned response _ =>
    ∃ result,
      s.AnsweredWith answers c request (.result result) ∧ jsonTo request result = .ok response
  | .threw (.response error) => s.AnsweredWith answers c request (.error error)
  | .threw (.decode error) =>
    ∃ result, s.AnsweredWith answers c request (.result result) ∧
      jsonTo request result = .error error
  | .threw .timedOut => True
  | .threw .timer => True
  | .threw .send => False
  | .undefined => False

/-- The requests of a run. -/
def requests (labels : List (Label ResponseType Json)) : List ResponseType :=
  labels.filterMap fun
    | .request request => some request
    | _ => none

/-- Each call has its message, in the order of the calls, and what became of the
messages: written, lost where a write failed, or queued, with a writer at work
that would empty the queue. -/
structure Delivers (labels : List (Label ResponseType Json))
    (s : RpcStack ResponseType Json Error Value) : Prop where
  requests : s.webSocket.sent.map RpcMessage.request = requests labels
  order : s.webSocket.sent.map RpcMessage.call = List.range s.rpc.callCount
  messages : ∀ message ∈ s.webSocket.sent, ∃ call, s.rpc.calls message.call = some call ∧
    call.id = message.id ∧ call.responseType = message.request
  writer : s.webSocket.SingleWriter
  accounts : ∃ outcomes, s.webSocket.Accounts outcomes
  drains : ∃ webSocket, WebSocketBase.Drains s.webSocket webSocket ∧ webSocket.writeBuffer = [] ∧
    ∃ outcomes, webSocket.Accounts outcomes

structure EndToEnd (jsonTo : ResponseType → Json → Except Error Value)
    (answers : ResponseType → Body Json → Prop) (labels : List (Label ResponseType Json))
    (s : RpcStack ResponseType Json Error Value) : Prop where
  delivers : s.Delivers labels
  once : (s.rpc.ends.map Prod.fst).Nodup
  own : ∀ c outcome, (c, outcome) ∈ s.rpc.ends →
    ∃ call, s.rpc.calls c = some call ∧ FromServer jsonTo answers s c call.responseType outcome
  /-- A call without an outcome has registered and has not resumed. -/
  waits : ∀ c < s.rpc.callCount, (∀ outcome, (c, outcome) ∉ s.rpc.ends) →
    ∃ call, s.rpc.calls c = some call ∧ call.status.registered ∧
      s.rpc.pendingRequests call.id.toUInt64 ≠ none

/-- What is asked of the environment: no request and no answer comes 2^32
requests late, the server answers with what belongs to the request, and the
reconnect timer does not fail. -/
def StackOk (answers : ResponseType → Body Json → Prop)
    (s : RpcStack ResponseType Json Error Value) : Label ResponseType Json → Prop
  | .request request => RpcSocket.StepOk s.rpc (.issue request : RpcSocket.Label ResponseType Json)
  | .answer k body => ∀ message, s.webSocket.handed[k]? = some message →
      answers message.request body
  | .deliver k => ∀ message body, s.inFlight[k]? = some (message, body) →
      s.rpc.callCount ≤ message.call + 2 ^ 32
  | .timer _ result => result ≠ .failed
  | _ => True

/-! ## The invariant -/

/-- What an entry holds for call `c` came from the server. -/
structure EntryFrom (jsonTo : ResponseType → Json → Except Error Value)
    (answers : ResponseType → Body Json → Prop) (s : RpcStack ResponseType Json Error Value)
    (c : ℕ) (request : ResponseType) (entry : PendingRequest ResponseType Json Error Value) :
    Prop where
  error : ∀ error, entry.error = some error → FromServer jsonTo answers s c request (.threw error)
  response : ∀ response source, entry.response = some (response, source) →
    FromServer jsonTo answers s c request (.returned response source)

structure Inv (jsonTo : ResponseType → Json → Except Error Value)
    (answers : ResponseType → Body Json → Prop) (s : RpcStack ResponseType Json Error Value) :
    Prop where
  rpc : RpcSocket.Inv jsonTo s.rpc
  writer : s.webSocket.SingleWriter
  accounts : ∃ outcomes, s.webSocket.Accounts outcomes
  order : s.webSocket.sent.map RpcMessage.call = List.range s.rpc.callCount
  sent : ∀ message ∈ s.webSocket.sent, ∃ call, s.rpc.calls message.call = some call ∧
    call.id = message.id ∧ call.responseType = message.request
  /-- A request is registered in the step that sends it. -/
  placed : ∀ c call, s.rpc.calls c = some call → call.status ≠ .sending
  answered : ∀ answer ∈ s.answered, answer.1 ∈ s.webSocket.handed ∧
    answers answer.1.request answer.2
  inFlight : ∀ answer ∈ s.inFlight, answer ∈ s.answered
  entries : ∀ c call, s.rpc.calls c = some call → call.status.registered →
    ∀ entry, s.rpc.pendingRequests call.id.toUInt64 = some entry →
      EntryFrom jsonTo answers s c call.responseType entry
  ends : ∀ c outcome, (c, outcome) ∈ s.rpc.ends →
    ∃ call, s.rpc.calls c = some call ∧ FromServer jsonTo answers s c call.responseType outcome

theorem inv_init : Inv jsonTo answers (init : RpcStack ResponseType Json Error Value) where
  rpc := RpcSocket.inv_init
  writer := ⟨by simp [init, WebSocketBase.init], by simp [init, WebSocketBase.init],
    by simp [init, WebSocketBase.init]⟩
  accounts := ⟨[], rfl, rfl, rfl⟩
  order := rfl
  sent _ h := by simp [init, WebSocketBase.init] at h
  placed _ _ h := by simp [init, RpcSocket.init] at h
  answered _ h := by simp [init] at h
  inFlight _ h := by simp [init] at h
  entries _ _ h := by simp [init, RpcSocket.init] at h
  ends _ _ h := by simp [init, RpcSocket.init] at h

/-- A call that is neither sending nor ended is registered. -/
theorem registered_or_ended {status : RequestStatus Json Error Value} (h : status ≠ .sending) :
    status.registered = true ∨ ∃ outcome, status = .ended outcome := by
  cases status with
  | sending => exact absurd rfl h
  | ended outcome => exact .inr ⟨outcome, rfl⟩
  | _ => exact .inl rfl

theorem Inv.waits (h : Inv jsonTo answers s) {c : ℕ} (hc : c < s.rpc.callCount)
    (hnone : ∀ outcome, (c, outcome) ∉ s.rpc.ends) :
    ∃ call, s.rpc.calls c = some call ∧ call.status.registered ∧
      s.rpc.pendingRequests call.id.toUInt64 ≠ none := by
  have hmem : c ∈ s.webSocket.sent.map RpcMessage.call := by
    rw [h.order]
    exact List.mem_range.mpr hc
  obtain ⟨message, hmessage, rfl⟩ := List.mem_map.mp hmem
  obtain ⟨call, hcall, -⟩ := h.sent message hmessage
  obtain hregistered | ⟨outcome, hended⟩ := registered_or_ended (h.placed _ call hcall)
  · obtain ⟨entry, hentry, -⟩ := h.rpc.registered _ call hcall hregistered
    exact ⟨call, hcall, hregistered, by simp [hentry]⟩
  · exact absurd ((h.rpc.ended _ outcome).mpr ⟨call, hcall, hended⟩) (hnone outcome)

theorem Inv.endToEnd (h : Inv jsonTo answers s) {labels : List (Label ResponseType Json)}
    (hrequests : s.webSocket.sent.map RpcMessage.request = requests labels) :
    EndToEnd jsonTo answers labels s where
  delivers := by
    obtain ⟨outcomes, hacc⟩ := h.accounts
    obtain ⟨webSocket, hdrains, hempty⟩ := WebSocketBase.exists_drains h.writer hacc
    obtain ⟨labels', hlabels, hrun, hkept⟩ := hdrains
    obtain ⟨outcomes', -, hacc'⟩ := WebSocketBase.run_kept h.writer hacc
      (fun k hmem => (hlabels _ hmem).ne_timer_failed k rfl) hrun
    exact ⟨hrequests, h.order, h.sent, h.writer, ⟨outcomes, hacc⟩, webSocket,
      ⟨labels', hlabels, hrun, hkept⟩, hempty, outcomes', hacc'⟩
  once := h.rpc.once
  own := h.ends
  waits _ hc hnone := h.waits hc hnone

/-! ## The server's answers stay -/

/-- What was handed over and answered in `s` was so in `s'`. -/
structure Grows (s s' : RpcStack ResponseType Json Error Value) : Prop where
  handed : s.webSocket.handed ⊆ s'.webSocket.handed
  answered : s.answered ⊆ s'.answered

theorem AnsweredWith.mono (hgrows : Grows s s') {c : ℕ} {request : ResponseType} {body : Body Json}
    (h : s.AnsweredWith answers c request body) : s'.AnsweredWith answers c request body := by
  obtain ⟨id, hhanded, hanswered⟩ := h.message
  exact ⟨⟨id, hgrows.handed hhanded, hgrows.answered hanswered⟩, h.belongs⟩

theorem FromServer.mono (hgrows : Grows s s') {c : ℕ} {request : ResponseType}
    {outcome : Outcome Json Error Value} (h : FromServer jsonTo answers s c request outcome) :
    FromServer jsonTo answers s' c request outcome := by
  cases outcome with
  | returned response source =>
    obtain ⟨result, hanswered, hresult⟩ := h
    exact ⟨result, hanswered.mono hgrows, hresult⟩
  | threw error =>
    cases error with
    | response error => exact AnsweredWith.mono hgrows h
    | decode error =>
      obtain ⟨result, hanswered, hresult⟩ := h
      exact ⟨result, hanswered.mono hgrows, hresult⟩
    | timedOut => trivial
    | timer => trivial
    | send => exact h
  | undefined => exact h

theorem EntryFrom.mono (hgrows : Grows s s') {c : ℕ} {request : ResponseType}
    {entry : PendingRequest ResponseType Json Error Value}
    (h : EntryFrom jsonTo answers s c request entry) :
    EntryFrom jsonTo answers s' c request entry :=
  ⟨fun error heq => (h.error error heq).mono hgrows,
    fun response source heq => (h.response response source heq).mono hgrows⟩

/-! ## One step -/

/-- The upper layer moves, perhaps on an answer. -/
theorem Grows.of_rpc (s : RpcStack ResponseType Json Error Value)
    (rpc : RpcSocket ResponseType Json Error Value) (inFlight : List (Answer ResponseType Json)) :
    Grows s { s with rpc, inFlight } :=
  ⟨fun _ => id, fun _ => id⟩

/-- The upper layer moves, and issues no request. -/
theorem Inv.of_rpc (h : Inv jsonTo answers s) {rpc : RpcSocket ResponseType Json Error Value}
    {inFlight : List (Answer ResponseType Json)} (hinFlight : inFlight ⊆ s.inFlight)
    (hrpc : RpcSocket.Inv jsonTo rpc) (hkept : RpcSocket.CallsKept s.rpc rpc)
    (hcount : rpc.callCount = s.rpc.callCount)
    (hplaced : ∀ c call, rpc.calls c = some call → call.status ≠ .sending)
    (hentries : ∀ c call, rpc.calls c = some call → call.status.registered →
      ∀ entry, rpc.pendingRequests call.id.toUInt64 = some entry →
        EntryFrom jsonTo answers s c call.responseType entry)
    (hends : ∀ c outcome, (c, outcome) ∈ rpc.ends →
      ∃ call, rpc.calls c = some call ∧ FromServer jsonTo answers s c call.responseType outcome) :
    Inv jsonTo answers { s with rpc, inFlight } where
  rpc := hrpc
  writer := h.writer
  accounts := h.accounts
  order := hcount ▸ h.order
  sent message hmem := by
    obtain ⟨call, hc, hid, htype⟩ := h.sent message hmem
    obtain ⟨call', hc', hid', htype'⟩ := hkept _ call hc
    exact ⟨call', hc', hid'.trans hid, htype'.trans htype⟩
  placed := hplaced
  answered := h.answered
  inFlight answer hmem := h.inFlight answer (hinFlight hmem)
  entries c call hc hregistered entry hentry :=
    (hentries c call hc hregistered entry hentry).mono (.of_rpc s rpc inFlight)
  ends c outcome hmem := by
    obtain ⟨call, hc, hfrom⟩ := hends c outcome hmem
    exact ⟨call, hc, hfrom.mono (.of_rpc s rpc inFlight)⟩

/-- The ends of `s` in a state that keeps its calls. -/
theorem Inv.ends_kept (h : Inv jsonTo answers s) {rpc : RpcSocket ResponseType Json Error Value}
    (hkept : RpcSocket.CallsKept s.rpc rpc) {c : ℕ} {outcome : Outcome Json Error Value}
    (hmem : (c, outcome) ∈ s.rpc.ends) :
    ∃ call, rpc.calls c = some call ∧ FromServer jsonTo answers s c call.responseType outcome := by
  obtain ⟨call, hc, hfrom⟩ := h.ends c outcome hmem
  obtain ⟨call', hc', -, htype⟩ := hkept c call hc
  exact ⟨call', hc', htype ▸ hfrom⟩

/-- The timer of a call ends. -/
theorem Inv.setStatus (h : Inv jsonTo answers s) {c : ℕ}
    {call : Request ResponseType Json Error Value} (hc : s.rpc.calls c = some call)
    (hwaiting : call.status.isWaiting) {status : RequestStatus Json Error Value}
    (hstatus : status.registered) (hne : status ≠ .cancelled) :
    Inv jsonTo answers { s with rpc := s.rpc.setStatus c call status } := by
  have hregistered := registered_of_isWaiting hwaiting
  have hkept : RpcSocket.CallsKept s.rpc (s.rpc.setStatus c call status) :=
    RpcSocket.callsKept_setStatus hc status
  have hrpc := h.rpc.setStatus hc hregistered hstatus hne
  refine h.of_rpc (List.Subset.refl _) hrpc hkept rfl ?_ ?_ fun _ _ => h.ends_kept hkept
  · refine forall_update_some h.placed fun heq => ?_
    have hsending : status = .sending := heq
    rw [hsending] at hstatus
    cases hstatus
  · exact forall_update_some h.entries fun _ => h.entries c call hc hregistered

/-- A call resumes. -/
theorem Inv.resume (h : Inv jsonTo answers s) {c : ℕ}
    {call : Request ResponseType Json Error Value} (hc : s.rpc.calls c = some call)
    {rpc : RpcSocket ResponseType Json Error Value} (hcomplete : s.rpc.complete c call = some rpc) :
    Inv jsonTo answers { s with rpc } := by
  have hrpc := h.rpc.complete hc hcomplete
  obtain ⟨outcome, rfl, hregistered, houtcome⟩ := RpcSocket.complete_eq_some hcomplete
  have hkept : RpcSocket.CallsKept s.rpc
      ((s.rpc.endCall c call outcome).putPending call.id.toUInt64 none) :=
    RpcSocket.callsKept_setStatus hc (.ended outcome)
  refine h.of_rpc (List.Subset.refl _) hrpc hkept rfl ?_ ?_ ?_
  · exact forall_update_some h.placed nofun
  · intro c' call' hc' hregistered' entry hentry
    obtain ⟨-, hentry⟩ := update_none_eq_some.mp hentry
    rcases update_some_eq_some.mp hc' with ⟨rfl, rfl⟩ | ⟨-, hc'⟩
    · cases hregistered'
    · exact h.entries c' call' hc' hregistered' entry hentry
  · intro c' outcome' hmem
    rcases List.mem_append.mp hmem with hmem | hmem
    · exact h.ends_kept hkept hmem
    · obtain ⟨rfl, rfl⟩ : c' = c ∧ outcome' = outcome := by simpa using hmem
      refine ⟨_, Function.update_self .., ?_⟩
      rcases houtcome with ⟨rfl, hstatus⟩ | rfl | rfl
      · -- The registered call has an entry, and the entry came from the server.
        obtain ⟨entry, hentry, hof⟩ := h.rpc.registered c' call hc hregistered
        have hfrom := h.entries c' call hc hregistered entry hentry
        have hanswered := hof.answered hstatus
        simp only [RpcSocket.completed, hentry]
        cases herror : entry.error with
        | some error => exact hfrom.error error herror
        | none =>
          cases hresponse : entry.response with
          | some response => exact hfrom.response _ _ hresponse
          | none => simp [herror, hresponse] at hanswered
      · trivial
      · trivial

/-- A message that answers no request changes neither calls nor entries. -/
theorem Inv.unsolicited (h : Inv jsonTo answers s) {message : Message Json}
    (hmessage : ∀ id body, message ≠ .response id body) :
    Inv jsonTo answers { s with rpc := s.rpc.onMessage jsonTo message } := by
  have hrpc := h.rpc.onMessage message
  cases message with
  | control => exact h.of_rpc (List.Subset.refl _) hrpc (.refl _) rfl h.placed h.entries h.ends
  | invalidId => exact h.of_rpc (List.Subset.refl _) hrpc (.refl _) rfl h.placed h.entries h.ends
  | response id body => exact absurd rfl (hmessage id body)

/-- The lower layer moves alone, and nothing is sent. -/
theorem Inv.socketStep (h : Inv jsonTo answers s)
    {label : WebSocketBase.Label (RpcMessage ResponseType)}
    (hlabel : ∀ message, label ≠ .send message) (htimer : ∀ k, label ≠ .timer k .failed)
    (hstep : s.socketStep label = some s') : Inv jsonTo answers s' := by
  obtain ⟨webSocket, hsocket, rfl⟩ := Option.map_eq_some_iff.mp hstep
  obtain ⟨outcomes, hacc⟩ := h.accounts
  obtain ⟨outcomes', hwriter, hacc'⟩ := WebSocketBase.step_kept h.writer hacc htimer hsocket
  obtain ⟨hsent, hhanded⟩ := WebSocketBase.step_sent hlabel hsocket
  have hgrows : Grows s { s with webSocket } := ⟨hhanded, fun _ => id⟩
  exact {
    rpc := h.rpc
    writer := hwriter
    accounts := ⟨outcomes', hacc'⟩
    order := hsent ▸ h.order
    sent := fun message hmem => h.sent message (hsent ▸ hmem)
    placed := h.placed
    answered := fun answer hmem => ⟨hhanded (h.answered answer hmem).1, (h.answered answer hmem).2⟩
    inFlight := h.inFlight
    entries := fun c call hc hregistered entry hentry =>
      (h.entries c call hc hregistered entry hentry).mono hgrows
    ends := fun c outcome hmem => by
      obtain ⟨call, hc, hfrom⟩ := h.ends c outcome hmem
      exact ⟨call, hc, hfrom.mono hgrows⟩ }

/-- The server answers a message that was handed over. -/
theorem Inv.answer (h : Inv jsonTo answers s) {k : ℕ} {body : Body Json}
    (hok : StackOk answers s (.answer k body)) (hstep : s.answer k body = some s') :
    Inv jsonTo answers s' := by
  obtain ⟨message, hk, hnext⟩ := Option.bind_eq_some_iff.mp hstep
  obtain rfl := Option.some.inj hnext
  have hgrows : Grows s { s with
      inFlight := s.inFlight ++ [(message, body)]
      answered := s.answered ++ [(message, body)] } :=
    ⟨fun _ => id, List.subset_append_left ..⟩
  exact {
    rpc := h.rpc
    writer := h.writer
    accounts := h.accounts
    order := h.order
    sent := h.sent
    placed := h.placed
    answered := by
      intro answer hmem
      rcases List.mem_append.mp hmem with hmem | hmem
      · exact h.answered answer hmem
      · obtain rfl := List.mem_singleton.mp hmem
        exact ⟨List.mem_of_getElem? hk, hok message hk⟩
    inFlight := by
      intro answer hmem
      rcases List.mem_append.mp hmem with hmem | hmem
      · exact List.mem_append_left _ (h.inFlight answer hmem)
      · exact List.mem_append_right _ hmem
    entries := fun c call hc hregistered entry hentry =>
      (h.entries c call hc hregistered entry hentry).mono hgrows
    ends := fun c outcome hmem => by
      obtain ⟨call, hc, hfrom⟩ := h.ends c outcome hmem
      exact ⟨call, hc, hfrom.mono hgrows⟩ }

/-- An answer to the call of an entry is set in it. -/
theorem EntryFrom.onMessage {rpc : RpcSocket ResponseType Json Error Value} {c : ℕ}
    {request : ResponseType} {id : UInt64} {body : Body Json}
    (hanswer : s.AnsweredWith answers c request body)
    {old entry : PendingRequest ResponseType Json Error Value}
    (htype : old.responseType = request) (h : EntryFrom jsonTo answers s c request old)
    (hold : rpc.pendingRequests id = some old)
    (hentry : (rpc.onMessage jsonTo (.response id body)).pendingRequests id = some entry) :
    EntryFrom jsonTo answers s c request entry := by
  rcases RpcSocket.pending_onMessage hentry with heq | ⟨-, old', hold', hset⟩
  · obtain rfl := Option.some.inj (hold.symm.trans heq)
    exact h
  obtain rfl := Option.some.inj (hold.symm.trans hold')
  rcases hset with ⟨error, rfl, rfl⟩ | ⟨result, rfl, rfl⟩
  · refine ⟨fun error' heq => ?_, h.response⟩
    obtain rfl := Option.some.inj heq
    exact hanswer
  · unfold RpcSocket.setResult
    subst htype
    cases hresult : jsonTo old.responseType result with
    | ok response =>
      refine ⟨h.error, fun response' source heq => ?_⟩
      obtain ⟨rfl, -⟩ := Prod.mk.inj (Option.some.inj heq)
      exact ⟨result, hanswer, hresult⟩
    | error error =>
      refine ⟨fun error' heq => ?_, h.response⟩
      obtain rfl := Option.some.inj heq
      exact ⟨result, hanswer, hresult⟩

/-- An answer arrives: the only registered call with its id is the one that
sent the message. -/
theorem Inv.deliver (h : Inv jsonTo answers s) {k : ℕ} (hok : StackOk answers s (.deliver k))
    (hstep : s.deliver jsonTo k = some s') : Inv jsonTo answers s' := by
  obtain ⟨⟨message, body⟩, hk, hnext⟩ := Option.bind_eq_some_iff.mp hstep
  obtain rfl := Option.some.inj hnext
  have hlate : s.rpc.callCount ≤ message.call + 2 ^ 32 := hok message body hk
  have hanswered := h.inFlight _ (List.mem_of_getElem? hk)
  obtain ⟨hhanded, hbelongs⟩ := h.answered _ hanswered
  obtain ⟨outcomes, hacc⟩ := h.accounts
  obtain ⟨sender, hsender, hid, htype⟩ :=
    h.sent message ((h.writer.handed_sublist hacc).subset hhanded)
  have hanswer : s.AnsweredWith answers message.call message.request body :=
    ⟨⟨message.id, hhanded, hanswered⟩, hbelongs⟩
  have hkept := s.rpc.callsKept_onMessage jsonTo (.response message.id.toUInt64 body)
  refine h.of_rpc List.eraseIdx_subset (h.rpc.onMessage _) hkept (by simp) ?_ ?_ ?_
  · exact s.rpc.placed_onMessage h.placed
  · intro c call' hc' hregistered' entry hentry
    obtain ⟨call, hc, hregistered, hcallid, hcalltype⟩ :=
      RpcSocket.registered_of_onMessage hc' hregistered'
    obtain ⟨old, hold, hof⟩ := h.rpc.registered c call hc hregistered
    have hfrom := h.entries c call hc hregistered old hold
    rw [← hcallid] at hentry
    rw [← hcalltype]
    by_cases hsame : call.id = message.id
    · have hlive := live_of_registered hregistered
      obtain rfl : c = message.call :=
        h.rpc.eq_of_id_eq hc hsender (h.rpc.window c call hc hlive) hlate (hsame.trans hid.symm)
      obtain rfl := Option.some.inj (hc.symm.trans hsender)
      rw [hsame] at hentry hold
      rw [htype] at hfrom ⊢
      exact hfrom.onMessage hanswer (hof.responseType.trans htype) hold hentry
    · rcases RpcSocket.pending_onMessage hentry with heq | ⟨heq, -⟩
      · obtain rfl := Option.some.inj (hold.symm.trans heq)
        exact hfrom
      · exact absurd (UInt32.toUInt64_inj.mp heq) hsame
  · intro c outcome hmem
    rw [RpcSocket.ends_onMessage] at hmem
    exact h.ends_kept hkept hmem

/-- A new request: its call and its message are the last, and its entry is
empty. -/
theorem Inv.request (h : Inv jsonTo answers s) {request : ResponseType}
    (hok : StackOk answers s (.request request : Label ResponseType Json))
    (hstep : s.doSendRequest jsonTo request = some s') : Inv jsonTo answers s' := by
  have hissue := h.rpc.issue request hok
  have hc : (s.rpc.issue request).calls s.rpc.callCount =
      some ⟨request, s.rpc.nextRequestId, 0, .sending⟩ := Function.update_self ..
  have hregister := hissue.register hc rfl
  have hpending := hissue.pending_of_sending hc rfl
  obtain rfl : _ = s' := by
    simpa [doSendRequest, RpcSocket.step, hc, isSending] using hstep
  set call : Request ResponseType Json Error Value := ⟨request, s.rpc.nextRequestId, 0, .sending⟩
  set rpc := (s.rpc.issue request).register s.rpc.callCount call
  set message : RpcMessage ResponseType := ⟨s.rpc.nextRequestId, request, s.rpc.callCount⟩
  have hkept : RpcSocket.CallsKept s.rpc rpc :=
    (h.rpc.callsKept_issue request).trans (RpcSocket.callsKept_register hc)
  have hnew : rpc.calls s.rpc.callCount =
      some { call with registeredAt := s.rpc.received.length, status := .waiting } :=
    Function.update_self ..
  obtain ⟨outcomes, hacc⟩ := h.accounts
  obtain ⟨hwriter, hacc'⟩ := WebSocketBase.doSendMessage_kept h.writer hacc message
  have hgrows : Grows s { s with rpc, webSocket := s.webSocket.doSendMessage message } :=
    ⟨fun _ => id, fun _ => id⟩
  refine {
    rpc := hregister
    writer := hwriter
    accounts := ⟨outcomes, hacc'⟩
    order := ?order
    sent := ?sent
    placed := ?placed
    answered := h.answered
    inFlight := h.inFlight
    entries := ?entries
    ends := ?ends }
  case order =>
    show (s.webSocket.sent ++ [message]).map RpcMessage.call = List.range (s.rpc.callCount + 1)
    rw [List.map_append, h.order, List.range_succ]
    rfl
  case sent =>
    intro message' hmem
    rcases List.mem_append.mp hmem with hmem | hmem
    · obtain ⟨call', hc', hid, htype⟩ := h.sent message' hmem
      obtain ⟨call'', hc'', hid', htype'⟩ := hkept _ call' hc'
      exact ⟨call'', hc'', hid'.trans hid, htype'.trans htype⟩
    · obtain rfl := List.mem_singleton.mp hmem
      exact ⟨_, hnew, rfl, rfl⟩
  case placed =>
    intro c call' hc'
    rcases update_some_eq_some.mp hc' with ⟨-, rfl⟩ | ⟨hne, hc'⟩
    · intro heq
      cases heq
    · exact h.placed c call' ((Function.update_of_ne hne ..).symm.trans hc')
  case entries =>
    intro c call' hc' hregistered entry hentry
    rcases update_some_eq_some.mp hc' with ⟨rfl, rfl⟩ | ⟨hne, hc'⟩
    · have hempty : rpc.pendingRequests call.id.toUInt64 = some ⟨request, none, none⟩ := by
        show Function.update _ _ _ _ = _
        rw [Function.update_self, hpending]
        rfl
      obtain rfl := Option.some.inj (hempty.symm.trans hentry)
      exact ⟨fun _ heq => by simp at heq, fun _ _ heq => by simp at heq⟩
    · have hid : call'.id ≠ call.id := hissue.id_ne_of_sending hc rfl hc' hregistered
      have hold : s.rpc.calls c = some call' := (Function.update_of_ne hne ..).symm.trans hc'
      have hentry' : s.rpc.pendingRequests call'.id.toUInt64 = some entry :=
        (Function.update_of_ne (fun heq => hid (UInt32.toUInt64_inj.mp heq)) ..).symm.trans hentry
      exact (h.entries c call' hold hregistered entry hentry').mono hgrows
  case ends =>
    intro c outcome hmem
    obtain ⟨call, hc, hfrom⟩ := h.ends_kept hkept hmem
    exact ⟨call, hc, hfrom.mono hgrows⟩

/-! ## Runs -/

theorem inv_rpcStep {label : RpcSocket.Label ResponseType Json}
    (hkeeps : ∀ rpc, RpcSocket.step jsonTo s.rpc label = some rpc →
      Inv jsonTo answers { s with rpc })
    (hstep : s.rpcStep jsonTo label = some s') : Inv jsonTo answers s' := by
  obtain ⟨rpc, hrpc, rfl⟩ := Option.map_eq_some_iff.mp hstep
  exact hkeeps rpc hrpc

theorem inv_step {label : Label ResponseType Json} (h : Inv jsonTo answers s)
    (hok : StackOk answers s label) (hstep : s.step jsonTo label = some s') :
    Inv jsonTo answers s' := by
  cases label with
  | request request => exact h.request hok hstep
  | expire c =>
    refine inv_rpcStep (fun rpc hrpc => ?_) hstep
    obtain ⟨call, hc, hwaiting, rfl⟩ := RpcSocket.of_call_step hrpc
    exact h.setStatus hc hwaiting rfl (by simp)
  | timerError c =>
    refine inv_rpcStep (fun rpc hrpc => ?_) hstep
    obtain ⟨call, hc, hwaiting, rfl⟩ := RpcSocket.of_call_step hrpc
    exact h.setStatus hc hwaiting rfl (by simp)
  | resume c =>
    refine inv_rpcStep (fun rpc hrpc => ?_) hstep
    obtain ⟨call, hc, hcomplete⟩ := Option.bind_eq_some_iff.mp hrpc
    exact h.resume hc hcomplete
  | start k => exact h.socketStep (by simp) (by simp) hstep
  | timer k result =>
    have hresult : result ≠ .failed := hok
    exact h.socketStep (by simp) (by simp [hresult]) hstep
  | wrote k failed => exact h.socketStep (by simp) (by simp) hstep
  | connection isOpen => exact h.socketStep (by simp) (by simp) hstep
  | answer k body => exact h.answer hok hstep
  | deliver k => exact h.deliver hok hstep
  | control =>
    refine inv_rpcStep (fun rpc hrpc => ?_) hstep
    obtain rfl := Option.some.inj hrpc
    exact h.unsolicited (by simp)
  | invalidId =>
    refine inv_rpcStep (fun rpc hrpc => ?_) hstep
    obtain rfl := Option.some.inj hrpc
    exact h.unsolicited (by simp)

/-- Only a request sends something. -/
theorem requests_step {label : Label ResponseType Json} (hstep : s.step jsonTo label = some s') :
    s'.webSocket.sent.map RpcMessage.request =
      s.webSocket.sent.map RpcMessage.request ++ requests [label] := by
  have hrpc : ∀ {rpcLabel}, s.rpcStep jsonTo rpcLabel = some s' →
      s'.webSocket.sent.map RpcMessage.request = s.webSocket.sent.map RpcMessage.request ++ [] := by
    intro rpcLabel h
    obtain ⟨rpc, -, rfl⟩ := Option.map_eq_some_iff.mp h
    rw [List.append_nil]
  have hsocket : ∀ {socketLabel : WebSocketBase.Label (RpcMessage ResponseType)},
      (∀ message, socketLabel ≠ .send message) → s.socketStep socketLabel = some s' →
      s'.webSocket.sent.map RpcMessage.request = s.webSocket.sent.map RpcMessage.request ++ [] := by
    intro socketLabel hlabel h
    obtain ⟨webSocket, hwebSocket, rfl⟩ := Option.map_eq_some_iff.mp h
    rw [List.append_nil]
    exact congrArg (List.map RpcMessage.request) (WebSocketBase.step_sent hlabel hwebSocket).1
  cases label with
  | request request =>
    obtain ⟨rpc, -, hnext⟩ := Option.bind_eq_some_iff.mp hstep
    obtain rfl := Option.some.inj hnext
    exact List.map_append
  | expire c => exact hrpc hstep
  | timerError c => exact hrpc hstep
  | resume c => exact hrpc hstep
  | start k => exact hsocket (by simp) hstep
  | timer k result => exact hsocket (by simp) hstep
  | wrote k failed => exact hsocket (by simp) hstep
  | connection isOpen => exact hsocket (by simp) hstep
  | answer k body =>
    obtain ⟨message, -, hnext⟩ := Option.bind_eq_some_iff.mp hstep
    obtain rfl := Option.some.inj hnext
    exact (List.append_nil _).symm
  | deliver k =>
    obtain ⟨answer, -, hnext⟩ := Option.bind_eq_some_iff.mp hstep
    obtain rfl := Option.some.inj hnext
    exact (List.append_nil _).symm
  | control => exact hrpc hstep
  | invalidId => exact hrpc hstep

/-- Whatever the order of requests, time-outs, writes, reconnects and answers,
each request is sent by one message, in order, and a call that ends ends with the
server's answer to its own message. -/
theorem endToEnd_of_run {labels : List (Label ResponseType Json)}
    {s : RpcStack ResponseType Json Error Value}
    (hok : Along (step jsonTo) (StackOk answers) init labels)
    (hrun : run (step jsonTo) init labels = some s) : EndToEnd jsonTo answers labels s := by
  have hinv : Inv jsonTo answers s := invariant_along (fun _ _ _ => inv_step) inv_init hok hrun
  let sends (past : List (Label ResponseType Json))
      (u : RpcStack ResponseType Json Error Value) : Prop :=
    u.webSocket.sent.map RpcMessage.request = requests past
  have hsends : ∀ past u label u', sends past u → StackOk answers u label →
      step jsonTo u label = some u' → sends (past ++ [label]) u' := by
    intro past u label u' hpast _ hstep
    exact (requests_step hstep).trans
      ((congrArg (· ++ _) hpast).trans List.filterMap_append.symm)
  have hinit : sends [] init := rfl
  have hrequests : sends ([] ++ labels) s := invariant_history hsends hinit hok hrun
  exact hinv.endToEnd hrequests

/-- The part of `StackOk` that is not about 2^32 requests. -/
def Honest (answers : ResponseType → Body Json → Prop)
    (s : RpcStack ResponseType Json Error Value) : Label ResponseType Json → Prop
  | .answer k body => ∀ message ∈ s.webSocket.handed[k]?, answers message.request body
  | .timer _ result => result ≠ .failed
  | _ => True

instance [∀ request, DecidablePred (answers request)] :
    (label : Label ResponseType Json) → Decidable (Honest answers s label)
  | .answer k body =>
    inferInstanceAs (Decidable (∀ message ∈ s.webSocket.handed[k]?, answers message.request body))
  | .timer _ result => inferInstanceAs (Decidable (result ≠ .failed))
  | .request _ | .expire _ | .timerError _ | .resume _ | .start _ | .wrote _ _ | .connection _
  | .deliver _ | .control | .invalidId => .isTrue trivial

/-- The first 2^32 requests meet the rest. -/
theorem stackOk_of_callCount_lt {label : Label ResponseType Json} (h : s.rpc.callCount < 2 ^ 32)
    (hhonest : Honest answers s label) : StackOk answers s label := by
  cases label with
  | request request =>
    exact RpcSocket.stepOk_of_callCount_lt h (.issue request : RpcSocket.Label ResponseType Json)
  | answer k body => exact fun message hk => hhonest message hk
  | deliver k => exact fun message body _ => by omega
  | timer k result => exact hhonest
  | _ => trivial

/-- Three requests: the socket is closed at first, the second is answered
before the first, and the third after its time-out. -/
theorem endToEnd_of_run_three :
    let jsonTo : Bool → ℕ → Except ℕ ℕ := fun request result =>
      if request then .ok result else if result < 100 then .ok (result + 1000) else .error result
    let answers : Bool → Body ℕ → Prop := fun request body =>
      body = .result (if request then 3 else 400)
    let labels : List (Label Bool ℕ) :=
      [.request true, .request false, .start 0, .connection true, .timer 0 .operationAborted,
        .wrote 0 false, .wrote 0 false, .answer 1 (.result 400), .answer 0 (.result 3), .control,
        .deliver 0, .deliver 0, .resume 1, .resume 0, .request true, .start 0, .wrote 0 false,
        .expire 2, .answer 2 (.result 3), .resume 2, .deliver 0]
    ∃ s, run (step jsonTo) init labels = some s ∧
      s.rpc.ends = [(1, .threw (.decode 400)), (0, .returned 3 2), (2, .threw .timedOut)] ∧
      EndToEnd jsonTo answers labels s := by
  intro jsonTo answers labels
  have hends : (run (step jsonTo) init labels).map (fun s => s.rpc.ends) =
      some [(1, .threw (.decode 400)), (0, .returned 3 2), (2, .threw .timedOut)] := by
    decide +kernel
  obtain ⟨s, hrun, hends⟩ := Option.map_eq_some_iff.mp hends
  have hhonest : Along (step jsonTo) (fun s label => s.rpc.callCount < 2 ^ 32 ∧
      Honest (fun request body => body = .result (if request then 3 else 400)) s label)
      init labels := by
    decide +kernel
  have hok : Along (step jsonTo) (StackOk answers) init labels :=
    hhonest.mono fun s label h => stackOk_of_callCount_lt h.1 h.2
  exact ⟨s, hrun, hends, endToEnd_of_run hok hrun⟩

end RpcStack

end Synthfi.Io
