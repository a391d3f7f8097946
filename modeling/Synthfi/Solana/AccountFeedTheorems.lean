/-
Synthfi.Solana.AccountFeedTheorems — what the callbacks for an account are
given.

Two strands, a slot for one notification and the handlers posted lie between
the node and a callback. In every run, over all interleavings, the callback of
a call whose request the node has answered is given notifications that came
for this subscription, in their order and each at most once; the callback of
any other call is given nothing (`callbacks_of_run`). Nothing more can be lost at
the end than what the slot loses: when the last notification found `do_notify`
with a wait to end, or ended, it is the last one given, once nothing is on its
way.

`Posted` ties the handlers to the answers of the node, `Handled` the callbacks
to the handlers that have run and `heard_step` the handlers to the
notifications. The account subscriber and the web socket client do their parts
in every run: `AccountSubscriber.Registered`, `SolanaWsClient.Loaded`.
-/
import Synthfi.Solana.AccountFeed
import Synthfi.Solana.AccountSubscriberTheorems
import Synthfi.Solana.SolanaWsClientTheorems

namespace Synthfi.Solana

open Run PartialMap

variable {α : Type}

namespace AccountFeed

/-! ## What is posted, and what for -/

/-- The ids among the handlers. -/
def subscribedIds (posted : List (SubscriberHandler α)) : List UInt64 :=
  posted.filterMap fun
    | .subscribed _ id => some id
    | _ => none

/-- What the handlers for an id hand over. -/
def notified (id : UInt64) (posted : List (SubscriberHandler α)) : List (Option α) :=
  posted.filterMap fun
    | .notification id' notification => if id' = id then some notification else none
    | _ => none

/-- The ids the node has answered with. -/
def answeredIds (labels : List (Label α)) : List UInt64 :=
  labels.filterMap fun
    | .answer _ id => some id
    | _ => none

/-- The notification for an id that a label brings. -/
def noteOf (id : UInt64) : Label α → List α
  | .notification id' (some message) => if id' = id then [message] else []
  | _ => []

/-- The notifications for an id that come after the answer with it. -/
def feedOf (id : UInt64) : List (Label α) → List α
  | [] => []
  | .answer _ id' :: labels =>
    if id' = id then labels.flatMap (noteOf id) else feedOf id labels
  | _ :: labels => feedOf id labels

/-- What the callback of a call was given. -/
def calledWith (s : AccountFeed α) (c : ℕ) : List (Option α) :=
  s.called.filterMap fun call => if call.1 = c then some call.2 else none

theorem subscribedIds_append (posted more : List (SubscriberHandler α)) :
    subscribedIds (posted ++ more) = subscribedIds posted ++ subscribedIds more :=
  List.filterMap_append

theorem notified_append (id : UInt64) (posted more : List (SubscriberHandler α)) :
    notified id (posted ++ more) = notified id posted ++ notified id more :=
  List.filterMap_append

theorem notified_notification (id id' : UInt64) (notification : Option α) :
    notified id [.notification id' notification] = if id' = id then [notification] else [] := by
  by_cases h : id' = id <;> simp [notified, h]

theorem mem_subscribedIds {posted : List (SubscriberHandler α)} {id : UInt64} :
    id ∈ subscribedIds posted ↔ ∃ c, SubscriberHandler.subscribed c id ∈ posted := by
  constructor
  · intro hid
    obtain ⟨handler, hmem, hhandler⟩ := List.mem_filterMap.mp hid
    cases handler with
    | subscribed c id' =>
      cases hhandler
      exact ⟨c, hmem⟩
    | _ => cases hhandler
  · rintro ⟨c, hmem⟩
    exact List.mem_filterMap.mpr ⟨_, hmem, rfl⟩

theorem mem_answeredIds {labels : List (Label α)} {id : UInt64} :
    id ∈ answeredIds labels ↔ ∃ c, Label.answer c id ∈ labels := by
  constructor
  · intro hid
    obtain ⟨label, hmem, hlabel⟩ := List.mem_filterMap.mp hid
    cases label with
    | answer c id' =>
      cases hlabel
      exact ⟨c, hmem⟩
    | _ => cases hlabel
  · rintro ⟨c, hmem⟩
    exact List.mem_filterMap.mpr ⟨_, hmem, rfl⟩

theorem feedOf_concat (id : UInt64) (labels : List (Label α)) (label : Label α) :
    feedOf id (labels ++ [label]) =
      feedOf id labels ++ if id ∈ answeredIds labels then noteOf id label else [] := by
  induction labels with
  | nil => cases label <;> simp [feedOf, answeredIds]
  | cons label' labels ih =>
    cases label' with
    | answer c id' =>
      by_cases hid : id' = id
      · simp [feedOf, answeredIds, hid]
      · have hother : id ≠ id' := fun hsame => hid hsame.symm
        simpa [feedOf, answeredIds, hid, hother] using ih
    | _ => simpa [feedOf, answeredIds] using ih

theorem feedOf_eq_nil {id : UInt64} {labels : List (Label α)} (h : id ∉ answeredIds labels) :
    feedOf id labels = [] := by
  induction labels with
  | nil => rfl
  | cons label labels ih =>
    cases label with
    | answer c id' =>
      have hne : id' ≠ id := fun hsame => h (by simp [answeredIds, hsame])
      have hrest : id ∉ answeredIds labels := fun hmem => h (List.mem_cons_of_mem _ hmem)
      rw [feedOf, if_neg hne, ih hrest]
    | _ => exact ih h

variable {s s' : AccountFeed α} {past : List (Label α)} {label : Label α}

/-! ## The handlers posted -/

/-- A handler for a notification comes after the one that registers its id. -/
def Ordered (posted : List (SubscriberHandler α)) : Prop :=
  ∀ k id, notified id (posted.take k) ≠ [] → id ∈ subscribedIds (posted.take k)

theorem Ordered.concat {posted : List (SubscriberHandler α)} (h : Ordered posted)
    {handler : SubscriberHandler α}
    (hhandler : ∀ id notification, handler = .notification id notification →
      id ∈ subscribedIds posted) : Ordered (posted ++ [handler]) := by
  intro k id hne
  obtain hle | hlt := le_or_gt k posted.length
  · rw [List.take_append_of_le_length hle] at hne ⊢
    exact h k id hne
  · have hall : (posted ++ [handler]).length ≤ k := by simp; omega
    rw [List.take_of_length_le hall] at hne ⊢
    rw [subscribedIds_append]
    refine List.mem_append_left _ ?_
    by_cases hold : notified id posted = []
    · rw [notified_append, hold, List.nil_append] at hne
      cases handler with
      | notification id' notification =>
        rw [notified_notification] at hne
        have hsame : id' = id := by
          by_contra hother
          exact hne (if_neg hother)
        exact hsame ▸ hhandler id' notification rfl
      | _ => exact absurd rfl hne
    · have hlast := h posted.length id
      rw [List.take_length] at hlast
      exact hlast hold

/-- How the handlers follow the answers of the node. -/
structure Posted (past : List (Label α)) (s : AccountFeed α) : Prop where
  answered : ∀ c id, .subscribed c id ∈ s.posted ↔ Label.answer c id ∈ past
  ids : (subscribedIds s.posted).Nodup
  active : ∀ id, s.wsClient.activeSubscriptions id ≠ none → id ∈ subscribedIds s.posted
  ordered : Ordered s.posted
  requests : s.requests.Nodup
  request : ∀ c ∈ s.requests, c < s.subscriber.callCount ∧ ∀ id, Label.answer c id ∉ past
  call : ∀ c id, Label.answer c id ∈ past → c < s.subscriber.callCount
  once : ∀ c id id', Label.answer c id ∈ past → Label.answer c id' ∈ past → id = id'

theorem posted_init : Posted [] (init : AccountFeed α) where
  answered _ _ := by simp [init]
  ids := by simp [init, subscribedIds]
  active _ h := absurd rfl h
  ordered k _ h := by simp [init, notified] at h
  requests := List.nodup_nil
  request _ h := by simp [init] at h
  call _ _ h := by simp at h
  once _ _ _ h := by simp at h

/-- The frame: nothing is registered, and what is posted is no answer. -/
theorem Posted.frame (h : s.Posted past) (hlabel : ∀ c id, label ≠ .answer c id)
    (hactive : ∀ id, s'.wsClient.activeSubscriptions id ≠ none →
      s.wsClient.activeSubscriptions id ≠ none)
    (hposted : s'.posted = s.posted ∨ ∃ handler, s'.posted = s.posted ++ [handler] ∧
      ((∃ c, handler = .threw c) ∨ ∃ id notification,
        handler = .notification id notification ∧ s.wsClient.activeSubscriptions id ≠ none))
    (hrequests : s'.requests.Sublist s.requests)
    (hcallCount : s'.subscriber.callCount = s.subscriber.callCount) :
    s'.Posted (past ++ [label]) := by
  have hpast : ∀ c id, Label.answer c id ∈ past ++ [label] ↔ Label.answer c id ∈ past := by
    intro c id
    simp [(hlabel c id).symm]
  have hids : subscribedIds s'.posted = subscribedIds s.posted := by
    obtain hsame | ⟨handler, hsame, hhandler⟩ := hposted
    · rw [hsame]
    · obtain ⟨c, rfl⟩ | ⟨id, notification, rfl, -⟩ := hhandler <;>
        simp [hsame, subscribedIds]
  refine {
    answered := fun c id => ?_
    ids := hids ▸ h.ids
    active := fun id hid => hids ▸ h.active id (hactive id hid)
    ordered := ?_
    requests := hrequests.nodup h.requests
    request := fun c hc => ?_
    call := fun c id hc => ?_
    once := fun c id id' hc hc' => h.once c id id' ((hpast c id).mp hc) ((hpast c id').mp hc') }
  · rw [hpast, ← h.answered c id]
    obtain hsame | ⟨handler, hsame, hhandler⟩ := hposted
    · rw [hsame]
    · obtain ⟨c, rfl⟩ | ⟨id, notification, rfl, -⟩ := hhandler <;> simp [hsame]
  · obtain hsame | ⟨handler, hsame, hhandler⟩ := hposted
    · exact hsame ▸ h.ordered
    · rw [hsame]
      refine h.ordered.concat fun id notification heq => ?_
      obtain ⟨c, rfl⟩ | ⟨id', notification', rfl, hid⟩ := hhandler
      · cases heq
      · cases heq
        exact h.active id hid
  · obtain ⟨hlt, hno⟩ := h.request c (hrequests.subset hc)
    exact ⟨hcallCount ▸ hlt, fun id hmem => hno id ((hpast c id).mp hmem)⟩
  · exact hcallCount ▸ h.call c id ((hpast c id).mp hc)

theorem Posted.subscribe (h : s.Posted past) (hregistered : s.subscriber.Registered)
    (key : SubscriptionKey) : (s.accountSubscribe key).Posted (past ++ [.subscribe key]) := by
  have hcount : (s.accountSubscribe key).subscriber.callCount = s.subscriber.callCount + 1 :=
    (hregistered.accountSubscribe key).2.2
  have hpast : ∀ c id, Label.answer c id ∈ past ++ [.subscribe key] ↔ Label.answer c id ∈ past := by
    simp
  have hrequests : (s.accountSubscribe key).requests = s.requests ∨
      (s.accountSubscribe key).requests = s.requests ++ [s.subscriber.callCount] := by
    simp only [accountSubscribe]
    split
    · exact .inr rfl
    · exact .inl rfl
  have hnew : s.subscriber.callCount ∉ s.requests :=
    fun hmem => (h.request _ hmem).1.false
  refine {
    answered := fun c id => (h.answered c id).trans (hpast c id).symm
    ids := h.ids
    active := h.active
    ordered := h.ordered
    requests := ?_
    request := fun c hc => ?_
    call := fun c id hc => ?_
    once := fun c id id' hc hc' => h.once c id id' ((hpast c id).mp hc) ((hpast c id').mp hc') }
  · obtain hsame | hmore := hrequests
    · exact hsame ▸ h.requests
    · rw [hmore, List.nodup_append]
      refine ⟨h.requests, by simp, fun c hc c' hc' hsame => hnew ?_⟩
      rw [← List.mem_singleton.mp hc', ← hsame]
      exact hc
  · rw [hcount]
    have hold : c ∈ s.requests ∨ c = s.subscriber.callCount := by
      obtain hsame | hmore := hrequests
      · exact .inl (hsame ▸ hc)
      · simpa [hmore] using hc
    obtain hold | rfl := hold
    · obtain ⟨hlt, hno⟩ := h.request c hold
      exact ⟨by omega, fun id hmem => hno id ((hpast c id).mp hmem)⟩
    · exact ⟨by omega, fun id hmem => (h.call _ id ((hpast _ id).mp hmem)).false⟩
  · have hlt := h.call c id ((hpast c id).mp hc)
    omega

/-- An answer with a new id registers it. -/
theorem Posted.doSendSubscribe_eq (h : s.Posted past) {c : ℕ} {id : UInt64}
    (hnew : id ∉ answeredIds past) (hstep : s.doSendSubscribe c id = some s') :
    c ∈ s.requests ∧ id ∉ subscribedIds s.posted ∧ s' =
      { s with
        requests := s.requests.erase c
        wsClient := s.wsClient.put id .registered
        posted := s.posted ++ [.subscribed c id] } := by
  have hfresh : id ∉ subscribedIds s.posted := by
    intro hmem
    obtain ⟨c', hposted⟩ := mem_subscribedIds.mp hmem
    exact hnew (mem_answeredIds.mpr ⟨c', (h.answered c' id).mp hposted⟩)
  have hinactive : s.wsClient.activeSubscriptions id = none := by
    by_contra hactive
    exact hfresh (h.active id hactive)
  obtain ⟨hc, hstep⟩ := Option.ite_none_right_eq_some.mp hstep
  simp only [hinactive] at hstep
  exact ⟨hc, hfresh, (Option.some.inj hstep).symm⟩

theorem Posted.answer (h : s.Posted past) {c : ℕ} {id : UInt64} (hnew : id ∉ answeredIds past)
    (hstep : s.doSendSubscribe c id = some s') : s'.Posted (past ++ [.answer c id]) := by
  obtain ⟨hc, hfresh, rfl⟩ := h.doSendSubscribe_eq hnew hstep
  obtain ⟨hlt, hno⟩ := h.request c hc
  refine {
    answered := fun c' id' => ?_
    ids := ?_
    active := fun id' hid' => ?_
    ordered := h.ordered.concat fun _ _ heq => by cases heq
    requests := h.requests.erase c
    request := fun c' hc' => ?_
    call := fun c' id' hc' => ?_
    once := fun c' id₁ id₂ h₁ h₂ => ?_ }
  · simp [h.answered c' id']
  · rw [subscribedIds_append, List.nodup_append]
    refine ⟨h.ids, by simp [subscribedIds], fun id₁ h₁ id₂ h₂ hsame => hfresh ?_⟩
    rw [← List.mem_singleton.mp h₂, ← hsame]
    exact h₁
  · rw [subscribedIds_append, List.mem_append]
    by_cases hsame : id' = id
    · exact .inr (hsame ▸ List.mem_singleton_self _)
    · exact .inl (h.active id' (by simpa [SolanaWsClient.put, hsame] using hid'))
  · obtain ⟨hne, hmem⟩ := (h.requests.mem_erase_iff).mp hc'
    obtain ⟨hlt', hno'⟩ := h.request c' hmem
    refine ⟨hlt', fun id' hanswer => ?_⟩
    obtain hold | hlast := List.mem_append.mp hanswer
    · exact hno' id' hold
    · cases List.mem_singleton.mp hlast
      exact hne rfl
  · obtain hold | hlast := List.mem_append.mp hc'
    · exact h.call c' id' hold
    · cases List.mem_singleton.mp hlast
      exact hlt
  · -- Call `c` had no answer yet.
    obtain hold₁ | hlast₁ := List.mem_append.mp h₁ <;>
      obtain hold₂ | hlast₂ := List.mem_append.mp h₂
    · exact h.once c' id₁ id₂ hold₁ hold₂
    · cases List.mem_singleton.mp hlast₂
      exact absurd hold₁ (hno id₁)
    · cases List.mem_singleton.mp hlast₁
      exact absurd hold₂ (hno id₂)
    · cases List.mem_singleton.mp hlast₁
      cases List.mem_singleton.mp hlast₂
      rfl

/-! ## The handlers that have run -/

/-- The callbacks are registered, and called, by the handlers that have run. -/
structure Handled (s : AccountFeed α) : Prop where
  registered : s.subscriber.Registered
  started : s.started ≤ s.posted.length
  subscriptions : ∀ c id, .subscribed c id ∈ s.posted.take s.started ↔
    s.subscriber.subscriptions id = some [c]
  called : ∀ c id, s.subscriber.subscriptions id = some [c] →
    s.calledWith c = notified id (s.posted.take s.started)
  uncalled : ∀ c, (∀ id, s.subscriber.subscriptions id ≠ some [c]) → s.calledWith c = []

theorem handled_init : (init : AccountFeed α).Handled where
  registered := AccountSubscriber.registered_init
  started := Nat.zero_le _
  subscriptions _ _ := by simp [init, AccountSubscriber.init]
  called _ _ h := by simp [init, AccountSubscriber.init] at h
  uncalled _ _ := rfl

/-- The frame: a step that runs no handler of a request or a notification. -/
theorem Handled.frame (h : s.Handled) (hregistered : s'.subscriber.Registered)
    (hsubscriptions : s'.subscriber.subscriptions = s.subscriber.subscriptions)
    (hposted : s.posted <+: s'.posted) (hstarted : s'.started = s.started)
    (hcalled : s'.called = s.called) : s'.Handled := by
  have htake : s'.posted.take s'.started = s.posted.take s.started := by
    obtain ⟨more, hmore⟩ := hposted
    rw [← hmore, hstarted, List.take_append_of_le_length h.started]
  have hwith : ∀ c, s'.calledWith c = s.calledWith c := fun c => by
    rw [calledWith, hcalled]
    rfl
  exact {
    registered := hregistered
    started := hstarted ▸ h.started.trans hposted.length_le
    subscriptions := fun c id => by rw [htake, hsubscriptions, h.subscriptions]
    called := fun c id hid => by rw [htake, hwith, h.called c id (hsubscriptions ▸ hid)]
    uncalled := fun c hc => by rw [hwith, h.uncalled c (hsubscriptions ▸ hc)] }

/-- A subscription has been registered, by a handler that has run. -/
theorem Handled.mem_subscribedIds (h : s.Handled) {id : UInt64} :
    id ∈ subscribedIds (s.posted.take s.started) ↔ s.subscriber.subscriptions id ≠ none := by
  rw [AccountFeed.mem_subscribedIds]
  constructor
  · rintro ⟨c, hmem⟩
    simp [(h.subscriptions c id).mp hmem]
  · intro hne
    obtain ⟨callbacks, hid⟩ := Option.ne_none_iff_exists'.mp hne
    obtain ⟨c, -, -, rfl, -, -⟩ := h.registered.subscribed id callbacks hid
    exact ⟨c, (h.subscriptions c id).mpr hid⟩

theorem calledWith_concat (s : AccountFeed α) (c c' : ℕ) (notification : Option α) :
    calledWith { s with called := s.called ++ [(c', notification)] } c =
      s.calledWith c ++ if c' = c then [notification] else [] := by
  by_cases hsame : c' = c <;> simp [calledWith, hsame]

theorem take_started {handler : SubscriberHandler α}
    (hnext : s.posted[s.started]? = some handler) :
    s.posted.take (s.started + 1) = s.posted.take s.started ++ [handler] := by
  rw [List.take_add_one, hnext, Option.toList_some]

theorem started_lt {handler : SubscriberHandler α} (hnext : s.posted[s.started]? = some handler) :
    s.started + 1 ≤ s.posted.length :=
  (List.getElem?_eq_some_iff.mp hnext).1

/-- Before its handler has run there is no subscription, and no notification
for it. -/
theorem Handled.before_subscribed (h : s.Handled) (hposted : s.Posted past) {c : ℕ} {id : UInt64}
    (hnext : s.posted[s.started]? = some (.subscribed c id)) :
    s.subscriber.subscriptions id = none ∧ notified id (s.posted.take s.started) = [] := by
  have hfresh : id ∉ subscribedIds (s.posted.take s.started) := by
    have hids : (subscribedIds (s.posted.take (s.started + 1))).Nodup :=
      ((List.take_sublist _ _).filterMap _).nodup hposted.ids
    rw [take_started hnext, subscribedIds_append, List.nodup_append] at hids
    exact fun hmem => hids.2.2 id hmem id (List.mem_singleton_self _) rfl
  constructor
  · by_contra hne
    exact hfresh (h.mem_subscribedIds.mpr hne)
  · by_contra hne
    exact hfresh (hposted.ordered s.started id hne)

theorem Handled.runSubscribed (h : s.Handled) (hposted : s.Posted past) {c : ℕ} {id : UInt64}
    (hnext : s.posted[s.started]? = some (.subscribed c id))
    (hstep : { s with started := s.started + 1 }.handle (.subscribed c id) = some s') :
    s'.Handled := by
  obtain ⟨subscriber, hresponse, rfl⟩ := Option.map_eq_some_iff.mp hstep
  obtain ⟨key, hc, rfl⟩ := AccountSubscriber.step_response hresponse
  obtain ⟨hid, hnone⟩ := h.before_subscribed hposted hnext
  obtain ⟨hregistered, hsubscriptions, -⟩ := h.registered.onSubscribeResult hc hid
  have hne : ∀ id' callbacks, s.subscriber.subscriptions id' = some callbacks → id' ≠ id :=
    fun id' callbacks hold hsame => by simp [← hsame, hold] at hid
  refine {
    registered := hregistered
    started := started_lt hnext
    subscriptions := fun c' id' => ?_
    called := fun c' id' hid' => ?_
    uncalled := fun c' hc' => ?_ }
  · show _ ∈ s.posted.take (s.started + 1) ↔
      (s.subscriber.onSubscribeResult c key id).subscriptions id' = some [c']
    rw [take_started hnext, hsubscriptions, List.mem_append, h.subscriptions, List.mem_singleton,
      update_some_eq_some]
    constructor
    · rintro (hold | heq)
      · exact .inr ⟨hne id' _ hold, hold⟩
      · cases heq
        exact .inl ⟨rfl, rfl⟩
    · rintro (⟨rfl, hcallbacks⟩ | ⟨-, hold⟩)
      · obtain rfl : c = c' := by simpa using hcallbacks
        exact .inr rfl
      · exact .inl hold
  · show s.calledWith c' = notified id' (s.posted.take (s.started + 1))
    rw [take_started hnext, notified_append]
    refine Eq.trans ?_ (List.append_nil _).symm
    rw [hsubscriptions] at hid'
    obtain ⟨rfl, hcallbacks⟩ | ⟨-, hold⟩ := update_some_eq_some.mp hid'
    · obtain rfl : c = c' := by simpa using hcallbacks
      rw [hnone, h.uncalled c (h.registered.ne_of_requesting hc)]
    · exact h.called c' id' hold
  · refine h.uncalled c' fun id' hold => hc' id' ?_
    rw [hsubscriptions, Function.update_of_ne (hne id' _ hold), hold]

theorem Handled.runThrew (h : s.Handled) {c : ℕ}
    (hnext : s.posted[s.started]? = some (.threw c))
    (hstep : { s with started := s.started + 1 }.handle (.threw c) = some s') : s'.Handled := by
  obtain ⟨subscriber, hfailure, rfl⟩ := Option.map_eq_some_iff.mp hstep
  obtain ⟨hregistered, hsubscriptions, -⟩ :=
    h.registered.onItsOwn (show AccountSubscriber.Label.OnItsOwn (.failure c) from trivial) hfailure
  refine {
    registered := hregistered
    started := started_lt hnext
    subscriptions := fun c' id => ?_
    called := fun c' id hid => ?_
    uncalled := fun c' hc' => h.uncalled c' (hsubscriptions ▸ hc') }
  · show _ ∈ s.posted.take (s.started + 1) ↔ subscriber.subscriptions id = some [c']
    rw [take_started hnext, hsubscriptions, ← h.subscriptions]
    simp
  · show s.calledWith c' = notified id (s.posted.take (s.started + 1))
    rw [take_started hnext, notified_append]
    refine Eq.trans ?_ (List.append_nil _).symm
    exact h.called c' id (hsubscriptions ▸ hid)

/-- A notification finds its subscription, which was posted before it, and
the one callback that is registered there is given it. -/
theorem Handled.runNotification (h : s.Handled) (hposted : s.Posted past) {id : UInt64}
    {notification : Option α} (hnext : s.posted[s.started]? = some (.notification id notification))
    (hstep : { s with started := s.started + 1 }.handle (.notification id notification) =
      some s') : s'.Handled := by
  obtain rfl := Option.some.inj hstep
  obtain ⟨c, hid⟩ : ∃ c, s.subscriber.subscriptions id = some [c] := by
    have hmem := hposted.ordered (s.started + 1) id (by
      rw [take_started hnext, notified_append, notified_notification, if_pos rfl]
      simp)
    rw [take_started hnext, subscribedIds_append] at hmem
    obtain ⟨c, hc⟩ := AccountFeed.mem_subscribedIds.mp (by simpa [subscribedIds] using hmem)
    exact ⟨c, (h.subscriptions c id).mp hc⟩
  have hwith : ∀ c', calledWith
      { s with
        started := s.started + 1
        called := s.called ++ (s.subscriber.doHandleAccountNotification id).map
          fun c => (c, notification) } c' =
      s.calledWith c' ++ if c = c' then [notification] else [] := fun c' => by
    rw [← calledWith_concat]
    simp [AccountSubscriber.doHandleAccountNotification, hid, calledWith]
  refine {
    registered := h.registered
    started := started_lt hnext
    subscriptions := fun c' id' => ?_
    called := fun c' id' hid' => (hwith c').trans ?_
    uncalled := fun c' hc' => (hwith c').trans ?_ }
  · show _ ∈ s.posted.take (s.started + 1) ↔ s.subscriber.subscriptions id' = some [c']
    rw [take_started hnext, ← h.subscriptions]
    simp
  · show _ = notified id' (s.posted.take (s.started + 1))
    have hsame : c = c' ↔ id = id' := by
      constructor
      · rintro rfl
        exact h.registered.eq_of_subscriptions hid hid'
      · rintro rfl
        simpa [hid] using hid'
    rw [take_started hnext, notified_append, notified_notification, h.called c' id' hid']
    simp only [hsame]
  · have hne : c ≠ c' := fun hsame => hc' id (hsame ▸ hid)
    rw [if_neg hne, List.append_nil, h.uncalled c' hc']

/-! ## Every step -/

/-- What a handler leaves as it is. -/
theorem handle_frame {handler : SubscriberHandler α} (hstep : s.handle handler = some s') :
    s'.wsClient = s.wsClient ∧ s'.posted = s.posted ∧ s'.requests = s.requests ∧
      s'.subscriber.callCount = s.subscriber.callCount := by
  cases handler with
  | subscribed c id =>
    obtain ⟨subscriber, hresponse, rfl⟩ := Option.map_eq_some_iff.mp hstep
    obtain ⟨key, -, rfl⟩ := AccountSubscriber.step_response hresponse
    exact ⟨rfl, rfl, rfl, rfl⟩
  | threw c =>
    obtain ⟨subscriber, hfailure, rfl⟩ := Option.map_eq_some_iff.mp hstep
    obtain ⟨key, -, rfl⟩ := AccountSubscriber.step_failure hfailure
    exact ⟨rfl, rfl, rfl, rfl⟩
  | notification id notification =>
    obtain rfl := Option.some.inj hstep
    exact ⟨rfl, rfl, rfl, rfl⟩

/-- A step of the web socket client that calls nobody. -/
inductive Label.Ws : Label α → SolanaWsClient.Label α → Prop where
  | start (id : UInt64) : Label.Ws (.start id) (.start id)
  | notification (id : UInt64) (message : Option α) :
      Label.Ws (.notification id message) (.notification id message)
  | expires (id : UInt64) : Label.Ws (.notifyExpires id) (.expire id)
  | timerError (id : UInt64) : Label.Ws (.notifyTimerError id) (.timerError id)

theorem Label.Ws.quiet {wsLabel : SolanaWsClient.Label α} (h : label.Ws wsLabel) :
    wsLabel.Quiet := by
  cases h <;> trivial

theorem Label.Ws.notification_iff {wsLabel : SolanaWsClient.Label α} (h : label.Ws wsLabel)
    (id : UInt64) (message : Option α) :
    wsLabel = .notification id message ↔ label = .notification id message := by
  cases h <;> simp

/-- All a step can do. -/
inductive StepCase (s s' : AccountFeed α) (label : Label α) : Prop where
  | subscribe (key : SubscriptionKey) (hlabel : label = .subscribe key)
      (hs' : s' = s.accountSubscribe key)
  | answer (c : ℕ) (id : UInt64) (hlabel : label = .answer c id)
      (hstep : s.doSendSubscribe c id = some s')
  | requestFails (c : ℕ) (hlabel : label = .requestFails c)
      (hs' : s' = { s with requests := s.requests.erase c }.post (.threw c))
  | ws (wsLabel : SolanaWsClient.Label α) (wsClient : SolanaWsClient α) (hlabel : label.Ws wsLabel)
      (hstep : s.wsClient.step wsLabel = some wsClient) (hs' : s' = { s with wsClient })
  | resumes (id : UInt64) (subscription : ActiveSubscription α) (wsClient : SolanaWsClient α)
      (hlabel : label = .notifyResumes id)
      (hid : s.wsClient.activeSubscriptions id = some subscription)
      (hstep : s.wsClient.step (.resume id) = some wsClient)
      (hs' : s' =
        { s with
          wsClient
          posted := s.posted ++ if subscription.notifier = .signalled then
            [.notification id subscription.message] else [] })
  | handler (handler : SubscriberHandler α) (hlabel : label = .handler)
      (hnext : s.posted[s.started]? = some handler)
      (hstep : { s with started := s.started + 1 }.handle handler = some s')
  | pending (subscriberLabel : AccountSubscriber.Label) (subscriber : AccountSubscriber)
      (hown : subscriberLabel.OnItsOwn) (hlabel : ∀ c id, label ≠ .answer c id)
      (hnote : ∀ id, noteOf id label = [])
      (hstep : s.subscriber.step subscriberLabel = some subscriber)
      (hs' : s' = { s with subscriber })

theorem step_cases (hstep : s.step label = some s') : StepCase s s' label := by
  have hws {label : Label α} {wsLabel : SolanaWsClient.Label α} (hlabel : label.Ws wsLabel)
      (hstep : s.wsStep wsLabel = some s') : StepCase s s' label := by
    obtain ⟨wsClient, hws, rfl⟩ := Option.map_eq_some_iff.mp hstep
    exact .ws wsLabel wsClient hlabel hws rfl
  have hpending {label : Label α} {subscriberLabel : AccountSubscriber.Label}
      (hown : subscriberLabel.OnItsOwn) (hlabel : ∀ c id, label ≠ .answer c id)
      (hnote : ∀ id, noteOf id label = [])
      (hstep : s.subscriberStep subscriberLabel = some s') : StepCase s s' label := by
    obtain ⟨subscriber, hsubscriber, rfl⟩ := Option.map_eq_some_iff.mp hstep
    exact .pending subscriberLabel subscriber hown hlabel hnote hsubscriber rfl
  cases label with
  | subscribe key => exact .subscribe key rfl (Option.some.inj hstep).symm
  | answer c id => exact .answer c id rfl hstep
  | requestFails c =>
    obtain ⟨-, hstep⟩ := Option.ite_none_right_eq_some.mp hstep
    exact .requestFails c rfl (Option.some.inj hstep).symm
  | start id => exact hws (.start id) hstep
  | notification id message => exact hws (.notification id message) hstep
  | notifyExpires id => exact hws (.expires id) hstep
  | notifyTimerError id => exact hws (.timerError id) hstep
  | notifyResumes id =>
    obtain ⟨subscription, hid, hstep⟩ := Option.bind_eq_some_iff.mp hstep
    obtain ⟨wsClient, hws, hstep⟩ := Option.bind_eq_some_iff.mp hstep
    refine .resumes id subscription wsClient rfl hid hws ?_
    by_cases hsignalled : subscription.notifier = .signalled
    · rw [if_pos hsignalled] at hstep ⊢
      exact (Option.some.inj hstep).symm
    · rw [if_neg hsignalled] at hstep ⊢
      rw [List.append_nil]
      exact (Option.some.inj hstep).symm
  | handler =>
    obtain ⟨handler, hnext, hstep⟩ := Option.bind_eq_some_iff.mp hstep
    exact .handler handler rfl hnext hstep
  | pendingExpires key =>
    exact hpending (show AccountSubscriber.Label.OnItsOwn (.expire key) from trivial) (by simp)
      (fun _ => rfl) hstep
  | pendingTimerError c =>
    exact hpending (show AccountSubscriber.Label.OnItsOwn (.timerError c) from trivial) (by simp)
      (fun _ => rfl) hstep
  | pendingResumes c =>
    exact hpending (show AccountSubscriber.Label.OnItsOwn (.wake c) from trivial) (by simp)
      (fun _ => rfl) hstep

/-- The frame for the steps of the web socket client. -/
theorem active_of_quiet {client client' : SolanaWsClient α} {wsLabel : SolanaWsClient.Label α}
    (hlabel : wsLabel.Quiet) (hstep : client.step wsLabel = some client') (id : UInt64)
    (hid : client'.activeSubscriptions id ≠ none) : client.activeSubscriptions id ≠ none := by
  have hput {id' : UInt64} {old new : ActiveSubscription α}
      (hold : client.activeSubscriptions id' = some old)
      (hid : (client.put id' new).activeSubscriptions id ≠ none) :
      client.activeSubscriptions id ≠ none := by
    by_cases hsame : id = id'
    · simp [hsame, hold]
    · simpa [SolanaWsClient.put, hsame] using hid
  obtain ⟨rfl, -⟩ | ⟨id', subscription, notifier, hold, -, -, rfl, -⟩ |
    ⟨id', subscription, message, -, hold, rfl⟩ := SolanaWsClient.quiet_cases hlabel hstep
  · exact hid
  · exact hput hold hid
  · exact hput hold hid

theorem active_of_resume {client client' : SolanaWsClient α} {id' : UInt64}
    (hstep : client.step (.resume id') = some client') (id : UInt64)
    (hid : client'.activeSubscriptions id ≠ none) : client.activeSubscriptions id ≠ none := by
  obtain ⟨subscription, hold, -⟩ := Option.bind_eq_some_iff.mp hstep
  by_cases hsame : id = id'
  · simp [hsame, hold]
  · obtain ⟨-, rfl | rfl⟩ | ⟨-, rfl | rfl⟩ := SolanaWsClient.resume_cases hold hstep <;>
      simpa [SolanaWsClient.put, SolanaWsClient.erase, hsame] using hid

/-- The node gives a new id with each answer. -/
def NewId (past : List (Label α)) (label : Label α) : Prop :=
  ∀ c id, label = .answer c id → id ∉ answeredIds past

theorem posted_step (h : s.Posted past) (hregistered : s.subscriber.Registered)
    (hnew : NewId past label) (hs : s.step label = some s') :
    s'.Posted (past ++ [label]) := by
  obtain ⟨key, rfl, rfl⟩ | ⟨c, id, rfl, hstep⟩ | ⟨c, rfl, rfl⟩ |
    ⟨wsLabel, wsClient, hlabel, hstep, rfl⟩ | ⟨id, subscription, wsClient, rfl, hid, hstep, rfl⟩ |
    ⟨handler, rfl, hnext, hstep⟩ | ⟨subscriberLabel, subscriber, hown, hlabel, -, hstep, rfl⟩ :=
    step_cases hs
  · exact h.subscribe hregistered key
  · exact h.answer (hnew c id rfl) hstep
  · exact h.frame (by simp) (fun _ hid => hid) (.inr ⟨_, rfl, .inl ⟨c, rfl⟩⟩)
      List.erase_sublist rfl
  · exact h.frame (fun c id hanswer => by subst hanswer; cases hlabel)
      (active_of_quiet hlabel.quiet hstep) (.inl rfl) (List.Sublist.refl _) rfl
  · refine h.frame (by simp) (active_of_resume hstep) ?_ (List.Sublist.refl _) rfl
    by_cases hsignalled : subscription.notifier = .signalled
    · exact .inr ⟨_, by rw [if_pos hsignalled], .inr ⟨id, _, rfl, by simp [hid]⟩⟩
    · exact .inl (by rw [if_neg hsignalled, List.append_nil])
  · obtain ⟨hws, hposted, hrequests, hcount⟩ := handle_frame hstep
    exact h.frame (by simp) (fun id hid => by rwa [hws] at hid) (.inl hposted)
      (hrequests ▸ List.Sublist.refl _) hcount
  · exact h.frame hlabel (fun _ hid => hid) (.inl rfl) (List.Sublist.refl _)
      (hregistered.onItsOwn hown hstep).2.2

theorem handled_step (h : s.Handled) (hposted : s.Posted past) (hnew : NewId past label)
    (hs : s.step label = some s') : s'.Handled := by
  obtain ⟨key, rfl, rfl⟩ | ⟨c, id, rfl, hstep⟩ | ⟨c, rfl, rfl⟩ |
    ⟨wsLabel, wsClient, hlabel, hstep, rfl⟩ | ⟨id, subscription, wsClient, rfl, hid, hstep, rfl⟩ |
    ⟨handler, rfl, hnext, hstep⟩ | ⟨subscriberLabel, subscriber, hown, hlabel, -, hstep, rfl⟩ :=
    step_cases hs
  · obtain ⟨hregistered, hsubscriptions, -⟩ := h.registered.accountSubscribe key
    exact h.frame hregistered hsubscriptions (List.prefix_refl _) rfl rfl
  · obtain ⟨-, -, rfl⟩ := hposted.doSendSubscribe_eq (hnew c id rfl) hstep
    exact h.frame h.registered rfl (List.prefix_append ..) rfl rfl
  · exact h.frame h.registered rfl (List.prefix_append ..) rfl rfl
  · exact h.frame h.registered rfl (List.prefix_refl _) rfl rfl
  · exact h.frame h.registered rfl (List.prefix_append ..) rfl rfl
  · cases handler with
    | subscribed c id => exact h.runSubscribed hposted hnext hstep
    | threw c => exact h.runThrew hnext hstep
    | notification id notification => exact h.runNotification hposted hnext hstep
  · obtain ⟨hregistered, hsubscriptions, -⟩ := h.registered.onItsOwn hown hstep
    exact h.frame hregistered hsubscriptions (List.prefix_refl _) rfl rfl

/-! ## From the node to the handlers -/

/-- The notifications handed over for an id, and the one that its subscription
holds. -/
def heard (s : AccountFeed α) (id : UInt64) : List (Option α) :=
  notified id s.posted ++ (s.wsClient.slot id).map some

/-- What a step does for one id. -/
inductive HeardStep (s s' : AccountFeed α) (label : Label α) (feed feed' : List α)
    (id : UInt64) : Prop where
  | same (hheard : s'.heard id = s.heard id) (hfeed : feed' = feed)
      (hactive : s'.wsClient.activeSubscriptions id ≠ none →
        s.wsClient.activeSubscriptions id ≠ none)
  /-- Nothing more is heard. -/
  | ended (more : List α) (hheard : (s'.heard id).Sublist (s.heard id))
      (hfeed : feed' = feed ++ more) (hactive : s'.wsClient.activeSubscriptions id = none)
  | began (hheard : s'.heard id = []) (hfeed : feed' = [])
  /-- A notification takes the place of the one that was held. -/
  | noted (subscription : ActiveSubscription α) (message : α)
      (hlabel : label = .notification id (some message))
      (hid : s.wsClient.activeSubscriptions id = some subscription)
      (hheard : s'.heard id = notified id s.posted ++ [some message])
      (hfeed : feed' = feed ++ [message])

theorem feedOf_of_noteOf {id : UInt64} (h : noteOf id label = []) (past : List (Label α)) :
    feedOf id (past ++ [label]) = feedOf id past := by
  rw [feedOf_concat, h, ite_self, List.append_nil]

theorem heard_same {id : UInt64} (hws : s'.wsClient = s.wsClient)
    (hposted : notified id s'.posted = notified id s.posted) (hnote : noteOf id label = []) :
    HeardStep s s' label (feedOf id past) (feedOf id (past ++ [label])) id :=
  .same (by rw [heard, heard, hws, hposted]) (feedOf_of_noteOf hnote past) (by simp [hws])

theorem heard_ws {id : UInt64} (hposted : s.Posted past) {wsLabel : SolanaWsClient.Label α}
    {wsClient : SolanaWsClient α} (hlabel : label.Ws wsLabel)
    (hstep : s.wsClient.step wsLabel = some wsClient) :
    HeardStep s { s with wsClient } label (feedOf id past) (feedOf id (past ++ [label])) id := by
  have hnote_of_ne (hne : ∀ message, wsLabel ≠ .notification id (some message)) :
      noteOf id label = [] := by
    cases hlabel with
    | notification id' message =>
      cases message with
      | none => rfl
      | some message =>
        have hother : id' ≠ id := fun hsame => hne message (by rw [hsame])
        exact if_neg hother
    | _ => rfl
  obtain ⟨rfl, hnone⟩ | ⟨id', subscription, notifier, hold, -, -, rfl, hne⟩ |
    ⟨id', subscription, message, rfl, hold, rfl⟩ :=
    SolanaWsClient.quiet_cases hlabel.quiet hstep
  · by_cases hactive : s.wsClient.activeSubscriptions id = none
    · exact .ended _ (List.Sublist.refl _) (feedOf_concat id past label) hactive
    · exact heard_same rfl rfl (hnote_of_ne fun message hlabel => hactive (hnone id message hlabel))
  · refine .same ?_ (feedOf_of_noteOf (hnote_of_ne (hne id)) past)
      (active_of_quiet hlabel.quiet hstep id)
    by_cases hsame : id = id'
    · subst hsame
      simp [heard, SolanaWsClient.slot_put_self, SolanaWsClient.slot_of_active hold]
    · simp [heard, SolanaWsClient.slot_put_of_ne hsame]
  · have hnotification := (hlabel.notification_iff id' (some message)).mp rfl
    subst hnotification
    by_cases hsame : id = id'
    · subst hsame
      obtain ⟨c, hmem⟩ := mem_subscribedIds.mp (hposted.active id (by simp [hold]))
      have hanswered : id ∈ answeredIds past :=
        mem_answeredIds.mpr ⟨c, (hposted.answered c id).mp hmem⟩
      refine .noted subscription message rfl hold ?_ ?_
      · simp [heard, SolanaWsClient.slot_put_self, SolanaWsClient.setResult_message]
      · rw [feedOf_concat, if_pos hanswered]
        simp [noteOf]
    · refine .same ?_ (feedOf_of_noteOf (hnote_of_ne fun _ heq => ?_) past)
        (active_of_quiet hlabel.quiet hstep id)
      · simp [heard, SolanaWsClient.slot_put_of_ne hsame]
      · cases heq
        exact hsame rfl

theorem heard_resumes {id id' : UInt64} {subscription : ActiveSubscription α}
    {wsClient : SolanaWsClient α} (hloaded : s.wsClient.Loaded)
    (hold : s.wsClient.activeSubscriptions id' = some subscription)
    (hstep : s.wsClient.step (.resume id') = some wsClient) :
    HeardStep s
      { s with
        wsClient
        posted := s.posted ++ if subscription.notifier = .signalled then
          [.notification id' subscription.message] else [] }
      (.notifyResumes id') (feedOf id past) (feedOf id (past ++ [.notifyResumes id'])) id := by
  have hfeed : feedOf id (past ++ [.notifyResumes id']) = feedOf id past :=
    feedOf_of_noteOf rfl past
  have hactive := active_of_resume hstep id
  by_cases hsame : id = id'
  · subst hsame
    obtain ⟨hsignalled, hcases⟩ | ⟨hsource, rfl | rfl⟩ := SolanaWsClient.resume_cases hold hstep
    · obtain ⟨message, hmessage⟩ :=
        Option.ne_none_iff_exists'.mp (hloaded id subscription hold hsignalled)
      have hslot : wsClient.slot id = [] := by
        obtain rfl | rfl := hcases
        · rw [SolanaWsClient.slot_put_self]
          rfl
        · exact SolanaWsClient.slot_erase_self ..
      refine .same ?_ hfeed hactive
      simp [heard, hslot, hsignalled, hmessage, notified_append, notified_notification,
        SolanaWsClient.slot_of_active hold]
    · refine .same ?_ hfeed hactive
      simp [heard, hsource, SolanaWsClient.slot_put_self, SolanaWsClient.slot_of_active hold]
    · refine .ended [] ?_ (by rw [hfeed, List.append_nil]) (Function.update_self ..)
      simp [heard, hsource, SolanaWsClient.slot_erase_self]
  · have hslot : wsClient.slot id = s.wsClient.slot id := by
      obtain ⟨-, rfl | rfl⟩ | ⟨-, rfl | rfl⟩ := SolanaWsClient.resume_cases hold hstep
      · exact SolanaWsClient.slot_put_of_ne hsame _
      · exact SolanaWsClient.slot_erase_of_ne hsame _
      · exact SolanaWsClient.slot_put_of_ne hsame _
      · exact SolanaWsClient.slot_erase_of_ne hsame _
    have hother : ¬id' = id := fun heq => hsame heq.symm
    refine .same ?_ hfeed hactive
    by_cases hsignalled : subscription.notifier = .signalled <;>
      simp [heard, hslot, hsignalled, notified_append, notified_notification, hother]

theorem heard_step (h : s.Posted past) (hloaded : s.wsClient.Loaded) (hnew : NewId past label)
    (hs : s.step label = some s') (id : UInt64) :
    HeardStep s s' label (feedOf id past) (feedOf id (past ++ [label])) id := by
  obtain ⟨key, rfl, rfl⟩ | ⟨c, id', rfl, hstep⟩ | ⟨c, rfl, rfl⟩ |
    ⟨wsLabel, wsClient, hlabel, hstep, rfl⟩ | ⟨id', subscription, wsClient, rfl, hid, hstep, rfl⟩ |
    ⟨handler, rfl, hnext, hstep⟩ | ⟨subscriberLabel, subscriber, hown, hlabel, hnote, hstep, rfl⟩ :=
    step_cases hs
  · exact heard_same rfl rfl rfl
  · have hnewId := hnew c id' rfl
    obtain ⟨-, hfresh, rfl⟩ := h.doSendSubscribe_eq hnewId hstep
    by_cases hsame : id = id'
    · subst hsame
      have hnone : notified id s.posted = [] := by
        by_contra hne
        have hmem := h.ordered s.posted.length id
        rw [List.take_length] at hmem
        exact hfresh (hmem hne)
      refine .began ?_ ?_
      · rw [heard, SolanaWsClient.slot_put_self, notified_append, hnone]
        rfl
      · rw [feedOf_of_noteOf rfl, feedOf_eq_nil hnewId]
    · refine .same ?_ (feedOf_of_noteOf rfl past) (fun hactive => ?_)
      · rw [heard, heard, SolanaWsClient.slot_put_of_ne hsame, notified_append]
        exact congrArg (· ++ _) (List.append_nil _)
      · simpa [SolanaWsClient.put, hsame] using hactive
  · refine heard_same rfl ?_ rfl
    exact (notified_append ..).trans (List.append_nil _)
  · exact heard_ws h hlabel hstep
  · exact heard_resumes hloaded hid hstep
  · obtain ⟨hws, hposted, -⟩ := handle_frame hstep
    exact heard_same hws (congrArg _ hposted) rfl
  · exact heard_same rfl rfl (hnote id)

/-! ## Every run -/

/-- What holds in every run with new ids. -/
structure Inv (past : List (Label α)) (s : AccountFeed α) : Prop where
  posted : s.Posted past
  handled : s.Handled
  loaded : s.wsClient.Loaded
  sublist : ∀ id, (s.heard id).Sublist ((feedOf id past).map some)
  last : ∀ id, s.wsClient.activeSubscriptions id ≠ none →
    (s.heard id).getLast? = ((feedOf id past).map some).getLast?

theorem inv_init : Inv [] (init : AccountFeed α) where
  posted := posted_init
  handled := handled_init
  loaded := SolanaWsClient.loaded_init
  sublist _ := List.nil_sublist _
  last _ h := absurd rfl h

/-- What a step does to the web socket client. -/
theorem wsClient_cases (hs : s.step label = some s') :
    s'.wsClient = s.wsClient ∨ (∃ id, s'.wsClient = s.wsClient.put id .registered) ∨
      (∃ wsLabel, label.Ws wsLabel ∧ s.wsClient.step wsLabel = some s'.wsClient) ∨
      ∃ id, s.wsClient.step (.resume id) = some s'.wsClient := by
  obtain ⟨key, rfl, rfl⟩ | ⟨c, id, rfl, hstep⟩ | ⟨c, rfl, rfl⟩ |
    ⟨wsLabel, wsClient, hlabel, hstep, rfl⟩ | ⟨id, subscription, wsClient, rfl, hid, hstep, rfl⟩ |
    ⟨handler, rfl, hnext, hstep⟩ | ⟨subscriberLabel, subscriber, hown, hlabel, -, hstep, rfl⟩ :=
    step_cases hs
  · exact .inl rfl
  · obtain ⟨-, hstep⟩ := Option.ite_none_right_eq_some.mp hstep
    cases hid : s.wsClient.activeSubscriptions id with
    | none =>
      simp only [hid] at hstep
      obtain rfl := Option.some.inj hstep
      exact .inr (.inl ⟨id, rfl⟩)
    | some subscription =>
      simp only [hid] at hstep
      obtain rfl := Option.some.inj hstep
      exact .inl rfl
  · exact .inl rfl
  · exact .inr (.inr (.inl ⟨wsLabel, hlabel, hstep⟩))
  · exact .inr (.inr (.inr ⟨id, hstep⟩))
  · exact .inl (handle_frame hstep).1
  · exact .inl rfl

theorem loaded_step (h : s.wsClient.Loaded) (hs : s.step label = some s') : s'.wsClient.Loaded := by
  obtain hsame | ⟨id, hput⟩ | ⟨wsLabel, hlabel, hstep⟩ | ⟨id, hstep⟩ := wsClient_cases hs
  · exact hsame ▸ h
  · exact hput ▸ h.registered id
  · exact h.quiet hlabel.quiet hstep
  · exact h.resume hstep

theorem inv_step (h : s.Inv past) (hnew : NewId past label) (hs : s.step label = some s') :
    s'.Inv (past ++ [label]) where
  posted := posted_step h.posted h.handled.registered hnew hs
  handled := handled_step h.handled h.posted hnew hs
  loaded := loaded_step h.loaded hs
  sublist id := by
    obtain ⟨hheard, hfeed, -⟩ | ⟨more, hheard, hfeed, -⟩ | ⟨hheard, hfeed⟩ |
      ⟨subscription, message, -, -, hheard, hfeed⟩ := heard_step h.posted h.loaded hnew hs id
    · rw [hheard, hfeed]
      exact h.sublist id
    · rw [hfeed, List.map_append]
      exact (hheard.trans (h.sublist id)).trans (List.sublist_append_left ..)
    · exact hheard ▸ List.nil_sublist _
    · rw [hheard, hfeed, List.map_append]
      exact ((List.sublist_append_left ..).trans (h.sublist id)).append (List.Sublist.refl _)
  last id hid := by
    obtain ⟨hheard, hfeed, hactive⟩ | ⟨more, -, -, hnone⟩ | ⟨hheard, hfeed⟩ |
      ⟨subscription, message, -, -, hheard, hfeed⟩ := heard_step h.posted h.loaded hnew hs id
    · rw [hheard, hfeed]
      exact h.last id (hactive hid)
    · exact absurd hnone hid
    · rw [hheard, hfeed]
      rfl
    · simp [hheard, hfeed]

theorem newId_of_nodup (h : (answeredIds (past ++ [label])).Nodup) :
    (answeredIds past).Nodup ∧ NewId past label := by
  rw [answeredIds, List.filterMap_append, ← answeredIds, List.nodup_append] at h
  refine ⟨h.1, fun c id hlabel hmem => ?_⟩
  subst hlabel
  exact h.2.2 id hmem id (List.mem_singleton_self _) rfl

/-- A notification finds `do_notify` waiting, or woken by a notification before it;
not before its first wait and not after a wait that expired. -/
def Noticed (s : AccountFeed α) : Label α → Prop
  | .notification id message =>
    SolanaWsClient.Label.Noticed s.wsClient (.notification id message)
  | _ => True

instance (s : AccountFeed α) : (label : Label α) → Decidable (Noticed s label)
  | .subscribe _ => .isTrue trivial
  | .answer _ _ => .isTrue trivial
  | .requestFails _ => .isTrue trivial
  | .start _ => .isTrue trivial
  | .notification id message => inferInstanceAs (Decidable
      (SolanaWsClient.Label.Noticed s.wsClient (.notification id message)))
  | .notifyExpires _ => .isTrue trivial
  | .notifyTimerError _ => .isTrue trivial
  | .notifyResumes _ => .isTrue trivial
  | .handler => .isTrue trivial
  | .pendingExpires _ => .isTrue trivial
  | .pendingTimerError _ => .isTrue trivial
  | .pendingResumes _ => .isTrue trivial

/-- A notification finds `do_notify` waiting. -/
def Prompt (s : AccountFeed α) : Label α → Prop
  | .notification id (some _) => ∀ subscription ∈ s.wsClient.activeSubscriptions id,
      subscription.notifier = .waiting
  | _ => True

theorem noticed_of_prompt (h : Prompt s label) : Noticed s label := by
  cases label with
  | notification id message =>
    cases message with
    | none => trivial
    | some message => exact fun subscription hid => .inl (h subscription hid)
  | _ => trivial

theorem noticed_step (h : s.wsClient.Noticed) (hok : Noticed s label)
    (hs : s.step label = some s') : s'.wsClient.Noticed := by
  obtain hsame | ⟨id, hput⟩ | ⟨wsLabel, hlabel, hstep⟩ | ⟨id, hstep⟩ := wsClient_cases hs
  · exact hsame ▸ h
  · exact hput ▸ h.registered id
  · have hnoticed : wsLabel.Noticed s.wsClient := by
      cases hlabel with
      | notification id message => exact hok
      | _ => trivial
    exact h.quiet hlabel.quiet hstep hnoticed
  · exact h.resume hstep

/-- What holds where, in addition, every notification finds `do_notify` waiting. -/
structure Noted (past : List (Label α)) (s : AccountFeed α) : Prop where
  inv : s.Inv past
  noticed : s.wsClient.Noticed
  heard : ∀ id, s.wsClient.activeSubscriptions id ≠ none →
    s.heard id = (feedOf id past).map some

/-- Nothing is overwritten where every notification finds `do_notify` waiting. -/
theorem heard_eq_step (h : s.Inv past) (hnoticed : s.wsClient.Noticed) (hnew : NewId past label)
    (hok : Prompt s label) (hs : s.step label = some s') {id : UInt64}
    (hheard : s.wsClient.activeSubscriptions id ≠ none → s.heard id = (feedOf id past).map some)
    (hid : s'.wsClient.activeSubscriptions id ≠ none) :
    s'.heard id = (feedOf id (past ++ [label])).map some := by
  obtain ⟨hheard', hfeed, hactive⟩ | ⟨more, -, -, hnone⟩ | ⟨hheard', hfeed⟩ |
    ⟨subscription, message, rfl, hold, hheard', hfeed⟩ :=
    heard_step h.posted h.loaded hnew hs id
  · rw [hheard', hfeed]
    exact hheard (hactive hid)
  · exact absurd hnone hid
  · rw [hheard', hfeed]
    rfl
  · have hempty : subscription.message = none := by
      by_contra hmessage
      have hsignalled := hnoticed id subscription hold hmessage
      rw [hok subscription hold] at hsignalled
      cases hsignalled
    have hall : notified id s.posted = (feedOf id past).map some := by
      rw [← hheard (by simp [hold]), heard, SolanaWsClient.slot_of_active hold, hempty]
      exact (List.append_nil _).symm
    rw [hheard', hfeed, hall, List.map_append]
    rfl

section Runs

variable {labels : List (Label α)} {t : AccountFeed α}

theorem inv_of_run (hids : (answeredIds labels).Nodup) (hrun : run step init labels = some t) :
    t.Inv labels := by
  have hstep : ∀ past (s : AccountFeed α) label s', ((answeredIds past).Nodup → s.Inv past) →
      True → s.step label = some s' →
      (answeredIds (past ++ [label])).Nodup → s'.Inv (past ++ [label]) := by
    intro past s label s' h _ hs hnodup
    obtain ⟨hpast, hnew⟩ := newId_of_nodup hnodup
    exact inv_step (h hpast) hnew hs
  have hinv := invariant_history hstep (fun _ => inv_init) (along_true _ _) hrun
  exact hinv hids

theorem noticed_of_run (hok : Along step Noticed init labels)
    (hrun : run step init labels = some t) : t.wsClient.Noticed := by
  have hstep : ∀ (s : AccountFeed α) label s', s.wsClient.Noticed → Noticed s label →
      s.step label = some s' → s'.wsClient.Noticed :=
    fun _ _ _ h hok hs => noticed_step h hok hs
  have hnoticed := invariant_along hstep SolanaWsClient.noticed_init hok hrun
  exact hnoticed

theorem heard_eq_of_run (hids : (answeredIds labels).Nodup) (hok : Along step Prompt init labels)
    (hrun : run step init labels = some t) (id : UInt64)
    (hid : t.wsClient.activeSubscriptions id ≠ none) :
    t.heard id = (feedOf id labels).map some := by
  have hstep : ∀ past (s : AccountFeed α) label s', ((answeredIds past).Nodup → s.Noted past) →
      Prompt s label → s.step label = some s' →
      (answeredIds (past ++ [label])).Nodup → s'.Noted (past ++ [label]) := by
    intro past s label s' h hok hs hnodup
    obtain ⟨hpast, hnew⟩ := newId_of_nodup hnodup
    obtain ⟨hinv, hnoticed, hheard⟩ := h hpast
    exact ⟨inv_step hinv hnew hs, noticed_step hnoticed (noticed_of_prompt hok) hs,
      fun id hid => heard_eq_step hinv hnoticed hnew hok hs (hheard id) hid⟩
  have hinv := invariant_history hstep
    (fun _ => ⟨inv_init, SolanaWsClient.noticed_init, fun _ h => absurd rfl h⟩) hok hrun
  exact (hinv hids).heard id hid

/-- Nothing is on its way for an id. -/
def Settled (s : AccountFeed α) (id : UInt64) : Prop :=
  s.started = s.posted.length ∧
    ∃ subscription ∈ s.wsClient.activeSubscriptions id, subscription.notifier = .waiting

theorem Settled.heard {id : UInt64} (h : t.Settled id) :
    t.started = t.posted.length ∧ t.wsClient.activeSubscriptions id ≠ none ∧
      (t.wsClient.Noticed → t.heard id = notified id t.posted) := by
  obtain ⟨hall, subscription, hid, hwaiting⟩ := h
  refine ⟨hall, by simp [Option.mem_def.mp hid], fun hnoticed => ?_⟩
  have hempty : subscription.message = none := by
    by_contra hmessage
    have hsignalled := hnoticed id subscription hid hmessage
    rw [hwaiting] at hsignalled
    cases hsignalled
  rw [AccountFeed.heard, SolanaWsClient.slot_of_active hid, hempty]
  exact List.append_nil _

/-- What has been handed to callbacks came from the node. -/
theorem Inv.notified_sublist (h : t.Inv labels) (id : UInt64) :
    (notified id (t.posted.take t.started)).Sublist ((feedOf id labels).map some) := by
  have htake : (notified id (t.posted.take t.started)).Sublist (notified id t.posted) :=
    (List.take_sublist _ _).filterMap _
  exact (htake.trans (List.sublist_append_left ..)).trans (h.sublist id)

/-- A callback is given nothing before its handler has run. -/
theorem Inv.uncalled (h : t.Inv labels) {c : ℕ}
    (hno : ∀ id, .subscribed c id ∉ t.posted.take t.started) : t.calledWith c = [] :=
  h.handled.uncalled c fun id hid => hno id ((h.handled.subscriptions c id).mpr hid)

/-- **What a callback is given.** In every run in which the node gives each
subscription an id of its own, a callback whose request was not answered is
given nothing, and the callback of a call that was answered is given
notifications that came for its subscription, in order and each at most once.
Once nothing is on its way, the last of them is the last that came if each
found `do_notify` waiting or woken; and they are all that came if each found it
waiting. -/
theorem callbacks_of_run (hids : (answeredIds labels).Nodup)
    (hrun : run step init labels = some t) :
    (∀ c, (∀ id, Label.answer c id ∉ labels) → t.calledWith c = []) ∧
      ∀ c id, Label.answer c id ∈ labels → ∃ accounts : List α,
        t.calledWith c = accounts.map some ∧ accounts.Sublist (feedOf id labels) ∧
        (t.Settled id →
          (Along step Noticed init labels → accounts.getLast? = (feedOf id labels).getLast?) ∧
          (Along step Prompt init labels → accounts = feedOf id labels)) := by
  have hinv := inv_of_run hids hrun
  refine ⟨fun c hno => hinv.uncalled fun id hran => hno id ?_, fun c id hanswer => ?_⟩
  · exact (hinv.posted.answered c id).mp (List.mem_of_mem_take hran)
  have hposted : .subscribed c id ∈ t.posted := (hinv.posted.answered c id).mpr hanswer
  by_cases hran : .subscribed c id ∈ t.posted.take t.started
  · have hcalled := hinv.handled.called c id ((hinv.handled.subscriptions c id).mp hran)
    obtain ⟨accounts, hsublist, haccounts⟩ := List.sublist_map_iff.mp (hinv.notified_sublist id)
    refine ⟨accounts, hcalled.trans haccounts, hsublist, fun hsettled => ?_⟩
    obtain ⟨hall, hactive, hheard⟩ := hsettled.heard
    rw [hall, List.take_length] at haccounts
    refine ⟨fun hok => ?_, fun hok => ?_⟩
    · have hlast := hinv.last id hactive
      rw [hheard (noticed_of_run hok hrun), haccounts, List.getLast?_map,
        List.getLast?_map] at hlast
      exact Option.map_injective (Option.some_injective α) hlast
    · have heq := heard_eq_of_run hids hok hrun id hactive
      rw [hheard (noticed_of_run (hok.mono fun _ _ => noticed_of_prompt) hrun), haccounts] at heq
      exact (Option.some_injective α).list_map heq
  · refine ⟨[], ?_, List.nil_sublist _, fun hsettled => ?_⟩
    · refine hinv.uncalled fun id' hran' => hran ?_
      have hanswer' := (hinv.posted.answered c id').mp (List.mem_of_mem_take hran')
      rwa [hinv.posted.once c id id' hanswer hanswer']
    · rw [hsettled.1, List.take_length] at hran
      exact absurd hposted hran

end Runs

/-- Two accounts; the second notification for the first one comes before
`do_notify` has passed on the first. -/
def overtaken : List (Label ℕ) :=
  [.subscribe (AccountSubscriber.processedKey 1), .subscribe (AccountSubscriber.processedKey 2),
    .answer 1 8, .answer 0 7, .start 7, .start 8, .notification 7 (some 1),
    .notification 8 (some 5), .notification 7 (some 2), .notifyResumes 8, .notifyResumes 7,
    .handler, .handler, .handler, .handler]

theorem callbacks_of_run_overtaken :
    ∃ t, run step init overtaken = some t ∧ ∃ accounts : List ℕ,
      t.calledWith 0 = accounts.map some ∧ accounts.Sublist [1, 2] ∧
        accounts.getLast? = some 2 := by
  have hsettled : (run step init overtaken).map (fun t => (t.started, t.posted.length,
      (t.wsClient.activeSubscriptions 7).map ActiveSubscription.notifier)) =
      some (4, 4, some .waiting) := by decide +kernel
  obtain ⟨t, ht, hsettled⟩ := Option.map_eq_some_iff.mp hsettled
  simp only [Prod.mk.injEq, Option.map_eq_some_iff] at hsettled
  obtain ⟨hstarted, hposted, subscription, hid, hwaiting⟩ := hsettled
  obtain ⟨-, hanswered⟩ := callbacks_of_run (by decide) ht
  obtain ⟨accounts, hcalled, hsublist, hrest⟩ := hanswered 0 7 (by decide)
  obtain ⟨hlast, -⟩ := hrest ⟨hstarted.trans hposted.symm, subscription, hid, hwaiting⟩
  exact ⟨t, ht, accounts, hcalled, hsublist, hlast (by decide +kernel)⟩

end AccountFeed

end Synthfi.Solana
