/-
Synthfi.Ftx.FtxFeedTheorems — each FTX book is that of its own market.

One web socket carries the messages of all markets, and one strand runs the
handlers of all books. All the same, in every run and for every trading pair,

* the handlers posted for the pair are the books and updates of its market
  that came after its subscription began, each once and in order (`feedOf`),
* its book, and the books it has called back with, are those of a client for
  this market alone that was given the first of them.

`Registered` ties the entries of the web socket client to the loop that
subscribes; `Handled` ties the books to the handlers that have run.
-/
import Synthfi.Ftx.FtxFeed
import Synthfi.Ftx.FtxWsClientTheorems

namespace Synthfi.Ftx

open Run PartialMap
open Trading (Timestamp Price)

/-! ## What a message is for -/

/-- The book or update of a market that a message carries. -/
def FtxWsMessage.bookOf (market : String) (message : FtxWsMessage) :
    Option (OrderbookCallback × FtxOrderbookMessage) :=
  if message.channel = some .orderbook ∧ message.market = some market then
    match message.type, message.data with
    | some .partialBook, some data => some (.snapshot, data)
    | some .update, some data => some (.update, data)
    | _, _ => none
  else none

theorem FtxWsMessage.bookOf_eq_none {market : String} {message : FtxWsMessage}
    (h : message.market ≠ some market) : message.bookOf market = none :=
  if_neg fun hboth => h hboth.2

/-- The books and updates of a market that come after its subscription, which
is behind `k - 1` others. -/
def feedOf (market : String) : ℕ → List FtxFeed.Label →
    List (OrderbookCallback × FtxOrderbookMessage)
  | _, [] => []
  | k, label :: labels =>
    match k, label with
    | 0, .message message => (message.bookOf market).toList ++ feedOf market 0 labels
    | k + 1, .subscribeOrderbook => feedOf market k labels
    | k, _ => feedOf market k labels

namespace FtxWsClient

variable {s s' : FtxWsClient}

/-- No call ever sets the error of an entry. -/
def NoError (s : FtxWsClient) : Prop :=
  ∀ marketName subscription, s.orderbookSubscriptions marketName = some subscription →
    subscription.error = false

/-- A step of a call that has begun. -/
def Label.InCall : Label → Prop
  | .subscribeOrderbook _ => False
  | .message _ => False
  | _ => True

/-- What the steps of a call that has begun leave as it is. -/
theorem call_step {label : Label} (h : s.NoError) (hlabel : label.InCall)
    (hstep : s.step label = some s') :
    s'.orderbookSubscriptions = s.orderbookSubscriptions ∧ s'.sentMessages = s.sentMessages := by
  cases label with
  | subscribeOrderbook marketName => exact hlabel.elim
  | message message => exact hlabel.elim
  | requestSent marketName =>
    simp only [step] at hstep
    split at hstep
    · simp only [requestSent] at hstep
      split at hstep
      · cases hstep
      · cases hstep
        exact ⟨rfl, rfl⟩
    · cases hstep
  | timer marketName errorCode =>
    obtain ⟨-, hstep⟩ := Option.ite_none_right_eq_some.mp hstep
    cases hstep
    exact ⟨rfl, rfl⟩
  | resume marketName =>
    simp only [step] at hstep
    split at hstep
    · simp only [waitEnds] at hstep
      split at hstep
      · cases hstep
        exact ⟨rfl, rfl⟩
      · split at hstep
        · cases hstep
        · next subscription hentry =>
          rw [h marketName subscription hentry, if_neg Bool.false_ne_true] at hstep
          cases hstep
          exact ⟨rfl, rfl⟩
    · cases hstep

/-- The callbacks that a message calls for. -/
def callsFor (s : FtxWsClient) (message : FtxWsMessage) :
    List (String × OrderbookCallback × FtxOrderbookMessage) :=
  match message.market with
  | some marketName =>
    if (s.orderbookSubscriptions marketName).isSome then
      (message.bookOf marketName).toList.map fun book => (marketName, book)
    else []
  | none => []

/-- A subscribed message wakes a call, no more. -/
theorem subscribed_log (marketName : String) :
    (s.subscribed marketName).orderbookSubscriptions = s.orderbookSubscriptions ∧
      (s.subscribed marketName).sentMessages = s.sentMessages ∧
      (s.subscribed marketName).snapshots = s.snapshots ∧
      (s.subscribed marketName).updates = s.updates := by
  simp only [subscribed]
  split <;> exact ⟨rfl, rfl, rfl, rfl⟩

/-- The branches of a message for an entry. -/
theorem onOrderbookMessage_step {marketName : String} {type : FtxResponseType}
    {data : Option FtxOrderbookMessage}
    (hstep : s.onOrderbookMessage marketName type data = some s') :
    s'.orderbookSubscriptions = s.orderbookSubscriptions ∧ s'.sentMessages = s.sentMessages ∧
      FtxFeed.callbacks s s' =
        ((⟨some .orderbook, some type, some marketName, data⟩ : FtxWsMessage).bookOf
          marketName).toList.map fun book => (marketName, book) := by
  simp only [onOrderbookMessage] at hstep
  split at hstep
  · cases hstep
    obtain ⟨hentries, hsent, hsnapshots, hupdates⟩ := s.subscribed_log marketName
    refine ⟨hentries, hsent, ?_⟩
    simp [FtxFeed.callbacks, hsnapshots, hupdates, FtxWsMessage.bookOf]
  · cases hstep
    exact ⟨rfl, rfl, by simp [FtxFeed.callbacks, FtxWsMessage.bookOf]⟩
  · cases hstep
    exact ⟨rfl, rfl, by simp [FtxFeed.callbacks, FtxWsMessage.bookOf]⟩
  · cases hstep
  · cases hstep
    refine ⟨rfl, rfl, ?_⟩
    cases type <;> cases data <;> simp_all [FtxFeed.callbacks, FtxWsMessage.bookOf]

/-- A message changes no entry; it makes the callbacks it calls for. -/
theorem message_step {message : FtxWsMessage} (hstep : s.step (.message message) = some s') :
    s'.orderbookSubscriptions = s.orderbookSubscriptions ∧ s'.sentMessages = s.sentMessages ∧
      FtxFeed.callbacks s s' = s.callsFor message := by
  obtain ⟨channel, type, market, data⟩ := message
  simp only [step, onMessage] at hstep
  split at hstep
  · split at hstep
    · next hnone =>
      cases hstep
      exact ⟨rfl, rfl, by simp [FtxFeed.callbacks, callsFor, hnone]⟩
    · next subscription hentry =>
      obtain ⟨s₁, hs₁, rfl⟩ := Option.map_eq_some_iff.mp hstep
      obtain ⟨hentries, hsent, hcallbacks⟩ := onOrderbookMessage_step hs₁
      refine ⟨hentries, hsent, ?_⟩
      simp only [callsFor, hentry, Option.isSome_some, if_true]
      exact hcallbacks
  · next hnot =>
    cases hstep
    refine ⟨rfl, rfl, ?_⟩
    have hbook : ∀ marketName, (⟨channel, type, market, data⟩ : FtxWsMessage).bookOf marketName =
        none := by
      intro marketName
      cases type with
      | none => simp [FtxWsMessage.bookOf]
      | some type =>
        rw [FtxWsMessage.bookOf, if_neg]
        rintro ⟨hchannel, hmarket⟩
        exact hnot type marketName hchannel rfl hmarket
    cases market <;> simp [FtxFeed.callbacks, received, callsFor, hbook]

end FtxWsClient

namespace FtxFeed

variable {markets : List String} {s s' t : FtxFeed markets} {asserts : Bool}
  {str : Price → List UInt8}

/-! ## Who is subscribed -/

/-- The subscriptions of the first `count` pairs have begun. -/
structure Registered (s : FtxFeed markets) (count : ℕ) : Prop where
  noError : s.wsClient.NoError
  sent : s.wsClient.sentMessages =
    (markets.take count).map fun market => SubscriptionRequest.mk .orderbook market
  /-- An entry has callbacks. -/
  entry : ∀ market, (s.wsClient.orderbookSubscriptions market).isSome ↔ (s.bound market).isSome
  market : ∀ market i, s.bound market = some i → markets.get i = market
  bound : ∀ i : Fin markets.length, s.bound (markets.get i) = some i ↔ i.val < count
  loading : s.subscribing = .loading → count = 0
  spawned : ∀ i, s.subscribing = .spawned i → i = count
  awaiting : ∀ i, s.subscribing = .awaiting i → i + 1 = count

theorem registered_init : (init markets).Registered 0 where
  noError _ _ h := by cases h
  sent := by simp [init, FtxWsClient.init]
  entry _ := by simp [init, FtxWsClient.init]
  market _ _ h := by cases h
  bound _ := by simp [init]
  loading _ := rfl
  spawned _ h := by cases h
  awaiting _ h := by cases h

/-- The handlers posted for a pair. -/
def postedTo (i : Fin markets.length) (s : FtxFeed markets) :
    List (OrderbookCallback × FtxOrderbookMessage) :=
  s.posted.filterMap fun handler =>
    if handler.tradingPairIndex = i then some (handler.callback, handler.message) else none

/-- Only the loop moves on. -/
theorem Registered.subscribing {count : ℕ} (h : s.Registered count)
    (hspawned : ∀ i, s'.subscribing = .spawned i → i = count)
    (hloading : s'.subscribing ≠ .loading) (hawaiting : ∀ i, s'.subscribing ≠ .awaiting i)
    (hws : s'.wsClient = s.wsClient) (hbound : s'.bound = s.bound) : s'.Registered count where
  noError := hws ▸ h.noError
  sent := hws ▸ h.sent
  entry := by
    rw [hws, hbound]
    exact h.entry
  market := hbound ▸ h.market
  bound := hbound ▸ h.bound
  loading hsame := absurd hsame hloading
  spawned := hspawned
  awaiting i hsame := absurd hsame (hawaiting i)

/-- The web socket client takes a step that changes no entry. -/
theorem Registered.wsClient {count : ℕ} (h : s.Registered count)
    (hentries : s'.wsClient.orderbookSubscriptions = s.wsClient.orderbookSubscriptions)
    (hsent : s'.wsClient.sentMessages = s.wsClient.sentMessages) (hbound : s'.bound = s.bound)
    (hsubscribing : s'.subscribing = s.subscribing) : s'.Registered count where
  noError := by
    unfold FtxWsClient.NoError
    rw [hentries]
    exact h.noError
  sent := hsent.trans h.sent
  entry := by
    rw [hentries, hbound]
    exact h.entry
  market := hbound ▸ h.market
  bound := hbound ▸ h.bound
  loading hsame := h.loading (hsubscribing ▸ hsame)
  spawned i hsame := h.spawned i (hsubscribing ▸ hsame)
  awaiting i hsame := h.awaiting i (hsubscribing ▸ hsame)

theorem subscribeNext_registered {count : ℕ} (h : s.Registered count) {i : ℕ} (hi : i = count) :
    (s.subscribeNext i).Registered count := by
  refine h.subscribing (fun j hj => ?_) ?_ (fun j hj => ?_) rfl rfl
  · simp only [subscribeNext] at hj
    split at hj
    · cases hj
      exact hi
    · cases hj
  · simp only [subscribeNext]
    split <;> nofun
  · simp only [subscribeNext] at hj
    split at hj <;> cases hj

/-- The subscription of the next pair: its market had no entry. -/
theorem subscribeOrderbook_registered {count : ℕ} (h : s.Registered count)
    {i : Fin markets.length} (hi : i.val = count) (hstep : s.subscribeOrderbook i = some s') :
    s'.Registered (count + 1) ∧ s'.posted = s.posted := by
  obtain ⟨wsClient, hws, hstep⟩ := Option.bind_eq_some_iff.mp hstep
  cases hstep
  obtain ⟨hnone, rfl⟩ := FtxWsClient.doSubscribeOrderbook_eq_some hws
  have hunbound : s.bound (markets.get i) = none := by
    have hentry := h.entry (markets.get i)
    rw [hnone] at hentry
    simpa using hentry
  refine ⟨⟨?_, ?_, fun market => ?_, fun market j hj => ?_, fun j => ?_, nofun, nofun, ?_⟩, rfl⟩
  · exact forall_update_some h.noError rfl
  · show s.wsClient.sentMessages ++ _ = _
    rw [h.sent, List.take_add_one, ← hi, List.getElem?_eq_getElem i.2, List.map_append]
    rfl
  · show (Function.update s.wsClient.orderbookSubscriptions (markets.get i) _ market).isSome ↔
      (Function.update s.bound (markets.get i) _ market).isSome
    by_cases hmarket : market = markets.get i
    · simp [hmarket]
    · rw [Function.update_of_ne hmarket, Function.update_of_ne hmarket]
      exact h.entry market
  · obtain ⟨rfl, rfl⟩ | ⟨-, hold⟩ := update_some_eq_some.mp hj
    · rfl
    · exact h.market market j hold
  · show Function.update s.bound (markets.get i) (some i) (markets.get j) = some j ↔
      j.val < count + 1
    rw [update_some_eq_some, h.bound j]
    constructor
    · rintro (⟨-, rfl⟩ | ⟨-, hlt⟩) <;> omega
    · intro hlt
      by_cases hmarket : markets.get j = markets.get i
      · refine .inl ⟨hmarket, Fin.ext ?_⟩
        -- An earlier pair of this market would have been bound.
        by_contra hne
        have hbound := (h.bound j).mpr (by omega)
        rw [hmarket, hunbound] at hbound
        cases hbound
      · refine .inr ⟨hmarket, ?_⟩
        have hne : j ≠ i := fun hsame => hmarket (hsame ▸ rfl)
        have := Fin.val_ne_of_ne hne
        omega
  · intro j hj
    cases hj
    omega

/-- What is for a pair of a message is what its market's book gets of it. -/
theorem postedTo_calls {count : ℕ} (h : s.Registered count) (message : FtxWsMessage)
    (i : Fin markets.length) :
    ((s.wsClient.callsFor message).filterMap fun call =>
        (s.bound call.1).bind fun j => if j = i then some call.2 else none) =
      if i.val < count then (message.bookOf (markets.get i)).toList else [] := by
  by_cases hown : message.market = some (markets.get i) ∧ i.val < count
  · obtain ⟨hmarket, hlt⟩ := hown
    have hbound := (h.bound i).mpr hlt
    have hentry := (h.entry (markets.get i)).mpr (by rw [hbound]; rfl)
    simp only [FtxWsClient.callsFor, hmarket, if_pos hentry, if_pos hlt]
    cases message.bookOf (markets.get i) with
    | none => rfl
    | some book =>
      have hcall : ((s.bound (markets.get i)).bind fun j => if j = i then some book else none) =
          some book := by
        rw [hbound]
        exact if_pos rfl
      exact List.filterMap_cons_some hcall
  · have hnone : (if i.val < count then (message.bookOf (markets.get i)).toList else []) = [] := by
      split
      · next hlt =>
        rw [FtxWsMessage.bookOf_eq_none fun hmarket => hown ⟨hmarket, hlt⟩]
        rfl
      · rfl
    rw [hnone, List.filterMap_eq_nil_iff]
    rintro ⟨market, book⟩ hcall
    have hmarket : message.market = some market := by
      unfold FtxWsClient.callsFor at hcall
      split at hcall
      · next market' hmarket' =>
        split at hcall
        · obtain ⟨_, -, hcall⟩ := List.mem_map.mp hcall
          exact hmarket'.trans (congrArg some (congrArg Prod.fst hcall))
        · cases hcall
      · cases hcall
    cases hbound : s.bound market with
    | none => rfl
    | some j =>
      have hne : j ≠ i := by
        rintro rfl
        obtain rfl := h.market market j hbound
        exact hown ⟨hmarket, (h.bound j).mp hbound⟩
      simp [hne]

theorem onMessage_registered {count : ℕ} (h : s.Registered count) {message : FtxWsMessage}
    (hstep : s.onMessage message = some s') :
    s'.Registered count ∧ ∀ i, s'.postedTo i = s.postedTo i ++
      if i.val < count then (message.bookOf (markets.get i)).toList else [] := by
  obtain ⟨wsClient, hws, hstep⟩ := Option.bind_eq_some_iff.mp hstep
  cases hstep
  obtain ⟨hentries, hsent, hcallbacks⟩ := FtxWsClient.message_step hws
  refine ⟨h.wsClient hentries hsent rfl rfl, fun i => ?_⟩
  rw [← postedTo_calls h message i, hcallbacks]
  simp only [postedTo, List.filterMap_append, List.filterMap_filterMap]
  congr 1
  refine List.filterMap_congr fun call _ => ?_
  cases s.bound call.1 <;> rfl

/-- The subscriptions begun, after a step. -/
def countAfter (count : ℕ) : Label → ℕ
  | .subscribeOrderbook => count + 1
  | _ => count

/-- What a step posts for a pair. -/
def postsOf (count : ℕ) (i : Fin markets.length) : Label →
    List (OrderbookCallback × FtxOrderbookMessage)
  | .message message => if i.val < count then (message.bookOf (markets.get i)).toList else []
  | _ => []

theorem wsStep_registered {count : ℕ} (h : s.Registered count) {label : FtxWsClient.Label}
    (hstep : s.wsStep label = some s') (hlabel : label.InCall) :
    s'.Registered count ∧ s'.posted = s.posted := by
  obtain ⟨wsClient, hws, rfl⟩ := Option.map_eq_some_iff.mp hstep
  obtain ⟨hentries, hsent⟩ := FtxWsClient.call_step h.noError hlabel hws
  exact ⟨h.wsClient hentries hsent rfl rfl, rfl⟩

theorem subscribed_registered {count : ℕ} (h : s.Registered count) {i : Fin markets.length}
    (hi : i.val + 1 = count) (hstep : s.subscribed i = some s') :
    s'.Registered count ∧ s'.posted = s.posted := by
  simp only [subscribed] at hstep
  split at hstep
  · cases hstep
    exact ⟨subscribeNext_registered h hi, rfl⟩
  · cases hstep
    exact ⟨h.subscribing nofun nofun nofun rfl rfl, rfl⟩
  · cases hstep

theorem step_registered {count : ℕ} {label : Label} (h : s.Registered count)
    (hstep : step asserts str s label = some s') :
    s'.Registered (countAfter count label) ∧
      ∀ i, s'.postedTo i = s.postedTo i ++ postsOf count i label := by
  have hsame : s'.Registered count ∧ s'.posted = s.posted →
      s'.Registered count ∧ ∀ i, s'.postedTo i = s.postedTo i ++ [] := by
    rintro ⟨h', hposted⟩
    exact ⟨h', fun i => by rw [postedTo, hposted]; exact (List.append_nil _).symm⟩
  cases label with
  | referenceData =>
    obtain ⟨hloading, hstep⟩ := Option.ite_none_right_eq_some.mp hstep
    cases hstep
    exact hsame ⟨subscribeNext_registered h (h.loading hloading).symm, rfl⟩
  | subscribeOrderbook =>
    simp only [step] at hstep
    split at hstep
    · next i hspawned =>
      obtain ⟨hi, hstep⟩ := Option.dite_none_right_eq_some.mp hstep
      obtain ⟨h', hposted⟩ := subscribeOrderbook_registered h (h.spawned i hspawned) hstep
      exact ⟨h', fun j => by rw [postedTo, hposted]; exact (List.append_nil _).symm⟩
    · cases hstep
  | requestSent marketName => exact hsame (wsStep_registered h hstep trivial)
  | timer marketName errorCode => exact hsame (wsStep_registered h hstep trivial)
  | resume marketName => exact hsame (wsStep_registered h hstep trivial)
  | subscribed =>
    simp only [step] at hstep
    split at hstep
    · next i hawaiting =>
      obtain ⟨hi, hstep⟩ := Option.dite_none_right_eq_some.mp hstep
      exact hsame (subscribed_registered h (h.awaiting i hawaiting) hstep)
    · cases hstep
  | message message => exact onMessage_registered h hstep
  | handler now =>
    simp only [step, runHandler, Option.bind_eq_bind, Option.bind_eq_some_iff] at hstep
    obtain ⟨handler, -, client, -, hstep⟩ := hstep
    cases hstep
    exact hsame ⟨h.wsClient rfl rfl rfl rfl, rfl⟩

theorem feedOf_cons (count : ℕ) (i : Fin markets.length) (label : Label) (labels : List Label) :
    postsOf count i label ++ feedOf (markets.get i) (i.val + 1 - countAfter count label) labels =
      feedOf (markets.get i) (i.val + 1 - count) (label :: labels) := by
  by_cases hlt : i.val < count
  · have hzero : i.val + 1 - count = 0 := by omega
    have hafter : i.val + 1 - countAfter count label = 0 := by
      cases label <;> simp only [countAfter] <;> omega
    rw [hzero, hafter]
    cases label with
    | message message => simp only [postsOf, if_pos hlt, feedOf]
    | _ => rfl
  · obtain ⟨k, hk⟩ : ∃ k, i.val + 1 - count = k + 1 := ⟨i.val - count, by omega⟩
    rw [hk]
    cases label with
    | subscribeOrderbook =>
      have hafter : i.val + 1 - countAfter count .subscribeOrderbook = k := by
        simp only [countAfter]
        omega
      rw [hafter]
      rfl
    | message message =>
      simp only [postsOf, if_neg hlt, countAfter, hk]
      rfl
    | _ =>
      simp only [countAfter, hk]
      rfl

/-- What a run posts for a pair is what its market feeds. -/
theorem postedTo_of_run {count : ℕ} {labels : List Label} (h : s.Registered count)
    (hrun : run (step asserts str) s labels = some t) (i : Fin markets.length) :
    t.postedTo i = s.postedTo i ++ feedOf (markets.get i) (i.val + 1 - count) labels := by
  induction labels generalizing s count with
  | nil =>
    cases hrun
    simp [feedOf]
  | cons label labels ih =>
    obtain ⟨s', hstep, hrun⟩ := run_cons_eq_some.mp hrun
    obtain ⟨h', hposted⟩ := step_registered h hstep
    rw [ih h' hrun, hposted i, List.append_assoc, feedOf_cons]

/-! ## What the handlers have done -/

/-- What a handler was, apart from the time. -/
def handlerOf {n : ℕ} : OrderbookEvent n → OrderbookHandler n
  | .snapshot i _ message => ⟨i, .snapshot, message⟩
  | .update i _ message => ⟨i, .update, message⟩

@[simp] theorem handlerOf_event {n : ℕ} (handler : OrderbookHandler n) (now : Timestamp) :
    handlerOf (handler.event now) = handler := by
  obtain ⟨i, callback, message⟩ := handler
  cases callback <;> rfl

/-- The books are what the handlers that have run have made of them. -/
structure Handled (asserts : Bool) (str : Price → List UInt8) (s : FtxFeed markets) : Prop where
  started : s.started ≤ s.posted.length
  handled : s.handled.map handlerOf = s.posted.take s.started
  client : run (FtxMarketDataClient.step asserts str) (.init _) s.handled = some s.client

theorem handled_init : (init markets).Handled asserts str := ⟨le_rfl, rfl, rfl⟩

/-- More is posted. -/
theorem Handled.posted (h : s.Handled asserts str) (hposted : s.posted <+: s'.posted)
    (hstarted : s'.started = s.started) (hhandled : s'.handled = s.handled)
    (hclient : s'.client = s.client) : s'.Handled asserts str where
  started := hstarted ▸ h.started.trans hposted.length_le
  handled := by
    obtain ⟨more, hmore⟩ := hposted
    rw [hhandled, h.handled, hstarted, ← hmore, List.take_append_of_le_length h.started]
  client := by
    rw [hhandled, hclient]
    exact h.client

theorem step_handled {label : Label} (h : s.Handled asserts str)
    (hstep : step asserts str s label = some s') : s'.Handled asserts str := by
  have hsame : s'.posted = s.posted ∧ s'.started = s.started ∧ s'.handled = s.handled ∧
      s'.client = s.client → s'.Handled asserts str := fun ⟨hposted, hstarted, hhandled, hclient⟩ =>
    h.posted (hposted ▸ List.prefix_refl _) hstarted hhandled hclient
  have hws : ∀ {label : FtxWsClient.Label}, s.wsStep label = some s' →
      s'.Handled asserts str := by
    intro label hstep
    obtain ⟨wsClient, -, rfl⟩ := Option.map_eq_some_iff.mp hstep
    exact hsame ⟨rfl, rfl, rfl, rfl⟩
  cases label with
  | referenceData =>
    obtain ⟨-, hstep⟩ := Option.ite_none_right_eq_some.mp hstep
    cases hstep
    exact hsame ⟨rfl, rfl, rfl, rfl⟩
  | subscribeOrderbook =>
    simp only [step] at hstep
    split at hstep
    · obtain ⟨hi, hstep⟩ := Option.dite_none_right_eq_some.mp hstep
      obtain ⟨wsClient, -, hstep⟩ := Option.bind_eq_some_iff.mp hstep
      cases hstep
      exact hsame ⟨rfl, rfl, rfl, rfl⟩
    · cases hstep
  | requestSent marketName => exact hws hstep
  | timer marketName errorCode => exact hws hstep
  | resume marketName => exact hws hstep
  | subscribed =>
    simp only [step] at hstep
    split at hstep
    · obtain ⟨hi, hstep⟩ := Option.dite_none_right_eq_some.mp hstep
      simp only [FtxFeed.subscribed] at hstep
      split at hstep
      · cases hstep
        exact hsame ⟨rfl, rfl, rfl, rfl⟩
      · cases hstep
        exact hsame ⟨rfl, rfl, rfl, rfl⟩
      · cases hstep
    · cases hstep
  | message message =>
    obtain ⟨wsClient, -, hstep⟩ := Option.bind_eq_some_iff.mp hstep
    cases hstep
    exact h.posted (List.prefix_append _ _) rfl rfl rfl
  | handler now =>
    simp only [step, runHandler, Option.bind_eq_bind, Option.bind_eq_some_iff] at hstep
    obtain ⟨handler, hhandler, client, hclient, hstep⟩ := hstep
    cases hstep
    obtain ⟨hlt, -⟩ := List.getElem?_eq_some_iff.mp hhandler
    refine ⟨hlt, ?_, ?_⟩
    · show (s.handled ++ [handler.event now]).map handlerOf = s.posted.take (s.started + 1)
      rw [List.take_add_one, hhandler, List.map_append, h.handled, List.map_singleton,
        handlerOf_event]
      rfl
    · show run _ _ (s.handled ++ [handler.event now]) = some client
      rw [run_append, h.client, Option.bind_some, run_cons, hclient]
      rfl

end FtxFeed

/-! ## One book alone -/

/-- An event for pair `i`, for a client with this pair only. -/
def soloEvent {n : ℕ} (i : Fin n) : OrderbookEvent n → Option (OrderbookEvent 1)
  | .snapshot j now message => if j = i then some (.snapshot ⟨0, Nat.one_pos⟩ now message) else none
  | .update j now message => if j = i then some (.update ⟨0, Nat.one_pos⟩ now message) else none

/-- The callback and the message of an event. -/
def contentOf (event : OrderbookEvent 1) : OrderbookCallback × FtxOrderbookMessage :=
  ((FtxFeed.handlerOf event).callback, (FtxFeed.handlerOf event).message)

namespace FtxMarketDataClient

variable {n : ℕ} (client : FtxMarketDataClient n) (i : Fin n)

/-- A client with the book of pair `i`, and its callbacks, only. -/
def solo : FtxMarketDataClient 1 where
  books _ := client.books i
  onBook := client.onBook.filterMap fun call =>
    if call.1 = i then some (⟨0, Nat.one_pos⟩, call.2) else none

theorem solo_checkAndPublish (str : Price → List UInt8) (message : FtxOrderbookMessage)
    (book : Trading.Book) :
    (checkAndPublish str client i message book).solo i =
      checkAndPublish str (client.solo i) ⟨0, Nat.one_pos⟩ message book := by
  unfold checkAndPublish solo
  congr 1
  · funext k
    rw [Subsingleton.elim k 0]
    simp
  · split <;> simp

theorem solo_checkAndPublish_of_ne {j : Fin n} (hne : j ≠ i) (str : Price → List UInt8)
    (message : FtxOrderbookMessage) (book : Trading.Book) :
    (checkAndPublish str client j message book).solo i = client.solo i := by
  unfold checkAndPublish solo
  congr 1
  · funext k
    exact Function.update_of_ne hne.symm ..
  · split <;> simp [hne]

variable {client i} {client' : FtxMarketDataClient n} {asserts : Bool} {str : Price → List UInt8}
  {event : OrderbookEvent n}

theorem solo_step_other (hevent : soloEvent i event = none)
    (hstep : client.step asserts str event = some client') : client'.solo i = client.solo i := by
  cases event with
  | snapshot j now message =>
    have hne : j ≠ i := fun hsame => by simp [soloEvent, hsame] at hevent
    cases hstep
    exact client.solo_checkAndPublish_of_ne i hne ..
  | update j now message =>
    have hne : j ≠ i := fun hsame => by simp [soloEvent, hsame] at hevent
    simp only [step, doOnOrderbookUpdate, Option.bind_eq_bind, Option.bind_eq_some_iff] at hstep
    obtain ⟨bid, -, ask, -, hstep⟩ := hstep
    cases hstep
    exact client.solo_checkAndPublish_of_ne i hne ..

theorem solo_step_own {event' : OrderbookEvent 1} (hevent : soloEvent i event = some event')
    (hstep : client.step asserts str event = some client') :
    (client.solo i).step asserts str event' = some (client'.solo i) := by
  cases event with
  | snapshot j now message =>
    obtain ⟨rfl, hown⟩ := Option.ite_none_right_eq_some.mp hevent
    obtain rfl := Option.some.inj hown
    cases hstep
    exact congrArg some (client.solo_checkAndPublish j ..).symm
  | update j now message =>
    obtain ⟨rfl, hown⟩ := Option.ite_none_right_eq_some.mp hevent
    obtain rfl := Option.some.inj hown
    simp only [step, doOnOrderbookUpdate, Option.bind_eq_bind, Option.bind_eq_some_iff]
      at hstep ⊢
    obtain ⟨bid, hbid, ask, hask, hstep⟩ := hstep
    cases hstep
    exact ⟨bid, hbid, ask, hask, congrArg some (client.solo_checkAndPublish j ..).symm⟩

/-- The books do not touch each other. -/
theorem run_solo {events : List (OrderbookEvent n)}
    (hrun : run (step asserts str) (init n) events = some client) (i : Fin n) :
    run (step asserts str) (init 1) (events.filterMap (soloEvent i)) = some (client.solo i) :=
  run_filterMap (fun _ _ _ hevent hstep => solo_step_other hevent hstep)
    (fun _ _ _ _ hevent hstep => solo_step_own hevent hstep) hrun

end FtxMarketDataClient

namespace FtxFeed

variable {markets : List String} {t : FtxFeed markets} {asserts : Bool}
  {str : Price → List UInt8}

theorem contentOf_soloEvent {n : ℕ} (i : Fin n) (event : OrderbookEvent n) :
    (soloEvent i event).map contentOf =
      if (handlerOf event).tradingPairIndex = i then
        some ((handlerOf event).callback, (handlerOf event).message) else none := by
  cases event with
  | snapshot j now message =>
    by_cases hsame : j = i <;> simp [soloEvent, handlerOf, contentOf, hsame]
  | update j now message =>
    by_cases hsame : j = i <;> simp [soloEvent, handlerOf, contentOf, hsame]

/-- The handlers of a pair that have run, of those posted. -/
theorem Handled.contents (h : t.Handled asserts str) (i : Fin markets.length) :
    (t.handled.filterMap (soloEvent i)).map contentOf =
      (t.posted.take t.started).filterMap fun handler =>
        if handler.tradingPairIndex = i then some (handler.callback, handler.message)
        else none := by
  rw [← h.handled, List.map_filterMap, List.filterMap_map]
  exact List.filterMap_congr fun event _ => contentOf_soloEvent i event

theorem registered_of_run {count : ℕ} {s : FtxFeed markets} {labels : List Label}
    (h : s.Registered count) (hrun : run (step asserts str) s labels = some t) :
    t.Registered (count + labels.count .subscribeOrderbook) := by
  induction labels generalizing s count with
  | nil =>
    cases hrun
    exact h
  | cons label labels ih =>
    obtain ⟨s', hstep, hrun⟩ := run_cons_eq_some.mp hrun
    have hrest := ih (step_registered h hstep).1 hrun
    have hcount : countAfter count label + labels.count .subscribeOrderbook =
        count + (label :: labels).count .subscribeOrderbook := by
      cases label <;> simp [countAfter, Nat.add_left_comm, Nat.add_comm]
    exact hcount ▸ hrest

/-- **Each book is that of its market.** In every run the markets are
subscribed once each in their order, and each book, with the callbacks for
it, is that of a client for its market alone: one that was given, in order,
the first of the books and updates that came for this market after its
subscription began, and all of them when no handler is waiting. -/
theorem feed_of_run {labels : List Label}
    (hrun : run (step asserts str) (init markets) labels = some t) :
    t.wsClient.sentMessages = (markets.take (labels.count .subscribeOrderbook)).map
        (fun market => SubscriptionRequest.mk .orderbook market) ∧
      ∀ i : Fin markets.length, ∃ events : List (OrderbookEvent 1),
        events.map contentOf <+: feedOf (markets.get i) (i.val + 1) labels ∧
        (t.started = t.posted.length →
          events.map contentOf = feedOf (markets.get i) (i.val + 1) labels) ∧
        run (FtxMarketDataClient.step asserts str) (.init 1) events = some (t.client.solo i) := by
  have hregistered := registered_of_run registered_init hrun
  have hhandled : t.Handled asserts str :=
    invariant_run (fun _ _ _ h hstep => step_handled h hstep) handled_init hrun
  refine ⟨by simpa using hregistered.sent, fun i => ?_⟩
  have hposted := postedTo_of_run registered_init hrun i
  rw [show (init markets).postedTo i = [] from rfl, List.nil_append, Nat.sub_zero] at hposted
  refine ⟨t.handled.filterMap (soloEvent i), ?_, fun hall => ?_,
    FtxMarketDataClient.run_solo hhandled.client i⟩
  · rw [hhandled.contents i, ← hposted]
    exact (List.take_prefix _ _).filterMap _
  · rw [hhandled.contents i, ← hposted, hall, List.take_length]
    rfl

def bidMessage (price quantity : Price) : FtxOrderbookMessage := ⟨0, 0, ⟨[⟨price, quantity⟩], []⟩⟩

def twoMarkets : List String := ["SOL/USD", "BTC/USD"]

/-- A message of a market. -/
def marketMessage (market : String) (type : FtxResponseType) (data : Option FtxOrderbookMessage) :
    Label :=
  .message ⟨some .orderbook, some type, some market, data⟩

/-- The second market sends a book before it is subscribed, and then its
messages come between those of the first. -/
def interleaved : List Label :=
  [.referenceData, .subscribeOrderbook, .requestSent "SOL/USD",
    marketMessage "SOL/USD" .subscribed none, .resume "SOL/USD",
    marketMessage "BTC/USD" .partialBook (some (bidMessage 100 1)), .subscribed,
    .subscribeOrderbook, marketMessage "BTC/USD" .partialBook (some (bidMessage 200 1)),
    marketMessage "SOL/USD" .partialBook (some (bidMessage 30 4)), .handler 5,
    marketMessage "BTC/USD" .update (some (bidMessage 201 2)), .handler 6, .handler 7]

theorem feed_of_run_interleaved :
    ∃ t : FtxFeed twoMarkets, ∃ events : List (OrderbookEvent 1),
      run (step true fun _ => []) (init twoMarkets) interleaved = some t ∧
      t.wsClient.sentMessages = twoMarkets.map (SubscriptionRequest.mk .orderbook) ∧
      events.map contentOf =
        [(.snapshot, bidMessage 200 1), (.update, bidMessage 201 2)] ∧
      run (FtxMarketDataClient.step true fun _ => []) (.init 1) events =
        some (t.client.solo ⟨1, by decide⟩) := by
  have hstate : (run (step true fun _ => []) (init twoMarkets) interleaved).map
      (fun t => (t.started, t.posted.length)) = some (3, 3) := by decide +kernel
  obtain ⟨t, ht, hstate⟩ := Option.map_eq_some_iff.mp hstate
  obtain ⟨hstarted, hposted⟩ := Prod.mk.inj hstate
  obtain ⟨hsent, hfeed⟩ := feed_of_run ht
  obtain ⟨events, -, hall, hsolo⟩ := hfeed ⟨1, by decide⟩
  exact ⟨t, events, ht, hsent, (hall (hstarted.trans hposted.symm)).trans (by decide +kernel),
    hsolo⟩

end FtxFeed

end Synthfi.Ftx
