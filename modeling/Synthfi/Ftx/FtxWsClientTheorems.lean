/-
Synthfi.Ftx.FtxWsClientTheorems — what the end of a subscription call says.

`do_subscribe_orderbook` returns whenever its wait ends, and throws only for
the error code that a timer never gives. `SubscriptionOutcomes` is what a
caller is to rely on; `outcomes_iff` finds, over all interleavings, the runs
that keep it: no call resumes from a wait that was not cancelled, unless a
subscribed message had come.
-/
import Synthfi.Ftx.FtxWsClient
import Synthfi.Lib.PartialMap

namespace Synthfi.Ftx

open Run PartialMap

/-- The call has returned or thrown. -/
def SubscribeOrderbook.Ended : SubscribeOrderbook → Prop
  | .returned => True
  | .threw => True
  | _ => False

namespace FtxWsClient

variable {s s' t : FtxWsClient}

/-- A call that returned normally was acknowledged, and a call that threw
leaves no entry, so that its market can be subscribed again. -/
structure SubscriptionOutcomes (s : FtxWsClient) : Prop where
  acknowledged : ∀ marketName, s.calls marketName = some .returned →
    s.acknowledged marketName = true
  erased : ∀ marketName, s.calls marketName = some .threw →
    s.orderbookSubscriptions marketName = none

/-- A call resumes because a subscribed message cancelled its timer, or one
had come without doing so, before the wait or after its end; and no wait ends
with `timed_out`. -/
def StepOk (s : FtxWsClient) : Label → Prop
  | .resume marketName =>
    match s.calls marketName with
    | some (.woken .operationAborted) => True
    | some (.woken .timedOut) => False
    | _ => s.acknowledged marketName = true
  | _ => True

instance (s : FtxWsClient) (label : Label) : Decidable (s.StepOk label) := by
  unfold StepOk
  split
  · split <;> infer_instance
  · infer_instance

/-- What every step keeps: a call that has not ended has its entry, no entry
holds an error, and only a subscribed message cancels a timer. -/
structure Pending (s : FtxWsClient) : Prop where
  entry : ∀ marketName call, s.calls marketName = some call → ¬ call.Ended →
    ∃ subscription, s.orderbookSubscriptions marketName = some subscription
  noError : ∀ marketName subscription,
    s.orderbookSubscriptions marketName = some subscription → subscription.error = false
  cancelled : ∀ marketName, s.calls marketName = some (.woken .operationAborted) →
    s.acknowledged marketName = true

/-! ## Calls -/

theorem Pending.setCall (h : s.Pending) {marketName : String} {call : SubscribeOrderbook}
    (hentry : call.Ended ∨
      ∃ subscription, s.orderbookSubscriptions marketName = some subscription)
    (hcancelled : call = .woken .operationAborted → s.acknowledged marketName = true) :
    (s.setCall marketName call).Pending where
  entry := forall_update_some h.entry fun hnot => hentry.resolve_left hnot
  noError := h.noError
  cancelled marketName' hwoken := by
    obtain ⟨rfl, rfl⟩ | ⟨-, hold⟩ := update_some_eq_some.mp hwoken
    · exact hcancelled rfl
    · exact h.cancelled marketName' hold

/-- A call that has not ended promises nothing yet. -/
theorem SubscriptionOutcomes.setCall (h : s.SubscriptionOutcomes) {marketName : String}
    {call : SubscribeOrderbook} (hcall : ¬ call.Ended) :
    (s.setCall marketName call).SubscriptionOutcomes where
  acknowledged marketName' hreturned := by
    obtain ⟨-, rfl⟩ | ⟨-, hold⟩ := update_some_eq_some.mp hreturned
    · exact absurd trivial hcall
    · exact h.acknowledged marketName' hold
  erased marketName' hthrew := by
    obtain ⟨-, rfl⟩ | ⟨-, hold⟩ := update_some_eq_some.mp hthrew
    · exact absurd trivial hcall
    · exact h.erased marketName' hold

/-- A call that returns is to have been acknowledged. -/
theorem outcomes_returned (h : s.SubscriptionOutcomes) (marketName : String) :
    (s.setCall marketName .returned).SubscriptionOutcomes ↔ s.acknowledged marketName = true := by
  constructor
  · intro h'
    exact h'.acknowledged marketName (Function.update_self ..)
  · intro hacknowledged
    refine ⟨fun marketName' hreturned => ?_, fun marketName' hthrew => ?_⟩
    · obtain ⟨rfl, -⟩ | ⟨-, hold⟩ := update_some_eq_some.mp hreturned
      · exact hacknowledged
      · exact h.acknowledged marketName' hold
    · obtain ⟨-, hcall⟩ | ⟨-, hold⟩ := update_some_eq_some.mp hthrew
      · cases hcall
      · exact h.erased marketName' hold

/-! ## Steps -/

/-- A call starts when its market has no entry. -/
theorem doSubscribeOrderbook_eq_some {marketName : String}
    (hstep : s.doSubscribeOrderbook marketName = some s') :
    s.orderbookSubscriptions marketName = none ∧
      s' = { s with
        orderbookSubscriptions :=
          Function.update s.orderbookSubscriptions marketName (some { error := false })
        sentMessages := s.sentMessages ++ [SubscriptionRequest.mk .orderbook marketName]
        acknowledged := Function.update s.acknowledged marketName false
        }.setCall marketName .sending := by
  simp only [doSubscribeOrderbook] at hstep
  split at hstep
  · cases hstep
  · next hnone => exact ⟨hnone, (Option.some.inj hstep).symm⟩

theorem doSubscribeOrderbook_preserves (h : s.Pending) (hgood : s.SubscriptionOutcomes)
    {marketName : String} (hstep : s.doSubscribeOrderbook marketName = some s') :
    s'.Pending ∧ s'.SubscriptionOutcomes := by
  obtain ⟨hnone, rfl⟩ := doSubscribeOrderbook_eq_some hstep
  have hother : ∀ marketName' call, marketName' ≠ marketName → s.calls marketName' = some call →
      Function.update s.acknowledged marketName false marketName' = s.acknowledged marketName' :=
    fun _ _ hne _ => Function.update_of_ne hne ..
  constructor
  · refine ⟨fun marketName' call hcall hnot => ?_, ?_, fun marketName' hwoken => ?_⟩
    · by_cases heq : marketName' = marketName
      · subst heq
        exact ⟨_, Function.update_self ..⟩
      · have hold := (Function.update_of_ne heq ..).symm.trans hcall
        obtain ⟨subscription, hentry⟩ := h.entry marketName' call hold hnot
        exact ⟨subscription, (Function.update_of_ne heq ..).trans hentry⟩
    · exact forall_update_some h.noError rfl
    · obtain ⟨-, hcall⟩ | ⟨hne, hold⟩ := update_some_eq_some.mp hwoken
      · cases hcall
      · exact (hother marketName' _ hne hold).trans (h.cancelled marketName' hold)
  · refine ⟨fun marketName' hreturned => ?_, fun marketName' hthrew => ?_⟩
    · obtain ⟨-, hcall⟩ | ⟨hne, hold⟩ := update_some_eq_some.mp hreturned
      · cases hcall
      · exact (hother marketName' _ hne hold).trans (hgood.acknowledged marketName' hold)
    · obtain ⟨-, hcall⟩ | ⟨hne, hold⟩ := update_some_eq_some.mp hthrew
      · cases hcall
      · exact (Function.update_of_ne hne ..).trans (hgood.erased marketName' hold)

theorem requestSent_preserves (h : s.Pending) (hgood : s.SubscriptionOutcomes)
    {marketName : String} (hstep : s.requestSent marketName = some s') :
    s'.Pending ∧ s'.SubscriptionOutcomes := by
  simp only [requestSent] at hstep
  split at hstep
  · cases hstep
  · next subscription hentry =>
    obtain rfl := Option.some.inj hstep
    let s₁ := { s with messagesSentCounter := s.messagesSentCounter + 1 }
    have h₁ : s₁.Pending := ⟨h.entry, h.noError, h.cancelled⟩
    have hgood₁ : s₁.SubscriptionOutcomes := ⟨hgood.acknowledged, hgood.erased⟩
    exact ⟨h₁.setCall (.inr ⟨subscription, hentry⟩) nofun, hgood₁.setCall id⟩

/-- A subscribed message acknowledges, and cancels a timer that is waited
for. -/
theorem subscribed_preserves (h : s.Pending) (hgood : s.SubscriptionOutcomes)
    (marketName : String) :
    (s.subscribed marketName).Pending ∧ (s.subscribed marketName).SubscriptionOutcomes := by
  let s₁ := { s with acknowledged := Function.update s.acknowledged marketName true }
  have hmono : ∀ marketName', s.acknowledged marketName' = true →
      s₁.acknowledged marketName' = true := by
    intro marketName' hacknowledged
    by_cases heq : marketName' = marketName
    · subst heq
      exact Function.update_self ..
    · exact (Function.update_of_ne heq ..).trans hacknowledged
  have h₁ : s₁.Pending :=
    ⟨h.entry, h.noError, fun marketName' hwoken => hmono marketName' (h.cancelled _ hwoken)⟩
  have hgood₁ : s₁.SubscriptionOutcomes :=
    ⟨fun marketName' hreturned => hmono marketName' (hgood.acknowledged _ hreturned),
      hgood.erased⟩
  unfold subscribed
  dsimp only
  split
  · next hwaiting =>
    have hentry := h.entry marketName .waiting hwaiting id
    exact ⟨h₁.setCall (.inr hentry) fun _ => Function.update_self .., hgood₁.setCall id⟩
  · exact ⟨h₁, hgood₁⟩

theorem onOrderbookMessage_preserves (h : s.Pending) (hgood : s.SubscriptionOutcomes)
    {marketName : String} {type : FtxResponseType} {data : Option FtxOrderbookMessage}
    (hstep : s.onOrderbookMessage marketName type data = some s') :
    s'.Pending ∧ s'.SubscriptionOutcomes := by
  simp only [onOrderbookMessage] at hstep
  split at hstep
  · obtain rfl := Option.some.inj hstep
    exact subscribed_preserves h hgood marketName
  · obtain rfl := Option.some.inj hstep
    exact ⟨⟨h.entry, h.noError, h.cancelled⟩, ⟨hgood.acknowledged, hgood.erased⟩⟩
  · obtain rfl := Option.some.inj hstep
    exact ⟨⟨h.entry, h.noError, h.cancelled⟩, ⟨hgood.acknowledged, hgood.erased⟩⟩
  · cases hstep
  · obtain rfl := Option.some.inj hstep
    exact ⟨h, hgood⟩

theorem received_preserves (h : s.Pending) (hgood : s.SubscriptionOutcomes) :
    s.received.Pending ∧ s.received.SubscriptionOutcomes :=
  ⟨⟨h.entry, h.noError, h.cancelled⟩, ⟨hgood.acknowledged, hgood.erased⟩⟩

theorem onMessage_preserves (h : s.Pending) (hgood : s.SubscriptionOutcomes)
    {message : FtxWsMessage} (hstep : s.onMessage message = some s') :
    s'.Pending ∧ s'.SubscriptionOutcomes := by
  simp only [onMessage] at hstep
  split at hstep
  · split at hstep
    · obtain rfl := Option.some.inj hstep
      exact ⟨h, hgood⟩
    · obtain ⟨s₁, hs₁, rfl⟩ := Option.map_eq_some_iff.mp hstep
      obtain ⟨h₁, hgood₁⟩ := onOrderbookMessage_preserves h hgood hs₁
      exact received_preserves h₁ hgood₁
  · obtain rfl := Option.some.inj hstep
    exact received_preserves h hgood

/-- Without an error in the entry a call returns, unless its wait ended with
`timed_out`. -/
theorem waitEnds_cases (h : s.Pending) {marketName : String} {errorCode : WaitResult}
    (hstep : s.waitEnds marketName errorCode = some s') :
    (errorCode = .timedOut ∧ s' = s.setCall marketName .threw) ∨
      (errorCode ≠ .timedOut ∧ s' = s.setCall marketName .returned) := by
  simp only [waitEnds] at hstep
  split at hstep
  · next htimedOut => exact .inl ⟨htimedOut, (Option.some.inj hstep).symm⟩
  · next hnot =>
    split at hstep
    · cases hstep
    · next subscription hentry =>
      rw [h.noError marketName subscription hentry, if_neg Bool.false_ne_true] at hstep
      exact .inr ⟨hnot, (Option.some.inj hstep).symm⟩

/-- What the end of a wait leads to. -/
theorem waitEnds_exact (h : s.Pending) (hgood : s.SubscriptionOutcomes) {marketName : String}
    {errorCode : WaitResult} (hcall : s.calls marketName = some (.woken errorCode))
    (hstep : s.waitEnds marketName errorCode = some s') :
    s'.Pending ∧ (s'.SubscriptionOutcomes ↔ s.StepOk (.resume marketName)) := by
  obtain ⟨rfl, rfl⟩ | ⟨hnot, rfl⟩ := waitEnds_cases h hstep
  · -- The entry stays.
    refine ⟨h.setCall (.inl trivial) nofun, ?_⟩
    obtain ⟨subscription, hentry⟩ := h.entry marketName _ hcall id
    rw [StepOk, hcall, iff_false]
    intro hgood'
    cases hentry.symm.trans (hgood'.erased marketName (Function.update_self ..))
  · refine ⟨h.setCall (.inl trivial) nofun, (outcomes_returned hgood marketName).trans ?_⟩
    rw [StepOk, hcall]
    cases errorCode with
    | expired => exact Iff.rfl
    | operationAborted => exact iff_of_true (h.cancelled marketName hcall) trivial
    | timedOut => exact absurd rfl hnot
    | failed => exact Iff.rfl

/-! ## Runs -/

/-- What a step leads to from a state where all outcomes are as promised. -/
theorem step_exact {label : Label} (h : s.Pending) (hgood : s.SubscriptionOutcomes)
    (hstep : s.step label = some s') :
    s'.Pending ∧ (s'.SubscriptionOutcomes ↔ s.StepOk label) := by
  cases label with
  | subscribeOrderbook marketName =>
    obtain ⟨h', hgood'⟩ := doSubscribeOrderbook_preserves h hgood hstep
    exact ⟨h', iff_of_true hgood' trivial⟩
  | requestSent marketName =>
    simp only [step] at hstep
    split at hstep
    · obtain ⟨h', hgood'⟩ := requestSent_preserves h hgood hstep
      exact ⟨h', iff_of_true hgood' trivial⟩
    · cases hstep
  | message message =>
    obtain ⟨h', hgood'⟩ := onMessage_preserves h hgood hstep
    exact ⟨h', iff_of_true hgood' trivial⟩
  | timer marketName errorCode =>
    obtain ⟨⟨hwaiting, hnot⟩, hstep⟩ := Option.ite_none_right_eq_some.mp hstep
    obtain rfl := Option.some.inj hstep
    have hentry := h.entry marketName .waiting hwaiting id
    refine ⟨h.setCall (.inr hentry) fun hsame => ?_, iff_of_true (hgood.setCall id) trivial⟩
    exact absurd (SubscribeOrderbook.woken.inj hsame) hnot
  | resume marketName =>
    simp only [step] at hstep
    split at hstep
    · next errorCode hcall => exact waitEnds_exact h hgood hcall hstep
    · cases hstep

/-- **Subscription outcomes.** Over all interleavings of the subscriptions of
any number of markets: in every state of a run the calls that have returned
were acknowledged, and those that have thrown left no entry, exactly when no
call resumes from a wait that ended without a cancellation, unless a
subscribed message had been handled, and no wait ends with `timed_out`. -/
theorem outcomes_iff {labels : List Label} (hrun : run step init labels = some t) :
    (∀ k u, run step init (labels.take k) = some u → u.SubscriptionOutcomes) ↔
      Along step StepOk init labels := by
  refine along_iff_prefixes (fun _ _ _ h hgood _ hstep => (step_exact h hgood hstep).1)
    (fun _ _ _ h hgood hstep => (step_exact h hgood hstep).2) ?_ ?_ hrun
  · exact ⟨fun _ _ hcall => by simp [init] at hcall, fun _ _ hentry => by simp [init] at hentry,
      fun _ hwoken => by simp [init] at hwoken⟩
  · exact ⟨fun _ hreturned => by simp [init] at hreturned, fun _ hthrew => by simp [init] at hthrew⟩

/-- A message of the order book of a market. -/
def orderbookMessage (type : FtxResponseType) (marketName : String) : FtxWsMessage :=
  ⟨some .orderbook, some type, some marketName, none⟩

/-- One market is acknowledged while its call waits, another before it does. -/
def acknowledgedTwice : List Label :=
  [.subscribeOrderbook "SOL/USD", .subscribeOrderbook "BTC/USD",
    .message (orderbookMessage .subscribed "BTC/USD"), .requestSent "SOL/USD",
    .requestSent "BTC/USD", .message (orderbookMessage .subscribed "SOL/USD"),
    .timer "BTC/USD" .expired, .resume "SOL/USD", .resume "BTC/USD"]

theorem outcomes_iff_acknowledgedTwice :
    ∃ t, run step init acknowledgedTwice = some t ∧
      t.calls "SOL/USD" = some .returned ∧ t.calls "BTC/USD" = some .returned ∧
      ∀ k u, run step init (acknowledgedTwice.take k) = some u → u.SubscriptionOutcomes := by
  have hstate : (run step init acknowledgedTwice).map (fun t =>
      (t.calls "SOL/USD", t.calls "BTC/USD")) = some (some .returned, some .returned) := by
    decide +kernel
  obtain ⟨t, ht, hstate⟩ := Option.map_eq_some_iff.mp hstate
  obtain ⟨hsol, hbtc⟩ := Prod.mk.inj hstate
  exact ⟨t, ht, hsol, hbtc, (outcomes_iff ht).mpr (by decide +kernel)⟩

/-- The market does not exist: FTX answers with an error, and the timer
expires. -/
def refusedMarket : List Label :=
  [.subscribeOrderbook "SOL/EUR", .requestSent "SOL/EUR",
    .message (orderbookMessage .error "SOL/EUR"), .timer "SOL/EUR" .expired, .resume "SOL/EUR"]

/-- The call returns normally, without an acknowledgement. -/
theorem outcomes_fails :
    ∃ t, run step init refusedMarket = some t ∧ t.calls "SOL/EUR" = some .returned ∧
      t.acknowledged "SOL/EUR" = false ∧ ¬ t.SubscriptionOutcomes := by
  have hstate : (run step init refusedMarket).map (fun t =>
      (t.calls "SOL/EUR", t.acknowledged "SOL/EUR")) = some (some .returned, false) := by
    decide +kernel
  obtain ⟨t, ht, hstate⟩ := Option.map_eq_some_iff.mp hstate
  obtain ⟨hcall, hnot⟩ := Prod.mk.inj hstate
  refine ⟨t, ht, hcall, hnot, fun hgood => ?_⟩
  have hacknowledged := hgood.acknowledged "SOL/EUR" hcall
  rw [hnot] at hacknowledged
  cases hacknowledged

end FtxWsClient

end Synthfi.Ftx
