/-
Synthfi.Ftx.ExchangeIdTheorems — the orders listed under the exchange's ids.

A NEW message lists its order in `_exchangeOrderIdMap`, and a call that ends
unlists it under the id the order has then. `Listed` is what the map is meant
to be: each pointer leads to an order that is held, under that order's id.
`listed_iff` finds, over all interleavings, the runs that keep it: no second
NEW message gives a listed order another id, and no request fails whose order
is listed.
-/
import Synthfi.Ftx.FtxOrderClientTheorems

namespace Synthfi.Ftx.FtxOrderClient

open Run PartialMap Trading

variable {s s' t : FtxOrderClient}

/-- Every listed order is held and carries the id it is listed under. -/
def Listed (s : FtxOrderClient) : Prop :=
  ∀ orderId clientOrderId, s.exchangeOrderIdMap orderId = some clientOrderId →
    ∃ order, s.orders clientOrderId = some order ∧ order.orderId = orderId

/-- Only a call that was made holds an order. -/
def HeldByCalls (s : FtxOrderClient) : Prop :=
  ∀ clientOrderId, s.calls clientOrderId = none → s.orders clientOrderId = none

/-- The order is listed under no id but this. -/
def ListedOnlyUnder (s : FtxOrderClient) (orderId clientOrderId : UInt64) : Prop :=
  ∀ order ∈ s.orders clientOrderId,
    s.exchangeOrderIdMap order.orderId = some clientOrderId → order.orderId = orderId

instance (orderId clientOrderId : UInt64) :
    Decidable (s.ListedOnlyUnder orderId clientOrderId) := by
  unfold ListedOnlyUnder
  infer_instance

/-- The steps that keep `Listed`: a NEW message does not change the id of an
order that is listed, and a request does not fail whose order is listed. -/
def ListingOk (s : FtxOrderClient) : Label → Prop
  | .orderMessage message =>
    message.orderStatus = .NEW → s.ListedOnlyUnder message.orderId message.clientOrderId
  | .requestError clientOrderId =>
    ∀ order ∈ s.orders clientOrderId, s.exchangeOrderIdMap order.orderId ≠ some clientOrderId
  | _ => True

instance (label : Label) : Decidable (s.ListingOk label) := by
  unfold ListingOk
  split <;> infer_instance

/-! ## The maps after an operation -/

/-- A step that lists nothing new and keeps the held orders under their
ids. -/
theorem Listed.of_orders (h : s.Listed) (hmap : s'.exchangeOrderIdMap = s.exchangeOrderIdMap)
    (horders : ∀ clientOrderId order, s.orders clientOrderId = some order →
      ∃ order', s'.orders clientOrderId = some order' ∧ order'.orderId = order.orderId) :
    s'.Listed := by
  intro orderId clientOrderId hlisted
  rw [hmap] at hlisted
  obtain ⟨order, horder, hid⟩ := h orderId clientOrderId hlisted
  obtain ⟨order', horder', hid'⟩ := horders clientOrderId order horder
  exact ⟨order', horder', hid'.trans hid⟩

theorem Listed.setCall (h : s.Listed) (clientOrderId : UInt64) (call : SendOrder) :
    (s.setCall clientOrderId call).Listed := h

/-- Two ids of one order are the same. -/
theorem Listed.unique (h : s.Listed) {orderId clientOrderId : UInt64} {order : TrackedOrder}
    (hlisted : s.exchangeOrderIdMap orderId = some clientOrderId)
    (horder : s.orders clientOrderId = some order) : order.orderId = orderId := by
  obtain ⟨order', horder', hid⟩ := h orderId clientOrderId hlisted
  rw [horder, Option.some.injEq] at horder'
  exact horder' ▸ hid

theorem HeldByCalls.setCall (h : s.HeldByCalls) (clientOrderId : UInt64) (call : SendOrder) :
    (s.setCall clientOrderId call).HeldByCalls := fun clientOrderId' hnone =>
  h clientOrderId' (update_some_eq_none.mp hnone).2

theorem HeldByCalls.eraseOrder (h : s.HeldByCalls) (clientOrderId : UInt64) :
    (s.eraseOrder clientOrderId).HeldByCalls := fun clientOrderId' hnone =>
  update_none_of_eq_none (h clientOrderId' hnone) clientOrderId

theorem HeldByCalls.update (h : s.HeldByCalls) {message : FtxOrderMessage} {old : TrackedOrder}
    (hold : s.orders message.clientOrderId = some old) (order : TrackedOrder) :
    (s.update message order).HeldByCalls := fun clientOrderId hnone =>
  update_eq_none_of_eq_none hold (h clientOrderId hnone) _

/-- An order erased must not be listed. -/
theorem listed_eraseOrder (h : s.Listed) (clientOrderId : UInt64) :
    (s.eraseOrder clientOrderId).Listed ↔
      ∀ order ∈ s.orders clientOrderId,
        s.exchangeOrderIdMap order.orderId ≠ some clientOrderId := by
  constructor
  · intro h' order horder hlisted
    obtain ⟨order', horder', -⟩ := h' order.orderId clientOrderId hlisted
    exact absurd rfl (update_none_eq_some.mp horder').1
  · intro hnot orderId clientOrderId' hlisted
    obtain ⟨order, horder, hid⟩ := h orderId clientOrderId' hlisted
    refine ⟨order, update_none_eq_some.mpr ⟨?_, horder⟩, hid⟩
    rintro rfl
    exact hnot order horder (hid ▸ hlisted)

/-- A message that leaves the id of its order. -/
theorem Listed.update (h : s.Listed) {message : FtxOrderMessage} {old order : TrackedOrder}
    (hold : s.orders message.clientOrderId = some old) (hid : order.orderId = old.orderId) :
    (s.update message order).Listed := by
  refine h.of_orders rfl fun clientOrderId order' horder' => ?_
  by_cases heq : clientOrderId = message.clientOrderId
  · subst heq
    rw [hold, Option.some.injEq] at horder'
    exact ⟨order, Function.update_self .., horder' ▸ hid⟩
  · exact ⟨order', (Function.update_of_ne heq ..).trans horder', rfl⟩

/-- `emplace`: a pointer that is there stays. -/
def emplaceExchangeId (s : FtxOrderClient) (orderId clientOrderId : UInt64) : FtxOrderClient :=
  { s with
    exchangeOrderIdMap := Function.update s.exchangeOrderIdMap orderId
      (some ((s.exchangeOrderIdMap orderId).getD clientOrderId)) }

theorem emplaceExchangeId_of_ne {orderId orderId' : UInt64} (h : orderId' ≠ orderId)
    (clientOrderId : UInt64) :
    (s.emplaceExchangeId orderId clientOrderId).exchangeOrderIdMap orderId' =
      s.exchangeOrderIdMap orderId' := Function.update_of_ne h ..

/-- A NEW message lists its order under the id it gives it. -/
theorem listed_new (h : s.Listed) {message : FtxOrderMessage} {old order : TrackedOrder}
    (hold : s.orders message.clientOrderId = some old) (hid : order.orderId = message.orderId) :
    ((s.emplaceExchangeId message.orderId message.clientOrderId).update message order).Listed ↔
      s.ListedOnlyUnder message.orderId message.clientOrderId := by
  constructor
  · intro h' old' hold' hlisted
    by_contra hne
    have hlisted' := (emplaceExchangeId_of_ne hne message.clientOrderId).trans hlisted
    have hunique := h'.unique hlisted' (Function.update_self ..)
    exact hne (hunique.symm.trans hid)
  · intro honly orderId clientOrderId hlisted
    by_cases heq : clientOrderId = message.clientOrderId
    · subst heq
      refine ⟨order, Function.update_self .., hid.trans ?_⟩
      by_contra hne
      rw [FtxOrderClient.update, emplaceExchangeId_of_ne (Ne.symm hne)] at hlisted
      have hunique := h.unique hlisted hold
      exact hne ((honly old hold (hunique ▸ hlisted)).symm.trans hunique)
    · have hlisted' : s.exchangeOrderIdMap orderId = some clientOrderId := by
        obtain ⟨rfl, hsame⟩ | ⟨-, hother⟩ := update_some_eq_some.mp hlisted
        · cases hkey : s.exchangeOrderIdMap message.orderId with
          | none => exact absurd (by simpa [hkey] using hsame.symm) heq
          | some other => rw [← hsame, hkey, Option.getD_some]
        · exact hother
      obtain ⟨order', horder', hid'⟩ := h orderId clientOrderId hlisted'
      exact ⟨order', (Function.update_of_ne heq ..).trans horder', hid'⟩

/-! ## Steps -/

theorem doSendOrder_kept (h : s.Listed) (hheld : s.HeldByCalls) {clientOrderId : UInt64}
    {order : TrackedOrder} (hstep : s.doSendOrder clientOrderId order = some s') :
    s'.Listed ∧ s'.HeldByCalls := by
  obtain ⟨hnew, request, rfl⟩ := doSendOrder_eq_some hstep
  refine ⟨h.of_orders rfl fun clientOrderId' order' horder' => ?_, fun clientOrderId' hnone => ?_⟩
  · have hne : clientOrderId' ≠ clientOrderId := by
      rintro rfl
      simp [hheld _ hnew] at horder'
    exact ⟨order', (Function.update_of_ne hne ..).trans horder', rfl⟩
  · obtain ⟨hne, hold⟩ := update_some_eq_none.mp hnone
    exact (Function.update_of_ne hne ..).trans (hheld clientOrderId' hold)

/-- A call that ends unlists its order, which is listed under no other id. -/
theorem returns_kept (h : s.Listed) (hheld : s.HeldByCalls) {clientOrderId : UInt64}
    (hstep : s.returns clientOrderId = some s') : s'.Listed ∧ s'.HeldByCalls := by
  obtain ⟨order, horder, rfl⟩ := returns_eq_some hstep
  refine ⟨fun orderId clientOrderId' hlisted => ?_,
    (HeldByCalls.eraseOrder (s := { s with
      exchangeOrderIdMap := Function.update s.exchangeOrderIdMap order.orderId none }) hheld
        clientOrderId).setCall clientOrderId _⟩
  obtain ⟨hne, hlisted'⟩ := update_none_eq_some.mp hlisted
  obtain ⟨order', horder', hid⟩ := h orderId clientOrderId' hlisted'
  refine ⟨order', update_none_eq_some.mpr ⟨?_, horder'⟩, hid⟩
  rintro rfl
  exact hne (h.unique hlisted' horder).symm

theorem cancelTimer_kept (h : s.Listed) (hheld : s.HeldByCalls) (clientOrderId : UInt64) :
    (s.cancelTimer clientOrderId).Listed ∧ (s.cancelTimer clientOrderId).HeldByCalls := by
  unfold cancelTimer
  split
  · exact ⟨h.setCall _ _, hheld.setCall _ _⟩
  · exact ⟨h, hheld⟩

theorem onOrderMessage_exact (h : s.Listed) (hheld : s.HeldByCalls) {message : FtxOrderMessage}
    (hstep : s.onOrderMessage message = some s') :
    s'.HeldByCalls ∧ (s'.Listed ↔ s.ListingOk (.orderMessage message)) := by
  obtain ⟨hnone, rfl⟩ | ⟨old, hold, hcases⟩ := onOrderMessage_cases hstep
  · refine ⟨hheld, iff_of_true h fun _ order horder => ?_⟩
    cases hnone.symm.trans horder
  · obtain ⟨hstatus, rfl⟩ | ⟨hstatus, rfl⟩ | ⟨hstatus, rfl⟩ := hcases
    · have hheld' : (s.emplaceExchangeId message.orderId message.clientOrderId).HeldByCalls := hheld
      refine ⟨hheld'.update hold _, (listed_new h hold rfl).trans ?_⟩
      simp [ListingOk, hstatus]
    · exact ⟨hheld.update hold _, iff_of_true (h.update hold rfl) (by simp [ListingOk, hstatus])⟩
    · have hlisted : (s.update message (report message .CLOSED old)).Listed := h.update hold rfl
      obtain ⟨h', hheld'⟩ := cancelTimer_kept hlisted (hheld.update hold _) message.clientOrderId
      exact ⟨hheld', iff_of_true h' (by simp [ListingOk, hstatus])⟩

theorem listing_step {label : Label} (hheld : s.HeldByCalls) (h : s.Listed)
    (hstep : s.step label = some s') :
    s'.HeldByCalls ∧ (s'.Listed ↔ s.ListingOk label) := by
  cases label with
  | sendOrder clientOrderId order =>
    obtain ⟨h', hheld'⟩ := doSendOrder_kept h hheld hstep
    exact ⟨hheld', iff_of_true h' trivial⟩
  | response clientOrderId =>
    obtain ⟨-, rfl⟩ := step_response hstep
    exact ⟨hheld.setCall _ _, iff_of_true (h.setCall _ _) trivial⟩
  | requestError clientOrderId =>
    obtain rfl := step_requestError hstep
    exact ⟨(hheld.eraseOrder clientOrderId).setCall _ _, listed_eraseOrder h clientOrderId⟩
  | orderMessage message => exact onOrderMessage_exact h hheld hstep
  | expire clientOrderId =>
    obtain ⟨-, rfl⟩ := step_expire hstep
    exact ⟨hheld.setCall _ _, iff_of_true (h.setCall _ _) trivial⟩
  | timerError clientOrderId =>
    obtain ⟨-, rfl⟩ := step_timerError hstep
    exact ⟨hheld.setCall _ _, iff_of_true (h.setCall _ _) trivial⟩
  | resume clientOrderId =>
    obtain ⟨h', hheld'⟩ := returns_kept h hheld (step_resume hstep)
    exact ⟨hheld', iff_of_true h' trivial⟩

/-! ## Runs -/

/-- **Exchange ids.** Over all interleavings of any number of orders: in
every state of a run each pointer in `_exchangeOrderIdMap` leads to an order
that is held, and under that order's id, exactly when no step of the run
gives a listed order another id or fails the request of a listed order. -/
theorem listed_iff {referenceData : FtxReferenceData} {labels : List Label}
    (hrun : run step (init referenceData) labels = some t) :
    (∀ k u, run step (init referenceData) (labels.take k) = some u → u.Listed) ↔
      Along step ListingOk (init referenceData) labels :=
  along_iff_prefixes (fun _ _ _ hheld h _ hstep => (listing_step hheld h hstep).1)
    (fun _ _ _ hheld h hstep => (listing_step hheld h hstep).2) (fun _ _ => rfl)
    (fun _ _ hlisted => by simp [init] at hlisted) hrun

/-- Order 7 is reported under id 31 and closed, order 8 fails unreported. -/
def reportedAndFailed : List Label :=
  [.sendOrder 7 bidForFive, .orderMessage ⟨0, 0, .NEW, 31, 7⟩, .sendOrder 8 bidForFive,
    .requestError 8, .response 7, .orderMessage ⟨5, 99, .CLOSED, 31, 7⟩]

theorem listed_iff_reportedAndFailed :
    ∃ t, run step (init solUsdPair) reportedAndFailed = some t ∧
      t.exchangeOrderIdMap 31 = some 7 ∧
      ∀ k u, run step (init solUsdPair) (reportedAndFailed.take k) = some u → u.Listed := by
  have hlisted : (run step (init solUsdPair) reportedAndFailed).map
      (fun t => t.exchangeOrderIdMap 31) = some (some 7) := by decide +kernel
  obtain ⟨t, ht, hlisted⟩ := Option.map_eq_some_iff.mp hlisted
  exact ⟨t, ht, hlisted, (listed_iff ht).mpr (by decide +kernel)⟩

/-- The order is reported before its request fails. -/
def reportedThenFailed : List Label :=
  [.sendOrder 7 bidForFive, .orderMessage ⟨0, 0, .NEW, 31, 7⟩, .requestError 7]

/-- The pointer to it is left behind. -/
theorem listed_fails :
    ∃ t, run step (init solUsdPair) reportedThenFailed = some t ∧
      t.exchangeOrderIdMap 31 = some 7 ∧ t.orders 7 = none ∧ ¬ t.Listed := by
  have hend : (run step (init solUsdPair) reportedThenFailed).map
      (fun t => (t.exchangeOrderIdMap 31, t.orders 7)) = some (some 7, none) := by decide +kernel
  obtain ⟨t, ht, hend⟩ := Option.map_eq_some_iff.mp hend
  rw [Prod.mk.injEq] at hend
  refine ⟨t, ht, hend.1, hend.2, fun h => ?_⟩
  obtain ⟨order, horder, -⟩ := h 31 7 hend.1
  cases hend.2.symm.trans horder

end Synthfi.Ftx.FtxOrderClient
