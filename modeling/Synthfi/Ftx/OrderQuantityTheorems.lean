/-
Synthfi.Ftx.OrderQuantityTheorems — the quantity of an order that is partly
filled.

An order stores what is filled and what remains, and its quantity is their
sum. An order message sets the first; nothing in the client writes the
second. `SentOrders` keeps each order as it was sent beside the client;
`conserves_iff` finds the runs in which every reader of an order sees the
quantity it was sent with: those in which no message reports a fill.
-/
import Synthfi.Ftx.FtxOrderClientTheorems

namespace Synthfi.Ftx

open Run Trading PartialMap

/-- The order a call has returned. -/
def SendOrder.returnedOrder : SendOrder → Option TrackedOrder
  | .returned order => some order
  | _ => none

namespace FtxOrderClient

/-! ## The law -/

/-- The order has the quantity of the one sent under `clientOrderId`, and of
it remains what was not reported as filled; before a report, what was not
filled when it was sent. -/
def Conserved (sent : UInt64 → Option Order) (clientOrderId : UInt64)
    (reported : Option FtxOrderMessage) (order : TrackedOrder) : Prop :=
  ∃ sentOrder, sent clientOrderId = some sentOrder ∧ order.quantity = sentOrder.quantity ∧
    order.remainingFillQuantity = sentOrder.quantity -
      (reported.map FtxOrderMessage.fillQuantity).getD sentOrder.fillQuantity

/-- So do the orders that are held, those that were returned, and each that
was published with the message it was published for. -/
structure Conserves (s : FtxOrderClient) (sent : UInt64 → Option Order) : Prop where
  held : ∀ clientOrderId order, s.orders clientOrderId = some order →
    Conserved sent clientOrderId (s.lastMessage clientOrderId) order
  returned : ∀ clientOrderId order, s.calls clientOrderId = some (.returned order) →
    Conserved sent clientOrderId (s.lastMessage clientOrderId) order
  published : List.Forall₂ (fun message order =>
    Conserved sent order.clientOrderId (some message) order) s.handled s.published.reverse

/-- What every step keeps: of an order that is held only the filled quantity
has changed, to the one last reported. -/
structure Remains (s : FtxOrderClient) (sent : UInt64 → Option Order) : Prop where
  unused : ∀ clientOrderId, s.calls clientOrderId = none →
    s.orders clientOrderId = none ∧ sent clientOrderId = none ∧ s.lastMessage clientOrderId = none
  held : ∀ clientOrderId order, s.orders clientOrderId = some order →
    ∃ sentOrder, sent clientOrderId = some sentOrder ∧ order.clientOrderId = clientOrderId ∧
      order.remainingFillQuantity = sentOrder.remainingFillQuantity ∧
      order.fillQuantity = ((s.lastMessage clientOrderId).map FtxOrderMessage.fillQuantity).getD
        sentOrder.fillQuantity
  returned : ∀ clientOrderId order, s.calls clientOrderId = some (.returned order) →
    s.orders clientOrderId = none

/-- Of an order whose remaining quantity was not touched the law says that
nothing was filled since it was sent. -/
theorem conserved_iff {sent : UInt64 → Option Order} {clientOrderId : UInt64}
    {reported : Option FtxOrderMessage} {order : TrackedOrder} {sentOrder : Order}
    (hsent : sent clientOrderId = some sentOrder)
    (hremaining : order.remainingFillQuantity = sentOrder.remainingFillQuantity)
    (hfill : order.fillQuantity =
      (reported.map FtxOrderMessage.fillQuantity).getD sentOrder.fillQuantity) :
    Conserved sent clientOrderId reported order ↔ order.fillQuantity = sentOrder.fillQuantity := by
  constructor
  · intro h
    obtain ⟨sentOrder', hsent', hquantity, -⟩ := h
    obtain rfl := Option.some.inj (hsent.symm.trans hsent')
    rw [Order.quantity, Order.quantity, hremaining] at hquantity
    exact add_right_cancel hquantity
  · intro h
    refine ⟨sentOrder, hsent, ?_, ?_⟩
    · rw [Order.quantity, Order.quantity, h, hremaining]
    · rw [← hfill, h, Order.quantity, hremaining, add_sub_cancel_left]

variable {s s' : FtxOrderClient} {sent : UInt64 → Option Order}

/-! ## Calls -/

theorem Remains.setCall (h : Remains s sent) {clientOrderId : UInt64} {call : SendOrder}
    (hcall : ∀ order, call = .returned order → s.orders clientOrderId = none) :
    Remains (s.setCall clientOrderId call) sent where
  unused clientOrderId' hnone := h.unused clientOrderId' (update_some_eq_none.mp hnone).2
  held := h.held
  returned clientOrderId' order hreturned := by
    obtain ⟨rfl, hsame⟩ | ⟨-, hold⟩ := update_some_eq_some.mp hreturned
    · exact hcall order hsame
    · exact h.returned clientOrderId' order hold

theorem Remains.setPending (h : Remains s sent) {clientOrderId : UInt64} {call : SendOrder}
    (hcall : call.returnedOrder = none) : Remains (s.setCall clientOrderId call) sent :=
  h.setCall fun order hsame => by
    rw [hsame] at hcall
    cases hcall

theorem Remains.eraseOrder (h : Remains s sent) (clientOrderId : UInt64) :
    Remains (s.eraseOrder clientOrderId) sent where
  unused clientOrderId' hnone := by
    obtain ⟨horder, hrest⟩ := h.unused clientOrderId' hnone
    exact ⟨update_none_of_eq_none horder clientOrderId, hrest⟩
  held clientOrderId' order horder := h.held clientOrderId' order (update_none_eq_some.mp horder).2
  returned clientOrderId' order hreturned :=
    update_none_of_eq_none (h.returned clientOrderId' order hreturned) clientOrderId

theorem Remains.withExchangeOrderIdMap (h : Remains s sent)
    (exchangeOrderIdMap : UInt64 → Option UInt64) : Remains { s with exchangeOrderIdMap } sent :=
  ⟨h.unused, h.held, h.returned⟩

theorem Conserves.setCall (h : Conserves s sent) {clientOrderId : UInt64} {call : SendOrder}
    (hcall : ∀ order, call = .returned order →
      Conserved sent clientOrderId (s.lastMessage clientOrderId) order) :
    Conserves (s.setCall clientOrderId call) sent where
  held := h.held
  returned clientOrderId' order hreturned := by
    obtain ⟨rfl, hsame⟩ | ⟨-, hold⟩ := update_some_eq_some.mp hreturned
    · exact hcall order hsame
    · exact h.returned clientOrderId' order hold
  published := h.published

theorem Conserves.setPending (h : Conserves s sent) {clientOrderId : UInt64} {call : SendOrder}
    (hcall : call.returnedOrder = none) : Conserves (s.setCall clientOrderId call) sent :=
  h.setCall fun order hsame => by
    rw [hsame] at hcall
    cases hcall

theorem Conserves.eraseOrder (h : Conserves s sent) (clientOrderId : UInt64) :
    Conserves (s.eraseOrder clientOrderId) sent where
  held clientOrderId' order horder := h.held clientOrderId' order (update_none_eq_some.mp horder).2
  returned := h.returned
  published := h.published

theorem Conserves.withExchangeOrderIdMap (h : Conserves s sent)
    (exchangeOrderIdMap : UInt64 → Option UInt64) : Conserves { s with exchangeOrderIdMap } sent :=
  ⟨h.held, h.returned, h.published⟩

/-- A cancelled timer ends no call. -/
theorem Remains.cancelTimer (h : Remains s sent) (clientOrderId : UInt64) :
    Remains (s.cancelTimer clientOrderId) sent := by
  unfold FtxOrderClient.cancelTimer
  split
  · exact h.setPending rfl
  · exact h

theorem conserves_cancelTimer (clientOrderId : UInt64) :
    Conserves (s.cancelTimer clientOrderId) sent ↔ Conserves s sent := by
  unfold FtxOrderClient.cancelTimer
  split
  · next hwaiting =>
    constructor
    · intro h
      refine ⟨h.held, fun clientOrderId' order hreturned => ?_, h.published⟩
      have hne : clientOrderId' ≠ clientOrderId := by
        rintro rfl
        cases hwaiting.symm.trans hreturned
      exact h.returned clientOrderId' order ((Function.update_of_ne hne ..).trans hreturned)
    · intro h
      exact h.setPending rfl
  · exact Iff.rfl

/-! ## Orders and their messages -/

theorem Conserved.record {clientOrderId clientOrderId' : UInt64} {reported : Option FtxOrderMessage}
    {order : TrackedOrder} (h : Conserved sent clientOrderId' reported order)
    (hnew : sent clientOrderId = none) (sentOrder : Option Order) :
    Conserved (Function.update sent clientOrderId sentOrder) clientOrderId' reported order := by
  obtain ⟨sentOrder', hsent, hrest⟩ := h
  have hne : clientOrderId' ≠ clientOrderId := by
    rintro rfl
    cases hnew.symm.trans hsent
  exact ⟨sentOrder', (Function.update_of_ne hne ..).trans hsent, hrest⟩

/-- A new order starts with what it was sent with. -/
theorem Remains.doSendOrder (h : Remains s sent) {clientOrderId : UInt64} {order : TrackedOrder}
    (hstep : s.doSendOrder clientOrderId order = some s') :
    Remains s' (Function.update sent clientOrderId (some order.toOrder)) := by
  obtain ⟨hnew, request, rfl⟩ := doSendOrder_eq_some hstep
  obtain ⟨hnone, -, hlast⟩ := h.unused clientOrderId hnew
  refine ⟨fun clientOrderId' hunused => ?_, ?_, fun clientOrderId' order' hreturned => ?_⟩
  · obtain ⟨hne, hold⟩ := update_some_eq_none.mp hunused
    obtain ⟨horder, hsent, hlast'⟩ := h.unused clientOrderId' hold
    exact ⟨(Function.update_of_ne hne ..).trans horder, (Function.update_of_ne hne ..).trans hsent,
      hlast'⟩
  · intro clientOrderId' order' horder
    obtain ⟨rfl, rfl⟩ | ⟨hne, hold⟩ := update_some_eq_some.mp horder
    · refine ⟨order.toOrder, Function.update_self .., rfl, rfl, ?_⟩
      rw [lastMessage_setCall]
      show order.fillQuantity = ((s.lastMessage clientOrderId').map _).getD _
      rw [hlast]
      rfl
    · obtain ⟨sentOrder, hsent, hrest⟩ := h.held clientOrderId' order' hold
      exact ⟨sentOrder, (Function.update_of_ne hne ..).trans hsent, hrest⟩
  · obtain ⟨-, hcall⟩ | ⟨hne, hold⟩ := update_some_eq_some.mp hreturned
    · cases hcall
    · exact (Function.update_of_ne hne ..).trans (h.returned clientOrderId' order' hold)

theorem Conserves.doSendOrder (h : Remains s sent) (hgood : Conserves s sent)
    {clientOrderId : UInt64} {order : TrackedOrder}
    (hstep : s.doSendOrder clientOrderId order = some s') :
    Conserves s' (Function.update sent clientOrderId (some order.toOrder)) := by
  have h' := h.doSendOrder hstep
  obtain ⟨hnew, request, rfl⟩ := doSendOrder_eq_some hstep
  obtain ⟨-, hsent, hlast⟩ := h.unused clientOrderId hnew
  refine ⟨fun clientOrderId' order' horder => ?_, fun clientOrderId' order' hreturned => ?_, ?_⟩
  · obtain ⟨rfl, rfl⟩ | ⟨hne, hold⟩ := update_some_eq_some.mp horder
    · obtain ⟨sentOrder, hsent', -, hremaining, hfill⟩ := h'.held clientOrderId' _ horder
      refine (conserved_iff hsent' hremaining hfill).mpr ?_
      obtain rfl : order.toOrder = sentOrder := by simpa using hsent'
      rfl
    · exact (hgood.held clientOrderId' order' hold).record hsent _
  · obtain ⟨-, hcall⟩ | ⟨-, hold⟩ := update_some_eq_some.mp hreturned
    · cases hcall
    · exact (hgood.returned clientOrderId' order' hold).record hsent _
  · exact hgood.published.imp fun _ _ hconserved => hconserved.record hsent _

/-- An update that leaves the remaining quantity alone. -/
structure Reported (message : FtxOrderMessage) (old order : TrackedOrder) : Prop where
  clientOrderId : order.clientOrderId = old.clientOrderId
  remaining : order.remainingFillQuantity = old.remainingFillQuantity
  filled : order.fillQuantity = message.fillQuantity

theorem Remains.update (h : Remains s sent) {message : FtxOrderMessage} {old order : TrackedOrder}
    (hold : s.orders message.clientOrderId = some old) (hreported : Reported message old order) :
    Remains (s.update message order) sent where
  unused clientOrderId hnone := by
    obtain ⟨horder, hsent, hlast⟩ := h.unused clientOrderId hnone
    have hne : clientOrderId ≠ message.clientOrderId := by
      rintro rfl
      cases hold.symm.trans horder
    refine ⟨(Function.update_of_ne hne ..).trans horder, hsent, ?_⟩
    rw [lastMessage_update, if_neg (Ne.symm hne), hlast]
  held clientOrderId order' horder := by
    rw [lastMessage_update]
    obtain ⟨rfl, rfl⟩ | ⟨hne, horder'⟩ := update_some_eq_some.mp horder
    · obtain ⟨sentOrder, hsent, hid, hremaining, -⟩ := h.held message.clientOrderId old hold
      rw [if_pos rfl]
      exact ⟨sentOrder, hsent, hreported.clientOrderId.trans hid,
        hreported.remaining.trans hremaining, hreported.filled⟩
    · rw [if_neg (Ne.symm hne)]
      exact h.held clientOrderId order' horder'
  returned clientOrderId order' hreturned := by
    have hnone := h.returned clientOrderId order' hreturned
    have hne : clientOrderId ≠ message.clientOrderId := by
      rintro rfl
      cases hold.symm.trans hnone
    exact (Function.update_of_ne hne ..).trans hnone

/-- The law survives an update exactly when the message reports the fill the
order was sent with. -/
theorem conserves_update (h : Remains s sent) (hgood : Conserves s sent)
    {message : FtxOrderMessage} {old order : TrackedOrder} {sentOrder : Order}
    (hold : s.orders message.clientOrderId = some old) (hreported : Reported message old order)
    (hsent : sent message.clientOrderId = some sentOrder) :
    Conserves (s.update message order) sent ↔
      message.fillQuantity = sentOrder.fillQuantity := by
  obtain ⟨sentOrder', hsent', hid, hremaining, -⟩ := h.held message.clientOrderId old hold
  obtain rfl := Option.some.inj (hsent.symm.trans hsent')
  have hfilled : order.fillQuantity =
      ((some message).map FtxOrderMessage.fillQuantity).getD sentOrder.fillQuantity :=
    hreported.filled
  have hiff : Conserved sent message.clientOrderId (some message) order ↔
      message.fillQuantity = sentOrder.fillQuantity :=
    (conserved_iff hsent (hreported.remaining.trans hremaining) hfilled).trans
      (by rw [hreported.filled])
  have hlast : ∀ clientOrderId, clientOrderId ≠ message.clientOrderId →
      (s.update message order).lastMessage clientOrderId = s.lastMessage clientOrderId :=
    fun clientOrderId hne => by rw [lastMessage_update, if_neg (Ne.symm hne)]
  constructor
  · intro hgood'
    have hheld := hgood'.held message.clientOrderId order (Function.update_self ..)
    rw [lastMessage_update, if_pos rfl] at hheld
    exact hiff.mp hheld
  · intro hfill
    have hconserved := hiff.mpr hfill
    refine ⟨fun clientOrderId order' horder => ?_, fun clientOrderId order' hreturned => ?_, ?_⟩
    · obtain ⟨rfl, rfl⟩ | ⟨hne, horder'⟩ := update_some_eq_some.mp horder
      · rw [lastMessage_update, if_pos rfl]
        exact hconserved
      · rw [hlast clientOrderId hne]
        exact hgood.held clientOrderId order' horder'
    · have hne : clientOrderId ≠ message.clientOrderId := by
        rintro rfl
        cases hold.symm.trans (h.returned _ order' hreturned)
      rw [hlast clientOrderId hne]
      exact hgood.returned clientOrderId order' hreturned
    · show List.Forall₂ _ (message :: s.handled) (s.published ++ [order]).reverse
      rw [List.reverse_append, List.reverse_singleton, List.singleton_append, List.forall₂_cons,
        hreported.clientOrderId, hid]
      exact ⟨hconserved, hgood.published⟩

/-- No message that finds its order reports a fill, unless it is the one the
order was sent with. -/
def Unfilled (s : FtxOrderClient) (sent : UInt64 → Option Order) (message : FtxOrderMessage) :
    Prop :=
  match s.orders message.clientOrderId, sent message.clientOrderId with
  | some _, some sentOrder => message.fillQuantity = sentOrder.fillQuantity
  | _, _ => True

instance (message : FtxOrderMessage) : Decidable (Unfilled s sent message) := by
  unfold Unfilled
  split <;> infer_instance

theorem onOrderMessage_remains (h : Remains s sent) (hgood : Conserves s sent)
    {message : FtxOrderMessage} (hstep : s.onOrderMessage message = some s') :
    Remains s' sent ∧ (Conserves s' sent ↔ Unfilled s sent message) := by
  unfold Unfilled
  obtain ⟨hnone, rfl⟩ | ⟨old, hold, hcases⟩ := onOrderMessage_cases hstep
  · rw [hnone]
    exact ⟨h, iff_of_true hgood trivial⟩
  · obtain ⟨sentOrder, hsent, -⟩ := h.held message.clientOrderId old hold
    rw [hold, hsent]
    obtain ⟨-, rfl⟩ | ⟨-, rfl⟩ | ⟨-, rfl⟩ := hcases
    · let exchangeOrderIdMap := Function.update s.exchangeOrderIdMap message.orderId
        (some ((s.exchangeOrderIdMap message.orderId).getD message.clientOrderId))
      have h' := h.withExchangeOrderIdMap exchangeOrderIdMap
      exact ⟨h'.update hold ⟨rfl, rfl, rfl⟩,
        conserves_update h' (hgood.withExchangeOrderIdMap _) hold ⟨rfl, rfl, rfl⟩ hsent⟩
    · exact ⟨h.update hold ⟨rfl, rfl, rfl⟩, conserves_update h hgood hold ⟨rfl, rfl, rfl⟩ hsent⟩
    · have hreported : Reported message old (report message .CLOSED old) := ⟨rfl, rfl, rfl⟩
      exact ⟨(h.update hold hreported).cancelTimer _, (conserves_cancelTimer _).trans
        (conserves_update h hgood hold hreported hsent)⟩

theorem returns_remains (h : Remains s sent) (hgood : Conserves s sent) {clientOrderId : UInt64}
    (hstep : s.returns clientOrderId = some s') : Remains s' sent ∧ Conserves s' sent := by
  obtain ⟨order, horder, rfl⟩ := returns_eq_some hstep
  constructor
  · exact ((h.withExchangeOrderIdMap _).eraseOrder clientOrderId).setCall
      fun _ _ => Function.update_self ..
  · refine ((hgood.withExchangeOrderIdMap _).eraseOrder clientOrderId).setCall fun order' hsame => ?_
    obtain rfl := SendOrder.returned.inj hsame
    exact hgood.held clientOrderId order horder

end FtxOrderClient

/-! ## Runs -/

/-- The client, with the orders as they were sent. -/
structure SentOrders where
  client : FtxOrderClient
  sent : UInt64 → Option Order

namespace SentOrders

open FtxOrderClient

def init (referenceData : FtxReferenceData) : SentOrders :=
  ⟨.init referenceData, fun _ => none⟩

/-- The orders sent after a step. -/
def record (sent : UInt64 → Option Order) : Label → UInt64 → Option Order
  | .sendOrder clientOrderId order => Function.update sent clientOrderId (some order.toOrder)
  | _ => sent

def step (s : SentOrders) (label : Label) : Option SentOrders :=
  (s.client.step label).map fun client => ⟨client, record s.sent label⟩

/-- Every reader of an order sees the quantity it was sent with. -/
def QuantityConserved (s : SentOrders) : Prop := s.client.Conserves s.sent

def StepOk (s : SentOrders) : Label → Prop
  | .orderMessage message => Unfilled s.client s.sent message
  | _ => True

instance (s : SentOrders) : (label : Label) → Decidable (s.StepOk label)
  | .orderMessage message => inferInstanceAs (Decidable (Unfilled s.client s.sent message))
  | .sendOrder _ _ => .isTrue trivial
  | .response _ => .isTrue trivial
  | .requestError _ => .isTrue trivial
  | .expire _ => .isTrue trivial
  | .timerError _ => .isTrue trivial
  | .resume _ => .isTrue trivial

theorem step_exact {s s' : SentOrders} {label : Label} (h : s.client.Remains s.sent)
    (hgood : s.QuantityConserved) (hstep : s.step label = some s') :
    s'.client.Remains s'.sent ∧ (s'.QuantityConserved ↔ s.StepOk label) := by
  obtain ⟨client, hclient, rfl⟩ := Option.map_eq_some_iff.mp hstep
  cases label with
  | sendOrder clientOrderId order =>
    exact ⟨h.doSendOrder hclient, iff_of_true (hgood.doSendOrder h hclient) trivial⟩
  | response clientOrderId =>
    obtain ⟨-, rfl⟩ := step_response hclient
    exact ⟨h.setPending rfl, iff_of_true (hgood.setPending rfl) trivial⟩
  | requestError clientOrderId =>
    obtain rfl := step_requestError hclient
    exact ⟨(h.eraseOrder clientOrderId).setPending rfl,
      iff_of_true ((hgood.eraseOrder clientOrderId).setPending rfl) trivial⟩
  | orderMessage message => exact onOrderMessage_remains h hgood hclient
  | expire clientOrderId =>
    obtain ⟨-, rfl⟩ := step_expire hclient
    exact ⟨h.setPending rfl, iff_of_true (hgood.setPending rfl) trivial⟩
  | timerError clientOrderId =>
    obtain ⟨-, rfl⟩ := step_timerError hclient
    exact ⟨h.setPending rfl, iff_of_true (hgood.setPending rfl) trivial⟩
  | resume clientOrderId =>
    obtain ⟨h', hgood'⟩ := returns_remains h hgood (step_resume hclient)
    exact ⟨h', iff_of_true hgood' trivial⟩

/-- **Order quantities.** Over all interleavings of any number of orders: in
every state of a run the orders held, returned and published have the
quantity they were sent with, and of it remains what was not last reported as
filled, exactly when no message that finds its order reports a fill the order
was not sent with. -/
theorem conserves_iff {referenceData : FtxReferenceData} {labels : List Label} {t : SentOrders}
    (hrun : run step (init referenceData) labels = some t) :
    (∀ k u, run step (init referenceData) (labels.take k) = some u → u.QuantityConserved) ↔
      Along step StepOk (init referenceData) labels := by
  have hkeeps : ∀ (s : SentOrders) label s', s.client.Remains s.sent → s.QuantityConserved →
      s.StepOk label → s.step label = some s' → s'.client.Remains s'.sent :=
    fun _ _ _ h hgood _ hstep => (step_exact h hgood hstep).1
  have hexact : ∀ (s : SentOrders) label s', s.client.Remains s.sent → s.QuantityConserved →
      s.step label = some s' → (s'.QuantityConserved ↔ s.StepOk label) :=
    fun _ _ _ h hgood hstep => (step_exact h hgood hstep).2
  have hremains : (init referenceData).client.Remains (init referenceData).sent :=
    ⟨fun _ _ => ⟨rfl, rfl, rfl⟩, fun _ _ horder => by simp [init, FtxOrderClient.init] at horder,
      fun _ _ hcall => by simp [init, FtxOrderClient.init] at hcall⟩
  have hconserved : (init referenceData).QuantityConserved :=
    ⟨fun _ _ horder => by simp [init, FtxOrderClient.init] at horder,
      fun _ _ hcall => by simp [init, FtxOrderClient.init] at hcall, .nil⟩
  exact along_iff_prefixes hkeeps hexact hremains hconserved hrun

/-- The order is closed without a fill. -/
def closedUnfilled : List Label :=
  [.sendOrder 7 bidForFive, .orderMessage ⟨0, 0, .NEW, 31, 7⟩, .response 7,
    .orderMessage ⟨0, 0, .CLOSED, 31, 7⟩, .resume 7]

theorem conserves_iff_closedUnfilled :
    ∃ t, run step (init solUsdPair) closedUnfilled = some t ∧
      (t.client.published.map fun order => order.quantity) = [5, 5] ∧
      ∀ k u, run step (init solUsdPair) (closedUnfilled.take k) = some u →
        u.QuantityConserved := by
  have hstate : (run step (init solUsdPair) closedUnfilled).map (fun t =>
      t.client.published.map fun order => order.quantity) = some [5, 5] := by decide +kernel
  obtain ⟨t, ht, hpublished⟩ := Option.map_eq_some_iff.mp hstate
  exact ⟨t, ht, hpublished, (conserves_iff ht).mpr (by decide +kernel)⟩

/-- Of the bid for 5 first 3 are filled, then 5: the statistics say 5, 8 and
10, and the call returns an order for 10 of which 5 remain. -/
theorem conserves_fails :
    bidForFive.quantity = 5 ∧
    ∃ t order, run step (init solUsdPair) closedEarly = some t ∧
      (t.client.published.map fun order => order.quantity) = [5, 8, 10] ∧
      t.client.calls 7 = some (.returned order) ∧ order.fillQuantity = 5 ∧ order.quantity = 10 ∧
      order.remainingFillQuantity = 5 ∧ ¬ t.QuantityConserved := by
  have hsent : (run step (init solUsdPair) closedEarly).map (fun t => t.sent 7) =
      some (some bidForFive.toOrder) := by decide +kernel
  obtain ⟨t, ht, hsent⟩ := Option.map_eq_some_iff.mp hsent
  have hcall : (run step (init solUsdPair) closedEarly).map (fun t => t.client.calls 7) =
      some (some (.returned { bidForFive with
        orderId := 31
        clientOrderId := 7
        orderState := .CLOSED
        fillQuantity := 5
        averageFillPrice := some 99 })) := by decide +kernel
  have hpublished : (run step (init solUsdPair) closedEarly).map (fun t =>
      t.client.published.map fun order => order.quantity) = some [5, 8, 10] := by decide +kernel
  rw [ht, Option.map_some, Option.some.injEq] at hcall hpublished
  refine ⟨by decide +kernel, t, _, ht, hpublished, hcall, rfl, by decide +kernel, rfl, ?_⟩
  intro hconserved
  obtain ⟨sentOrder, hsent', hquantity, -⟩ := hconserved.returned 7 _ hcall
  obtain rfl := Option.some.inj (hsent.symm.trans hsent')
  exact absurd hquantity (by decide +kernel)

end SentOrders

end Synthfi.Ftx
