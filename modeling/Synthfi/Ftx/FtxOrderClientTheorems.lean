/-
Synthfi.Ftx.FtxOrderClientTheorems — how an order ends.

`do_send_order` takes the end of its wait for the end of the order. The wait
ends when a CLOSED message cancels the timer, and also when the timer
expires; and what is returned is the order at the time the call resumes.
`OrderOutcomes` is what a caller is to rely on; `orderOutcomes_iff` finds,
over all interleavings, the runs that keep it: every call resumes with a
CLOSED message as the last one for its order, and no wait fails.
-/
import Synthfi.Ftx.FtxOrderClient
import Synthfi.Lib.PartialMap

namespace Synthfi.Ftx

open Run Trading PartialMap

/-- The call has returned or thrown. -/
def SendOrder.Ended : SendOrder → Prop
  | .returned _ => True
  | .threw => True
  | _ => False

def FtxOrderStatus.toOrderState : FtxOrderStatus → OrderState
  | .INVALID => .INVALID
  | .NEW => .NEW
  | .OPEN => .OPEN
  | .CLOSED => .CLOSED

namespace FtxOrderClient

variable {s s' t : FtxOrderClient}

/-- A CLOSED message for the order was handled, and the order is as that
message reports it. -/
structure Closed (handled : List FtxOrderMessage) (clientOrderId : UInt64) (order : TrackedOrder) :
    Prop where
  state : order.orderState = .CLOSED
  reported : ∃ message ∈ handled, message.clientOrderId = clientOrderId ∧
    message.orderStatus = .CLOSED ∧ order.fillQuantity = message.fillQuantity ∧
    order.averageFillPrice = some message.averageFillPrice

/-- A call that returned normally returned a closed order, and no call that
has ended leaves its order in `_orders`. -/
structure OrderOutcomes (s : FtxOrderClient) : Prop where
  closed : ∀ clientOrderId order, s.calls clientOrderId = some (.returned order) →
    Closed s.handled clientOrderId order
  erased : ∀ clientOrderId call, s.calls clientOrderId = some call → call.Ended →
    s.orders clientOrderId = none

/-- The last message handled for an order. -/
def lastMessage (s : FtxOrderClient) (clientOrderId : UInt64) : Option FtxOrderMessage :=
  s.handled.find? fun message => message.clientOrderId = clientOrderId

/-- The steps that keep `OrderOutcomes`. -/
def StepOk (s : FtxOrderClient) : Label → Prop
  | .resume clientOrderId =>
    (s.lastMessage clientOrderId).map FtxOrderMessage.orderStatus = some .CLOSED
  | .timerError _ => False
  | _ => True

instance (s : FtxOrderClient) (label : Label) : Decidable (s.StepOk label) := by
  unfold StepOk
  split <;> infer_instance

/-- The order stands as a message reports it. -/
structure Reports (message : FtxOrderMessage) (order : TrackedOrder) : Prop where
  state : order.orderState = message.orderStatus.toOrderState
  fillQuantity : order.fillQuantity = message.fillQuantity
  averageFillPrice : order.averageFillPrice = some message.averageFillPrice

/-- Every order stands as its last message reports it. -/
structure Tracks (s : FtxOrderClient) : Prop where
  unused : ∀ clientOrderId, s.calls clientOrderId = none →
    s.orders clientOrderId = none ∧ s.lastMessage clientOrderId = none
  pending : ∀ clientOrderId call, s.calls clientOrderId = some call → ¬ call.Ended →
    ∃ order, s.orders clientOrderId = some order
  reports : ∀ clientOrderId order, s.orders clientOrderId = some order →
    ∀ message, s.lastMessage clientOrderId = some message → Reports message order

/-! ## What a step can do -/

/-- An order that is sent is held, and its call is new. -/
theorem doSendOrder_eq_some {clientOrderId : UInt64} {order : TrackedOrder}
    (hstep : s.doSendOrder clientOrderId order = some s') :
    s.calls clientOrderId = none ∧ ∃ request,
      s' = { s with
        orders := Function.update s.orders clientOrderId (some { order with clientOrderId })
          }.setCall clientOrderId (.requesting request) := by
  simp only [doSendOrder, Option.bind_eq_bind, Option.bind_eq_some_iff] at hstep
  obtain ⟨tradingPair, -, hstep⟩ := hstep
  obtain ⟨⟨-, hnew⟩, hstep⟩ := Option.ite_none_right_eq_some.mp hstep
  obtain rfl := Option.some.inj hstep
  exact ⟨hnew, _, rfl⟩

/-- The order is unlisted under the id it has now. -/
theorem returns_eq_some {clientOrderId : UInt64} (hstep : s.returns clientOrderId = some s') :
    ∃ order, s.orders clientOrderId = some order ∧
      s' = ({ s with
        exchangeOrderIdMap := Function.update s.exchangeOrderIdMap order.orderId none
          }.eraseOrder clientOrderId).setCall clientOrderId (.returned order) := by
  simp only [returns, Option.bind_eq_bind, Option.bind_eq_some_iff] at hstep
  obtain ⟨order, horder, hstep⟩ := hstep
  obtain rfl := Option.some.inj hstep
  exact ⟨order, horder, rfl⟩

/-- A message for an order that is held updates it as its status says. -/
theorem onOrderMessage_cases {message : FtxOrderMessage}
    (hstep : s.onOrderMessage message = some s') :
    (s.orders message.clientOrderId = none ∧ s' = s) ∨
      ∃ order, s.orders message.clientOrderId = some order ∧
        ((message.orderStatus = .NEW ∧
            s' = { s with
              exchangeOrderIdMap := Function.update s.exchangeOrderIdMap message.orderId
                (some ((s.exchangeOrderIdMap message.orderId).getD message.clientOrderId))
              }.update message (report message .NEW { order with orderId := message.orderId })) ∨
          (message.orderStatus = .OPEN ∧ s' = s.update message (report message .OPEN order)) ∨
          (message.orderStatus = .CLOSED ∧
            s' = (s.update message (report message .CLOSED order)).cancelTimer
              message.clientOrderId)) := by
  unfold onOrderMessage at hstep
  cases horder : s.orders message.clientOrderId with
  | none =>
    rw [horder] at hstep
    exact .inl ⟨rfl, (Option.some.inj hstep).symm⟩
  | some order =>
    refine .inr ⟨order, rfl, ?_⟩
    rw [horder] at hstep
    cases hstatus : message.orderStatus with
    | NEW =>
      simp only [hstatus, Option.some.injEq] at hstep
      exact .inl ⟨rfl, hstep.symm⟩
    | OPEN =>
      simp only [hstatus, Option.some.injEq] at hstep
      exact .inr (.inl ⟨rfl, hstep.symm⟩)
    | CLOSED =>
      simp only [hstatus, Option.some.injEq] at hstep
      exact .inr (.inr ⟨rfl, hstep.symm⟩)
    | INVALID => simp [hstatus] at hstep

theorem step_response {clientOrderId : UInt64}
    (hstep : s.step (.response clientOrderId) = some s') :
    (∃ request, s.calls clientOrderId = some (.requesting request)) ∧
      s' = s.setCall clientOrderId .waiting := by
  simp only [step] at hstep
  split at hstep
  · next request hcall => exact ⟨⟨request, hcall⟩, (Option.some.inj hstep).symm⟩
  · cases hstep

theorem step_requestError {clientOrderId : UInt64}
    (hstep : s.step (.requestError clientOrderId) = some s') :
    s' = (s.eraseOrder clientOrderId).setCall clientOrderId .threw := by
  simp only [step] at hstep
  split at hstep
  · exact (Option.some.inj hstep).symm
  · cases hstep

theorem step_expire {clientOrderId : UInt64} (hstep : s.step (.expire clientOrderId) = some s') :
    s.calls clientOrderId = some .waiting ∧ s' = s.setCall clientOrderId .expired := by
  simp only [step] at hstep
  split at hstep
  · next hcall => exact ⟨hcall, (Option.some.inj hstep).symm⟩
  · cases hstep

theorem step_timerError {clientOrderId : UInt64}
    (hstep : s.step (.timerError clientOrderId) = some s') :
    s.calls clientOrderId = some .waiting ∧ s' = s.setCall clientOrderId .threw := by
  simp only [step] at hstep
  split at hstep
  · next hcall => exact ⟨hcall, (Option.some.inj hstep).symm⟩
  · cases hstep

/-- Cancelled or expired, a call resumes the same way. -/
theorem step_resume {clientOrderId : UInt64} (hstep : s.step (.resume clientOrderId) = some s') :
    s.returns clientOrderId = some s' := by
  simp only [step] at hstep
  split at hstep
  · exact hstep
  · exact hstep
  · cases hstep

/-! ## What an operation leaves -/

theorem lastMessage_setCall (clientOrderId : UInt64) (call : SendOrder) (clientOrderId' : UInt64) :
    (s.setCall clientOrderId call).lastMessage clientOrderId' = s.lastMessage clientOrderId' := rfl

theorem lastMessage_update (message : FtxOrderMessage) (order : TrackedOrder)
    (clientOrderId : UInt64) :
    (s.update message order).lastMessage clientOrderId =
      if message.clientOrderId = clientOrderId then some message
      else s.lastMessage clientOrderId := by
  by_cases h : message.clientOrderId = clientOrderId <;> simp [lastMessage, update, h]

theorem Closed.cons {handled : List FtxOrderMessage} {clientOrderId : UInt64}
    {order : TrackedOrder} (h : Closed handled clientOrderId order) (message : FtxOrderMessage) :
    Closed (message :: handled) clientOrderId order := by
  obtain ⟨hstate, last, hmem, hlast⟩ := h
  exact ⟨hstate, last, List.mem_cons_of_mem message hmem, hlast⟩

theorem toOrderState_eq_closed {status : FtxOrderStatus} :
    status.toOrderState = .CLOSED ↔ status = .CLOSED := by
  cases status <;> simp [FtxOrderStatus.toOrderState]

/-- An order that is still held is closed when its last message says so. -/
theorem Tracks.closed_iff (h : s.Tracks) {clientOrderId : UInt64} {order : TrackedOrder}
    (horder : s.orders clientOrderId = some order) :
    Closed s.handled clientOrderId order ↔
      (s.lastMessage clientOrderId).map FtxOrderMessage.orderStatus = some .CLOSED := by
  rw [Option.map_eq_some_iff]
  constructor
  · rintro ⟨hstate, message, hmem, hid, -⟩
    have hsome : (s.lastMessage clientOrderId).isSome :=
      List.find?_isSome.mpr ⟨message, hmem, by simpa using hid⟩
    obtain ⟨last, hlast⟩ := Option.isSome_iff_exists.mp hsome
    have hreports := h.reports clientOrderId order horder last hlast
    exact ⟨last, hlast, toOrderState_eq_closed.mp (hreports.state.symm.trans hstate)⟩
  · rintro ⟨last, hlast, hstatus⟩
    have hreports := h.reports clientOrderId order horder last hlast
    exact ⟨hreports.state.trans (toOrderState_eq_closed.mpr hstatus), last,
      List.mem_of_find?_eq_some hlast, by simpa using List.find?_some hlast, hstatus,
      hreports.fillQuantity, hreports.averageFillPrice⟩

/-- Neither depends on the map of the exchange's ids. -/
theorem Tracks.withExchangeOrderIdMap (h : s.Tracks) (exchangeOrderIdMap : UInt64 → Option UInt64) :
    Tracks { s with exchangeOrderIdMap } := ⟨h.unused, h.pending, h.reports⟩

theorem OrderOutcomes.withExchangeOrderIdMap (h : s.OrderOutcomes)
    (exchangeOrderIdMap : UInt64 → Option UInt64) : OrderOutcomes { s with exchangeOrderIdMap } :=
  ⟨h.closed, h.erased⟩

/-! ## Calls -/

theorem Tracks.setCall (h : s.Tracks) {clientOrderId : UInt64} {call : SendOrder}
    (hcall : call.Ended ∨ ∃ order, s.orders clientOrderId = some order) :
    (s.setCall clientOrderId call).Tracks where
  unused clientOrderId' hnone := h.unused clientOrderId' (update_some_eq_none.mp hnone).2
  pending := by
    refine forall_update_some h.pending fun hnot => ?_
    exact hcall.resolve_left hnot
  reports := h.reports

/-- A call that has not ended promises nothing yet. -/
theorem OrderOutcomes.setCall (h : s.OrderOutcomes) {clientOrderId : UInt64} {call : SendOrder}
    (hcall : ¬ call.Ended) : (s.setCall clientOrderId call).OrderOutcomes where
  closed clientOrderId' order hreturned := by
    obtain ⟨-, rfl⟩ | ⟨-, hold⟩ := update_some_eq_some.mp hreturned
    · exact absurd trivial hcall
    · exact h.closed clientOrderId' order hold
  erased := forall_update_some h.erased fun hended => absurd hended hcall

/-- A call that ends with an exception is to have erased its order. -/
theorem orderOutcomes_threw (h : s.OrderOutcomes) (clientOrderId : UInt64) :
    (s.setCall clientOrderId .threw).OrderOutcomes ↔ s.orders clientOrderId = none := by
  constructor
  · intro h'
    exact h'.erased clientOrderId .threw (Function.update_self ..) trivial
  · intro hnone
    refine ⟨fun clientOrderId' order hreturned => ?_, forall_update_some h.erased fun _ => hnone⟩
    obtain ⟨-, hcall⟩ | ⟨-, hold⟩ := update_some_eq_some.mp hreturned
    · cases hcall
    · exact h.closed clientOrderId' order hold

/-- A call that returns is to return a closed order and to have erased it. -/
theorem orderOutcomes_returned (h : s.OrderOutcomes) (clientOrderId : UInt64)
    (order : TrackedOrder) (hnone : s.orders clientOrderId = none) :
    (s.setCall clientOrderId (.returned order)).OrderOutcomes ↔
      Closed s.handled clientOrderId order := by
  constructor
  · intro h'
    exact h'.closed clientOrderId order (Function.update_self ..)
  · intro hclosed
    refine ⟨fun clientOrderId' order' hreturned => ?_, forall_update_some h.erased fun _ => hnone⟩
    obtain ⟨rfl, hcall⟩ | ⟨-, hold⟩ := update_some_eq_some.mp hreturned
    · cases hcall
      exact hclosed
    · exact h.closed clientOrderId' order' hold

/-- Erasing an order whose call is about to end. -/
theorem Tracks.eraseOrder (h : s.Tracks) {clientOrderId : UInt64} {call : SendOrder}
    (hcall : call.Ended) : ((s.eraseOrder clientOrderId).setCall clientOrderId call).Tracks where
  unused clientOrderId' hnone := by
    have h' : (s.setCall clientOrderId call).Tracks := h.setCall (.inl hcall)
    obtain ⟨horder, hlast⟩ := h'.unused clientOrderId' hnone
    exact ⟨update_none_of_eq_none horder clientOrderId, hlast⟩
  pending clientOrderId' call' hcall' hnot := by
    obtain ⟨-, rfl⟩ | ⟨hne, hold⟩ := update_some_eq_some.mp hcall'
    · exact absurd hcall hnot
    · obtain ⟨order, horder⟩ := h.pending clientOrderId' call' hold hnot
      exact ⟨order, (Function.update_of_ne hne ..).trans horder⟩
  reports clientOrderId' order horder :=
    h.reports clientOrderId' order (update_none_eq_some.mp horder).2

theorem OrderOutcomes.eraseOrder (h : s.OrderOutcomes) (clientOrderId : UInt64) :
    (s.eraseOrder clientOrderId).OrderOutcomes where
  closed := h.closed
  erased clientOrderId' call hcall hended :=
    update_none_of_eq_none (h.erased clientOrderId' call hcall hended) clientOrderId

/-! ## Orders and their messages -/

/-- A new order has no message yet. -/
theorem tracks_doSendOrder (h : s.Tracks) {clientOrderId : UInt64} {order : TrackedOrder}
    (hstep : s.doSendOrder clientOrderId order = some s') : s'.Tracks := by
  obtain ⟨hnew, request, rfl⟩ := doSendOrder_eq_some hstep
  have hlast := (h.unused clientOrderId hnew).2
  refine ⟨fun clientOrderId' hnone => ?_, ?_, ?_⟩
  · obtain ⟨hne, hold⟩ := update_some_eq_none.mp hnone
    obtain ⟨horder, hlast'⟩ := h.unused clientOrderId' hold
    exact ⟨(Function.update_of_ne hne ..).trans horder, hlast'⟩
  · intro clientOrderId' call hcall hnot
    obtain ⟨rfl, -⟩ | ⟨hne, hold⟩ := update_some_eq_some.mp hcall
    · exact ⟨_, Function.update_self ..⟩
    · obtain ⟨order', horder'⟩ := h.pending clientOrderId' call hold hnot
      exact ⟨order', (Function.update_of_ne hne ..).trans horder'⟩
  · refine forall_update_some h.reports fun message hmessage => ?_
    rw [lastMessage_setCall] at hmessage
    cases hlast.symm.trans hmessage

theorem OrderOutcomes.putOrder (h : s.OrderOutcomes) {clientOrderId : UInt64}
    (hnew : s.calls clientOrderId = none) (order : TrackedOrder) :
    OrderOutcomes { s with orders := Function.update s.orders clientOrderId (some order) } where
  closed := h.closed
  erased clientOrderId' call hcall hended := by
    have hne : clientOrderId' ≠ clientOrderId := by
      rintro rfl
      cases hnew.symm.trans hcall
    exact (Function.update_of_ne hne ..).trans (h.erased clientOrderId' call hcall hended)

theorem orderOutcomes_doSendOrder (h : s.OrderOutcomes) {clientOrderId : UInt64}
    {order : TrackedOrder} (hstep : s.doSendOrder clientOrderId order = some s') :
    s'.OrderOutcomes := by
  obtain ⟨hnew, request, rfl⟩ := doSendOrder_eq_some hstep
  exact (h.putOrder hnew _).setCall id

theorem reports_report {message : FtxOrderMessage} {status : FtxOrderStatus}
    (h : message.orderStatus = status) (order : TrackedOrder) :
    Reports message (report message status.toOrderState order) :=
  ⟨by rw [h]; rfl, rfl, rfl⟩

theorem Tracks.update (h : s.Tracks) {message : FtxOrderMessage} {old order : TrackedOrder}
    (hold : s.orders message.clientOrderId = some old) (hreports : Reports message order) :
    (s.update message order).Tracks where
  unused clientOrderId hnone := by
    obtain ⟨horder, hlast⟩ := h.unused clientOrderId hnone
    have hne : clientOrderId ≠ message.clientOrderId := by
      rintro rfl
      cases hold.symm.trans horder
    refine ⟨(Function.update_of_ne hne ..).trans horder, ?_⟩
    rw [lastMessage_update, if_neg (Ne.symm hne), hlast]
  pending clientOrderId call hcall hnot := by
    by_cases heq : clientOrderId = message.clientOrderId
    · subst heq
      exact ⟨order, Function.update_self ..⟩
    · obtain ⟨order', horder'⟩ := h.pending clientOrderId call hcall hnot
      exact ⟨order', (Function.update_of_ne heq ..).trans horder'⟩
  reports clientOrderId order' horder' last hlast := by
    rw [lastMessage_update] at hlast
    obtain ⟨rfl, rfl⟩ | ⟨hne, horder⟩ := update_some_eq_some.mp horder'
    · rw [if_pos rfl] at hlast
      cases hlast
      exact hreports
    · rw [if_neg (Ne.symm hne)] at hlast
      exact h.reports clientOrderId order' horder last hlast

theorem OrderOutcomes.update (h : s.OrderOutcomes) {message : FtxOrderMessage}
    {old : TrackedOrder} (hold : s.orders message.clientOrderId = some old)
    (order : TrackedOrder) : (s.update message order).OrderOutcomes where
  closed clientOrderId order' hreturned :=
    (h.closed clientOrderId order' hreturned).cons message
  erased clientOrderId call hcall hended := by
    have hnone := h.erased clientOrderId call hcall hended
    have hne : clientOrderId ≠ message.clientOrderId := by
      rintro rfl
      cases hold.symm.trans hnone
    exact (Function.update_of_ne hne ..).trans hnone

theorem cancelTimer_preserves (h : s.Tracks) (hgood : s.OrderOutcomes) (clientOrderId : UInt64) :
    (s.cancelTimer clientOrderId).Tracks ∧ (s.cancelTimer clientOrderId).OrderOutcomes := by
  unfold cancelTimer
  split
  · next hwaiting =>
    exact ⟨h.setCall (.inr (h.pending clientOrderId .waiting hwaiting id)), hgood.setCall id⟩
  · exact ⟨h, hgood⟩

/-- No order message breaks the outcome of a call that has ended. -/
theorem onOrderMessage_preserves (h : s.Tracks) (hgood : s.OrderOutcomes)
    {message : FtxOrderMessage} (hstep : s.onOrderMessage message = some s') :
    s'.Tracks ∧ s'.OrderOutcomes := by
  obtain ⟨-, rfl⟩ | ⟨order, horder, hcases⟩ := onOrderMessage_cases hstep
  · exact ⟨h, hgood⟩
  · obtain ⟨hstatus, rfl⟩ | ⟨hstatus, rfl⟩ | ⟨hstatus, rfl⟩ := hcases
    · have hreports := reports_report hstatus { order with orderId := message.orderId }
      let exchangeOrderIdMap := Function.update s.exchangeOrderIdMap message.orderId
        (some ((s.exchangeOrderIdMap message.orderId).getD message.clientOrderId))
      exact ⟨(h.withExchangeOrderIdMap exchangeOrderIdMap).update horder hreports,
        (hgood.withExchangeOrderIdMap exchangeOrderIdMap).update horder _⟩
    · have hreports := reports_report hstatus order
      exact ⟨h.update horder hreports, hgood.update horder _⟩
    · have hreports := reports_report hstatus order
      exact cancelTimer_preserves (h.update horder hreports) (hgood.update horder _) _

/-- A call that resumes returns its order, which is closed if the last
message for it says so. -/
theorem returns_exact (h : s.Tracks) (hgood : s.OrderOutcomes) {clientOrderId : UInt64}
    (hstep : s.returns clientOrderId = some s') :
    s'.Tracks ∧ (s'.OrderOutcomes ↔ s.StepOk (.resume clientOrderId)) := by
  obtain ⟨order, horder, rfl⟩ := returns_eq_some hstep
  have hended : (SendOrder.returned order).Ended := trivial
  refine ⟨(h.withExchangeOrderIdMap _).eraseOrder hended, ?_⟩
  have hgood' := (hgood.withExchangeOrderIdMap
    (Function.update s.exchangeOrderIdMap order.orderId none)).eraseOrder clientOrderId
  exact (orderOutcomes_returned hgood' clientOrderId order (Function.update_self ..)).trans
    (h.closed_iff horder)

/-! ## Runs -/

/-- What a step leads to from a state where all outcomes are as promised. -/
theorem step_exact {label : Label} (h : s.Tracks) (hgood : s.OrderOutcomes)
    (hstep : s.step label = some s') : s'.Tracks ∧ (s'.OrderOutcomes ↔ s.StepOk label) := by
  cases label with
  | sendOrder clientOrderId order =>
    exact ⟨tracks_doSendOrder h hstep, iff_of_true (orderOutcomes_doSendOrder hgood hstep) trivial⟩
  | response clientOrderId =>
    obtain ⟨⟨request, hcall⟩, rfl⟩ := step_response hstep
    exact ⟨h.setCall (.inr (h.pending clientOrderId _ hcall id)),
      iff_of_true (hgood.setCall id) trivial⟩
  | requestError clientOrderId =>
    obtain rfl := step_requestError hstep
    refine ⟨h.eraseOrder trivial, iff_of_true ?_ trivial⟩
    exact (orderOutcomes_threw (hgood.eraseOrder _) _).mpr (Function.update_self ..)
  | orderMessage message =>
    obtain ⟨h', hgood'⟩ := onOrderMessage_preserves h hgood hstep
    exact ⟨h', iff_of_true hgood' trivial⟩
  | expire clientOrderId =>
    obtain ⟨hcall, rfl⟩ := step_expire hstep
    exact ⟨h.setCall (.inr (h.pending clientOrderId _ hcall id)),
      iff_of_true (hgood.setCall id) trivial⟩
  | timerError clientOrderId =>
    obtain ⟨hcall, rfl⟩ := step_timerError hstep
    refine ⟨h.setCall (.inl trivial), (orderOutcomes_threw hgood _).trans ?_⟩
    obtain ⟨order, horder⟩ := h.pending clientOrderId _ hcall id
    simp [StepOk, horder]
  | resume clientOrderId => exact returns_exact h hgood (step_resume hstep)

/-- **Order outcomes.** Over all interleavings of any number of orders: in
every state of a run the calls that have returned returned a closed order, as
a CLOSED message reported it, and no call that has ended left its order
behind, exactly when every step of the run is `StepOk`. -/
theorem orderOutcomes_iff {referenceData : FtxReferenceData} {labels : List Label}
    (hrun : run step (init referenceData) labels = some t) :
    (∀ k u, run step (init referenceData) (labels.take k) = some u → u.OrderOutcomes) ↔
      Along step StepOk (init referenceData) labels := by
  refine along_iff_prefixes (fun _ _ _ h hgood _ hstep => (step_exact h hgood hstep).1)
    (fun _ _ _ h hgood hstep => (step_exact h hgood hstep).2) ?_ ?_ hrun
  · exact ⟨fun _ _ => ⟨rfl, rfl⟩, fun _ _ hcall => by simp [init] at hcall,
      fun _ _ horder => by simp [init] at horder⟩
  · exact ⟨fun _ _ hcall => by simp [init] at hcall, fun _ _ hcall => by simp [init] at hcall⟩

/-- One pair, SOL against USD. -/
def solUsdPair : FtxReferenceData := ⟨[⟨⟨1 / 10, "SOL", "SOL/USD"⟩⟩], [⟨"SOL"⟩, ⟨"USD"⟩]⟩

/-- A bid for 5 SOL at 100. -/
def bidForFive : TrackedOrder := (Order.create 100 5 .bid .immediateOrCancel 0).tracked

/-- The order is reported, and closed before the answer to the request. -/
def closedEarly : List Label :=
  [.sendOrder 7 bidForFive, .orderMessage ⟨0, 0, .NEW, 31, 7⟩, .orderMessage ⟨3, 99, .OPEN, 31, 7⟩,
    .orderMessage ⟨5, 99, .CLOSED, 31, 7⟩, .response 7, .expire 7, .resume 7]

theorem orderOutcomes_iff_closedEarly :
    ∃ t, run step (init solUsdPair) closedEarly = some t ∧
      (t.calls 7 = some (.returned { bidForFive with
        orderId := 31
        clientOrderId := 7
        orderState := .CLOSED
        fillQuantity := 5
        averageFillPrice := some 99 }) ∧ t.orders 7 = none) ∧
      ∀ k u, run step (init solUsdPair) (closedEarly.take k) = some u → u.OrderOutcomes := by
  have hstate : (run step (init solUsdPair) closedEarly).map (fun t => (t.calls 7, t.orders 7)) =
      some (some (.returned { bidForFive with
        orderId := 31
        clientOrderId := 7
        orderState := .CLOSED
        fillQuantity := 5
        averageFillPrice := some 99 }), none) := by decide +kernel
  obtain ⟨t, ht, hstate⟩ := Option.map_eq_some_iff.mp hstate
  rw [Prod.mk.injEq] at hstate
  exact ⟨t, ht, hstate, (orderOutcomes_iff ht).mpr (by decide +kernel)⟩

/-- Nothing is reported of the order, and the timer expires. -/
def timedOut : List Label := [.sendOrder 7 bidForFive, .response 7, .expire 7, .resume 7]

/-- The call returns normally, with the order as it was sent. -/
theorem orderOutcomes_fails :
    ∃ t, run step (init solUsdPair) timedOut = some t ∧
      t.calls 7 = some (.returned { bidForFive with clientOrderId := 7 }) ∧
      t.handled = [] ∧ ¬ t.OrderOutcomes := by
  have hstate : (run step (init solUsdPair) timedOut).map (fun t => (t.calls 7, t.handled)) =
      some (some (.returned { bidForFive with clientOrderId := 7 }), []) := by decide +kernel
  obtain ⟨t, ht, hstate⟩ := Option.map_eq_some_iff.mp hstate
  rw [Prod.mk.injEq] at hstate
  obtain ⟨hcall, hhandled⟩ := hstate
  refine ⟨t, ht, hcall, hhandled, fun hgood => ?_⟩
  obtain ⟨message, hmem, -⟩ := (hgood.closed 7 _ hcall).reported
  simp [hhandled] at hmem

end FtxOrderClient

end Synthfi.Ftx
