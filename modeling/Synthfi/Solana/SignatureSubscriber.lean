/-
Synthfi.Solana.SignatureSubscriber — waiting for the outcome of a transaction
(`Solana/SignatureSubscriber/SignatureSubscriberImpl.{hpp,cpp}`, with the
parts of `Solana/SolanaWsClient` and `Solana/SolanaWsMessage.cpp` between the
socket and it).

A notification is decoded into the slot `message` of its subscription, and
the timer of `do_notify` is cancelled; `do_notify` moves the slot into a
coroutine of the subscriber, which puts it into the element that the call
waits at, cancels the timer of the element and asks for the subscription to
be cancelled. The two strands take turns in any order, and a wait that ended
resumes in a step of its own. The clock is a counter of nanoseconds; only the
timers the calls wait for are read against it.

`owners`, `arrivals` and the fields `arrival` and `deadline` are ghosts: whose
subscription the server gave an id last, the notifications it sent, which of
them a slot or a coroutine holds, and when the 30 seconds of a call are over.
-/
import Synthfi.Lib.PartialMap
import Synthfi.Solana.SolanaWsClient

namespace Synthfi.Solana

open PartialMap

/-- `value.err` of a notification. -/
inductive NotificationErr where
  | null
  | string (text : String)
  | object
  deriving DecidableEq, Repr

structure SignatureNotification where
  error : Option String
  deriving DecidableEq, Repr

/-- `json_to< SignatureNotification >`: `get_string` throws for an object. -/
def jsonToSignatureNotification : NotificationErr → Option SignatureNotification
  | .null => some ⟨none⟩
  | .string text => some ⟨some text⟩
  | .object => none

/-- A notification of the server, for the subscription of a call. -/
structure Arrival where
  call : ℕ
  subscriptionId : UInt64
  err : NotificationErr
  time : ℕ
  deriving DecidableEq, Repr

/-- `ActiveSubscription< SignatureNotification >`. -/
structure ActiveSignature where
  message : SignatureNotification
  isCancelled : Bool
  notifier : Notifier
  arrival : Option Arrival
  deriving DecidableEq, Repr

namespace ActiveSignature

/-- As `do_send_subscribe` makes it. -/
def registered : ActiveSignature := ⟨⟨none⟩, false, .spawned, none⟩

/-- `expiryTimer.cancel( )`. -/
def cancelTimer (subscription : ActiveSignature) : ActiveSignature :=
  if subscription.notifier = .waiting then { subscription with notifier := .signalled }
  else subscription

/-- `std::move( subscription->message )`: an error stays engaged, and what its
string is left with is unspecified. -/
def moved (subscription : ActiveSignature) (left : String) : ActiveSignature :=
  { subscription with message := ⟨subscription.message.error.map fun _ => left⟩, arrival := none }

end ActiveSignature

/-- An element of `_subscriptions`. -/
structure SignatureSubscription where
  expiry : ℕ
  notification : SignatureNotification
  deriving DecidableEq, Repr

/-- A coroutine `do_handle_signature_notification` that has been spawned. -/
structure SignatureHandler where
  subscriptionId : UInt64
  notification : SignatureNotification
  arrival : Option Arrival
  deriving DecidableEq, Repr

inductive SignatureError where
  | request
  /-- `Duplicate subscription ids are not supported`. -/
  | duplicate
  | timer
  | timedOut
  deriving DecidableEq, Repr

/-- Where a call of `do_signature_subscribe` stands. -/
inductive SignatureStatus where
  | requesting
  /-- The response has come; `do_send_subscribe` has not resumed yet. -/
  | answered (subscriptionId : UInt64)
  /-- The subscription is active; the call has not resumed yet. -/
  | registered (subscriptionId : UInt64)
  /-- It awaits the timer of its element. -/
  | waiting (subscriptionId : UInt64)
  /-- The timer was cancelled; it has not resumed yet. -/
  | cancelled (subscriptionId : UInt64)
  | expired (subscriptionId : UInt64)
  /-- The wait ended with another error. -/
  | failed (subscriptionId : UInt64)
  | returned (notification : SignatureNotification)
  | threw (error : SignatureError)
  deriving DecidableEq, Repr

structure SignatureCall where
  status : SignatureStatus
  deadline : Option ℕ
  deriving DecidableEq, Repr

structure SignatureSubscriber where
  now : ℕ
  callCount : ℕ
  calls : ℕ → Option SignatureCall
  activeSubscriptions : UInt64 → Option ActiveSignature
  subscriptions : UInt64 → Option SignatureSubscription
  handlers : List SignatureHandler
  /-- The coroutines `do_cancel` that have been spawned. -/
  cancels : List UInt64
  owners : UInt64 → Option ℕ
  arrivals : List Arrival

/-- 30 seconds. -/
def signatureTimeout : ℕ := 30000000000

namespace SignatureSubscriber

def init : SignatureSubscriber where
  now := 0
  callCount := 0
  calls _ := none
  activeSubscriptions _ := none
  subscriptions _ := none
  handlers := []
  cancels := []
  owners _ := none
  arrivals := []

variable (s : SignatureSubscriber)

def setCall (c : ℕ) (call : SignatureCall) : SignatureSubscriber :=
  { s with calls := Function.update s.calls c (some call) }

def putActive (id : UInt64) (subscription : Option ActiveSignature) : SignatureSubscriber :=
  { s with activeSubscriptions := Function.update s.activeSubscriptions id subscription }

/-! ## Subscribing -/

/-- A new call, up to its request. -/
def subscribe : SignatureSubscriber :=
  { s.setCall s.callCount ⟨.requesting, none⟩ with callCount := s.callCount + 1 }

/-- The server answers the request of a call. -/
def onResponse (c : ℕ) (call : SignatureCall) (id : UInt64) : SignatureSubscriber :=
  { s.setCall c { call with status := .answered id } with
    owners := Function.update s.owners id (some c) }

/-- `do_send_subscribe` after its request. -/
def doSendSubscribe (c : ℕ) (call : SignatureCall) (id : UInt64) : SignatureSubscriber :=
  match s.activeSubscriptions id with
  | none => (s.putActive id (some .registered)).setCall c { call with status := .registered id }
  | some _ => s.setCall c { call with status := .threw .duplicate }

/-- `do_signature_subscribe` after its subscription, up to its wait. An
element that is there stays as it is. -/
def doSignatureSubscribe (c : ℕ) (id : UInt64) : SignatureSubscriber :=
  { s.setCall c ⟨.waiting id, some (s.now + signatureTimeout)⟩ with
    subscriptions := emplace s.subscriptions id ⟨s.now + signatureTimeout, ⟨none⟩⟩ }

/-! ## Notifications -/

/-- What the server sends for an id, if the id is a call's. -/
def arrivalOf (id : UInt64) (err : NotificationErr) : Option Arrival :=
  (s.owners id).map fun c => ⟨c, id, err, s.now⟩

/-- The slot of an active subscription takes a notification, if it decodes. -/
def setResult (id : UInt64) (err : NotificationErr) (subscription : ActiveSignature) :
    ActiveSignature :=
  match jsonToSignatureNotification err with
  | none => subscription
  | some message => { subscription with message, arrival := s.arrivalOf id err }.cancelTimer

/-- `SolanaWsClientImpl::on_notification`. An id that is not active and an
exception are logged. -/
def onNotification (id : UInt64) (err : NotificationErr) : SignatureSubscriber :=
  { s with
    activeSubscriptions := Function.update s.activeSubscriptions id
      ((s.activeSubscriptions id).map (s.setResult id err))
    arrivals := (s.arrivalOf id err).toList ++ s.arrivals }

/-- `do_notify` from the end of its wait to its next wait or its return. -/
def doNotify (id : UInt64) (subscription : ActiveSignature) (left : String) :
    Option SignatureSubscriber :=
  match subscription.notifier with
  | .spawned => none
  | .waiting => none
  | .signalled =>
    let handler : SignatureHandler := ⟨id, subscription.message, subscription.arrival⟩
    let s : SignatureSubscriber := { s with handlers := s.handlers ++ [handler] }
    if subscription.isCancelled then some (s.putActive id none)
    else some (s.putActive id (some { subscription.moved left with notifier := .waiting }))
  | .failed => some (s.putActive id none)
  | .expired => some (s.putActive id (some { subscription with notifier := .waiting }))

/-- The calls that await the timer of an element are woken. -/
def wake (id : UInt64) (call : SignatureCall) : SignatureCall :=
  if call.status = .waiting id then { call with status := .cancelled id } else call

/-- `do_handle_signature_notification` up to the cancellation it asks for. -/
def doHandleSignatureNotification (handler : SignatureHandler) : SignatureSubscriber :=
  match s.subscriptions handler.subscriptionId with
  | none => s
  | some subscription =>
    { s with
      subscriptions := Function.update s.subscriptions handler.subscriptionId
        (some { subscription with notification := handler.notification })
      calls := fun c => (s.calls c).map (wake handler.subscriptionId)
      -- On signatureNotification, the subscription is automatically cancelled.
      cancels := s.cancels ++ [handler.subscriptionId] }

def doCancel (id : UInt64) : SignatureSubscriber :=
  match s.activeSubscriptions id with
  | none => s
  | some subscription =>
    s.putActive id (some { subscription with isCancelled := true }.cancelTimer)

/-! ## Steps -/

inductive Label where
  | subscribe
  | requestFails (c : ℕ)
  | response (c : ℕ) (id : UInt64)
  /-- `do_send_subscribe` of a call resumes. -/
  | register (c : ℕ)
  /-- A call resumes after its subscription. -/
  | emplace (c : ℕ)
  | notification (id : UInt64) (err : NotificationErr)
  /-- `do_notify` is entered. -/
  | start (id : UInt64)
  | notifyExpires (id : UInt64)
  | notifyError (id : UInt64)
  /-- `do_notify` resumes. -/
  | notify (id : UInt64) (left : String)
  /-- The coroutine at place `k` runs. -/
  | handle (k : ℕ)
  | cancel (k : ℕ)
  /-- The timer that a call waits for expires. -/
  | expire (c : ℕ)
  | timerError (c : ℕ)
  /-- A call resumes after its wait. -/
  | resume (c : ℕ)
  | tick (elapsed : ℕ)
  deriving DecidableEq

/-- The coroutine of an active subscription, or its timer, moves on. -/
def moveNotifier (id : UInt64) (source target : Notifier) : Option SignatureSubscriber :=
  (s.activeSubscriptions id).bind fun subscription =>
    if subscription.notifier = source then
      some (s.putActive id (some { subscription with notifier := target }))
    else none

/-- A call after its wait. -/
def afterWait (c : ℕ) (call : SignatureCall) : Option SignatureSubscriber :=
  match call.status with
  | .cancelled id => (s.subscriptions id).map fun subscription =>
    s.setCall c { call with status := .returned subscription.notification }
  | .expired _ => some (s.setCall c { call with status := .threw .timedOut })
  | .failed _ => some (s.setCall c { call with status := .threw .timer })
  | _ => none

/-- What a call does at a label of its own. -/
def stepCall (c : ℕ) (call : SignatureCall) : Label → Option SignatureSubscriber
  | .requestFails _ =>
    if call.status = .requesting then some (s.setCall c { call with status := .threw .request })
    else none
  | .response _ id =>
    if call.status = .requesting then some (s.onResponse c call id) else none
  | .register _ =>
    match call.status with
    | .answered id => some (s.doSendSubscribe c call id)
    | _ => none
  | .emplace _ =>
    match call.status with
    | .registered id => some (s.doSignatureSubscribe c id)
    | _ => none
  | .expire _ =>
    match call.status with
    | .waiting id => (s.subscriptions id).bind fun subscription =>
      if subscription.expiry ≤ s.now then some (s.setCall c { call with status := .expired id })
      else none
    | _ => none
  | .timerError _ =>
    match call.status with
    | .waiting id => some (s.setCall c { call with status := .failed id })
    | _ => none
  | .resume _ => s.afterWait c call
  | _ => none

def step (s : SignatureSubscriber) (label : Label) : Option SignatureSubscriber :=
  match label with
  | .subscribe => some s.subscribe
  | .requestFails c | .response c _ | .register c | .emplace c | .expire c | .timerError c
  | .resume c => (s.calls c).bind fun call => s.stepCall c call label
  | .notification id err => some (s.onNotification id err)
  | .start id => s.moveNotifier id .spawned .waiting
  | .notifyExpires id => s.moveNotifier id .waiting .expired
  | .notifyError id => s.moveNotifier id .waiting .failed
  | .notify id left => (s.activeSubscriptions id).bind fun subscription =>
    s.doNotify id subscription left
  | .handle k => s.handlers[k]?.map fun handler =>
    { s with handlers := s.handlers.eraseIdx k }.doHandleSignatureNotification handler
  | .cancel k => s.cancels[k]?.map fun id => { s with cancels := s.cancels.eraseIdx k }.doCancel id
  | .tick elapsed => some { s with now := s.now + elapsed }

end SignatureSubscriber

end Synthfi.Solana
