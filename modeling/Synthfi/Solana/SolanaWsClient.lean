/-
Synthfi.Solana.SolanaWsClient — delivering websocket notifications
(`Solana/SolanaWsClient/SolanaWsClientImpl.hpp`, `.cpp`).

A received notification is put into the slot `message` of its subscription
and the timer of the subscription is cancelled; `do_notify` waits for the
timer in a loop and hands the slot to the subscriber when its wait was
cancelled. All of it runs on one strand. A cancel ends a wait that has been
started and not ended; the coroutine resumes later, in a step of its own.

`received` and `delivered` are ghosts: the notifications decoded, and the
payloads passed to `onNotificationFn`. A payload `none` is a slot that holds
no notification, default-constructed or moved from.
-/
import Synthfi.Lib.Run
import Mathlib.Logic.Function.Basic

namespace Synthfi.Solana

variable {α : Type}

/-- Where `do_notify` stands. -/
inductive Notifier where
  /-- It has not been entered yet. -/
  | spawned
  | waiting
  /-- The wait was cancelled. -/
  | signalled
  /-- The timer expired. -/
  | expired
  /-- The wait ended with an error. -/
  | failed
  deriving DecidableEq, Repr

structure ActiveSubscription (α : Type) where
  message : Option α
  isCancelled : Bool
  notifier : Notifier
  received : List α
  delivered : List (Option α)
  deriving DecidableEq, Repr

namespace ActiveSubscription

/-- As `do_send_subscribe` makes it. -/
def registered : ActiveSubscription α := ⟨none, false, .spawned, [], []⟩

/-- `expiryTimer.cancel( )`. -/
def cancelTimer (subscription : ActiveSubscription α) : ActiveSubscription α :=
  if subscription.notifier = .waiting then { subscription with notifier := .signalled }
  else subscription

/-- `set_result` of a notification that decodes. -/
def setResult (subscription : ActiveSubscription α) (message : α) : ActiveSubscription α :=
  { subscription with
    message := some message
    received := subscription.received ++ [message] }

/-- `onNotificationFn( subscriptionId, std::move( message ) )`. -/
def deliver (subscription : ActiveSubscription α) : ActiveSubscription α :=
  { subscription with
    message := none
    notifier := .waiting
    delivered := subscription.delivered ++ [subscription.message] }

end ActiveSubscription

structure SolanaWsClient (α : Type) where
  activeSubscriptions : UInt64 → Option (ActiveSubscription α)
  /-- The subscriptions that were erased. -/
  removed : List (ActiveSubscription α)

namespace SolanaWsClient

def init : SolanaWsClient α := ⟨fun _ => none, []⟩

def put (s : SolanaWsClient α) (id : UInt64) (subscription : ActiveSubscription α) :
    SolanaWsClient α :=
  { s with activeSubscriptions := Function.update s.activeSubscriptions id (some subscription) }

/-- `_activeSubscriptions.erase( subscriptionId )`. -/
def erase (s : SolanaWsClient α) (id : UInt64) (subscription : ActiveSubscription α) :
    SolanaWsClient α :=
  { activeSubscriptions := Function.update s.activeSubscriptions id none
    removed := subscription :: s.removed }

inductive Label (α : Type) where
  /-- A subscription request was answered. -/
  | subscribed (id : UInt64)
  /-- `do_notify` is entered. -/
  | start (id : UInt64)
  /-- A notification, decoded or not. -/
  | notification (id : UInt64) (message : Option α)
  | expire (id : UInt64)
  | timerError (id : UInt64)
  /-- `do_notify` resumes. -/
  | resume (id : UInt64)
  | cancel (id : UInt64)

/-- `do_notify` from the end of its wait to its next wait or its return. -/
def doNotify (s : SolanaWsClient α) (id : UInt64) (subscription : ActiveSubscription α) :
    Option (SolanaWsClient α) :=
  match subscription.notifier with
  | .spawned => none
  | .waiting => none
  | .signalled =>
    if subscription.isCancelled then some (s.erase id subscription.deliver)
    else some (s.put id subscription.deliver)
  | .failed => some (s.erase id subscription)
  | .expired => some (s.put id { subscription with notifier := .waiting })

/-- The coroutine of a subscription, or its timer, moves on. -/
def moveNotifier (s : SolanaWsClient α) (id : UInt64) (source target : Notifier) :
    Option (SolanaWsClient α) :=
  match s.activeSubscriptions id with
  | some subscription =>
    if subscription.notifier = source then some (s.put id { subscription with notifier := target })
    else none
  | none => none

/-- An id that is active throws in `do_send_subscribe`, and one that is not
is logged by the handlers; neither changes anything. -/
def step (s : SolanaWsClient α) : Label α → Option (SolanaWsClient α)
  | .subscribed id =>
    match s.activeSubscriptions id with
    | none => some (s.put id .registered)
    | some _ => some s
  | .start id => s.moveNotifier id .spawned .waiting
  | .notification id (some message) =>
    match s.activeSubscriptions id with
    | some subscription => some (s.put id (subscription.setResult message).cancelTimer)
    | none => some s
  | .notification _ none => some s
  | .expire id => s.moveNotifier id .waiting .expired
  | .timerError id => s.moveNotifier id .waiting .failed
  | .resume id => (s.activeSubscriptions id).bind (s.doNotify id)
  | .cancel id =>
    match s.activeSubscriptions id with
    | some subscription => some (s.put id { subscription with isCancelled := true }.cancelTimer)
    | none => some s

end SolanaWsClient

end Synthfi.Solana
