/-
Synthfi.Solana.AccountSubscriber — sharing account subscriptions
(`Solana/AccountSubscriber/AccountSubscriberImpl.cpp`).

The calls of `account_subscribe` are coroutines on one strand; each is kept
with its key and the point where it stands. A callback is named by the
number of the call that passed it. `_accountToCallback` holds pointers into
`_subscriptions`, here the id the pointer leads to.

The answer of the websocket client and the timer of a pending subscription
are outside: labels name what they do. `responses` is a ghost: the
subscription id each answered key was given.
-/
import Synthfi.Lib.Run
import Synthfi.Core.KeyPair

namespace Synthfi.Solana

open Synthfi.Core

inductive Commitment where
  | invalid
  | finalized
  | confirmed
  | processed
  deriving DecidableEq, Repr

/-- An account and a commitment. -/
abbrev SubscriptionKey := PublicKey × Commitment

/-- Where a call of `account_subscribe` stands. -/
inductive CallStatus where
  /-- It awaits the answer to its subscription request. -/
  | requesting
  /-- It awaits the timer of a pending subscription. -/
  | waiting
  /-- The timer was cancelled; it has not resumed yet. -/
  | cancelled
  /-- The timer expired; it has not resumed yet. -/
  | expired
  | returned (subscriptionId : UInt64)
  /-- It ended with an exception. -/
  | failed
  deriving DecidableEq, Repr

structure SubscribeCall where
  key : SubscriptionKey
  status : CallStatus
  deriving DecidableEq, Repr

structure AccountSubscriber where
  /-- The callbacks of each pending subscription. -/
  pendingAccountSubscriptions : SubscriptionKey → Option (List ℕ)
  accountToCallback : SubscriptionKey → Option UInt64
  nextSubscriptionId : UInt64
  subscriptions : UInt64 → Option (List ℕ)
  callCount : ℕ
  calls : ℕ → Option SubscribeCall
  responses : List (UInt64 × SubscriptionKey)

namespace AccountSubscriber

def init : AccountSubscriber :=
  ⟨fun _ => none, fun _ => none, 0, fun _ => none, 0, fun _ => none, []⟩

/-- The callbacks a notification invokes, in order. -/
def doHandleAccountNotification (s : AccountSubscriber) (subscriptionId : UInt64) : List ℕ :=
  (s.subscriptions subscriptionId).getD []

def setStatus (s : AccountSubscriber) (c : ℕ) (key : SubscriptionKey) (status : CallStatus) :
    AccountSubscriber :=
  { s with calls := Function.update s.calls c (some ⟨key, status⟩) }

/-- `co_return SubscribeResult{ _nextSubscriptionId++ }`. -/
def returns (s : AccountSubscriber) (c : ℕ) (key : SubscriptionKey) : AccountSubscriber :=
  { s.setStatus c key (.returned s.nextSubscriptionId) with
    nextSubscriptionId := s.nextSubscriptionId + 1 }

/-- A new call, up to its first `co_await`. -/
def accountSubscribe (s : AccountSubscriber) (key : SubscriptionKey) : AccountSubscriber :=
  let c := s.callCount
  let s := { s with callCount := s.callCount + 1 }
  match s.pendingAccountSubscriptions key with
  | none =>
    match s.accountToCallback key with
    | none =>
      -- First request with this account/commitment.
      { s with
        pendingAccountSubscriptions :=
          Function.update s.pendingAccountSubscriptions key (some [c]) }.setStatus c key .requesting
    | some subscription =>
      { s with
        subscriptions := Function.update s.subscriptions subscription
          ((s.subscriptions subscription).map (· ++ [c])) }.returns c key
  | some _ => s.setStatus c key .waiting

/-- The calls that await the timer of a key are woken. -/
def wakeWaiting (key : SubscriptionKey) (status : CallStatus) (call : SubscribeCall) :
    SubscribeCall :=
  if call.key = key ∧ call.status = .waiting then { call with status } else call

def endWaits (s : AccountSubscriber) (key : SubscriptionKey) (status : CallStatus) :
    AccountSubscriber :=
  { s with calls := fun c => (s.calls c).map (wakeWaiting key status) }

/-- The first call goes on with the answer to its request. `emplace` leaves
an element that is there as it is; the callbacks are moved out of the pending
subscription, which stays. -/
def onSubscribeResult (s : AccountSubscriber) (c : ℕ) (key : SubscriptionKey)
    (subscriptionId : UInt64) : AccountSubscriber :=
  let callbacks := (s.pendingAccountSubscriptions key).getD []
  let s :=
    { s with
      subscriptions := Function.update s.subscriptions subscriptionId
        (some ((s.subscriptions subscriptionId).getD callbacks))
      accountToCallback := Function.update s.accountToCallback key
        (some ((s.accountToCallback key).getD subscriptionId))
      pendingAccountSubscriptions := Function.update s.pendingAccountSubscriptions key (some [])
      responses := (subscriptionId, key) :: s.responses }
  -- Cancel pending subscription to wake other subscribers.
  (s.endWaits key .cancelled).returns c key

inductive Label where
  | subscribe (key : SubscriptionKey)
  /-- The request of call `c` is answered. -/
  | response (c : ℕ) (subscriptionId : UInt64)
  /-- The request of call `c` fails. -/
  | failure (c : ℕ)
  /-- The timer of a pending subscription expires. -/
  | expire (key : SubscriptionKey)
  /-- The wait of call `c` fails. -/
  | timerError (c : ℕ)
  /-- Call `c` resumes after the end of its wait. -/
  | wake (c : ℕ)
  /-- A notification is handled; it changes nothing here. -/
  | notification (subscriptionId : UInt64)

def step (s : AccountSubscriber) : Label → Option AccountSubscriber
  | .subscribe key => some (s.accountSubscribe key)
  | .response c subscriptionId =>
    match s.calls c with
    | some ⟨key, .requesting⟩ => some (s.onSubscribeResult c key subscriptionId)
    | _ => none
  | .failure c =>
    match s.calls c with
    | some ⟨key, .requesting⟩ => some (s.setStatus c key .failed)
    | _ => none
  | .expire key => some (s.endWaits key .expired)
  | .timerError c =>
    match s.calls c with
    | some ⟨key, .waiting⟩ => some (s.setStatus c key .failed)
    | _ => none
  | .wake c =>
    match s.calls c with
    | some ⟨key, .cancelled⟩ => some (s.returns c key)
    | some ⟨key, .expired⟩ => some (s.setStatus c key .failed)
    | _ => none
  | .notification _ => some s

end AccountSubscriber

end Synthfi.Solana
