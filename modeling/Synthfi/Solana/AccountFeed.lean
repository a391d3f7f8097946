/-
Synthfi.Solana.AccountFeed — account notifications from the web socket to the
callbacks (`Solana/AccountSubscriber/AccountSubscriberImpl.cpp` over
`Solana/SolanaWsClient/SolanaWsClientImpl.{hpp,cpp}`).

The account subscriber and the web socket client run on strands of their own.
The first call for an account has the web socket client request a
subscription; once the node has answered, `do_send_subscribe` registers the
id, spawns `do_notify`, and its completion goes to the strand of the account
subscriber. `do_notify` passes a notification to `on_account_notification`,
which only spawns the handler there. `posted` is everything that was given to
that strand, in its order, and `started` is how much of it has run.

The two layers are those of `AccountSubscriber` and `SolanaWsClient`; here is
what connects them. Other users of the web socket client, with ids of their
own, are left out. The node is outside: labels name its answers and
notifications.

`called` is a ghost: the callbacks invoked, each by the number of the call
that passed it, and what they were given.
-/
import Synthfi.Solana.AccountSubscriber
import Synthfi.Solana.SolanaWsClient

namespace Synthfi.Solana

variable {α : Type}

/-- What is given to the strand of the account subscriber. -/
inductive SubscriberHandler (α : Type) where
  /-- `send_subscribe` of call `c` returns. -/
  | subscribed (c : ℕ) (subscriptionId : UInt64)
  /-- `send_subscribe` of call `c` throws. -/
  | threw (c : ℕ)
  /-- `do_handle_account_notification`. -/
  | notification (subscriptionId : UInt64) (notification : Option α)
  deriving DecidableEq, Repr

structure AccountFeed (α : Type) where
  wsClient : SolanaWsClient α
  subscriber : AccountSubscriber
  /-- The calls whose subscription request awaits its answer. -/
  requests : List ℕ
  posted : List (SubscriberHandler α)
  started : ℕ
  called : List (ℕ × Option α)

namespace AccountFeed

def init : AccountFeed α := ⟨.init, .init, [], [], 0, []⟩

variable (s : AccountFeed α)

def post (handler : SubscriberHandler α) : AccountFeed α :=
  { s with posted := s.posted ++ [handler] }

/-- A step of the web socket client that calls nobody. -/
def wsStep (label : SolanaWsClient.Label α) : Option (AccountFeed α) :=
  (s.wsClient.step label).map fun wsClient => { s with wsClient }

/-- A step of a call of `account_subscribe` on its own. -/
def subscriberStep (label : AccountSubscriber.Label) : Option (AccountFeed α) :=
  (s.subscriber.step label).map fun subscriber => { s with subscriber }

/-- A call of `account_subscribe`, with the request it may send. -/
def accountSubscribe (key : SubscriptionKey) : AccountFeed α :=
  let subscriber := s.subscriber.accountSubscribe key
  { s with
    subscriber
    requests :=
      if subscriber.calls s.subscriber.callCount = some ⟨key, .requesting⟩ then
        s.requests ++ [s.subscriber.callCount]
      else s.requests }

/-- `do_send_subscribe` of call `c` goes on with the answer to its request. -/
def doSendSubscribe (c : ℕ) (subscriptionId : UInt64) : Option (AccountFeed α) :=
  if c ∈ s.requests then
    let s := { s with requests := s.requests.erase c }
    match s.wsClient.activeSubscriptions subscriptionId with
    | none =>
      some ({ s with wsClient := s.wsClient.put subscriptionId .registered }.post
        (.subscribed c subscriptionId))
    | some _ => some (s.post (.threw c))
  else none

/-- The request of call `c` fails. -/
def requestFails (c : ℕ) : Option (AccountFeed α) :=
  if c ∈ s.requests then some ({ s with requests := s.requests.erase c }.post (.threw c)) else none

/-- `do_notify` of a subscription resumes; what it passes on spawns a handler. -/
def doNotify (subscriptionId : UInt64) : Option (AccountFeed α) := do
  let subscription ← s.wsClient.activeSubscriptions subscriptionId
  let wsClient ← s.wsClient.step (.resume subscriptionId)
  let s := { s with wsClient }
  if subscription.notifier = .signalled then
    some (s.post (.notification subscriptionId subscription.message))
  else some s

/-- What the strand of the account subscriber runs. -/
def handle : SubscriberHandler α → Option (AccountFeed α)
  | .subscribed c subscriptionId => s.subscriberStep (.response c subscriptionId)
  | .threw c => s.subscriberStep (.failure c)
  | .notification subscriptionId notification =>
    some { s with
      called := s.called ++ (s.subscriber.doHandleAccountNotification subscriptionId).map
        fun c => (c, notification) }

inductive Label (α : Type) where
  | subscribe (key : SubscriptionKey)
  /-- The node answers the request of call `c`. -/
  | answer (c : ℕ) (subscriptionId : UInt64)
  | requestFails (c : ℕ)
  /-- `do_notify` of a subscription is entered. -/
  | start (subscriptionId : UInt64)
  /-- A notification, decoded or not. -/
  | notification (subscriptionId : UInt64) (message : Option α)
  | notifyExpires (subscriptionId : UInt64)
  | notifyTimerError (subscriptionId : UInt64)
  | notifyResumes (subscriptionId : UInt64)
  /-- The next handler of the account subscriber runs. -/
  | handler
  /-- The timer of a pending subscription expires. -/
  | pendingExpires (key : SubscriptionKey)
  | pendingTimerError (c : ℕ)
  | pendingResumes (c : ℕ)
  deriving DecidableEq, Repr

def step (s : AccountFeed α) : Label α → Option (AccountFeed α)
  | .subscribe key => some (s.accountSubscribe key)
  | .answer c subscriptionId => s.doSendSubscribe c subscriptionId
  | .requestFails c => s.requestFails c
  | .start subscriptionId => s.wsStep (.start subscriptionId)
  | .notification subscriptionId message => s.wsStep (.notification subscriptionId message)
  | .notifyExpires subscriptionId => s.wsStep (.expire subscriptionId)
  | .notifyTimerError subscriptionId => s.wsStep (.timerError subscriptionId)
  | .notifyResumes subscriptionId => s.doNotify subscriptionId
  | .handler => do
    let handler ← s.posted[s.started]?
    { s with started := s.started + 1 }.handle handler
  | .pendingExpires key => s.subscriberStep (.expire key)
  | .pendingTimerError c => s.subscriberStep (.timerError c)
  | .pendingResumes c => s.subscriberStep (.wake c)

end AccountFeed

end Synthfi.Solana
