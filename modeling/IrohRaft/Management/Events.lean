import IrohRaft.Management.Protocol

/-!
# The event broadcaster

`EventBroadcaster` of `management/events.rs`, together with the channels it has made: a subscriber's sender is
the number of its channel. The broadcaster does not look into an event. The order in which it goes through its
subscribers makes no difference, as each has a channel of its own.
-/

namespace IrohRaft.Management

open Rust

/-- `[u8; 16]`. -/
abbrev SubscriptionId := { bytes : Bytes // bytes.length = 16 }

namespace SubscriptionId

instance : Ord SubscriptionId := ⟨compareOn Subtype.val⟩

instance : Std.TransOrd SubscriptionId := inferInstanceAs (Std.TransCmp (compareOn Subtype.val))

instance : Std.LawfulEqOrd SubscriptionId where
  eq_of_compare h := Subtype.ext (Std.LawfulEqOrd.eq_of_compare h)

end SubscriptionId

structure EventBroadcaster (ε : Type) where
  subscribers : HashMap SubscriptionId Nat
  /-- The channels, in the order in which they were made. -/
  channels : List (UnboundedSender ε)

namespace EventBroadcaster

variable {ε : Type}

def new : EventBroadcaster ε := { subscribers := ∅, channels := [] }

/-- The receiver is returned: the number of the channel. -/
def subscribe (subscriptionId : SubscriptionId) (broadcaster : EventBroadcaster ε) : Nat × EventBroadcaster ε :=
  let receiver := broadcaster.channels.length
  (receiver,
    { subscribers := broadcaster.subscribers.insert subscriptionId receiver
      channels := broadcaster.channels ++ [{ receiving := true, sent := [] }] })

def unsubscribe (subscriptionId : SubscriptionId) (broadcaster : EventBroadcaster ε) : EventBroadcaster ε :=
  { broadcaster with subscribers := broadcaster.subscribers.erase subscriptionId }

/-- One turn of the loop over the subscribers: the channels, and the subscribers found closed. -/
def sendTo (event : ε) (sending : List (UnboundedSender ε) × List SubscriptionId) (subscriber : SubscriptionId × Nat) :
    List (UnboundedSender ε) × List SubscriptionId :=
  match sending.1[subscriber.2]? with
  | some sender =>
      match sender.send event with
      | (.ok _, sender) => (sending.1.set subscriber.2 sender, sending.2)
      | (_, sender) => (sending.1.set subscriber.2 sender, sending.2 ++ [subscriber.1])
  | none => sending

def broadcast (event : ε) (broadcaster : EventBroadcaster ε) : EventBroadcaster ε :=
  let (channels, closedSubscribers) := broadcaster.subscribers.toList.foldl (sendTo event) (broadcaster.channels, [])
  { subscribers := closedSubscribers.foldl (fun subscribers subscriptionId => subscribers.erase subscriptionId)
      broadcaster.subscribers
    channels }

/-- A receiver is dropped, or closed. -/
def dropReceiver (receiver : Nat) (broadcaster : EventBroadcaster ε) : EventBroadcaster ε :=
  { broadcaster with channels := broadcaster.channels.modify receiver fun sender => { sender with receiving := false } }

inductive Op (ε : Type) where
  | subscribe (subscriptionId : SubscriptionId)
  | unsubscribe (subscriptionId : SubscriptionId)
  | broadcast (event : ε)
  | dropReceiver (receiver : Nat)

def step (broadcaster : EventBroadcaster ε) : Op ε → EventBroadcaster ε
  | .subscribe subscriptionId => (broadcaster.subscribe subscriptionId).2
  | .unsubscribe subscriptionId => broadcaster.unsubscribe subscriptionId
  | .broadcast event => broadcaster.broadcast event
  | .dropReceiver receiver => broadcaster.dropReceiver receiver

/-- The broadcaster after these operations. -/
def run (ops : List (Op ε)) : EventBroadcaster ε := Run.final step new ops

end EventBroadcaster

end IrohRaft.Management
