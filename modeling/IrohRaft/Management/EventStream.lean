import IrohRaft.Management.Discovery
import IrohRaft.Management.Events

/-!
# Cluster events, their streams and their history

`ClusterEvent`, `EventFilter`, `EventStream` and `EventHistory` of `management/events.rs`. A stream is made of a
receiver that `EventBroadcaster::subscribe` returned. What an application puts into an event as JSON is opaque here.
-/

namespace IrohRaft.Management

open Rust

/-! ### Events -/

structure ConfigChange (Value : Type) where
  field : Str
  oldValue : Value
  newValue : Value

inductive ClusterEvent (Value : Type) where
  | leaderElected (newLeader term : UInt64) (previousLeader : Option UInt64) (timestamp : SystemTime)
  | leadershipTransferred (fromLeader toLeader term : UInt64) (duration : Duration) (timestamp : SystemTime)
  | leaderSteppedDown (leader term : UInt64) (reason : Str) (timestamp : SystemTime)
  | memberAdded (nodeId : UInt64) (role : MemberRole) (address : Str) (timestamp : SystemTime)
  | memberRemoved (nodeId : UInt64) (reason : Str) (timestamp : SystemTime)
  | memberRoleChanged (nodeId : UInt64) (oldRole newRole : MemberRole) (timestamp : SystemTime)
  | memberHealthChanged (nodeId : UInt64) (oldStatus newStatus : HealthStatus) (timestamp : SystemTime)
  | configurationChanged (version : UInt64) (changes : List (ConfigChange Value)) (timestamp : SystemTime)
  | snapshotCompleted (index term sizeBytes : UInt64) (duration : Duration) (timestamp : SystemTime)
  | snapshotFailed (index term : UInt64) (error : Str) (timestamp : SystemTime)
  | custom (eventType : Str) (data : Value) (timestamp : SystemTime)

variable {Value : Type}

namespace ClusterEvent

def eventType : ClusterEvent Value → Str
  | leaderElected .. => ⟨"leader_elected", by decide⟩
  | leadershipTransferred .. => ⟨"leadership_transferred", by decide⟩
  | leaderSteppedDown .. => ⟨"leader_stepped_down", by decide⟩
  | memberAdded .. => ⟨"member_added", by decide⟩
  | memberRemoved .. => ⟨"member_removed", by decide⟩
  | memberRoleChanged .. => ⟨"member_role_changed", by decide⟩
  | memberHealthChanged .. => ⟨"member_health_changed", by decide⟩
  | configurationChanged .. => ⟨"configuration_changed", by decide⟩
  | snapshotCompleted .. => ⟨"snapshot_completed", by decide⟩
  | snapshotFailed .. => ⟨"snapshot_failed", by decide⟩
  | custom eventType _ _ => eventType

def timestamp : ClusterEvent Value → SystemTime
  | leaderElected _ _ _ timestamp => timestamp
  | leadershipTransferred _ _ _ _ timestamp => timestamp
  | leaderSteppedDown _ _ _ timestamp => timestamp
  | memberAdded _ _ _ timestamp => timestamp
  | memberRemoved _ _ timestamp => timestamp
  | memberRoleChanged _ _ _ timestamp => timestamp
  | memberHealthChanged _ _ _ timestamp => timestamp
  | configurationChanged _ _ timestamp => timestamp
  | snapshotCompleted _ _ _ _ timestamp => timestamp
  | snapshotFailed _ _ _ timestamp => timestamp
  | custom _ _ timestamp => timestamp

def nodeId : ClusterEvent Value → Option UInt64
  | leaderElected newLeader .. => some newLeader
  | leadershipTransferred _ toLeader .. => some toLeader
  | leaderSteppedDown leader .. => some leader
  | memberAdded nodeId .. => some nodeId
  | memberRemoved nodeId .. => some nodeId
  | memberRoleChanged nodeId .. => some nodeId
  | memberHealthChanged nodeId .. => some nodeId
  | configurationChanged .. | snapshotCompleted .. | snapshotFailed .. | custom .. => none

end ClusterEvent

structure EventFilter where
  eventTypes : List Str
  nodeIds : List UInt64
  since : Option SystemTime
  «until» : Option SystemTime

namespace EventFilter

def default : EventFilter := { eventTypes := [], nodeIds := [], since := none, «until» := none }

def «matches» (filter : EventFilter) (event : ClusterEvent Value) : Bool :=
  (filter.eventTypes.isEmpty || filter.eventTypes.contains event.eventType) &&
    -- an event that is about no node passes whatever nodes are asked for
    (filter.nodeIds.isEmpty || event.nodeId.all fun nodeId => filter.nodeIds.contains nodeId) &&
    (filter.since.all fun since => since.val ≤ event.timestamp.val) &&
    filter.«until».all fun «until» => event.timestamp.val ≤ «until».val

end EventFilter

/-! ### Streams -/

inductive Poll (α : Type) where
  | ready (value : α)
  | pending
  deriving DecidableEq

/-- The receiving half of a channel of the broadcaster, by its number, and how much was taken from it. -/
structure UnboundedReceiver where
  channel : Nat
  taken : Nat

structure EventStream where
  receiver : UnboundedReceiver
  filter : EventFilter
  subscriptionId : SubscriptionId

namespace EventStream

def withFilter (receiver : Nat) (subscriptionId : SubscriptionId) (filter : EventFilter) : EventStream :=
  { receiver := ⟨receiver, 0⟩, filter, subscriptionId }

def new (receiver : Nat) (subscriptionId : SubscriptionId) : EventStream :=
  withFilter receiver subscriptionId .default

def setFilter (filter : EventFilter) (stream : EventStream) : EventStream := { stream with filter }

/-- An event has come off the receiver. -/
def received (stream : EventStream) : EventStream :=
  { stream with receiver := { stream.receiver with taken := stream.receiver.taken + 1 } }

/-- The loop goes through what is in the channel and was not taken yet. -/
def tryNext (stream : EventStream) : List (ClusterEvent Value) → Option (ClusterEvent Value) × EventStream
  | [] => (none, stream)
  | event :: unread => if stream.filter.matches event then (some event, stream.received) else stream.received.tryNext unread

/-- `ended` says that nothing more can come. -/
def pollNext (ended : Bool) (stream : EventStream) :
    List (ClusterEvent Value) → Poll (Option (ClusterEvent Value)) × EventStream
  | [] => (if ended then .ready none else .pending, stream)
  | event :: unread =>
      if stream.filter.matches event then (.ready (some event), stream.received) else stream.received.pollNext ended unread

end EventStream

/-! ### A broadcaster and its streams -/

/-- A broadcaster, the streams of its receivers in the order they were made, and what the streams have yielded. -/
structure EventMonitor (Value : Type) where
  broadcaster : EventBroadcaster (ClusterEvent Value)
  streams : List EventStream
  yielded : List (Nat × ClusterEvent Value)

namespace EventMonitor

def new : EventMonitor Value := { broadcaster := .new, streams := [], yielded := [] }

def unread (receiver : UnboundedReceiver) (monitor : EventMonitor Value) : List (ClusterEvent Value) :=
  match monitor.broadcaster.channels[receiver.channel]? with
  | some sender => sender.sent.drop receiver.taken
  | none => []

/-- The receiver was closed, or its sender dropped. -/
def ended (receiver : UnboundedReceiver) (monitor : EventMonitor Value) : Bool :=
  (monitor.broadcaster.channels[receiver.channel]?.all fun sender => !sender.receiving) ||
    monitor.broadcaster.subscribers.toList.all fun subscriber => subscriber.2 ≠ receiver.channel

def tryNext (stream : Nat) (monitor : EventMonitor Value) : Option (ClusterEvent Value) × EventMonitor Value :=
  match monitor.streams[stream]? with
  | some reading =>
      let (event, reading) := reading.tryNext (monitor.unread reading.receiver)
      (event,
        { monitor with
          streams := monitor.streams.set stream reading
          yielded := monitor.yielded ++ event.toList.map fun event => (stream, event) })
  | none => (none, monitor)

def pollNext (stream : Nat) (monitor : EventMonitor Value) : Poll (Option (ClusterEvent Value)) × EventMonitor Value :=
  match monitor.streams[stream]? with
  | some reading =>
      let (poll, reading) := reading.pollNext (monitor.ended reading.receiver) (monitor.unread reading.receiver)
      let event := match poll with
        | .ready event => event
        | .pending => none
      (poll,
        { monitor with
          streams := monitor.streams.set stream reading
          yielded := monitor.yielded ++ event.toList.map fun event => (stream, event) })
  | none => (.pending, monitor)

inductive Op (Value : Type) where
  | subscribe (subscriptionId : SubscriptionId) (filter : EventFilter)
  | unsubscribe (subscriptionId : SubscriptionId)
  | broadcast (event : ClusterEvent Value)
  | setFilter (stream : Nat) (filter : EventFilter)
  | tryNext (stream : Nat)
  | pollNext (stream : Nat)
  | close (stream : Nat)

def step (monitor : EventMonitor Value) : Op Value → EventMonitor Value
  | .subscribe subscriptionId filter =>
      let (receiver, broadcaster) := monitor.broadcaster.subscribe subscriptionId
      { monitor with broadcaster, streams := monitor.streams ++ [.withFilter receiver subscriptionId filter] }
  | .unsubscribe subscriptionId => { monitor with broadcaster := monitor.broadcaster.unsubscribe subscriptionId }
  | .broadcast event => { monitor with broadcaster := monitor.broadcaster.broadcast event }
  | .setFilter stream filter => { monitor with streams := monitor.streams.modify stream (EventStream.setFilter filter) }
  | .tryNext stream => (monitor.tryNext stream).2
  | .pollNext stream => (monitor.pollNext stream).2
  | .close stream =>
      match monitor.streams[stream]? with
      | some closing => { monitor with broadcaster := monitor.broadcaster.dropReceiver closing.receiver.channel }
      | none => monitor

/-- The monitor after these operations. -/
def run (ops : List (Op Value)) : EventMonitor Value := Run.final step new ops

end EventMonitor

/-! ### The history -/

structure EventHistory (Value : Type) where
  events : List (ClusterEvent Value)
  maxEvents : Nat

namespace EventHistory

def new (maxEvents : Nat) : EventHistory Value := { events := [], maxEvents }

def addEvent (event : ClusterEvent Value) (history : EventHistory Value) : EventHistory Value :=
  let events := history.events ++ [event]
  { history with
    events := if history.maxEvents < events.length then events.drop (events.length - history.maxEvents) else events }

def query (filter : EventFilter) (history : EventHistory Value) : List (ClusterEvent Value) :=
  history.events.filter filter.matches

def recentEvents (count : Nat) (history : EventHistory Value) : List (ClusterEvent Value) :=
  history.events.drop (if count < history.events.length then history.events.length - count else 0)

def clear (history : EventHistory Value) : EventHistory Value := { history with events := [] }

inductive Op (Value : Type) where
  | addEvent (event : ClusterEvent Value)
  | clear

def step (history : EventHistory Value) : Op Value → EventHistory Value
  | .addEvent event => history.addEvent event
  | .clear => history.clear

end EventHistory

end IrohRaft.Management
