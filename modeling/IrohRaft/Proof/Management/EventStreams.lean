import IrohRaft.Management.EventStream
import IrohRaft.Proof.Management.Events

/-!
# What an event stream yields

A stream goes through the events that its channel was sent, one after another. Each of them is judged once, by the filter
that the stream has when it comes to it, and those that match are yielded. A poll that finds no match says that the stream
has ended exactly if the subscription has.
-/

namespace IrohRaft.Management

open Rust

variable {Value : Type}

/-! ### The receiving side of a channel -/

namespace EventBroadcaster

variable {ε : Type} {subscriptionId : SubscriptionId} {receiver : Nat}

/-- The subscription has been ended by one of these operations. -/
def endedBy (subscriptionId : SubscriptionId) (receiver : Nat) (later : List (Op ε)) : Bool :=
  later.any fun op => op.ends subscriptionId receiver

theorem window_concat (later : List (Op ε)) (op : Op ε) :
    window subscriptionId receiver (later ++ [op]) =
      window subscriptionId receiver later ++
        if endedBy subscriptionId receiver later || op.ends subscriptionId receiver then [] else op.event.toList := by
  induction later with
  | nil =>
      cases hends : op.ends subscriptionId receiver <;> cases hevent : op.event <;> simp [window, endedBy, hends, hevent]
  | cons first rest ih =>
      cases hends : first.ends subscriptionId receiver with
      | true => simp [window, endedBy, hends]
      | false =>
          simp only [window, endedBy] at ih
          cases hevent : first.event <;> simp [window, endedBy, hends, hevent, ih]

/-- What a channel was sent since its subscription, and whether it is sent more. -/
def Serves (subscriptionId : SubscriptionId) (receiver : Nat) (later : List (Op ε)) (broadcaster : EventBroadcaster ε) : Prop :=
  if endedBy subscriptionId receiver later then Silent receiver (window subscriptionId receiver later) broadcaster
  else Attached subscriptionId receiver (window subscriptionId receiver later) broadcaster

theorem Serves.step {later : List (Op ε)} {broadcaster : EventBroadcaster ε}
    (h : Serves subscriptionId receiver later broadcaster) (op : Op ε) :
    Serves subscriptionId receiver (later ++ [op]) (EventBroadcaster.step broadcaster op) := by
  have hended : endedBy subscriptionId receiver (later ++ [op]) =
      (endedBy subscriptionId receiver later || op.ends subscriptionId receiver) := by simp [endedBy]
  rw [Serves, window_concat, hended]
  cases hbefore : endedBy subscriptionId receiver later with
  | true =>
      rw [Serves, if_pos hbefore] at h
      simpa using silent_step h op
  | false =>
      rw [Serves, if_neg (by simp [hbefore])] at h
      cases hends : op.ends subscriptionId receiver with
      | true => simpa using silent_of_ends h hends
      | false => simpa using attached_of_not_ends h hends

theorem attached_subscribe {broadcaster : EventBroadcaster ε} (h : broadcaster.Separate) (subscriptionId : SubscriptionId) :
    Attached subscriptionId broadcaster.channels.length [] (broadcaster.subscribe subscriptionId).2 := by
  refine ⟨separate_subscribe h subscriptionId, ?_, ?_⟩ <;> simp [subscribe]

/-- What was sent to the channel, and whether anything can still be. -/
theorem Serves.sent {later : List (Op ε)} {broadcaster : EventBroadcaster ε}
    (h : Serves subscriptionId receiver later broadcaster) :
    ∃ receiving, broadcaster.channels[receiver]? = some { receiving, sent := window subscriptionId receiver later } ∧
      (!receiving || broadcaster.subscribers.toList.all fun subscriber => subscriber.2 ≠ receiver) =
        endedBy subscriptionId receiver later := by
  rw [Serves] at h
  split_ifs at h with hended
  · obtain ⟨receiving, hchannel, hunsubscribed⟩ := h.channel
    refine ⟨receiving, hchannel, ?_⟩
    rw [hended]
    cases hreceiving : receiving with
    | false => simp
    | true =>
        simp only [Bool.not_true, Bool.false_or, List.all_eq_true, decide_eq_true_eq]
        intro subscriber hmem hsame
        exact hunsubscribed hreceiving subscriber.1 (hsame ▸ Std.ExtTreeMap.mem_toList_iff_getElem?_eq_some.mp hmem)
  · refine ⟨true, h.channel, ?_⟩
    rw [Bool.eq_false_of_not_eq_true hended]
    simp only [Bool.not_true, Bool.false_or, List.all_eq_false, decide_eq_true_eq, not_not]
    exact ⟨(subscriptionId, receiver), Std.ExtTreeMap.mem_toList_iff_getElem?_eq_some.mpr h.subscribed, rfl⟩

end EventBroadcaster

/-! ### One poll -/

/-- The events that a search takes off: those it skips, and the first that matches. -/
def passed (filter : EventFilter) (unread : List (ClusterEvent Value)) : List (ClusterEvent Value) :=
  unread.take (unread.findIdx filter.matches + 1)

@[simp] theorem passed_nil (filter : EventFilter) : passed filter ([] : List (ClusterEvent Value)) = [] := rfl

theorem passed_cons (filter : EventFilter) (event : ClusterEvent Value) (unread : List (ClusterEvent Value)) :
    passed filter (event :: unread) = if filter.matches event then [event] else event :: passed filter unread := by
  cases hmatches : filter.matches event <;> simp [passed, List.findIdx_cons, hmatches]

theorem filter_passed (filter : EventFilter) (unread : List (ClusterEvent Value)) :
    (passed filter unread).filter filter.matches = (unread.find? filter.matches).toList := by
  induction unread with
  | nil => rfl
  | cons event unread ih =>
      rw [passed_cons]
      cases hmatches : filter.matches event <;> simp [hmatches, ih]

namespace EventStream

variable {stream : EventStream} {unread : List (ClusterEvent Value)}

/-- So many more events have come off the receiver. -/
def after (count : Nat) (stream : EventStream) : EventStream :=
  { stream with receiver := { stream.receiver with taken := stream.receiver.taken + count } }

theorem tryNext_eq (stream : EventStream) (unread : List (ClusterEvent Value)) :
    stream.tryNext unread =
      (unread.find? stream.filter.matches, stream.after (passed stream.filter unread).length) := by
  induction unread generalizing stream with
  | nil => rfl
  | cons event unread ih =>
      rw [tryNext, passed_cons, List.find?_cons]
      cases hmatches : stream.filter.matches event with
      | true => simp [received, after]
      | false =>
          rw [if_neg (by simp), ih]
          simp [received, after, Nat.add_assoc, Nat.add_comm]

/-- A stream is polled as it is tried, and is told whether it has ended where there is nothing for it. -/
theorem pollNext_eq (ended : Bool) (stream : EventStream) (unread : List (ClusterEvent Value)) :
    stream.pollNext ended unread =
      ((unread.find? stream.filter.matches).elim (if ended then .ready none else .pending) fun event => .ready (some event),
        stream.after (passed stream.filter unread).length) := by
  induction unread generalizing stream with
  | nil => rfl
  | cons event unread ih =>
      rw [pollNext, passed_cons, List.find?_cons]
      cases hmatches : stream.filter.matches event with
      | true => simp [received, after]
      | false =>
          rw [if_neg (by simp), ih]
          simp [received, after, Nat.add_assoc, Nat.add_comm]

end EventStream

namespace EventMonitor

variable {subscriptionId : SubscriptionId} {filter : EventFilter} {stream : Nat} {monitor : EventMonitor Value}

/-! ### What an operation does to the broadcaster, and to the other streams -/

def Op.onBroadcaster : Op Value → Option (EventBroadcaster.Op (ClusterEvent Value))
  | .subscribe subscriptionId _ => some (.subscribe subscriptionId)
  | .unsubscribe subscriptionId => some (.unsubscribe subscriptionId)
  | .broadcast event => some (.broadcast event)
  | .close stream => some (.dropReceiver stream)
  | .setFilter .. | .tryNext _ | .pollNext _ => none

/-- The operations of the broadcaster among these. -/
def onBroadcaster (ops : List (Op Value)) : List (EventBroadcaster.Op (ClusterEvent Value)) :=
  ops.filterMap Op.onBroadcaster

/-- The filter that an operation gives a stream. -/
def Op.sets (stream : Nat) : Op Value → Option EventFilter
  | .setFilter changed filter => if changed = stream then some filter else none
  | .subscribe .. | .unsubscribe _ | .broadcast _ | .tryNext _ | .pollNext _ | .close _ => none

/-- The events that an operation takes off a stream that has so many to go through. -/
def Op.passes (stream : Nat) (filter : EventFilter) (unread : List (ClusterEvent Value)) : Op Value → List (ClusterEvent Value)
  | .tryNext polled | .pollNext polled => if polled = stream then passed filter unread else []
  | .subscribe .. | .unsubscribe _ | .broadcast _ | .setFilter .. | .close _ => []

def Op.Polls (stream : Nat) (op : Op Value) : Prop := op = .tryNext stream ∨ op = .pollNext stream

theorem Op.polls_of_passes {op : Op Value} {unread : List (ClusterEvent Value)} {event : ClusterEvent Value}
    (h : event ∈ op.passes stream filter unread) : op.Polls stream := by
  cases op with
  | tryNext polled =>
      by_cases hpolled : polled = stream
      · exact .inl (congrArg _ hpolled)
      · simp [passes, hpolled] at h
  | pollNext polled =>
      by_cases hpolled : polled = stream
      · exact .inr (congrArg _ hpolled)
      · simp [passes, hpolled] at h
  | subscribe _ _ | unsubscribe _ | broadcast _ | setFilter _ _ | close _ => simp [passes] at h

/-- The filters that a stream is given. -/
def filtersSet (stream : Nat) (ops : List (Op Value)) : List EventFilter := ops.filterMap (Op.sets stream)

def yieldedBy (stream : Nat) (monitor : EventMonitor Value) : List (ClusterEvent Value) :=
  monitor.yielded.filterMap fun event => if event.1 = stream then some event.2 else none

/-- What a stream has still to go through. -/
def left (stream : Nat) (monitor : EventMonitor Value) : List (ClusterEvent Value) :=
  (monitor.streams[stream]?.map fun reading => monitor.unread reading.receiver).getD []

/-- Each stream reads the channel that was made with it. -/
structure Own (monitor : EventMonitor Value) : Prop where
  count : monitor.streams.length = monitor.broadcaster.channels.length
  channel : ∀ (stream : Nat) (reading : EventStream), monitor.streams[stream]? = some reading →
    reading.receiver.channel = stream
  made : ∀ event ∈ monitor.yielded, event.1 < monitor.streams.length

theorem tryNext_of_some {reading : EventStream} (h : monitor.streams[stream]? = some reading) :
    monitor.tryNext stream =
      ((monitor.unread reading.receiver).find? reading.filter.matches,
        { monitor with
          streams := monitor.streams.set stream (reading.after (passed reading.filter (monitor.unread reading.receiver)).length)
          yielded := monitor.yielded ++
            ((monitor.unread reading.receiver).find? reading.filter.matches).toList.map fun event => (stream, event) }) := by
  simp only [tryNext, h, EventStream.tryNext_eq]

/-- A poll leaves what a try leaves. -/
theorem pollNext_eq (stream : Nat) (monitor : EventMonitor Value) : (monitor.pollNext stream).2 = (monitor.tryNext stream).2 := by
  cases hreading : monitor.streams[stream]? with
  | none => simp [pollNext, tryNext, hreading]
  | some reading =>
      simp only [pollNext, tryNext, hreading, EventStream.tryNext_eq, EventStream.pollNext_eq]
      cases hfound : (monitor.unread reading.receiver).find? reading.filter.matches with
      | some event => rfl
      | none => cases hended : monitor.ended reading.receiver <;> simp

theorem step_broadcaster (h : Own monitor) (op : Op Value) :
    (step monitor op).broadcaster = op.onBroadcaster.elim monitor.broadcaster (EventBroadcaster.step monitor.broadcaster) := by
  cases op with
  | subscribe subscriptionId filter => rfl
  | unsubscribe subscriptionId => rfl
  | broadcast event => rfl
  | setFilter stream filter => rfl
  | tryNext stream => cases hreading : monitor.streams[stream]? <;> simp [step, tryNext, hreading, Op.onBroadcaster]
  | pollNext stream =>
      cases hreading : monitor.streams[stream]? <;> simp [step, pollNext_eq, tryNext, hreading, Op.onBroadcaster]
  | close stream =>
      cases hreading : monitor.streams[stream]? with
      | some reading =>
          simp [step, hreading, Op.onBroadcaster, EventBroadcaster.step, h.channel stream reading hreading]
      | none =>
          have hlength : monitor.broadcaster.channels.length ≤ stream := h.count ▸ List.getElem?_eq_none_iff.mp hreading
          have hsame : monitor.broadcaster.dropReceiver stream = monitor.broadcaster := by
            rw [EventBroadcaster.dropReceiver, List.modify_eq_self hlength]
          simp [step, hreading, Op.onBroadcaster, EventBroadcaster.step, hsame]

/-- What an operation leaves of a stream that has so many events to go through. -/
def Op.leaves (stream : Nat) (unread : List (ClusterEvent Value)) (reading : EventStream) (op : Op Value) : EventStream :=
  { (reading.after (op.passes stream reading.filter unread).length) with filter := (op.sets stream).getD reading.filter }

theorem streams_tryNext {reading : EventStream} (h : monitor.streams[stream]? = some reading) (polled : Nat) :
    (monitor.tryNext polled).2.streams[stream]? =
      some (if polled = stream then reading.after (passed reading.filter (monitor.unread reading.receiver)).length
        else reading) := by
  obtain ⟨hlt, _⟩ := List.getElem?_eq_some_iff.mp h
  by_cases hpolled : polled = stream
  · rw [hpolled, tryNext_of_some h]
    simp [hlt]
  · cases hother : monitor.streams[polled]? with
    | none => simp [tryNext, hother, h, hpolled]
    | some other =>
        rw [tryNext_of_some hother]
        simp [List.getElem?_set_ne hpolled, h, hpolled]

theorem leaves_poll (polled : Nat) (unread : List (ClusterEvent Value)) (reading : EventStream) :
    Op.leaves stream unread reading (.tryNext polled) =
      if polled = stream then reading.after (passed reading.filter unread).length else reading := by
  by_cases hpolled : polled = stream <;> simp [Op.leaves, Op.passes, Op.sets, hpolled, EventStream.after]

theorem streams_step (op : Op Value) {reading : EventStream} (h : monitor.streams[stream]? = some reading) :
    (step monitor op).streams[stream]? = some (op.leaves stream (monitor.unread reading.receiver) reading) := by
  obtain ⟨hlt, _⟩ := List.getElem?_eq_some_iff.mp h
  cases op with
  | subscribe subscriptionId filter =>
      simp [step, List.getElem?_append_left hlt, h, Op.leaves, Op.passes, Op.sets, EventStream.after]
  | unsubscribe subscriptionId => exact h
  | broadcast event => exact h
  | setFilter changed filter =>
      by_cases hchanged : changed = stream <;>
        simp [step, h, hchanged, Op.leaves, Op.passes, Op.sets, EventStream.after, EventStream.setFilter]
  | tryNext polled => exact leaves_poll polled (monitor.unread reading.receiver) reading ▸ streams_tryNext h polled
  | pollNext polled =>
      rw [step, pollNext_eq]
      exact leaves_poll polled (monitor.unread reading.receiver) reading ▸ streams_tryNext h polled
  | close closed =>
      cases hclosed : monitor.streams[closed]? <;> simp [step, hclosed, h, Op.leaves, Op.passes, Op.sets, EventStream.after]

theorem yieldedBy_tryNext {reading : EventStream} (h : monitor.streams[stream]? = some reading) (polled : Nat) :
    yieldedBy stream (monitor.tryNext polled).2 =
      yieldedBy stream monitor ++
        ((Op.tryNext polled).passes stream reading.filter (monitor.unread reading.receiver)).filter reading.filter.matches := by
  by_cases hpolled : polled = stream
  · rw [hpolled, tryNext_of_some h, Op.passes, if_pos rfl, filter_passed]
    cases hfound : (monitor.unread reading.receiver).find? reading.filter.matches <;> simp [yieldedBy]
  · cases hother : monitor.streams[polled]? with
    | none => simp [tryNext, hother, Op.passes, hpolled]
    | some other =>
        rw [tryNext_of_some hother]
        cases hfound : (monitor.unread other.receiver).find? other.filter.matches <;> simp [yieldedBy, Op.passes, hpolled]

theorem yieldedBy_step (op : Op Value) {reading : EventStream} (h : monitor.streams[stream]? = some reading) :
    yieldedBy stream (step monitor op) =
      yieldedBy stream monitor ++
        (op.passes stream reading.filter (monitor.unread reading.receiver)).filter reading.filter.matches := by
  cases op with
  | subscribe subscriptionId filter => simp [step, yieldedBy, Op.passes]
  | unsubscribe subscriptionId => simp [step, yieldedBy, Op.passes]
  | broadcast event => simp [step, yieldedBy, Op.passes]
  | setFilter changed filter => simp [step, yieldedBy, Op.passes]
  | tryNext polled => exact yieldedBy_tryNext h polled
  | pollNext polled =>
      rw [step, pollNext_eq]
      exact yieldedBy_tryNext h polled
  | close closed => cases hclosed : monitor.streams[closed]? <;> simp [step, hclosed, yieldedBy, Op.passes]

theorem getElem?_streams_length (h : Own monitor) (subscriptionId : SubscriptionId) (filter : EventFilter) :
    (step monitor (.subscribe subscriptionId filter)).streams[monitor.streams.length]? =
      some (.withFilter monitor.streams.length subscriptionId filter) := by
  simp [step, EventBroadcaster.subscribe, h.count]

/-- Only a subscription makes a stream. -/
theorem length_streams_step (op : Op Value) :
    (step monitor op).streams.length =
      if op matches .subscribe .. then monitor.streams.length + 1 else monitor.streams.length := by
  have htry (polled : Nat) : (monitor.tryNext polled).2.streams.length = monitor.streams.length := by
    cases hpolled : monitor.streams[polled]? <;> simp [tryNext, hpolled]
  cases op with
  | subscribe subscriptionId filter => simp [step]
  | unsubscribe subscriptionId => rfl
  | broadcast event => rfl
  | setFilter changed filter => simp [step]
  | tryNext polled => exact htry polled
  | pollNext polled =>
      rw [step, pollNext_eq]
      exact htry polled
  | close closed => cases hclosed : monitor.streams[closed]? <;> simp [step, hclosed]

/-- Only a poll yields anything, and of its own stream. -/
theorem yielded_step (op : Op Value) {event : Nat × ClusterEvent Value} (h : event ∈ (step monitor op).yielded) :
    event ∈ monitor.yielded ∨ event.1 < monitor.streams.length := by
  have htry {polled : Nat} (hpolled : event ∈ (monitor.tryNext polled).2.yielded) :
      event ∈ monitor.yielded ∨ event.1 < monitor.streams.length := by
    cases hreading : monitor.streams[polled]? with
    | none => simpa [tryNext, hreading] using Or.inl (b := event.1 < monitor.streams.length) hpolled
    | some reading =>
        obtain ⟨hlt, _⟩ := List.getElem?_eq_some_iff.mp hreading
        rw [tryNext_of_some hreading] at hpolled
        obtain hbefore | hnew := List.mem_append.mp hpolled
        · exact Or.inl hbefore
        · obtain ⟨_, _, rfl⟩ := List.mem_map.mp hnew
          exact Or.inr hlt
  cases op with
  | subscribe _ _ | unsubscribe _ | broadcast _ | setFilter _ _ => exact Or.inl h
  | tryNext polled => exact htry h
  | pollNext polled =>
      rw [step, pollNext_eq] at h
      exact htry h
  | close closed => cases hclosed : monitor.streams[closed]? <;> exact Or.inl (by simpa [step, hclosed] using h)

theorem Own.step (h : Own monitor) (op : Op Value) : Own (EventMonitor.step monitor op) := by
  have hlength : monitor.streams.length ≤ (EventMonitor.step monitor op).streams.length := by
    rw [length_streams_step]
    split_ifs <;> omega
  refine ⟨?_, ?_, ?_⟩
  · rw [length_streams_step, step_broadcaster h, h.count]
    cases op with
    | subscribe subscriptionId filter => simp [Op.onBroadcaster, EventBroadcaster.step, EventBroadcaster.subscribe]
    | broadcast event => simp [Op.onBroadcaster, EventBroadcaster.step, EventBroadcaster.broadcast_length]
    | close closed => simp [Op.onBroadcaster, EventBroadcaster.step, EventBroadcaster.dropReceiver]
    | unsubscribe _ | setFilter _ _ | tryNext _ | pollNext _ => rfl
  · intro stream reading hreading
    by_cases hold : stream < monitor.streams.length
    · have hbefore := List.getElem?_eq_getElem hold
      obtain rfl := Option.some.inj ((streams_step op hbefore).symm.trans hreading)
      have hchannel := h.channel stream _ hbefore
      exact hchannel
    · obtain ⟨hlt, _⟩ := List.getElem?_eq_some_iff.mp hreading
      rw [length_streams_step] at hlt
      cases op with
      | subscribe subscriptionId filter =>
          obtain rfl : stream = monitor.streams.length := by
            simp only [if_true] at hlt
            omega
          rw [getElem?_streams_length h] at hreading
          obtain rfl := Option.some.inj hreading
          rfl
      | unsubscribe _ | broadcast _ | setFilter _ _ | tryNext _ | pollNext _ | close _ => exact absurd hlt (by simpa using hold)
  · intro event hmem
    obtain hbefore | hlt := yielded_step op hmem
    · exact (h.made event hbefore).trans_le hlength
    · exact hlt.trans_le hlength

theorem onBroadcaster_concat (ops : List (Op Value)) (op : Op Value) :
    onBroadcaster (ops ++ [op]) = onBroadcaster ops ++ op.onBroadcaster.toList := by
  cases hop : op.onBroadcaster <;> simp [onBroadcaster, hop]

theorem own_run (ops : List (Op Value)) : Own (run ops) :=
  Run.final_invariant Own (fun op _ _ h => h.step op) ⟨rfl, by simp [new], by simp [new]⟩

theorem broadcaster_run (ops : List (Op Value)) : (run ops).broadcaster = EventBroadcaster.run (onBroadcaster ops) := by
  refine Run.final_history (fun done (monitor : EventMonitor Value) => Own monitor ∧
    monitor.broadcaster = EventBroadcaster.run (onBroadcaster done)) ?_ ⟨⟨rfl, by simp [new], by simp [new]⟩, rfl⟩ ops |>.2
  intro done monitor op hdone
  obtain ⟨hown, hbroadcaster⟩ := hdone
  refine ⟨hown.step op, ?_⟩
  rw [step_broadcaster hown, hbroadcaster, onBroadcaster_concat]
  cases hop : op.onBroadcaster with
  | none => simp
  | some changed => simp [EventBroadcaster.run, Run.final_concat]

/-! ### A stream over a whole run -/

/-- The filter that a stream has after these operations. -/
def filterAfter (filter : EventFilter) (stream : Nat) (later : List (Op Value)) : EventFilter :=
  (filtersSet stream later).getLastD filter

/-- The events a stream has gone through, each with the operations before the poll that came to it. -/
structure Judges (subscriptionId : SubscriptionId) (filter : EventFilter) (stream : Nat) (later : List (Op Value))
    (judged : List (List (Op Value) × ClusterEvent Value)) (monitor : EventMonitor Value) : Prop where
  reading : monitor.streams[stream]? =
    some { receiver := ⟨stream, judged.length⟩, filter := filterAfter filter stream later, subscriptionId }
  sent : judged.map Prod.snd <+: EventBroadcaster.window subscriptionId stream (onBroadcaster later)
  polled : ∀ event ∈ judged, ∃ op rest, later = event.1 ++ op :: rest ∧ op.Polls stream
  ordered : judged.Pairwise fun first second => first.1 <+: second.1
  yielded : yieldedBy stream monitor =
    (judged.filter fun event => (filterAfter filter stream event.1).matches event.2).map Prod.snd

structure Follows (subscriptionId : SubscriptionId) (filter : EventFilter) (stream : Nat) (later : List (Op Value))
    (monitor : EventMonitor Value) : Prop where
  own : Own monitor
  serves : EventBroadcaster.Serves subscriptionId stream (onBroadcaster later) monitor.broadcaster
  judges : ∃ judged, Judges subscriptionId filter stream later judged monitor

variable {later : List (Op Value)} {judged : List (List (Op Value) × ClusterEvent Value)}

theorem unread_of_serves (h : EventBroadcaster.Serves subscriptionId stream (onBroadcaster later) monitor.broadcaster)
    (taken : Nat) :
    monitor.unread ⟨stream, taken⟩ =
      (EventBroadcaster.window subscriptionId stream (onBroadcaster later)).drop taken := by
  obtain ⟨receiving, hchannel, _⟩ := h.sent
  simp [unread, hchannel]

theorem unread_drop (taken count : Nat) :
    monitor.unread ⟨stream, taken + count⟩ = (monitor.unread ⟨stream, taken⟩).drop count := by
  cases hchannel : monitor.broadcaster.channels[stream]? <;> simp [unread, hchannel]

theorem ended_of_serves (h : EventBroadcaster.Serves subscriptionId stream (onBroadcaster later) monitor.broadcaster)
    (taken : Nat) :
    monitor.ended ⟨stream, taken⟩ = EventBroadcaster.endedBy subscriptionId stream (onBroadcaster later) := by
  obtain ⟨receiving, hchannel, hended⟩ := h.sent
  simpa [ended, hchannel] using hended

theorem Judges.left (h : Judges subscriptionId filter stream later judged monitor)
    (hserves : EventBroadcaster.Serves subscriptionId stream (onBroadcaster later) monitor.broadcaster) :
    judged.map Prod.snd ++ monitor.left stream =
      EventBroadcaster.window subscriptionId stream (onBroadcaster later) := by
  rw [EventMonitor.left, h.reading, Option.map_some, Option.getD_some, unread_of_serves hserves]
  simpa using List.prefix_iff_eq_append.mp h.sent

theorem filterAfter_concat (op : Op Value) :
    filterAfter filter stream (later ++ [op]) = (op.sets stream).getD (filterAfter filter stream later) := by
  cases hsets : op.sets stream <;> simp [filterAfter, filtersSet, hsets]

theorem serves_concat (hown : Own monitor) (op : Op Value)
    (h : EventBroadcaster.Serves subscriptionId stream (onBroadcaster later) monitor.broadcaster) :
    EventBroadcaster.Serves subscriptionId stream (onBroadcaster (later ++ [op])) (step monitor op).broadcaster := by
  rw [step_broadcaster hown, onBroadcaster_concat]
  cases hop : op.onBroadcaster with
  | none => simpa using h
  | some changed => exact h.step changed

theorem window_mono (op : Op Value) :
    EventBroadcaster.window subscriptionId stream (onBroadcaster later) <+:
      EventBroadcaster.window subscriptionId stream (onBroadcaster (later ++ [op])) := by
  rw [onBroadcaster_concat]
  cases hop : op.onBroadcaster with
  | none => simp
  | some changed =>
      rw [Option.toList_some, EventBroadcaster.window_concat]
      exact List.prefix_append _ _

theorem passes_prefix (stream : Nat) (op : Op Value) (filter : EventFilter) (unread : List (ClusterEvent Value)) :
    op.passes stream filter unread <+: unread := by
  cases op with
  | tryNext polled => by_cases hpolled : polled = stream <;> simp [Op.passes, hpolled, passed, List.take_prefix]
  | pollNext polled => by_cases hpolled : polled = stream <;> simp [Op.passes, hpolled, passed, List.take_prefix]
  | subscribe _ _ | unsubscribe _ | broadcast _ | setFilter _ _ | close _ => exact List.nil_prefix

theorem Follows.step (h : Follows subscriptionId filter stream later monitor) (op : Op Value) :
    Follows subscriptionId filter stream (later ++ [op]) (EventMonitor.step monitor op) := by
  obtain ⟨judged, hjudges⟩ := h.judges
  refine ⟨h.own.step op, serves_concat h.own op h.serves, ?_⟩
  have hunread := unread_of_serves h.serves judged.length
  have hpassed := passes_prefix stream op (filterAfter filter stream later) (monitor.unread ⟨stream, judged.length⟩)
  refine ⟨judged ++ (op.passes stream (filterAfter filter stream later) (monitor.unread ⟨stream, judged.length⟩)).map
    fun event => (later, event), ?_, ?_, ?_, ?_, ?_⟩
  · rw [streams_step op hjudges.reading, filterAfter_concat]
    simp [Op.leaves, EventStream.after]
  · refine List.IsPrefix.trans ?_ (window_mono op)
    have hsent := List.prefix_iff_eq_append.mp hjudges.sent
    rw [List.length_map] at hsent
    rw [hunread] at hpassed
    rw [List.map_append, ← hsent, hunread, List.map_map, show Prod.snd ∘ _ = id from rfl, List.map_id]
    exact (List.prefix_append_right_inj _).mpr hpassed
  · intro event hmem
    obtain hjudged | hnew := List.mem_append.mp hmem
    · obtain ⟨poll, rest, hlater, hpolls⟩ := hjudges.polled event hjudged
      exact ⟨poll, rest ++ [op], by rw [hlater, List.append_assoc, List.cons_append], hpolls⟩
    · obtain ⟨passing, hpassing, rfl⟩ := List.mem_map.mp hnew
      exact ⟨op, [], rfl, Op.polls_of_passes hpassing⟩
  · refine List.pairwise_append.mpr ⟨hjudges.ordered, ?_, fun first hfirst second hsecond => ?_⟩
    · exact List.pairwise_map.mpr (List.pairwise_of_forall fun _ _ => List.prefix_rfl)
    · obtain ⟨_, rest, hlater, _⟩ := hjudges.polled first hfirst
      obtain ⟨_, _, rfl⟩ := List.mem_map.mp hsecond
      exact ⟨_, hlater.symm⟩
  · rw [yieldedBy_step op hjudges.reading, hjudges.yielded, List.filter_append, List.map_append, List.filter_map, List.map_map]
    simp [Function.comp_def]

theorem follows_run (earlier : List (Op Value)) (subscriptionId : SubscriptionId) (filter : EventFilter)
    (later : List (Op Value)) :
    Follows subscriptionId filter (run earlier).streams.length later
      (run (earlier ++ .subscribe subscriptionId filter :: later)) := by
  have hown := own_run earlier
  have hseparate : (run earlier).broadcaster.Separate := by
    rw [broadcaster_run]
    exact EventBroadcaster.separate_run _
  have hserves : EventBroadcaster.Serves subscriptionId (run earlier).streams.length []
      ((run earlier).broadcaster.subscribe subscriptionId).2 := by
    have hattached := EventBroadcaster.attached_subscribe hseparate subscriptionId
    rw [← hown.count] at hattached
    simpa [EventBroadcaster.Serves, EventBroadcaster.endedBy, EventBroadcaster.window] using hattached
  have hnone : yieldedBy (run earlier).streams.length (run earlier) = [] := by
    refine List.filterMap_eq_nil_iff.mpr fun event hmem => ?_
    have hmade := hown.made event hmem
    exact if_neg hmade.ne
  have hrun : run (earlier ++ .subscribe subscriptionId filter :: later) =
      Run.final step (step (run earlier) (.subscribe subscriptionId filter)) later := by
    rw [run, Run.final_append, Run.final_cons, ← run]
  rw [hrun]
  refine Run.final_history (Follows subscriptionId filter (run earlier).streams.length) (fun _ _ op h => h.step op) ?_ later
  refine ⟨hown.step _, hserves, [], getElem?_streams_length hown subscriptionId filter, ?_, ?_, .nil, hnone⟩
  · simp
  · simp

end EventMonitor

/-! ### The history -/

namespace EventHistory

/-- The events added since the history was last cleared. -/
def Op.keep (added : List (ClusterEvent Value)) : Op Value → List (ClusterEvent Value)
  | .addEvent event => added ++ [event]
  | .clear => []

/-- The history holds the last of the events added, as many as there is room for, and answers from these. -/
theorem history_keeps (maxEvents : Nat) (ops : List (Op Value)) :
    let history := Run.final step (new maxEvents) ops
    let added := ops.foldl Op.keep []
    history.events = added.drop (added.length - maxEvents) ∧
    (∀ filter, history.query filter = (added.drop (added.length - maxEvents)).filter filter.matches) ∧
    ∀ count, history.recentEvents count = added.drop (added.length - min count maxEvents) := by
  intro history added
  have hkept : history.maxEvents = maxEvents ∧ history.events = added.drop (added.length - maxEvents) := by
    refine Run.final_history (fun done (history : EventHistory Value) => history.maxEvents = maxEvents ∧
      history.events = (done.foldl Op.keep []).drop ((done.foldl Op.keep []).length - maxEvents)) ?_ ⟨rfl, by simp [new]⟩ ops
    intro done history op hdone
    obtain ⟨hmax, hevents⟩ := hdone
    refine ⟨by cases op <;> exact hmax, ?_⟩
    rw [List.foldl_append, List.foldl_cons, List.foldl_nil]
    generalize done.foldl Op.keep [] = kept at hevents
    cases op with
    | clear => simp [step, clear, Op.keep]
    | addEvent event =>
        simp only [step, addEvent, Op.keep, hmax, hevents, List.length_append, List.length_drop, List.length_singleton]
        split_ifs with hfull
        · rw [← List.drop_append_of_le_length (Nat.sub_le _ _), List.drop_drop]
          congr 1
          omega
        · rw [← List.drop_append_of_le_length (Nat.sub_le _ _)]
          congr 1
          omega
  refine ⟨hkept.2, fun filter => by rw [query, hkept.2], fun count => ?_⟩
  rw [recentEvents, hkept.2, List.drop_drop, List.length_drop]
  congr 1
  split_ifs <;> omega

end EventHistory

end IrohRaft.Management
