import IrohRaft.Management.Events

/-!
# What a subscriber receives

Each subscriber has a channel of its own, so a broadcast sends to a channel once. From its subscription on a
channel is sent every event, until its id is taken away from it or its receiver is gone; from then on it is
sent nothing more.
-/

namespace IrohRaft.Management

open Rust

namespace EventBroadcaster

variable {ε : Type}

/-! ### One broadcast -/

/-- What the channel holds when an event has been sent to it. -/
def offer (event : ε) (sender : UnboundedSender ε) : UnboundedSender ε :=
  if sender.receiving then { sender with sent := sender.sent ++ [event] } else sender

/-- The receiver of this channel is gone. -/
def closedAt (channels : List (UnboundedSender ε)) (receiver : Nat) : Bool :=
  (channels[receiver]?.map fun sender => !sender.receiving).getD false

theorem offer_receiving (event : ε) (sender : UnboundedSender ε) : (offer event sender).receiving = sender.receiving := by
  rw [offer]
  split_ifs <;> simp

theorem getElem?_modify_if {α : Type} (change : α → α) (entries : List α) (i j : Nat) :
    (entries.modify i change)[j]? = entries[j]?.map (if i = j then change else id) := by
  rw [List.getElem?_modify]
  split_ifs
  · rfl
  · cases entries[j]? <;> simp

theorem closedAt_modify (event : ε) (channels : List (UnboundedSender ε)) (sentTo receiver : Nat) :
    closedAt (channels.modify sentTo (offer event)) receiver = closedAt channels receiver := by
  rw [closedAt, closedAt, getElem?_modify_if]
  split_ifs
  · cases channels[receiver]? <;> simp [offer_receiving]
  · simp

theorem sendTo_eq (event : ε) (channels : List (UnboundedSender ε)) (closed : List SubscriptionId)
    (subscriber : SubscriptionId × Nat) :
    sendTo event (channels, closed) subscriber =
      (channels.modify subscriber.2 (offer event),
        closed ++ if closedAt channels subscriber.2 then [subscriber.1] else []) := by
  cases hsender : channels[subscriber.2]? with
  | none => simp [sendTo, closedAt, hsender, List.modify_eq_set_getElem?]
  | some sender =>
      cases hreceiving : sender.receiving <;>
        simp [sendTo, closedAt, hsender, List.modify_eq_set_getElem?, UnboundedSender.send, offer, hreceiving]

/-- The loop sends to the channels one after another, and collects the subscribers whose receivers are gone. -/
theorem foldl_sendTo (event : ε) (subscribers : List (SubscriptionId × Nat)) (channels : List (UnboundedSender ε))
    (closed : List SubscriptionId) :
    subscribers.foldl (sendTo event) (channels, closed) =
      (subscribers.foldl (fun channels subscriber => channels.modify subscriber.2 (offer event)) channels,
        closed ++ (subscribers.filter fun subscriber => closedAt channels subscriber.2).map Prod.fst) := by
  induction subscribers generalizing channels closed with
  | nil => simp
  | cons subscriber rest ih =>
      rw [List.foldl_cons, sendTo_eq, ih, List.foldl_cons]
      congr 1
      simp only [closedAt_modify, List.filter_cons]
      split_ifs <;> simp

/-- Where the subscribers' channels are different ones, each of them is sent the event once. -/
theorem getElem?_foldl_modify (event : ε) {subscribers : List (SubscriptionId × Nat)}
    (hnodup : (subscribers.map Prod.snd).Nodup) (channels : List (UnboundedSender ε)) (receiver : Nat) :
    (subscribers.foldl (fun channels subscriber => channels.modify subscriber.2 (offer event)) channels)[receiver]? =
      channels[receiver]?.map (if receiver ∈ subscribers.map Prod.snd then offer event else id) := by
  induction subscribers generalizing channels with
  | nil => simp
  | cons subscriber rest ih =>
      obtain ⟨hfirst, hrest⟩ := List.nodup_cons.mp hnodup
      rw [List.foldl_cons, ih hrest, getElem?_modify_if]
      by_cases hhere : subscriber.2 = receiver
      · rw [if_pos hhere, if_neg (hhere ▸ hfirst), if_pos (by simp [hhere])]
        simp
      · have hmem : receiver ∈ (subscriber :: rest).map Prod.snd ↔ receiver ∈ rest.map Prod.snd := by
          rw [List.map_cons, List.mem_cons, or_iff_right (Ne.symm hhere)]
        rw [if_neg hhere, if_congr hmem rfl rfl]
        simp

theorem getElem?_foldl_erase (closed : List SubscriptionId) (subscribers : HashMap SubscriptionId Nat)
    (subscriptionId : SubscriptionId) :
    (closed.foldl (fun subscribers subscriptionId => subscribers.erase subscriptionId) subscribers)[subscriptionId]? =
      if subscriptionId ∈ closed then none else subscribers[subscriptionId]? := by
  induction closed generalizing subscribers with
  | nil => simp
  | cons first rest ih =>
      rw [List.foldl_cons, ih, HashMap.getElem?_erase_if]
      by_cases hfirst : first = subscriptionId
      · simp [hfirst]
      · simp [hfirst, Ne.symm hfirst]

/-- Every subscriber has a channel, and no two have the same. -/
structure Separate (broadcaster : EventBroadcaster ε) : Prop where
  made : ∀ (subscriptionId : SubscriptionId) (receiver : Nat),
    broadcaster.subscribers[subscriptionId]? = some receiver → receiver < broadcaster.channels.length
  own : ∀ (subscriptionId other : SubscriptionId) (receiver : Nat), broadcaster.subscribers[subscriptionId]? = some receiver →
    broadcaster.subscribers[other]? = some receiver → subscriptionId = other

/-- A subscriber is removed by a broadcast exactly if its receiver is gone. -/
theorem broadcast_subscribers (event : ε) (broadcaster : EventBroadcaster ε) (subscriptionId : SubscriptionId) :
    (broadcaster.broadcast event).subscribers[subscriptionId]? =
      broadcaster.subscribers[subscriptionId]?.filter fun receiver => !closedAt broadcaster.channels receiver := by
  have hclosed : subscriptionId ∈ (broadcaster.subscribers.toList.filter
      fun subscriber => closedAt broadcaster.channels subscriber.2).map Prod.fst ↔
      ∃ receiver, broadcaster.subscribers[subscriptionId]? = some receiver ∧ closedAt broadcaster.channels receiver := by
    simp [Std.ExtTreeMap.mem_toList_iff_getElem?_eq_some]
  simp only [broadcast, foldl_sendTo, getElem?_foldl_erase, List.nil_append]
  rw [if_congr hclosed rfl rfl]
  cases hreceiver : broadcaster.subscribers[subscriptionId]? with
  | none => simp
  | some receiver => cases hgone : closedAt broadcaster.channels receiver <;> simp [Option.filter, hgone]

theorem Separate.nodup {broadcaster : EventBroadcaster ε} (h : broadcaster.Separate) :
    (broadcaster.subscribers.toList.map Prod.snd).Nodup := by
  refine List.pairwise_map.mpr (List.Pairwise.imp_of_mem ?_ Std.ExtTreeMap.distinct_keys_toList)
  intro first second hfirst hsecond hne hsame
  have hkey := h.own first.1 second.1 second.2
    (hsame ▸ Std.ExtTreeMap.mem_toList_iff_getElem?_eq_some.mp hfirst)
    (Std.ExtTreeMap.mem_toList_iff_getElem?_eq_some.mp hsecond)
  exact hne (Std.LawfulEqCmp.compare_eq_iff_eq.mpr hkey)

theorem broadcast_channels_of_subscribed (event : ε) {broadcaster : EventBroadcaster ε} (hseparate : broadcaster.Separate)
    {subscriptionId : SubscriptionId} {receiver : Nat} (h : broadcaster.subscribers[subscriptionId]? = some receiver) :
    (broadcaster.broadcast event).channels[receiver]? = broadcaster.channels[receiver]?.map (offer event) := by
  have hmem : receiver ∈ broadcaster.subscribers.toList.map Prod.snd :=
    List.mem_map.mpr ⟨(subscriptionId, receiver), Std.ExtTreeMap.mem_toList_iff_getElem?_eq_some.mpr h, rfl⟩
  simp only [broadcast, foldl_sendTo]
  rw [getElem?_foldl_modify event hseparate.nodup, if_pos hmem]

theorem broadcast_channels_of_not_subscribed (event : ε) {broadcaster : EventBroadcaster ε}
    (hseparate : broadcaster.Separate) {receiver : Nat}
    (h : ∀ subscriptionId : SubscriptionId, broadcaster.subscribers[subscriptionId]? ≠ some receiver) :
    (broadcaster.broadcast event).channels[receiver]? = broadcaster.channels[receiver]? := by
  have hmem : receiver ∉ broadcaster.subscribers.toList.map Prod.snd := by
    intro hmem
    obtain ⟨subscriber, hsubscriber, rfl⟩ := List.mem_map.mp hmem
    exact h subscriber.1 (Std.ExtTreeMap.mem_toList_iff_getElem?_eq_some.mp hsubscriber)
  simp only [broadcast, foldl_sendTo]
  rw [getElem?_foldl_modify event hseparate.nodup, if_neg hmem]
  simp

theorem broadcast_length (event : ε) (broadcaster : EventBroadcaster ε) :
    (broadcaster.broadcast event).channels.length = broadcaster.channels.length := by
  simp only [broadcast, foldl_sendTo]
  generalize broadcaster.subscribers.toList = subscribers
  generalize broadcaster.channels = channels
  induction subscribers generalizing channels with
  | nil => rfl
  | cons subscriber rest ih => rw [List.foldl_cons, ih, List.length_modify]

/-! ### Every operation -/

/-- Subscribers that are there before, and no fewer channels. -/
theorem Separate.mono {broadcaster broadcaster' : EventBroadcaster ε} (h : broadcaster.Separate)
    (hsubscribers : ∀ (subscriptionId : SubscriptionId) (receiver : Nat),
      broadcaster'.subscribers[subscriptionId]? = some receiver → broadcaster.subscribers[subscriptionId]? = some receiver)
    (hlength : broadcaster.channels.length ≤ broadcaster'.channels.length) : broadcaster'.Separate where
  made := fun subscriptionId receiver hreceiver => by
    have hlt := h.made subscriptionId receiver (hsubscribers subscriptionId receiver hreceiver)
    omega
  own := fun subscriptionId other receiver hreceiver hother =>
    h.own subscriptionId other receiver (hsubscribers subscriptionId receiver hreceiver) (hsubscribers other receiver hother)

theorem subscribers_unsubscribe {broadcaster : EventBroadcaster ε} {removed subscriptionId : SubscriptionId} {receiver : Nat}
    (h : (broadcaster.unsubscribe removed).subscribers[subscriptionId]? = some receiver) :
    removed ≠ subscriptionId ∧ broadcaster.subscribers[subscriptionId]? = some receiver := by
  rw [unsubscribe, HashMap.getElem?_erase_if] at h
  split_ifs at h with hsame
  exact ⟨hsame, h⟩

theorem subscribers_broadcast {broadcaster : EventBroadcaster ε} {event : ε} {subscriptionId : SubscriptionId} {receiver : Nat}
    (h : (broadcaster.broadcast event).subscribers[subscriptionId]? = some receiver) :
    broadcaster.subscribers[subscriptionId]? = some receiver := by
  rw [broadcast_subscribers] at h
  exact (Option.filter_eq_some_iff.mp h).1

/-- A subscriber after a subscription is the new one, with the new channel, or one from before. -/
theorem subscribers_subscribe {broadcaster : EventBroadcaster ε} {added subscriptionId : SubscriptionId} {receiver : Nat}
    (h : (broadcaster.subscribe added).2.subscribers[subscriptionId]? = some receiver) :
    added = subscriptionId ∧ receiver = broadcaster.channels.length ∨
      added ≠ subscriptionId ∧ broadcaster.subscribers[subscriptionId]? = some receiver := by
  simp only [subscribe, HashMap.getElem?_insert_if] at h
  split_ifs at h with hsame
  · exact Or.inl ⟨hsame, (Option.some.inj h).symm⟩
  · exact Or.inr ⟨hsame, h⟩

theorem separate_subscribe {broadcaster : EventBroadcaster ε} (h : broadcaster.Separate) (added : SubscriptionId) :
    (broadcaster.subscribe added).2.Separate where
  made := fun subscriptionId receiver hreceiver => by
    have hlength : (broadcaster.subscribe added).2.channels.length = broadcaster.channels.length + 1 := by simp [subscribe]
    obtain hnew | hold := subscribers_subscribe hreceiver
    · omega
    · have hlt := h.made subscriptionId receiver hold.2
      omega
  own := fun subscriptionId other receiver hreceiver hother => by
    obtain hnew | hold := subscribers_subscribe hreceiver
    · obtain hnew' | hold' := subscribers_subscribe hother
      · exact hnew.1.symm.trans hnew'.1
      · have hlt := h.made other receiver hold'.2
        omega
    · obtain hnew' | hold' := subscribers_subscribe hother
      · have hlt := h.made subscriptionId receiver hold.2
        omega
      · exact h.own subscriptionId other receiver hold.2 hold'.2

theorem separate_step {broadcaster : EventBroadcaster ε} (h : broadcaster.Separate) (op : Op ε) :
    (step broadcaster op).Separate := by
  cases op with
  | subscribe added => exact separate_subscribe h added
  | unsubscribe removed => exact h.mono (fun _ _ hreceiver => (subscribers_unsubscribe hreceiver).2) le_rfl
  | broadcast event =>
      exact h.mono (fun _ _ hreceiver => subscribers_broadcast hreceiver) (broadcast_length event broadcaster).ge
  | dropReceiver receiver =>
      refine h.mono (fun _ _ hreceiver => hreceiver) ?_
      simp [step, dropReceiver]

theorem separate_run (ops : List (Op ε)) : (run ops).Separate :=
  Run.final_invariant Separate (fun op _ _ h => separate_step h op) ⟨by simp [new], by simp [new]⟩

/-! ### Windows -/

/-- The operation takes the id away from the subscriber, or its receiver. -/
def Op.ends (subscriptionId : SubscriptionId) (receiver : Nat) : Op ε → Bool
  | .subscribe added => added = subscriptionId
  | .unsubscribe removed => removed = subscriptionId
  | .broadcast _ => false
  | .dropReceiver dropped => dropped = receiver

def Op.event : Op ε → Option ε
  | .broadcast event => some event
  | _ => none

/-- The events broadcast before the first operation that ends the subscription. -/
def window (subscriptionId : SubscriptionId) (receiver : Nat) (later : List (Op ε)) : List ε :=
  (later.takeWhile fun op => !op.ends subscriptionId receiver).filterMap Op.event

/-- The channel was sent these events, and its subscriber is one it is sent more. -/
structure Attached (subscriptionId : SubscriptionId) (receiver : Nat) (sent : List ε) (broadcaster : EventBroadcaster ε) :
    Prop where
  separate : broadcaster.Separate
  subscribed : broadcaster.subscribers[subscriptionId]? = some receiver
  channel : broadcaster.channels[receiver]? = some { receiving := true, sent }

/-- The channel was sent these events, and it has no subscriber or no receiver any more. -/
structure Silent (receiver : Nat) (sent : List ε) (broadcaster : EventBroadcaster ε) : Prop where
  separate : broadcaster.Separate
  channel : ∃ receiving, broadcaster.channels[receiver]? = some { receiving, sent } ∧
    (receiving = true → ∀ subscriptionId : SubscriptionId, broadcaster.subscribers[subscriptionId]? ≠ some receiver)

theorem getElem?_subscribe {broadcaster : EventBroadcaster ε} {receiver : Nat} {sender : UnboundedSender ε}
    (h : broadcaster.channels[receiver]? = some sender) (added : SubscriptionId) :
    (broadcaster.subscribe added).2.channels[receiver]? = some sender := by
  obtain ⟨hlt, _⟩ := List.getElem?_eq_some_iff.mp h
  simp only [subscribe]
  rw [List.getElem?_append_left hlt, h]

theorem silent_step {receiver : Nat} {sent : List ε} {broadcaster : EventBroadcaster ε}
    (h : Silent receiver sent broadcaster) (op : Op ε) : Silent receiver sent (step broadcaster op) := by
  obtain ⟨receiving, hchannel, hunsubscribed⟩ := h.channel
  refine ⟨separate_step h.separate op, ?_⟩
  cases op with
  | subscribe added =>
      refine ⟨receiving, getElem?_subscribe hchannel added, ?_⟩
      intro hreceiving subscriptionId hsubscribed
      obtain ⟨hlt, _⟩ := List.getElem?_eq_some_iff.mp hchannel
      obtain hnew | hold := subscribers_subscribe hsubscribed
      · omega
      · exact hunsubscribed hreceiving subscriptionId hold.2
  | unsubscribe removed =>
      refine ⟨receiving, hchannel, ?_⟩
      intro hreceiving subscriptionId hsubscribed
      exact hunsubscribed hreceiving subscriptionId (subscribers_unsubscribe hsubscribed).2
  | broadcast event =>
      refine ⟨receiving, ?_, fun hreceiving subscriptionId hsubscribed =>
        hunsubscribed hreceiving subscriptionId (subscribers_broadcast hsubscribed)⟩
      by_cases hsubscribed : ∃ subscriptionId : SubscriptionId, broadcaster.subscribers[subscriptionId]? = some receiver
      · obtain ⟨subscriptionId, hsubscribed⟩ := hsubscribed
        have hgone : receiving = false := by
          by_contra hreceiving
          exact hunsubscribed (by simpa using hreceiving) subscriptionId hsubscribed
        rw [step, broadcast_channels_of_subscribed event h.separate hsubscribed, hchannel]
        simp [offer, hgone]
      · rw [step, broadcast_channels_of_not_subscribed event h.separate (fun subscriptionId hsome =>
          hsubscribed ⟨subscriptionId, hsome⟩)]
        exact hchannel
  | dropReceiver dropped =>
      by_cases hdropped : dropped = receiver
      · refine ⟨false, ?_, fun hreceiving => absurd hreceiving (by simp)⟩
        simp [step, dropReceiver, hdropped, hchannel]
      · refine ⟨receiving, ?_, hunsubscribed⟩
        simp [step, dropReceiver, hdropped, hchannel]

/-- An operation that ends the subscription silences the channel. -/
theorem silent_of_ends {subscriptionId : SubscriptionId} {receiver : Nat} {sent : List ε}
    {broadcaster : EventBroadcaster ε} (h : Attached subscriptionId receiver sent broadcaster) {op : Op ε}
    (hends : op.ends subscriptionId receiver = true) : Silent receiver sent (step broadcaster op) := by
  refine ⟨separate_step h.separate op, ?_⟩
  obtain ⟨hlt, _⟩ := List.getElem?_eq_some_iff.mp h.channel
  cases op with
  | subscribe added =>
      refine ⟨true, getElem?_subscribe h.channel added, ?_⟩
      intro _ other hother
      obtain hnew | hold := subscribers_subscribe hother
      · omega
      · exact hold.1 ((of_decide_eq_true hends).trans (h.separate.own subscriptionId other receiver h.subscribed hold.2))
  | unsubscribe removed =>
      refine ⟨true, h.channel, ?_⟩
      intro _ other hother
      obtain ⟨hne, hold⟩ := subscribers_unsubscribe hother
      exact hne ((of_decide_eq_true hends).trans (h.separate.own subscriptionId other receiver h.subscribed hold))
  | broadcast event => exact absurd hends (by simp [Op.ends])
  | dropReceiver dropped =>
      refine ⟨false, ?_, fun hreceiving => absurd hreceiving (by simp)⟩
      simp [step, dropReceiver, of_decide_eq_true hends, h.channel]

/-- Any other operation leaves the subscriber, and a broadcast sends it its event. -/
theorem attached_of_not_ends {subscriptionId : SubscriptionId} {receiver : Nat} {sent : List ε}
    {broadcaster : EventBroadcaster ε} (h : Attached subscriptionId receiver sent broadcaster) {op : Op ε}
    (hends : op.ends subscriptionId receiver = false) :
    Attached subscriptionId receiver (sent ++ op.event.toList) (step broadcaster op) := by
  refine ⟨separate_step h.separate op, ?_, ?_⟩
  · cases op with
    | subscribe added =>
        simp only [step, subscribe, HashMap.getElem?_insert_if]
        rw [if_neg (of_decide_eq_false hends), h.subscribed]
    | unsubscribe removed =>
        simp only [step, unsubscribe, HashMap.getElem?_erase_if]
        rw [if_neg (of_decide_eq_false hends), h.subscribed]
    | broadcast event =>
        rw [step, broadcast_subscribers, h.subscribed]
        simp [Option.filter, closedAt, h.channel]
    | dropReceiver dropped => exact h.subscribed
  · cases op with
    | subscribe added => simpa [step, Op.event] using getElem?_subscribe h.channel added
    | unsubscribe removed => simpa [step, unsubscribe, Op.event] using h.channel
    | broadcast event =>
        rw [step, broadcast_channels_of_subscribed event h.separate h.subscribed, h.channel]
        simp [offer, Op.event]
    | dropReceiver dropped =>
        simp [step, dropReceiver, of_decide_eq_false hends, h.channel, Op.event]

theorem sent_of_silent {receiver : Nat} {sent : List ε} {broadcaster : EventBroadcaster ε}
    (h : Silent receiver sent broadcaster) (later : List (Op ε)) :
    ((Run.final step broadcaster later).channels[receiver]?.map fun sender => sender.sent) = some sent := by
  have hsilent : Silent receiver sent (Run.final step broadcaster later) :=
    Run.final_invariant (Silent receiver sent) (fun op _ _ h => silent_step h op) h
  obtain ⟨receiving, hchannel, _⟩ := hsilent.channel
  rw [hchannel, Option.map_some]

theorem sent_of_attached {subscriptionId : SubscriptionId} {receiver : Nat} {sent : List ε}
    {broadcaster : EventBroadcaster ε} (h : Attached subscriptionId receiver sent broadcaster) (later : List (Op ε)) :
    ((Run.final step broadcaster later).channels[receiver]?.map fun sender => sender.sent) =
      some (sent ++ window subscriptionId receiver later) := by
  induction later generalizing broadcaster sent with
  | nil => simp [h.channel, window]
  | cons op rest ih =>
      cases hends : op.ends subscriptionId receiver with
      | true =>
          rw [Run.final_cons, sent_of_silent (silent_of_ends h hends)]
          simp [window, hends]
      | false =>
          rw [Run.final_cons, ih (attached_of_not_ends h hends), List.append_assoc]
          congr 2
          simp only [window, List.takeWhile_cons, hends, Bool.not_false, if_true, List.filterMap_cons]
          cases op.event <;> simp

/-- A subscriber's channel is sent the events of its window, each once and in order; and a broadcast removes a subscriber
only if its receiver is gone. -/
theorem subscriber_receives (earlier : List (Op ε)) :
    (∀ (subscriptionId : SubscriptionId) (later : List (Op ε)),
      let receiver := ((run earlier).subscribe subscriptionId).1
      ((run (earlier ++ .subscribe subscriptionId :: later)).channels[receiver]?.map fun sender => sender.sent) =
        some (window subscriptionId receiver later)) ∧
    ∀ (event : ε) (subscriptionId : SubscriptionId),
      (run (earlier ++ [.broadcast event])).subscribers[subscriptionId]? =
        (run earlier).subscribers[subscriptionId]?.filter fun receiver => !closedAt (run earlier).channels receiver := by
  refine ⟨?_, ?_⟩
  · intro subscriptionId later receiver
    have hattached : Attached subscriptionId receiver [] (step (run earlier) (.subscribe subscriptionId)) := by
      refine ⟨separate_step (separate_run earlier) _, ?_, ?_⟩
      · simp [step, subscribe, receiver]
      · simp [step, subscribe, receiver]
    rw [run, Run.final_append, Run.final_cons]
    exact sent_of_attached hattached later
  · intro event subscriptionId
    rw [run, Run.final_concat, ← run, step, broadcast_subscribers]

end EventBroadcaster

end IrohRaft.Management
