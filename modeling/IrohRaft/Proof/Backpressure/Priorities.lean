import IrohRaft.Proof.Backpressure.Counters

/-!
# The order in which the four queues are received from

A call polls the queues from the highest priority down, and then waits on the highest one alone. A message
that gets onto a queue after its poll is not seen by the call any more: the call may return one of a lower
priority, or wait while there are messages. Where none does, each call takes the oldest message of the highest
priority there is.
-/

namespace IrohRaft

namespace Backpressure

open Rust

variable {T : Type} {config : BackpressureConfig} {manager : PriorityBackpressureManager T} {reception : Reception T}
  {channel : Channel T} {message : PrioritizedMessage T} {rest : List (PrioritizedMessage T)} {priority other : Priority}
  {now : UInt64}

open PriorityBackpressureManager

/-- `priority as usize`. -/
def Priority.index : Priority → Nat
  | .low => 0
  | .normal => 1
  | .high => 2
  | .critical => 3

/-- Where a call goes on from a queue that is empty. -/
def Receiver.following (priority : Priority) : Receiver T :=
  match priority.next with
  | some next => .polling next
  | none => .awaiting

/-- The call in progress will not look at this queue again. -/
def Receiver.HasPolled : Receiver T → Priority → Prop
  | .ready _, _ => False
  | .polling priority, other => priority.index < other.index
  | .awaiting, other => other ≠ .critical

/-- The call in progress finds a message at its next turn. -/
def Reception.Finds (reception : Reception T) : Prop :=
  match reception.receiver with
  | .ready _ => False
  | .polling priority => (reception.manager.channel priority).queue ≠ []
  | .awaiting => (reception.manager.channel .critical).queue ≠ []

/-- The call returns the oldest message of the highest priority, and nothing else changes. -/
structure TakesHighest (priority : Priority) (message : PrioritizedMessage T) (rest : List (PrioritizedMessage T))
    (before after : Reception T) : Prop where
  queue : (before.manager.channel priority).queue = message :: rest
  highest : ∀ higher, priority.index < higher.index → (before.manager.channel higher).queue = []
  returned : after.receiver = .ready (some (.ok (some message)))
  removed : (after.manager.channel priority).queue = rest
  others : ∀ other, other ≠ priority → after.manager.channel other = before.manager.channel other

/-! ### Turns of a call -/

theorem received_of_small (h : SmallLatency channel) (message : PrioritizedMessage T) (now : UInt64) :
    ∃ channel', Channel.received message now channel = (.ok message, channel') ∧ channel'.queue = channel.queue := by
  obtain ⟨average, hrecord, _⟩ := recordLatency_ok h message now
  exact ⟨_, received_of_ok hrecord, rfl⟩

theorem recvPrioritized_polling_nil (h : (manager.channel priority).queue = []) :
    manager.recvPrioritized now (.polling priority) = some (manager, .following priority) := by
  obtain ⟨error, herror⟩ := tryRecv_nil now h
  rw [recvPrioritized, herror]
  dsimp only
  rw [setChannel_self]
  rfl

theorem recvPrioritized_polling_cons (hsmall : SmallLatency (manager.channel priority))
    (h : (manager.channel priority).queue = message :: rest) :
    ∃ channel, manager.recvPrioritized now (.polling priority) =
        some (manager.setChannel priority channel, .ready (some (.ok (some message)))) ∧ channel.queue = rest := by
  obtain ⟨channel, hreceived, hqueue⟩ :=
    received_of_small (show SmallLatency { manager.channel priority with queue := rest } from hsmall) message now
  refine ⟨channel, ?_, hqueue⟩
  rw [recvPrioritized, tryRecv_cons h, hreceived]

theorem recvPrioritized_awaiting_nil (h : (manager.channel .critical).queue = []) :
    manager.recvPrioritized now .awaiting =
      if (manager.channel .critical).sendersAlive then none else some (manager, .ready (some (.ok none))) := by
  rw [recvPrioritized, recv_nil h]
  cases (manager.channel .critical).sendersAlive with
  | true => rfl
  | false =>
      show some (manager.setChannel .critical (manager.channel .critical), _) = some (manager, _)
      rw [setChannel_self]

theorem recvPrioritized_awaiting_cons (hsmall : SmallLatency (manager.channel .critical))
    (h : (manager.channel .critical).queue = message :: rest) :
    ∃ channel, manager.recvPrioritized now .awaiting =
        some (manager.setChannel .critical channel, .ready (some (.ok (some message)))) ∧ channel.queue = rest := by
  obtain ⟨channel, hreceived, hqueue⟩ :=
    received_of_small (show SmallLatency { manager.channel .critical with queue := rest } from hsmall) message now
  refine ⟨channel, ?_, hqueue⟩
  rw [recvPrioritized, recv_cons h, hreceived]
  rfl

/-! ### Steps -/

/-- What a call has polled and not taken from is empty. -/
def Ordered (reception : Reception T) : Prop :=
  ∀ priority, reception.receiver.HasPolled priority → (reception.manager.channel priority).queue = []

/-- No message gets onto a queue that the call in progress has polled, but for the one it waits on. -/
def Timely (reception : Reception T) (event : Event T) : Prop :=
  ∀ priority, reception.receiver.HasPolled priority →
    ¬ Accepts (reception.manager.channel priority) ((reception.step event).manager.channel priority)

theorem Receiver.hasPolled_following (h : (Receiver.following priority : Receiver T).HasPolled other) :
    other = priority ∨ priority.index < other.index := by
  cases priority with
  | low => cases other <;> first | exact .inl rfl | exact .inr (by decide)
  | _ =>
      have hbelow : _ < other.index := h
      cases other <;> first | exact .inl rfl | exact .inr (by decide) | exact absurd hbelow (by decide)

theorem queue_eq_nil_of_not_accepts {before after : Channel T} (h : before.queue = []) (hnot : ¬ Accepts before after) :
    after.queue = [] := by
  rw [Accepts, h] at hnot
  exact List.length_eq_zero_iff.mp (Nat.le_zero.mp (Nat.not_lt.mp hnot))

/-- A turn that finds nothing changes no queue, and goes on to the next one. -/
theorem Reception.step_receive_of_not_finds (h : ¬ reception.Finds) (now : UInt64) :
    (reception.step (.receive now)).manager = reception.manager ∧
      ((reception.step (.receive now)).receiver = reception.receiver ∨
        ∀ message, (reception.step (.receive now)).receiver ≠ .ready (some (.ok (some message)))) := by
  obtain ⟨manager, receiver⟩ := reception
  cases receiver with
  | ready last => exact ⟨rfl, .inl rfl⟩
  | polling priority =>
      have hempty : (manager.channel priority).queue = [] := Decidable.not_not.mp h
      rw [Reception.step, recvPrioritized_polling_nil hempty]
      refine ⟨rfl, .inr fun message => ?_⟩
      cases priority <;> simp [Receiver.following, Priority.next]
  | awaiting =>
      have hempty : (manager.channel .critical).queue = [] := Decidable.not_not.mp h
      rw [Reception.step, recvPrioritized_awaiting_nil hempty]
      cases (manager.channel .critical).sendersAlive with
      | true => exact ⟨rfl, .inl rfl⟩
      | false => exact ⟨rfl, .inr (by simp)⟩

theorem TakesHighest.of_setChannel {receiver : Receiver T} (hordered : Ordered (⟨manager, receiver⟩ : Reception T))
    (hpolled : ∀ higher : Priority, priority.index < higher.index → receiver.HasPolled higher)
    (hqueue : (manager.channel priority).queue = message :: rest) (hrest : channel.queue = rest) :
    TakesHighest priority message rest ⟨manager, receiver⟩
      ⟨manager.setChannel priority channel, .ready (some (.ok (some message)))⟩ where
  queue := hqueue
  highest := fun higher hhigher => hordered higher (hpolled higher hhigher)
  returned := rfl
  removed := by rw [channel_setChannel_self, hrest]
  others := fun _ hother => channel_setChannel_of_ne hother manager channel

/-- A turn that finds a message takes it, and the queues above are empty. -/
theorem Reception.step_receive_of_finds (hordered : Ordered reception)
    (hsmall : ∀ priority, SmallLatency (reception.manager.channel priority)) (h : reception.Finds) (now : UInt64) :
    ∃ priority message rest, TakesHighest priority message rest reception (reception.step (.receive now)) := by
  obtain ⟨manager, receiver⟩ := reception
  cases receiver with
  | ready last => exact absurd h id
  | polling priority =>
      obtain ⟨message, rest, hqueue⟩ := List.exists_cons_of_ne_nil h
      obtain ⟨channel, hreceive, hrest⟩ := recvPrioritized_polling_cons (hsmall priority) hqueue
      rw [Reception.step, hreceive]
      exact ⟨priority, message, rest, .of_setChannel hordered (fun _ hhigher => hhigher) hqueue hrest⟩
  | awaiting =>
      obtain ⟨message, rest, hqueue⟩ := List.exists_cons_of_ne_nil h
      obtain ⟨channel, hreceive, hrest⟩ := recvPrioritized_awaiting_cons (hsmall .critical) hqueue
      rw [Reception.step, hreceive]
      refine ⟨.critical, message, rest, .of_setChannel hordered (fun higher hhigher => ?_) hqueue hrest⟩
      cases higher <;> exact absurd hhigher (by decide)

theorem Ordered.step (h : Ordered reception) (hsmall : ∀ priority, SmallLatency (reception.manager.channel priority))
    {event : Event T} (htimely : Timely reception event) : Ordered (reception.step event) := by
  obtain ⟨manager, receiver⟩ := reception
  cases event with
  | queue priority label =>
      intro other hpolled
      exact queue_eq_nil_of_not_accepts (h other hpolled) (htimely other hpolled)
  | call =>
      intro other hpolled
      cases receiver with
      | ready last =>
          have habove : Priority.critical.index < other.index := hpolled
          cases other <;> exact absurd habove (by decide)
      | _ => exact h other hpolled
  | drop =>
      intro other hpolled
      cases receiver with
      | awaiting => exact absurd hpolled id
      | _ => exact h other hpolled
  | receive now =>
      by_cases hfinds : (⟨manager, receiver⟩ : Reception T).Finds
      · obtain ⟨priority, message, rest, htakes⟩ := Reception.step_receive_of_finds h hsmall hfinds now
        intro other hpolled
        rw [htakes.returned] at hpolled
        exact absurd hpolled id
      intro other hpolled
      rw [(Reception.step_receive_of_not_finds hfinds now).1]
      cases receiver with
      | ready last => exact absurd hpolled id
      | polling priority =>
          have hempty : (manager.channel priority).queue = [] := Decidable.not_not.mp hfinds
          rw [Reception.step, recvPrioritized_polling_nil hempty] at hpolled
          obtain rfl | hhigher := Receiver.hasPolled_following hpolled
          · exact hempty
          · exact h other hhigher
      | awaiting =>
          have hempty : (manager.channel .critical).queue = [] := Decidable.not_not.mp hfinds
          rw [Reception.step, recvPrioritized_awaiting_nil hempty] at hpolled
          cases hsenders : (manager.channel .critical).sendersAlive with
          | true =>
              rw [hsenders] at hpolled
              exact h other hpolled
          | false =>
              rw [hsenders] at hpolled
              exact absurd hpolled id

/-! ### Runs -/

theorem run_ordered (h : PriorityBackpressureManager.new T config = .ok manager) {events : List (Event T)}
    (htimely : Run.Follows Reception.step Timely ⟨manager, .ready none⟩ events) :
    Ordered (Run.final Reception.step ⟨manager, .ready none⟩ events) := by
  obtain ⟨channel, hchannel, rfl⟩ := new_eq_ok h
  refine (htimely.invariant
    (fun reception => Ordered reception ∧ ∀ priority,
      Conserved { config with maxPending := config.maxPending / 4 } (reception.manager.queues priority))
    (fun reception event hholds htimely => ?_) ⟨fun _ hpolled => absurd hpolled id, fun _ => Conserved.start hchannel⟩).1
  obtain ⟨hordered, hconserved⟩ := hholds
  exact ⟨hordered.step (fun priority => (hconserved priority).small) htimely, Reception.conserved_step hconserved event⟩

/-- In a run in which no message gets onto a queue that the call in progress has polled, the receiver waits for the highest
queue only when the others are empty, and each call takes the oldest message of the highest queue that has one. -/
theorem receives_highest (h : PriorityBackpressureManager.new T config = .ok manager) {events : List (Event T)}
    (htimely : Run.Follows Reception.step Timely ⟨manager, .ready none⟩ events) :
    let reception := Run.final Reception.step ⟨manager, .ready none⟩ events
    (reception.receiver = .awaiting → ∀ priority, priority ≠ .critical → (reception.manager.channel priority).queue = []) ∧
    (reception.Finds → ∀ now, ∃ priority message rest,
      TakesHighest priority message rest reception (reception.step (.receive now))) ∧
    (¬ reception.Finds → ∀ now, (reception.step (.receive now)).manager = reception.manager ∧
      ((reception.step (.receive now)).receiver = reception.receiver ∨
        ∀ message, (reception.step (.receive now)).receiver ≠ .ready (some (.ok (some message))))) := by
  intro reception
  have hordered : Ordered reception := run_ordered h htimely
  have hsmall : ∀ priority, SmallLatency (reception.manager.channel priority) := fun priority =>
    (Reception.conserved_run h (.ready none) events priority).small
  refine ⟨fun hawaiting priority hpriority => hordered priority ?_,
    fun hfinds => Reception.step_receive_of_finds hordered hsmall hfinds, fun hnot => Reception.step_receive_of_not_finds hnot⟩
  rw [hawaiting]
  exact hpriority

def sampleManager : PriorityBackpressureManager UInt8 := { queues := fun _ => ⟨sampleChannel, []⟩ }

/-- A message of the lowest priority is sent. -/
def lowSend : List (Event UInt8) :=
  [.queue .low (.spawn (.send 7 .low)), .queue .low (.turn 0 (.proceed 0)), .queue .low (.turn 0 (.proceed 1))]

/-- A call polls the four queues. -/
def polls : List (Event UInt8) := [.call, .receive 2, .receive 3, .receive 4, .receive 5]

/-- A call that is made after the message was sent comes to it. -/
theorem receives_highest_sent :
    let reception := Run.final Reception.step ⟨sampleManager, .ready none⟩ (lowSend ++ [.call, .receive 2, .receive 3, .receive 4])
    ∃ priority message rest, TakesHighest priority message rest reception (reception.step (.receive 5)) := by
  intro reception
  have hnew : PriorityBackpressureManager.new UInt8 { sampleConfig with maxPending := 8 } = .ok sampleManager := rfl
  have hfinds : reception.Finds := List.cons_ne_nil _ _
  refine (receives_highest hnew ?_).2.1 hfinds 5
  refine ⟨fun _ h => absurd h id, fun _ h => absurd h id, fun _ h => absurd h id, fun _ h => absurd h id, ?_⟩
  refine ⟨fun priority _ => ?_, fun priority _ => ?_, fun priority _ => ?_, trivial⟩ <;>
    cases priority <;> exact Nat.lt_irrefl _

/-- A call that has polled them waits while the message is there. -/
theorem not_receives_highest :
    ¬ ∀ (manager : PriorityBackpressureManager UInt8) (events : List (Event UInt8)),
      PriorityBackpressureManager.new UInt8 { sampleConfig with maxPending := 8 } = .ok manager →
      let reception := Run.final Reception.step ⟨manager, .ready none⟩ events
      reception.receiver = .awaiting → ∀ priority, priority ≠ .critical → (reception.manager.channel priority).queue = [] := by
  intro h
  have hqueue := h sampleManager (polls ++ lowSend) rfl rfl .low (by decide)
  exact absurd hqueue (by decide)

end Backpressure

end IrohRaft
