import IrohRaft.Backpressure
import IrohRaft.Library.Average

/-!
# What a turn does to a channel

A turn acquires a permit, hands a message over, gives a permit back, counts a message that was handed over,
takes a message off the queue, closes the channel, or does none of these (`Move`). What the permits, the
queue and the counters are worth is read off these moves.
-/

namespace IrohRaft

namespace Backpressure

open Rust

variable {T : Type} {channel channel' : Channel T} {point point' : Point T} {message : PrioritizedMessage T}
  {rest : List (PrioritizedMessage T)} {now : UInt64} {input : Input}

/-! ### Latencies -/

/-- The average after a sample, in whole milliseconds. -/
def movingAverage : Nat → Nat → Nat := Average.fromFirst fun old new => (old * 7 + new) / 8

theorem isMean_seven : Average.IsMean fun old new : Nat => (old * 7 + new) / 8 := Average.isMean_weighted 7

theorem movingAverage_lt {old new bound : Nat} (hold : old < bound) (hnew : new < bound) : movingAverage old new < bound :=
  (isMean_seven.fromFirst old new).2.trans_lt (max_lt hold hnew)

/-- Nothing overflows where the average and the sample are small. -/
theorem recordLatency_of_lt {metrics : BackpressureMetrics} {latency : Nat} (hcurrent : metrics.avgLatencyMs.toNat < 2 ^ 61)
    (hlatency : latency / 1000000 < 2 ^ 61) :
    ∃ average : UInt64, metrics.recordLatency latency = .ok { metrics with avgLatencyMs := average } ∧
      average.toNat = movingAverage metrics.avgLatencyMs.toNat (latency / 1000000) := by
  have hms : (UInt64.ofNat (latency / 1000000)).toNat = latency / 1000000 := by
    rw [UInt64.toNat_ofNat']
    exact Nat.mod_eq_of_lt (Nat.lt_trans hlatency (by decide))
  have hstart : metrics.avgLatencyMs = 0 ↔ metrics.avgLatencyMs.toNat = ⊥ := by
    rw [← UInt64.toNat_inj]
    rfl
  rw [movingAverage, Average.fromFirst]
  by_cases hzero : metrics.avgLatencyMs = 0
  · refine ⟨UInt64.ofNat (latency / 1000000), ?_, ?_⟩
    · simp only [BackpressureMetrics.recordLatency, if_pos hzero, Outcome.pure_eq_ok, Outcome.ok_bind]
    · rw [if_pos (hstart.mp hzero), hms]
  · have hseven : metrics.avgLatencyMs.toNat * (7 : UInt64).toNat < 2 ^ 64 := by
      show metrics.avgLatencyMs.toNat * 7 < 2 ^ 64
      omega
    have hweighted : (metrics.avgLatencyMs * 7).toNat = metrics.avgLatencyMs.toNat * 7 := toNat_mul_of_lt hseven
    have hfits : (metrics.avgLatencyMs * 7).toNat + (UInt64.ofNat (latency / 1000000)).toNat < 2 ^ 64 := by
      rw [hweighted, hms]
      omega
    refine ⟨(metrics.avgLatencyMs * 7 + UInt64.ofNat (latency / 1000000)) / 8, ?_, ?_⟩
    · simp only [BackpressureMetrics.recordLatency, if_neg hzero, u64Mul_of_lt hseven, u64Add_of_lt hfits, Outcome.pure_eq_ok,
        Outcome.ok_bind]
    · rw [if_neg (mt hstart.mpr hzero), UInt64.toNat_div, toNat_add_of_lt hfits, hweighted, hms]
      rfl

/-! ### Moves -/

/-- The operation holds a permit for a message that is not yet accepted. -/
def Point.holdsPermit : Point T → Bool
  | .sending _ | .trySending _ => true
  | _ => false

/-- The message was accepted and is still to be counted. -/
def Point.isAccepted : Point T → Bool
  | .accepted => true
  | _ => false

/-- `TrySendError::Full`. -/
def Point.foundFull : Point T → Prop
  | .sent result => result = .err (.internal "Channel full")
  | _ => False

inductive Move (channel : Channel T) : Point T → Channel T → Point T → Prop where
  | acquires (point point' : Point T) (free : channel.permits ≠ 0) (before : point.holdsPermit = false ∧ point.isAccepted = false)
      (after : point'.holdsPermit = true ∧ point'.isAccepted = false) :
      Move channel point { channel with permits := channel.permits - 1 } point'
  | accepts (point : Point T) (message : PrioritizedMessage T) (holds : point.holdsPermit = true)
      (alive : channel.receiverAlive = true) (room : channel.queue.length < channel.config.maxPending) :
      Move channel point (channel.accept message) .accepted
  | releases (point point' : Point T) (metrics : BackpressureMetrics) (holds : point.holdsPermit = true)
      (after : point'.holdsPermit = false ∧ point'.isAccepted = false)
      (full : point'.foundFull → channel.config.maxPending ≤ channel.queue.length)
      (timed : metrics = channel.metrics ∨ metrics = channel.metrics.recordTimeout) :
      Move channel point { channel.releasePermit with metrics } point'
  | counts : Move channel .accepted { channel with metrics := channel.metrics.recordSent } (.sent (.ok ()))
  | receives (point : Point T) (message : PrioritizedMessage T) (rest : List (PrioritizedMessage T)) (now : UInt64)
      (metrics : BackpressureMetrics) (receiving : point = .recv ∨ point = .tryRecv) (queue : channel.queue = message :: rest)
      (latency : channel.metrics.recordReceived.recordLatency (message.age now) = .ok metrics) :
      Move channel point { channel with queue := rest, metrics, permits := channel.permits + 1 } (.received (.ok (some message)))
  | breaks (point : Point T) (message : PrioritizedMessage T) (rest : List (PrioritizedMessage T)) (now : UInt64)
      (point' : Point T) (queue : channel.queue = message :: rest)
      (latency : ∀ metrics, channel.metrics.recordReceived.recordLatency (message.age now) ≠ .ok metrics) :
      Move channel point { channel with queue := rest, metrics := channel.metrics.recordReceived } point'
  | closes : Move channel .dropReceiver { channel with receiverAlive := false, queue := [] } .dropped
  | other (point point' : Point T) (sendersAlive : Bool) (before : point.holdsPermit = false ∧ point.isAccepted = false)
      (after : point'.holdsPermit = false ∧ point'.isAccepted = false) (full : ¬ point'.foundFull)
      (received : ∀ message, point' ≠ .received (.ok (some message))) :
      Move channel point { channel with sendersAlive } point'

theorem Move.otherwise (hbefore : point.holdsPermit = false ∧ point.isAccepted = false)
    (hafter : point'.holdsPermit = false ∧ point'.isAccepted = false) (hfull : ¬ point'.foundFull)
    (hreceived : ∀ message, point' ≠ .received (.ok (some message))) : Move channel point channel point' :=
  .other point point' channel.sendersAlive hbefore hafter hfull hreceived

theorem tryRecv_nil (now : UInt64) (h : channel.queue = []) : ∃ error, Channel.tryRecv now channel = (.err error, channel) := by
  rw [Channel.tryRecv, h]
  cases channel.sendersAlive with
  | true => exact ⟨_, rfl⟩
  | false => exact ⟨_, rfl⟩

theorem tryRecv_cons (h : channel.queue = message :: rest) :
    Channel.tryRecv now channel = Channel.received message now { channel with queue := rest } := by
  rw [Channel.tryRecv, h]

theorem recv_nil (h : channel.queue = []) :
    channel.recv now = if channel.sendersAlive then none else some (.ok none, channel) := by
  rw [Channel.recv, h]

theorem recv_cons (h : channel.queue = message :: rest) :
    channel.recv now =
      some (some <$> (Channel.received message now { channel with queue := rest }).1,
        (Channel.received message now { channel with queue := rest }).2) := by
  rw [Channel.recv, h]
  exact congrArg some (Action.map_apply _ _ _)

theorem received_of_ok {metrics : BackpressureMetrics}
    (h : channel.metrics.recordReceived.recordLatency (message.age now) = .ok metrics) :
    Channel.received message now channel = (.ok message, { channel with metrics, permits := channel.permits + 1 }) := by
  rw [Channel.received, h]

/-- Where the latency cannot be recorded the receive ends, and the permit is not given back. -/
theorem received_of_not_ok
    (h : ∀ metrics, channel.metrics.recordReceived.recordLatency (message.age now) ≠ .ok metrics) :
    (Channel.received message now channel).2 = { channel with metrics := channel.metrics.recordReceived } := by
  rw [Channel.received]
  cases hlatency : channel.metrics.recordReceived.recordLatency (message.age now) with
  | ok metrics => exact absurd hlatency (h metrics)
  | err error => rfl
  | panic => rfl

theorem move_of_received (hreceiving : point = .recv ∨ point = .tryRecv) (hqueue : channel.queue = message :: rest)
    (hchannel : channel' = (Channel.received message now { channel with queue := rest }).2)
    (hpoint : ∀ taken, (Channel.received message now { channel with queue := rest }).1 = .ok taken →
      point' = .received (.ok (some taken))) : Move channel point channel' point' := by
  by_cases hlatency : ∃ metrics, channel.metrics.recordReceived.recordLatency (message.age now) = .ok metrics
  · obtain ⟨metrics, hmetrics⟩ := hlatency
    have hreceived := received_of_ok (show ({ channel with queue := rest } : Channel T).metrics.recordReceived.recordLatency
      (message.age now) = .ok metrics from hmetrics)
    rw [hchannel, hpoint message (by rw [hreceived]), hreceived]
    exact .receives _ message rest now metrics hreceiving hqueue hmetrics
  · have hnot : ∀ metrics, channel.metrics.recordReceived.recordLatency (message.age now) ≠ .ok metrics :=
      fun metrics hmetrics => hlatency ⟨metrics, hmetrics⟩
    rw [hchannel, received_of_not_ok (show ∀ metrics, ({ channel with queue := rest } : Channel T).metrics.recordReceived.recordLatency
      (message.age now) ≠ .ok metrics from hnot)]
    exact .breaks _ message rest now _ hqueue hnot

theorem not_foundFull_of_err {error : RaftError} (h : error ≠ .internal "Channel full") :
    ¬ (Point.sent (.err error) : Point T).foundFull := by
  intro hfull
  exact h (Outcome.err.inj hfull)

/-- A permit is given back, and the metrics stay. -/
theorem Move.released (hholds : point.holdsPermit = true) (hafter : point'.holdsPermit = false ∧ point'.isAccepted = false)
    (hfull : point'.foundFull → channel.config.maxPending ≤ channel.queue.length) :
    Move channel point channel.releasePermit point' :=
  .releases point point' channel.metrics hholds hafter hfull (.inl rfl)

/-- With a permit a message is accepted where there is room, unless the receiver is gone. -/
theorem move_of_holdsPermit {crowded : Option (Channel T × Point T)} (hholds : point.holdsPermit = true)
    (h : (if ¬ channel.receiverAlive then some (channel.releasePermit, Point.sent (.err (.internal "Channel closed")))
      else if channel.queue.length < channel.config.maxPending then some (channel.accept message, .accepted)
      else crowded) = some (channel', point'))
    (hcrowded : channel.config.maxPending ≤ channel.queue.length → crowded = some (channel', point') →
      Move channel point channel' point') : Move channel point channel' point' := by
  split at h
  · cases h
    exact .released hholds ⟨rfl, rfl⟩ fun hfull => absurd hfull (not_foundFull_of_err (by decide))
  · next halive =>
      split at h
      · next hroom =>
          cases h
          exact .accepts _ message hholds (Decidable.not_not.mp halive) hroom
      · next hfull => exact hcrowded (Nat.not_lt.mp hfull) h

theorem move_of_proceed (h : proceed channel now point = some (channel', point')) : Move channel point channel' point' := by
  cases point with
  | acquire data priority =>
      rw [proceed] at h
      split at h
      · exact nomatch h
      · next hfree =>
          cases h
          exact .acquires _ _ hfree ⟨rfl, rfl⟩ ⟨rfl, rfl⟩
  | tryAcquire data priority =>
      rw [proceed] at h
      split at h
      · cases h
        exact .otherwise ⟨rfl, rfl⟩ ⟨rfl, rfl⟩ (not_foundFull_of_err (by decide)) nofun
      · next hfree =>
          cases h
          exact .acquires _ _ hfree ⟨rfl, rfl⟩ ⟨rfl, rfl⟩
  | sending message =>
      rw [proceed] at h
      exact move_of_holdsPermit rfl h fun _ hwaits => nomatch hwaits
  | trySending message =>
      rw [proceed] at h
      apply move_of_holdsPermit rfl h
      intro hcrowded hfull
      cases hfull
      exact .released rfl ⟨rfl, rfl⟩ fun _ => hcrowded
  | accepted =>
      cases h
      exact .counts
  | recv =>
      cases hqueue : channel.queue with
      | nil =>
          rw [proceed, recv_nil hqueue] at h
          cases hsenders : channel.sendersAlive with
          | true =>
              rw [hsenders] at h
              exact nomatch h
          | false =>
              rw [hsenders] at h
              cases h
              exact .otherwise ⟨rfl, rfl⟩ ⟨rfl, rfl⟩ nofun nofun
      | cons message rest =>
          rw [proceed, recv_cons hqueue] at h
          cases h
          exact move_of_received (.inl rfl) hqueue rfl fun taken htaken => by rw [htaken]; rfl
  | tryRecv =>
      rw [proceed] at h
      cases h
      cases hqueue : channel.queue with
      | nil =>
          obtain ⟨error, herror⟩ := tryRecv_nil now hqueue
          rw [herror]
          exact .otherwise ⟨rfl, rfl⟩ ⟨rfl, rfl⟩ nofun nofun
      | cons message rest =>
          rw [tryRecv_cons hqueue]
          exact move_of_received (.inr rfl) hqueue rfl fun taken htaken => by rw [htaken]; rfl
  | dropReceiver =>
      cases h
      exact .closes
  | dropSenders =>
      cases h
      exact .other _ _ false ⟨rfl, rfl⟩ ⟨rfl, rfl⟩ nofun nofun
  | sent _ | received _ | dropped => exact nomatch h

theorem move_of_advance (tasks : List (Point T)) (h : advance channel tasks point input = some (channel', point')) :
    Move channel point channel' point' := by
  cases input with
  | proceed now => exact move_of_proceed h
  | elapse =>
      cases point with
      | acquire _ _ =>
          cases h
          exact .otherwise ⟨rfl, rfl⟩ ⟨rfl, rfl⟩ (not_foundFull_of_err (by simp)) nofun
      | sending _ =>
          cases h
          exact .releases _ _ channel.metrics.recordTimeout rfl ⟨rfl, rfl⟩
            (fun hfull => absurd hfull (not_foundFull_of_err (by simp))) (.inr rfl)
      | _ => exact nomatch h
  | cancel =>
      cases point with
      | acquire _ _ | recv =>
          cases h
          exact .otherwise ⟨rfl, rfl⟩ ⟨rfl, rfl⟩ nofun nofun
      | sending _ =>
          cases h
          exact .released rfl ⟨rfl, rfl⟩ nofun
      | _ => exact nomatch h

theorem Move.config_eq (hmove : Move channel point channel' point') : channel'.config = channel.config := by
  cases hmove <;> rfl

/-! ### Turns -/

/-- The permits held by sends whose message is not yet accepted. -/
def heldPermits (tasks : List (Point T)) : Nat := tasks.countP Point.holdsPermit

/-- The messages that were accepted and are still to be counted. -/
def uncounted (tasks : List (Point T)) : Nat := tasks.countP Point.isAccepted

/-- One operation goes from a point to another: one of the tasks, or the receiver that nobody else can use. -/
structure Passes (point point' : Point T) (tasks tasks' : List (Point T)) : Prop where
  held : heldPermits tasks' + point.holdsPermit.toNat = heldPermits tasks + point'.holdsPermit.toNat
  uncounted : uncounted tasks' + point.isAccepted.toNat = uncounted tasks + point'.isAccepted.toNat
  mem : ∀ there ∈ tasks', there ∈ tasks ∨ there = point'

def Turns (system system' : System T) : Prop :=
  ∃ point point', Move system.shared point system'.shared point' ∧ Passes point point' system.tasks system'.tasks

theorem Passes.set {tasks : List (Point T)} {task : Nat} (hpoint : tasks[task]? = some point) :
    Passes point point' tasks (tasks.set task point') where
  held := Tasks.countP_set_add Point.holdsPermit hpoint
  uncounted := Tasks.countP_set_add Point.isAccepted hpoint
  mem := fun _ hthere => List.mem_or_eq_of_mem_set hthere

theorem Passes.receiver
    (hreceiving : point = .recv ∨ point = .tryRecv) (result : Outcome RaftError (Option (PrioritizedMessage T)))
    (tasks : List (Point T)) : Passes point (.received result) tasks tasks := by
  obtain rfl | rfl := hreceiving <;> exact ⟨rfl, rfl, fun _ hthere => .inl hthere⟩

theorem turn_cases (system : System T) (task : Nat) (input : Input) :
    Tasks.step (program T) system (.turn task input) = system ∨
      Turns system (Tasks.step (program T) system (.turn task input)) := by
  obtain hsame | ⟨point, channel', point', hpoint, hadvance, hstep⟩ := Tasks.step_turn_cases (program T) system task input
  · exact .inl hsame
  · rw [hstep]
    exact .inr ⟨point, point', move_of_advance system.tasks hadvance, .set hpoint⟩

end Backpressure

end IrohRaft
