import IrohRaft.Proof.Backpressure.Moves

/-!
# Permits are conserved

Every permit is in the semaphore, held by a send whose message is not yet accepted, or stands for a message
on the queue, and each turn moves a permit from one of these places to another. So the queue never holds
more than its capacity, and a `try_send` that got a permit finds room for its message.
-/

namespace IrohRaft

namespace Backpressure

open Rust

variable {T : Type} {config : BackpressureConfig} {channel channel' : Channel T} {tasks : List (Point T)} {task : Nat}
  {point point' : Point T}

def placed (system : System T) : Nat := system.shared.permits + heldPermits system.tasks + system.shared.queue.length

/-! ### Latencies -/

/-- The averages so far are too small to overflow when the next one is taken. -/
def SmallLatency (channel : Channel T) : Prop := channel.metrics.avgLatencyMs.toNat < 2 ^ 61

theorem age_lt (message : PrioritizedMessage T) (now : UInt64) : message.age now / 1000000 < 2 ^ 61 := by
  have hnow := now.toNat_lt
  rw [PrioritizedMessage.age]
  omega

/-- A latency is recorded, and changes nothing but the average, which stays small. -/
theorem recordLatency_ok (h : SmallLatency channel) (message : PrioritizedMessage T) (now : UInt64) :
    ∃ average : UInt64, channel.metrics.recordReceived.recordLatency (message.age now) =
        .ok { channel.metrics.recordReceived with avgLatencyMs := average } ∧ average.toNat < 2 ^ 61 := by
  have hcurrent : channel.metrics.recordReceived.avgLatencyMs.toNat < 2 ^ 61 := h
  have hage := age_lt message now
  obtain ⟨average, hrecord, haverage⟩ := recordLatency_of_lt hcurrent hage
  exact ⟨average, hrecord, haverage ▸ movingAverage_lt hcurrent hage⟩

theorem SmallLatency.moved (h : SmallLatency channel) (hmove : Move channel point channel' point') : SmallLatency channel' := by
  cases hmove with
  | releases _ _ metrics _ _ _ htimed => obtain rfl | rfl := htimed <;> exact h
  | receives _ message rest now metrics _ _ hmetrics =>
      obtain ⟨average, hrecord, haverage⟩ := recordLatency_ok h message now
      obtain rfl := Outcome.ok.inj (hrecord.symm.trans hmetrics)
      exact haverage
  | _ => exact h

/-! ### Turns -/

/-- A turn keeps the permits where they are or moves one of them, and only the end of the receiver loses some. -/
theorem placed_moved {tasks' : List (Point T)} (hsmall : SmallLatency channel) (hmove : Move channel point channel' point')
    (hpasses : Passes point point' tasks tasks') :
    placed ⟨channel', tasks'⟩ ≤ placed ⟨channel, tasks⟩ ∧
      (channel'.receiverAlive = true →
        channel.receiverAlive = true ∧ placed ⟨channel', tasks'⟩ = placed ⟨channel, tasks⟩) := by
  have hheld := hpasses.held
  have hsame (h : placed ⟨channel', tasks'⟩ = placed ⟨channel, tasks⟩) (halive : channel'.receiverAlive = channel.receiverAlive) :
      placed ⟨channel', tasks'⟩ ≤ placed ⟨channel, tasks⟩ ∧
        (channel'.receiverAlive = true →
          channel.receiverAlive = true ∧ placed ⟨channel', tasks'⟩ = placed ⟨channel, tasks⟩) :=
    ⟨Nat.le_of_eq h, fun htrue => ⟨halive ▸ htrue, h⟩⟩
  cases hmove with
  | acquires _ _ hfree hbefore hafter =>
      rw [hbefore.1, hafter.1, Bool.toNat_false, Bool.toNat_true] at hheld
      refine hsame ?_ rfl
      simp only [placed]
      omega
  | accepts _ message hholds halive hroom =>
      rw [hholds, Bool.toNat_true] at hheld
      refine hsame ?_ rfl
      simp only [placed, Channel.accept, List.length_append, List.length_singleton]
      simp only [Point.holdsPermit, Bool.toNat_false] at hheld
      omega
  | releases _ _ metrics hholds hafter _ _ =>
      rw [hholds, hafter.1, Bool.toNat_false, Bool.toNat_true] at hheld
      refine hsame ?_ rfl
      simp only [placed, Channel.releasePermit]
      omega
  | counts =>
      refine hsame ?_ rfl
      simp only [Point.holdsPermit, Bool.toNat_false] at hheld
      simp only [placed]
      omega
  | receives _ message rest now metrics hreceiving hqueue hmetrics =>
      refine hsame ?_ rfl
      have hneither : point.holdsPermit = false := by
        obtain rfl | rfl := hreceiving <;> rfl
      rw [hneither] at hheld
      simp only [Point.holdsPermit, Bool.toNat_false] at hheld
      simp only [placed, hqueue, List.length_cons]
      omega
  | breaks _ message rest now _ hqueue hbroken =>
      obtain ⟨average, hrecord, _⟩ := recordLatency_ok hsmall message now
      exact absurd hrecord (hbroken _)
  | closes =>
      simp only [Point.holdsPermit, Bool.toNat_false] at hheld
      refine ⟨?_, fun htrue => nomatch htrue⟩
      simp only [placed, List.length_nil]
      omega
  | other _ _ sendersAlive hbefore hafter _ _ =>
      rw [hbefore.1, hafter.1] at hheld
      refine hsame ?_ rfl
      simp only [placed]
      omega

/-- Only a send that holds a permit is told that the channel is full, and then it is. -/
theorem Move.holds_of_full
    (hsmall : SmallLatency channel) (hmove : Move channel point channel' point') (hfull : point'.foundFull) :
    point.holdsPermit = true ∧ channel.config.maxPending ≤ channel.queue.length := by
  cases hmove with
  | releases _ _ metrics hholds _ hcapacity _ => exact ⟨hholds, hcapacity hfull⟩
  | other _ _ _ _ _ hnot _ => exact absurd hfull hnot
  | acquires _ _ _ _ hafter =>
      cases point' with
      | sent _ => exact absurd hafter.1 Bool.false_ne_true
      | _ => exact absurd hfull id
  | breaks _ message rest now _ hqueue hbroken =>
      obtain ⟨average, hrecord, _⟩ := recordLatency_ok hsmall message now
      exact absurd hrecord (hbroken _)
  | counts => exact absurd hfull (by simp [Point.foundFull])
  | accepts | closes | receives => exact absurd hfull id

theorem Point.not_holdsPermit_of_foundFull (h : point.foundFull) : point.holdsPermit = false := by
  cases point with
  | sent _ => rfl
  | _ => exact absurd h id

/-! ### Runs -/

/-- What every turn keeps, on a channel of the given capacity. -/
structure Conserved (config : BackpressureConfig) (system : System T) : Prop where
  config_eq : system.shared.config = config
  small : SmallLatency system.shared
  le : placed system ≤ config.maxPending
  eq : system.shared.receiverAlive = true → placed system = config.maxPending
  notFull : ∀ point ∈ system.tasks, ¬ point.foundFull

theorem entry_holdsPermit (operation : Operation T) : operation.entry.holdsPermit = false := by
  cases operation <;> rfl

theorem entry_not_foundFull (operation : Operation T) : ¬ operation.entry.foundFull := by
  cases operation <;> exact id

theorem Conserved.start (h : boundedWithBackpressure T config = .ok channel) : Conserved config ⟨channel, []⟩ := by
  rw [boundedWithBackpressure] at h
  split at h
  · exact nomatch h
  · obtain rfl := Outcome.ok.inj h
    have hsmall : BackpressureMetrics.new.avgLatencyMs.toNat < 2 ^ 61 := by decide
    exact ⟨rfl, hsmall, Nat.le_refl _, fun _ => rfl, nofun⟩

/-- A send that holds a permit finds room. -/
theorem Conserved.room {system : System T} (h : Conserved config system) (hheld : 0 < heldPermits system.tasks) :
    system.shared.queue.length < config.maxPending := by
  have hle := h.le
  rw [placed] at hle
  omega

theorem Conserved.turned {system system' : System T} (h : Conserved config system) (hturns : Turns system system') :
    Conserved config system' := by
  obtain ⟨point, point', hmove, hpasses⟩ := hturns
  have hmoved := placed_moved h.small hmove hpasses
  refine ⟨hmove.config_eq.trans h.config_eq, h.small.moved hmove, Nat.le_trans hmoved.1 h.le, fun halive => ?_,
    fun there hthere => ?_⟩
  · exact (hmoved.2 halive).2.trans (h.eq (hmoved.2 halive).1)
  · obtain hbefore | rfl := hpasses.mem there hthere
    · exact h.notFull there hbefore
    intro hfull
    obtain ⟨hholds, hcapacity⟩ := hmove.holds_of_full h.small hfull
    have hheld := hpasses.held
    rw [hholds, Point.not_holdsPermit_of_foundFull hfull, Bool.toNat_true, Bool.toNat_false] at hheld
    have hroom := h.room (by omega)
    rw [h.config_eq] at hcapacity
    omega

theorem Conserved.step {system : System T} (h : Conserved config system) (label : Label T) :
    Conserved config (Tasks.step (program T) system label) := by
  cases label with
  | spawn operation =>
      have hplaced : placed (Tasks.step (program T) system (.spawn operation)) = placed system := by
        show system.shared.permits + (system.tasks ++ [operation.entry]).countP _ + _ = _
        rw [List.countP_append, List.countP_singleton, entry_holdsPermit]
        rfl
      refine ⟨h.config_eq, h.small, hplaced ▸ h.le, fun halive => hplaced.trans (h.eq halive), fun point hpoint => ?_⟩
      obtain hbefore | hentry := List.mem_append.mp hpoint
      · exact h.notFull point hbefore
      · rw [List.mem_singleton.mp hentry]
        exact entry_not_foundFull operation
  | turn task input =>
      obtain hsame | hturns := turn_cases system task input
      · rw [hsame]
        exact h
      · exact h.turned hturns

theorem Conserved.run (h : boundedWithBackpressure T config = .ok channel) (labels : List (Label T)) :
    Conserved config (Run.final (Tasks.step (program T)) ⟨channel, []⟩ labels) :=
  Run.final_invariant (Conserved config) (fun label _ _ hconserved => hconserved.step label) (Conserved.start h)

/-- While the receiver lives no permit is lost or made, whatever the sends and the receives do; and the queue keeps to its
capacity, a send that got a permit has room and none is told otherwise, and the permits in use are never fewer than none. -/
theorem permits_conserved (h : boundedWithBackpressure T config = .ok channel) (exceedsThreshold : Nat → Nat → Bool)
    (labels : List (Label T)) :
    let system := Run.final (Tasks.step (program T)) ⟨channel, []⟩ labels
    (system.shared.receiverAlive = true →
      system.shared.permits + heldPermits system.tasks + system.shared.queue.length = config.maxPending) ∧
    system.shared.queue.length ≤ config.maxPending ∧
    (∀ message, .trySending message ∈ system.tasks → system.shared.queue.length < system.shared.config.maxPending) ∧
    .sent (.err (.internal "Channel full")) ∉ system.tasks ∧
    system.shared.isUnderBackpressure exceedsThreshold =
      .ok (exceedsThreshold (config.maxPending - system.shared.permits) config.maxPending) := by
  intro system
  have hconserved : Conserved config system := Conserved.run h labels
  have hplaced : system.shared.permits + heldPermits system.tasks + system.shared.queue.length ≤ config.maxPending :=
    hconserved.le
  refine ⟨hconserved.eq, by omega, fun message hmessage => ?_, fun hfull => hconserved.notFull _ hfull rfl, ?_⟩
  · rw [hconserved.config_eq]
    exact hconserved.room (List.countP_pos_iff.mpr ⟨_, hmessage, rfl⟩)
  · have havailable : system.shared.permits ≤ config.maxPending := by omega
    simp only [Channel.isUnderBackpressure, hconserved.config_eq, if_pos havailable]

def sampleConfig : BackpressureConfig := { maxPending := 2, sendTimeout := 1000000000 }

def sampleChannel : Channel UInt8 :=
  { config := sampleConfig, queue := [], sendersAlive := true, receiverAlive := true, permits := 2,
    metrics := BackpressureMetrics.new }

/-- One message queued, one about to be sent, a third send waiting, and one that was turned away. -/
def contendedRun : List (Label UInt8) :=
  [.spawn (.send 1 .normal), .spawn (.trySend 2 .high), .spawn (.send 3 .low), .spawn (.trySend 4 .normal),
    .turn 0 (.proceed 0), .turn 1 (.proceed 1), .turn 2 (.proceed 2), .turn 3 (.proceed 3), .turn 0 (.proceed 4)]

theorem permits_conserved_contended :
    let system := Run.final (Tasks.step (program UInt8)) ⟨sampleChannel, []⟩ contendedRun
    system.shared.permits + heldPermits system.tasks + system.shared.queue.length = 2 ∧
      system.shared.queue.length = 1 ∧ heldPermits system.tasks = 1 ∧
      system.shared.isUnderBackpressure (fun used total => total ≤ used) = .ok true := by
  have h := permits_conserved (show boundedWithBackpressure UInt8 sampleConfig = .ok sampleChannel by decide)
    (fun used total => total ≤ used) contendedRun
  exact ⟨h.1 (by decide), by decide, by decide, h.2.2.2.2⟩

end Backpressure

end IrohRaft
