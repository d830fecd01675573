import IrohRaft.Proof.Backpressure.Permits

/-!
# The average latency

`record_latency` takes the first sample as it is, and then moves the average by an eighth of the way to each
new one, rounded down. The first sample is told by an average of zero, which a later sample of zero can bring
about as well: then the least sample is zero, and the next one may be taken as it is. A receive records the
age of its message, and nothing else touches the average.
-/

namespace IrohRaft

namespace Backpressure

open Rust Average

variable {T : Type} {config : BackpressureConfig} {channel channel' : Channel T} {tasks : List (Point T)}
  {point point' : Point T} {seen : List Nat}

/-! ### Samples -/

/-- `record_latency` for one sample after another. -/
def BackpressureMetrics.recordLatencies (samples : List Nat) (metrics : BackpressureMetrics) :
    Outcome RaftError BackpressureMetrics :=
  samples.foldlM (fun metrics latency => metrics.recordLatency latency) metrics

theorem recordLatencies_ok {metrics : BackpressureMetrics} (haverages : Averages seen metrics.avgLatencyMs.toNat)
    (hseen : ∀ sample ∈ seen, sample < 2 ^ 61) (samples : List Nat)
    (hsamples : ∀ latency ∈ samples, latency / 1000000 < 2 ^ 61) :
    ∃ metrics', metrics.recordLatencies samples = .ok metrics' ∧
      Averages (seen ++ samples.map (· / 1000000)) metrics'.avgLatencyMs.toNat := by
  induction samples generalizing metrics seen with
  | nil => exact ⟨metrics, rfl, by simpa using haverages⟩
  | cons latency rest ih =>
      obtain ⟨hlatency, hrest⟩ := List.forall_mem_cons.mp hsamples
      obtain ⟨average, hrecord, haverage⟩ := recordLatency_of_lt (haverages.lt (by decide) hseen) hlatency
      have hnext : Averages (seen ++ [latency / 1000000]) average.toNat := by
        rw [haverage]
        exact haverages.concat isMean_seven _
      have hall : ∀ sample ∈ seen ++ [latency / 1000000], sample < 2 ^ 61 :=
        List.forall_mem_append.mpr ⟨hseen, by simpa using hlatency⟩
      obtain ⟨metrics', hrecorded, hlater⟩ := @ih _ { metrics with avgLatencyMs := average } hnext hall hrest
      refine ⟨metrics', ?_, by simpa using hlater⟩
      rw [BackpressureMetrics.recordLatencies, List.foldlM_cons, hrecord, Outcome.ok_bind]
      exact hrecorded

/-! ### One turn -/

/-- What a turn records: the age of the message that it takes off the queue. -/
def latencies (channel : Channel T) (point : Point T) : Input → List Nat
  | .proceed now =>
      match point, channel.queue with
      | .recv, message :: _ | .tryRecv, message :: _ => [message.age now / 1000000]
      | _, _ => []
  | .elapse | .cancel => []

theorem received_average (hsmall : SmallLatency channel) (message : PrioritizedMessage T) (now : UInt64) :
    (Channel.received message now channel).2.metrics.avgLatencyMs.toNat =
      movingAverage channel.metrics.avgLatencyMs.toNat (message.age now / 1000000) := by
  have hcurrent : channel.metrics.recordReceived.avgLatencyMs.toNat < 2 ^ 61 := hsmall
  obtain ⟨average, hrecord, haverage⟩ := recordLatency_of_lt hcurrent (age_lt message now)
  rw [received_of_ok hrecord]
  exact haverage

/-- Only a receive records something. -/
theorem average_moved (hsmall : SmallLatency channel) (hmove : Move channel point channel' point')
    (hpoint : point ≠ .recv ∧ point ≠ .tryRecv) : channel'.metrics.avgLatencyMs = channel.metrics.avgLatencyMs := by
  cases hmove with
  | receives _ _ _ _ _ hreceiving => exact absurd hreceiving (not_or.mpr hpoint)
  | breaks _ message _ now _ _ hbroken =>
      obtain ⟨average, hrecord, _⟩ := recordLatency_ok hsmall message now
      exact absurd hrecord (hbroken _)
  | releases _ _ metrics _ _ _ htimed => obtain rfl | rfl := htimed <;> rfl
  | _ => rfl

theorem latencies_of_nil (now : UInt64) (h : channel.queue = []) : latencies channel point (.proceed now) = [] := by
  cases point <;> simp [latencies, h]

theorem average_proceed {now : UInt64} (hsmall : SmallLatency channel)
    (h : proceed channel now point = some (channel', point')) :
    channel'.metrics.avgLatencyMs.toNat =
      (latencies channel point (.proceed now)).foldl movingAverage channel.metrics.avgLatencyMs.toNat := by
  by_cases hpoint : point ≠ .recv ∧ point ≠ .tryRecv
  · have hnone : latencies channel point (.proceed now) = [] := by
      cases point with
      | recv => exact absurd rfl hpoint.1
      | tryRecv => exact absurd rfl hpoint.2
      | _ => rfl
    rw [average_moved hsmall (move_of_proceed h) hpoint, hnone, List.foldl_nil]
  · have hreceiving : point = .recv ∨ point = .tryRecv := by simpa [or_iff_not_imp_left] using hpoint
    cases hqueue : channel.queue with
    | nil =>
        have hsame : channel' = channel := by
          obtain rfl | rfl := hreceiving
          · rw [proceed, recv_nil hqueue] at h
            cases hsenders : channel.sendersAlive with
            | false =>
                rw [hsenders] at h
                cases h
                rfl
            | true => simp [hsenders] at h
          · obtain ⟨error, herror⟩ := tryRecv_nil now hqueue
            rw [proceed, herror] at h
            cases h
            rfl
        rw [hsame, latencies_of_nil now hqueue, List.foldl_nil]
    | cons message rest =>
        have htaken : channel' = (Channel.received message now { channel with queue := rest }).2 := by
          obtain rfl | rfl := hreceiving
          · rw [proceed, recv_cons hqueue] at h
            cases h
            rfl
          · rw [proceed, tryRecv_cons hqueue] at h
            cases h
            rfl
        have hrecorded : latencies channel point (.proceed now) = [message.age now / 1000000] := by
          obtain rfl | rfl := hreceiving <;> simp [latencies, hqueue]
        rw [htaken, hrecorded]
        exact received_average (show SmallLatency { channel with queue := rest } from hsmall) message now

/-- After a turn the average has moved towards what was recorded in it. -/
theorem average_advance {input : Input} (hsmall : SmallLatency channel)
    (h : advance channel tasks point input = some (channel', point')) :
    channel'.metrics.avgLatencyMs.toNat =
      (latencies channel point input).foldl movingAverage channel.metrics.avgLatencyMs.toNat := by
  cases input with
  | proceed now => exact average_proceed hsmall h
  | elapse => cases point <;> cases h <;> rfl
  | cancel => cases point <;> cases h <;> rfl

/-- Nothing is recorded in a turn that is lost. -/
theorem latencies_of_lost {input : Input} (h : advance channel tasks point input = none) :
    latencies channel point input = [] := by
  cases input with
  | proceed now =>
      cases hqueue : channel.queue with
      | nil => exact latencies_of_nil now hqueue
      | cons message rest =>
          cases point with
          | recv => simp [advance, proceed, recv_cons hqueue] at h
          | tryRecv => simp [advance, proceed] at h
          | _ => simp [latencies]
  | elapse | cancel => rfl

/-! ### Runs -/

/-- What has been recorded so far. -/
def recordTurn (before : System T) (label : Label T) (_after : System T) (seen : List Nat) : List Nat :=
  match label with
  | .spawn _ => seen
  | .turn task input => seen ++ before.tasks[task]?.toList.flatMap fun point => latencies before.shared point input

/-- A channel with its tasks, and the latencies recorded. -/
abbrev Watched (T : Type) := System T × List Nat

def watch : Watched T → Label T → Watched T := Tasks.recording (program T) recordTurn

structure Averaged (config : BackpressureConfig) (watched : Watched T) : Prop where
  conserved : Conserved config watched.1
  averages : Averages watched.2 watched.1.shared.metrics.avgLatencyMs.toNat

theorem averages_turn {system : System T} (hsmall : SmallLatency system.shared)
    (h : Averages seen system.shared.metrics.avgLatencyMs.toNat) (task : Nat) (input : Input) :
    Averages (recordTurn system (.turn task input) (Tasks.step (program T) system (.turn task input)) seen)
      (Tasks.step (program T) system (.turn task input)).shared.metrics.avgLatencyMs.toNat := by
  cases hpoint : system.tasks[task]? with
  | none =>
      rw [Tasks.step_turn_of_absent (program T) input hpoint]
      simpa [recordTurn, hpoint] using h
  | some point =>
      have hrecorded (after : System T) : recordTurn system (.turn task input) after seen =
          seen ++ latencies system.shared point input := by simp [recordTurn, hpoint]
      rw [hrecorded]
      cases hmove : advance system.shared system.tasks point input with
      | none =>
          rw [Tasks.step_turn_of_lost (program T) input hpoint hmove, latencies_of_lost hmove, List.append_nil]
          exact h
      | some moved =>
          rw [Tasks.step_turn_of_move (program T) input hpoint hmove, average_advance hsmall hmove]
          exact h.append isMean_seven _

theorem Averaged.step {watched : Watched T} (h : Averaged config watched) (label : Label T) :
    Averaged config (watch watched label) where
  conserved := h.conserved.step label
  averages := by
    cases label with
    | spawn operation => exact h.averages
    | turn task input => exact averages_turn h.conserved.small h.averages task input

theorem Averaged.run (h : boundedWithBackpressure T config = .ok channel) (labels : List (Label T)) :
    Averaged config (Run.final watch ((⟨channel, []⟩, []) : Watched T) labels) := by
  have haverage : channel.metrics.avgLatencyMs.toNat = 0 := by
    rw [boundedWithBackpressure] at h
    split at h
    · simp at h
    · obtain rfl := Outcome.ok.inj h
      rfl
  refine Run.final_invariant (Averaged config) (fun label _ _ haveraged => haveraged.step label) ⟨Conserved.start h, ?_⟩
  show Averages [] channel.metrics.avgLatencyMs.toNat
  rw [haverage]
  exact averages_nil

/-- After any samples, of less than 2^61 milliseconds, the average lies between the least and the greatest, and nothing has
overflowed. So it does on a channel whatever is done with it, and no receive overflows there. -/
theorem avgLatencyMs_between (config : BackpressureConfig) :
    (∀ samples : List Nat, samples ≠ [] → (∀ latency ∈ samples, latency / 1000000 < 2 ^ 61) →
      (BackpressureMetrics.new.recordLatencies samples).Returns fun metrics =>
        Between (samples.map (· / 1000000)) metrics.avgLatencyMs.toNat) ∧
    ∀ (channel : Channel T) (labels : List (Label T)), boundedWithBackpressure T config = .ok channel →
      let watched := Run.final watch ((⟨channel, []⟩, []) : Watched T) labels
      (watched.2 ≠ [] → Between watched.2 watched.1.shared.metrics.avgLatencyMs.toNat) ∧
      ∀ message now, (Channel.received message now watched.1.shared).1 = .ok message := by
  refine ⟨?_, ?_⟩
  · intro samples hsome hsmall
    obtain ⟨metrics, hrecorded, haverages⟩ :=
      recordLatencies_ok (show Averages [] BackpressureMetrics.new.avgLatencyMs.toNat from averages_nil) (by simp) samples hsmall
    refine Outcome.returns_iff.mpr ⟨metrics, hrecorded, ?_⟩
    simpa using haverages.between (by simpa using hsome)
  · intro channel labels hchannel watched
    have haveraged : Averaged config watched := Averaged.run hchannel labels
    refine ⟨haveraged.averages.between, fun message now => ?_⟩
    obtain ⟨average, hrecord, -⟩ := recordLatency_ok haveraged.conserved.small message now
    rw [received_of_ok hrecord]

/-- A message is received three milliseconds after it was sent. -/
def slowRun : List (Label UInt8) :=
  [.spawn (.send 7 .normal), .turn 0 (.proceed 0), .turn 0 (.proceed 1), .spawn .recv, .turn 1 (.proceed 3000000)]

theorem avgLatencyMs_between_slow :
    let watched := Run.final watch ((⟨sampleChannel, []⟩, []) : Watched UInt8) slowRun
    (BackpressureMetrics.new.recordLatencies [0, 5000000, 3000000]).Returns
      (fun metrics => Between [0, 5, 3] metrics.avgLatencyMs.toNat) ∧
    watched.2 = [3] ∧ Between watched.2 watched.1.shared.metrics.avgLatencyMs.toNat := by
  have h := avgLatencyMs_between (T := UInt8) sampleConfig
  exact ⟨h.1 [0, 5000000, 3000000] (by decide) (by decide), by decide, (h.2 sampleChannel slowRun (by decide)).1 (by decide)⟩

end Backpressure

end IrohRaft
