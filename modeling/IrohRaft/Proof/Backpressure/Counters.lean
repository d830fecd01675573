import Mathlib.Data.List.Induction
import IrohRaft.Proof.Backpressure.Reception

/-!
# The counters of a channel

No send ever adds to the count of pending messages, and every receive takes one off: after the first receive
the counter has wrapped around, and before it the counter misses what is queued. So the counters are right
exactly as long as no message gets onto the channel.
-/

namespace IrohRaft

namespace Backpressure

open Rust

variable {T : Type} {config : BackpressureConfig} {channel channel' : Channel T} {point point' : Point T}
  {tasks tasks' : List (Point T)} {system system' : System T} {accepted received : Nat}

/-- A message gets onto the queue. -/
def Accepts (before after : Channel T) : Prop := before.queue.length < after.queue.length

/-- A message is received while no message is counted as pending. -/
def Wraps (before after : Channel T) : Prop :=
  before.metrics.currentPending = 0 ∧ after.metrics.totalReceived ≠ before.metrics.totalReceived

/-- What the counters say of a channel on which that many messages were accepted and received. -/
structure Counted (accepted received : Nat) (system : System T) : Prop where
  pending : system.shared.metrics.currentPending = 0 - UInt64.ofNat received
  totalReceived : system.shared.metrics.totalReceived = UInt64.ofNat received
  totalSent : system.shared.metrics.totalSent + UInt64.ofNat (uncounted system.tasks) = UInt64.ofNat accepted
  totalDropped : system.shared.metrics.totalDropped = 0
  uncounted_le : uncounted system.tasks ≤ accepted
  le : received + system.shared.queue.length ≤ accepted
  alive : system.shared.receiverAlive = true → accepted = received + system.shared.queue.length
  bound : accepted ≤ received + system.shared.config.maxPending

theorem Counted.start (h : boundedWithBackpressure T config = .ok channel) : Counted 0 0 (⟨channel, []⟩ : System T) := by
  rw [boundedWithBackpressure] at h
  split at h
  · simp at h
  · obtain rfl := Outcome.ok.inj h
    exact ⟨rfl, rfl, rfl, rfl, Nat.le_refl _, Nat.le_refl _, fun _ => rfl, Nat.zero_le _⟩

theorem Point.not_isAccepted_of_holdsPermit (h : point.holdsPermit = true) : point.isAccepted = false := by
  cases point with
  | accepted => exact absurd h Bool.false_ne_true
  | _ => rfl

/-- Turns that move no message change no counter that matters. -/
theorem Counted.kept (h : Counted accepted received system) (hqueue : system'.shared.queue = system.shared.queue)
    (hconfig : system'.shared.config = system.shared.config) (halive : system'.shared.receiverAlive = system.shared.receiverAlive)
    (hmetrics : system'.shared.metrics = system.shared.metrics ∨ system'.shared.metrics = system.shared.metrics.recordTimeout)
    (huncounted : uncounted system'.tasks = uncounted system.tasks) :
    Counted accepted received system' ∧ ¬ Accepts system.shared system'.shared ∧ ¬ Wraps system.shared system'.shared := by
  have hsent : system'.shared.metrics.totalSent = system.shared.metrics.totalSent ∧
      system'.shared.metrics.totalReceived = system.shared.metrics.totalReceived ∧
      system'.shared.metrics.currentPending = system.shared.metrics.currentPending ∧
      system'.shared.metrics.totalDropped = system.shared.metrics.totalDropped := by
    obtain heq | heq := hmetrics <;> rw [heq] <;> exact ⟨rfl, rfl, rfl, rfl⟩
  obtain ⟨htotalSent, htotalReceived, hpending, hdropped⟩ := hsent
  refine ⟨⟨hpending ▸ h.pending, htotalReceived ▸ h.totalReceived, ?_, hdropped ▸ h.totalDropped, huncounted ▸ h.uncounted_le, ?_,
    fun htrue => ?_, ?_⟩, ?_, fun hwraps => hwraps.2 htotalReceived⟩
  · rw [htotalSent, huncounted, h.totalSent]
  · rw [hqueue]
    exact h.le
  · rw [hqueue]
    exact h.alive (halive ▸ htrue)
  · rw [hconfig]
    exact h.bound
  · rw [Accepts, hqueue]
    exact Nat.lt_irrefl _

theorem Counted.after_accept (h : Counted accepted received ⟨channel, tasks⟩) (message : PrioritizedMessage T)
    (halive : channel.receiverAlive = true) (hroom : channel.queue.length < channel.config.maxPending)
    (huncounted : uncounted tasks' = uncounted tasks + 1) :
    Counted (accepted + 1) received ⟨channel.accept message, tasks'⟩ := by
  have hqueue : (channel.accept message).queue.length = channel.queue.length + 1 := List.length_append
  have hcounted : accepted = received + channel.queue.length := h.alive halive
  have hbefore : uncounted tasks ≤ accepted := h.uncounted_le
  refine ⟨h.pending, h.totalReceived, ?_, h.totalDropped, ?_, ?_, fun _ => ?_, ?_⟩
  · have htotal : channel.metrics.totalSent + UInt64.ofNat (uncounted tasks) = UInt64.ofNat accepted := h.totalSent
    show channel.metrics.totalSent + UInt64.ofNat (uncounted tasks') = UInt64.ofNat (accepted + 1)
    rw [huncounted, UInt64.ofNat_add, UInt64.ofNat_add, ← UInt64.add_assoc, htotal]
  · show uncounted tasks' ≤ accepted + 1
    omega
  · show received + (channel.accept message).queue.length ≤ accepted + 1
    omega
  · show accepted + 1 = received + (channel.accept message).queue.length
    omega
  · show accepted + 1 ≤ received + channel.config.maxPending
    omega

theorem Counted.after_count
    (h : Counted accepted received ⟨channel, tasks⟩) (huncounted : uncounted tasks = uncounted tasks' + 1) :
    Counted accepted received ⟨{ channel with metrics := channel.metrics.recordSent }, tasks'⟩ := by
  have hbefore : uncounted tasks ≤ accepted := h.uncounted_le
  refine ⟨h.pending, h.totalReceived, ?_, h.totalDropped, ?_, h.le, h.alive, h.bound⟩
  · have htotal : channel.metrics.totalSent + UInt64.ofNat (uncounted tasks) = UInt64.ofNat accepted := h.totalSent
    rw [huncounted, UInt64.ofNat_add, UInt64.add_comm (UInt64.ofNat _), ← UInt64.add_assoc] at htotal
    exact htotal
  · show uncounted tasks' ≤ accepted
    omega

theorem Counted.after_receive (h : Counted accepted received ⟨channel, tasks⟩) {message : PrioritizedMessage T}
    {rest : List (PrioritizedMessage T)} (hqueue : channel.queue = message :: rest) (average : UInt64)
    (huncounted : uncounted tasks' = uncounted tasks) :
    Counted accepted (received + 1)
      ⟨{ channel with
          queue := rest, metrics := { channel.metrics.recordReceived with avgLatencyMs := average },
          permits := channel.permits + 1 }, tasks'⟩ := by
  have hlength : channel.queue.length = rest.length + 1 := by rw [hqueue, List.length_cons]
  have hle : received + channel.queue.length ≤ accepted := h.le
  refine ⟨?_, ?_, ?_, h.totalDropped, ?_, ?_, fun halive => ?_, Nat.le_trans h.bound (by dsimp only; omega)⟩
  · have hpending : channel.metrics.currentPending = 0 - UInt64.ofNat received := h.pending
    show channel.metrics.currentPending - 1 = 0 - UInt64.ofNat (received + 1)
    rw [hpending, UInt64.ofNat_add]
    grind
  · have htotal : channel.metrics.totalReceived = UInt64.ofNat received := h.totalReceived
    show channel.metrics.totalReceived + 1 = UInt64.ofNat (received + 1)
    rw [htotal, UInt64.ofNat_add]
    rfl
  · rw [huncounted]
    exact h.totalSent
  · exact huncounted ▸ h.uncounted_le
  · show received + 1 + rest.length ≤ accepted
    omega
  · have hcounted : accepted = received + channel.queue.length := h.alive halive
    show accepted = received + 1 + rest.length
    omega

theorem Counted.after_close (h : Counted accepted received ⟨channel, tasks⟩) (huncounted : uncounted tasks' = uncounted tasks) :
    Counted accepted received ⟨{ channel with receiverAlive := false, queue := [] }, tasks'⟩ :=
  ⟨h.pending, h.totalReceived, huncounted ▸ h.totalSent, h.totalDropped, huncounted ▸ h.uncounted_le,
    Nat.le_trans (Nat.le_add_right received channel.queue.length) h.le, (fun halive => nomatch halive), h.bound⟩

/-- A turn accepts a message, receives one, or neither. -/
theorem Counted.turned
    (h : Counted accepted received system) (hsmall : SmallLatency system.shared) (hturns : Turns system system') :
    ∃ accepted' received', Counted accepted' received' system' ∧
      (accepted' = 0 ↔ accepted = 0 ∧ ¬ Accepts system.shared system'.shared) ∧
      (received' = 0 ↔ received = 0 ∧ ¬ Wraps system.shared system'.shared) := by
  obtain ⟨point, point', hmove, hpasses⟩ := hturns
  obtain ⟨shared, tasks⟩ := system
  obtain ⟨shared', tasks'⟩ := system'
  have huncounted := hpasses.uncounted
  have hsame (hkept : Counted accepted received (⟨shared', tasks'⟩ : System T) ∧ ¬ Accepts shared shared' ∧ ¬ Wraps shared shared') :
      ∃ accepted' received', Counted accepted' received' (⟨shared', tasks'⟩ : System T) ∧
        (accepted' = 0 ↔ accepted = 0 ∧ ¬ Accepts shared shared') ∧ (received' = 0 ↔ received = 0 ∧ ¬ Wraps shared shared') :=
    ⟨accepted, received, hkept.1, (and_iff_left hkept.2.1).symm, (and_iff_left hkept.2.2).symm⟩
  cases hmove with
  | acquires _ _ hfree hbefore hafter =>
      rw [hbefore.2, hafter.2] at huncounted
      exact hsame (h.kept rfl rfl rfl (.inl rfl) huncounted)
  | accepts _ message hholds halive hroom =>
      rw [Point.not_isAccepted_of_holdsPermit hholds] at huncounted
      refine ⟨accepted + 1, received, h.after_accept message halive hroom huncounted, ?_, ?_⟩
      · have haccepts : Accepts shared (shared.accept message) := by
          rw [Accepts, Channel.accept, List.length_append, List.length_singleton]
          omega
        exact iff_of_false (Nat.succ_ne_zero accepted) fun hnothing => hnothing.2 haccepts
      · exact (and_iff_left fun hwraps => hwraps.2 rfl).symm
  | releases _ _ metrics hholds hafter _ htimed =>
      rw [Point.not_isAccepted_of_holdsPermit hholds, hafter.2] at huncounted
      exact hsame (h.kept rfl rfl rfl htimed huncounted)
  | counts =>
      refine ⟨accepted, received, h.after_count huncounted.symm, ?_, ?_⟩
      · exact (and_iff_left (Nat.lt_irrefl _)).symm
      · exact (and_iff_left fun hwraps => hwraps.2 rfl).symm
  | receives _ message rest now metrics hreceiving hqueue hmetrics =>
      obtain ⟨average, hrecord, _⟩ := recordLatency_ok hsmall message now
      obtain rfl := Outcome.ok.inj (hrecord.symm.trans hmetrics)
      have hneither : point.isAccepted = false := by
        obtain rfl | rfl := hreceiving <;> rfl
      rw [hneither] at huncounted
      refine ⟨accepted, received + 1, h.after_receive hqueue average huncounted, ?_, ?_⟩
      · refine (and_iff_left ?_).symm
        show ¬ shared.queue.length < rest.length
        rw [show shared.queue = message :: rest from hqueue, List.length_cons]
        omega
      · refine iff_of_false (Nat.succ_ne_zero received) fun hnever => hnever.2 ⟨?_, ?_⟩
        · have hpending : shared.metrics.currentPending = 0 - UInt64.ofNat received := h.pending
          rw [hpending, hnever.1]
          rfl
        · show shared.metrics.totalReceived + 1 ≠ shared.metrics.totalReceived
          grind
  | breaks _ message rest now _ hqueue hbroken =>
      obtain ⟨average, hrecord, _⟩ := recordLatency_ok hsmall message now
      exact absurd hrecord (hbroken _)
  | closes =>
      refine ⟨accepted, received, h.after_close huncounted, ?_, ?_⟩
      · exact (and_iff_left (Nat.not_lt_zero _)).symm
      · exact (and_iff_left fun hwraps => hwraps.2 rfl).symm
  | other _ _ sendersAlive hbefore hafter _ _ =>
      rw [hbefore.2, hafter.2] at huncounted
      exact hsame (h.kept rfl rfl rfl (.inl rfl) huncounted)

/-! ### Runs -/

/-- The counts, where `nothing` says that none was accepted and `never` that no receive wrapped the counter. -/
def Tallied (nothing never : Prop) (system : System T) : Prop :=
  ∃ accepted received, Counted accepted received system ∧ (nothing ↔ accepted = 0) ∧ (never ↔ received = 0)

variable {nothing never : Prop}

theorem Tallied.start (h : boundedWithBackpressure T config = .ok channel) : Tallied True True (⟨channel, []⟩ : System T) :=
  ⟨0, 0, Counted.start h, (iff_true_right rfl).mpr trivial, (iff_true_right rfl).mpr trivial⟩

theorem Tallied.turned (h : Tallied nothing never system) (hconserved : Conserved config system) (hturns : Turns system system') :
    Tallied (nothing ∧ ¬ Accepts system.shared system'.shared) (never ∧ ¬ Wraps system.shared system'.shared) system' := by
  obtain ⟨accepted, received, hcounted, hnothing, hnever⟩ := h
  obtain ⟨accepted', received', hcounted', haccepts, hwraps⟩ := hcounted.turned hconserved.small hturns
  refine ⟨accepted', received', hcounted', ?_, ?_⟩
  · rw [haccepts, hnothing]
  · rw [hwraps, hnever]

theorem Tallied.kept (h : Tallied nothing never system) (hshared : system'.shared = system.shared)
    (huncounted : uncounted system'.tasks = uncounted system.tasks) :
    Tallied (nothing ∧ ¬ Accepts system.shared system'.shared) (never ∧ ¬ Wraps system.shared system'.shared) system' := by
  obtain ⟨accepted, received, hcounted, hnothing, hnever⟩ := h
  obtain ⟨hcounted', haccepts, hwraps⟩ := hcounted.kept (congrArg _ hshared) (congrArg _ hshared) (congrArg _ hshared)
    (.inl (congrArg _ hshared)) huncounted
  exact ⟨accepted, received, hcounted', (and_iff_left haccepts).trans hnothing, (and_iff_left hwraps).trans hnever⟩

theorem entry_isAccepted (operation : Operation T) : operation.entry.isAccepted = false := by
  cases operation <;> rfl

theorem Tallied.step (h : Tallied nothing never system) (hconserved : Conserved config system) (label : Label T) :
    Tallied (nothing ∧ ¬ Accepts system.shared (Tasks.step (program T) system label).shared)
      (never ∧ ¬ Wraps system.shared (Tasks.step (program T) system label).shared) (Tasks.step (program T) system label) := by
  cases label with
  | spawn operation =>
      refine h.kept rfl ?_
      show (system.tasks ++ [operation.entry]).countP _ = _
      rw [List.countP_append, List.countP_singleton, entry_isAccepted]
      rfl
  | turn task input =>
      obtain hsame | hturns := turn_cases system task input
      · rw [hsame]
        exact h.kept rfl rfl
      · exact h.turned hconserved hturns

/-- No step of the run gets a message onto the channel. -/
def AcceptsNothing (start : System T) (labels : List (Label T)) : Prop :=
  Run.Follows (Tasks.step (program T))
    (fun system label => ¬ Accepts system.shared (Tasks.step (program T) system label).shared) start labels

def NeverWraps (start : System T) (labels : List (Label T)) : Prop :=
  Run.Follows (Tasks.step (program T))
    (fun system label => ¬ Wraps system.shared (Tasks.step (program T) system label).shared) start labels

theorem run_tallied (h : boundedWithBackpressure T config = .ok channel) (labels : List (Label T)) :
    Tallied (AcceptsNothing ⟨channel, []⟩ labels) (NeverWraps ⟨channel, []⟩ labels)
      (Run.final (Tasks.step (program T)) ⟨channel, []⟩ labels) := by
  induction labels using List.reverseRecOn with
  | nil => exact Tallied.start h
  | append_singleton labels label ih =>
      rw [AcceptsNothing, NeverWraps, Run.follows_concat, Run.follows_concat, Run.final_concat]
      exact ih.step (Conserved.run h labels) label

/-- No event gets a message onto this queue. -/
def AcceptsNothingOn (priority : Priority) (start : Reception T) (events : List (Event T)) : Prop :=
  Run.Follows Reception.step
    (fun reception event =>
      ¬ Accepts (reception.manager.channel priority) ((reception.step event).manager.channel priority)) start events

def NeverWrapsOn (priority : Priority) (start : Reception T) (events : List (Event T)) : Prop :=
  Run.Follows Reception.step
    (fun reception event =>
      ¬ Wraps (reception.manager.channel priority) ((reception.step event).manager.channel priority)) start events

theorem Reception.run_tallied
    {manager : PriorityBackpressureManager T} (h : PriorityBackpressureManager.new T config = .ok manager)
    (receiver : Receiver T) (events : List (Event T)) (priority : Priority) :
    Tallied (AcceptsNothingOn priority ⟨manager, receiver⟩ events) (NeverWrapsOn priority ⟨manager, receiver⟩ events)
      ((Run.final Reception.step ⟨manager, receiver⟩ events).manager.queues priority) := by
  induction events using List.reverseRecOn with
  | nil =>
      obtain ⟨channel, hchannel, rfl⟩ := new_eq_ok h
      exact Tallied.start hchannel
  | append_singleton events event ih =>
      have hconserved := Reception.conserved_run h receiver events priority
      rw [AcceptsNothingOn, NeverWrapsOn, Run.follows_concat, Run.follows_concat, Run.final_concat]
      obtain hsame | ⟨label, hlabel⟩ | hturns :=
        (Run.final Reception.step ⟨manager, receiver⟩ events).step_queues event priority
      · rw [PriorityBackpressureManager.channel, PriorityBackpressureManager.channel, hsame]
        exact ih.kept rfl rfl
      · rw [PriorityBackpressureManager.channel, PriorityBackpressureManager.channel, hlabel]
        exact ih.step hconserved label
      · exact ih.turned hconserved hturns

/-! ### The sums over the four queues -/

/-- Nothing was sent, received or dropped. -/
structure Idle (metrics : BackpressureMetrics) : Prop where
  totalSent : metrics.totalSent = 0
  totalReceived : metrics.totalReceived = 0
  totalDropped : metrics.totalDropped = 0
  currentPending : metrics.currentPending = 0

variable {sums sums' : BackpressureSnapshot × UInt64 × UInt64} {metrics : BackpressureSnapshot}

open PriorityBackpressureManager

theorem addMetrics_sum (h : addMetrics sums metrics = .ok sums') :
    sums'.1.currentPending.toNat = sums.1.currentPending.toNat + metrics.currentPending.toNat ∧
      sums'.1.totalTimeouts.toNat = sums.1.totalTimeouts.toNat + metrics.totalTimeouts.toNat := by
  obtain ⟨total, latencySum, latencyCount⟩ := sums
  obtain ⟨totalSent, _, h⟩ := Outcome.bind_eq_ok.mp h
  obtain ⟨totalReceived, _, h⟩ := Outcome.bind_eq_ok.mp h
  obtain ⟨totalDropped, _, h⟩ := Outcome.bind_eq_ok.mp h
  obtain ⟨totalTimeouts, htimeouts, h⟩ := Outcome.bind_eq_ok.mp h
  obtain ⟨currentPending, hpending, h⟩ := Outcome.bind_eq_ok.mp h
  have hsums : sums'.1.currentPending = currentPending ∧ sums'.1.totalTimeouts = totalTimeouts := by
    dsimp only at h
    by_cases hreceived : 0 < metrics.totalReceived
    · rw [if_pos hreceived] at h
      obtain ⟨_, _, h⟩ := Outcome.bind_eq_ok.mp h
      obtain ⟨_, _, h⟩ := Outcome.bind_eq_ok.mp h
      obtain ⟨_, _, h⟩ := Outcome.bind_eq_ok.mp h
      obtain rfl := Outcome.ok.inj h
      exact ⟨rfl, rfl⟩
    · rw [if_neg hreceived] at h
      obtain rfl := Outcome.ok.inj h
      exact ⟨rfl, rfl⟩
  rw [hsums.1, hsums.2]
  exact ⟨toNat_of_u64Add hpending, toNat_of_u64Add htimeouts⟩

theorem foldlM_addMetrics_sum {all : List BackpressureSnapshot} (h : all.foldlM addMetrics sums = .ok sums') :
    sums'.1.currentPending.toNat = sums.1.currentPending.toNat + (all.map (·.currentPending.toNat)).sum ∧
      sums'.1.totalTimeouts.toNat = sums.1.totalTimeouts.toNat + (all.map (·.totalTimeouts.toNat)).sum := by
  induction all generalizing sums with
  | nil =>
      obtain rfl := Outcome.ok.inj h
      exact ⟨rfl, rfl⟩
  | cons metrics rest ih =>
      rw [List.foldlM_cons] at h
      obtain ⟨between, hfirst, hrest⟩ := Outcome.bind_eq_ok.mp h
      obtain ⟨hpending, htimeouts⟩ := ih hrest
      obtain ⟨hpendingFirst, htimeoutsFirst⟩ := addMetrics_sum hfirst
      simp only [List.map_cons, List.sum_cons]
      omega

theorem addMetrics_idle {total : BackpressureSnapshot} (latencySum latencyCount : UInt64) (htotal : Idle total)
    (hmetrics : Idle metrics) (hfits : total.totalTimeouts.toNat + metrics.totalTimeouts.toNat < 2 ^ 64) :
    ∃ total', addMetrics (total, latencySum, latencyCount) metrics = .ok (total', latencySum, latencyCount) ∧ Idle total' ∧
      total'.totalTimeouts.toNat = total.totalTimeouts.toNat + metrics.totalTimeouts.toNat := by
  refine ⟨{ totalSent := 0, totalReceived := 0, totalDropped := 0, totalTimeouts := total.totalTimeouts + metrics.totalTimeouts,
            currentPending := 0,
            maxPendingReached :=
              if total.maxPendingReached < metrics.maxPendingReached then metrics.maxPendingReached else total.maxPendingReached,
            avgLatencyMs := total.avgLatencyMs }, ?_, ⟨rfl, rfl, rfl, rfl⟩, toNat_add_of_lt hfits⟩
  have hnone : ¬ (0 : UInt64) < 0 := by decide
  simp only [addMetrics, htotal.totalSent, htotal.totalReceived, htotal.totalDropped, htotal.currentPending, hmetrics.totalSent,
    hmetrics.totalReceived, hmetrics.totalDropped, hmetrics.currentPending, u64Add_zero_left, u64Add_of_lt hfits, Outcome.ok_bind,
    if_neg hnone, Outcome.pure_eq_ok]

theorem foldlM_addMetrics_idle {all : List BackpressureSnapshot} {total : BackpressureSnapshot} (latencySum latencyCount : UInt64)
    (htotal : Idle total) (hidle : ∀ metrics ∈ all, Idle metrics)
    (hfits : total.totalTimeouts.toNat + (all.map (·.totalTimeouts.toNat)).sum < 2 ^ 64) :
    ∃ total', all.foldlM addMetrics (total, latencySum, latencyCount) = .ok (total', latencySum, latencyCount) ∧ Idle total' := by
  induction all generalizing total with
  | nil => exact ⟨total, rfl, htotal⟩
  | cons metrics rest ih =>
      rw [List.map_cons, List.sum_cons] at hfits
      obtain ⟨between, hfirst, hbetween, htimeouts⟩ :=
        addMetrics_idle latencySum latencyCount htotal (hidle metrics List.mem_cons_self) (by omega)
      obtain ⟨total', hrest, htotal'⟩ :=
        ih hbetween (fun metrics hmem => hidle metrics (List.mem_cons_of_mem _ hmem)) (by omega)
      refine ⟨total', ?_, htotal'⟩
      rw [List.foldlM_cons, hfirst, Outcome.ok_bind, hrest]

/-- All the priorities, in the order of the queues. -/
def Priority.all : List Priority := [.low, .normal, .high, .critical]

theorem Priority.mem_all (priority : Priority) : priority ∈ Priority.all := by
  cases priority <;> decide

namespace PriorityBackpressureManager

/-- The number of messages on the four queues. -/
def queued (manager : PriorityBackpressureManager T) : Nat :=
  (Priority.all.map fun priority => (manager.channel priority).queue.length).sum

/-- The sends that timed out on the four queues. -/
def timedOut (manager : PriorityBackpressureManager T) : Nat :=
  (Priority.all.map fun priority => (manager.channel priority).metrics.totalTimeouts.toNat).sum

def ReportsQueued (manager : PriorityBackpressureManager T) : Prop :=
  ∃ snapshot, manager.aggregateMetrics = .ok snapshot ∧ snapshot.currentPending.toNat = manager.queued

/-- Where no queue counts anything as pending, the report is right if there is one and nothing is queued. -/
theorem queued_eq_zero_of_reportsQueued {manager : PriorityBackpressureManager T} (h : manager.ReportsQueued)
    (hpending : ∀ priority, (manager.channel priority).metrics.currentPending = 0) :
    manager.queued = 0 ∧ manager.timedOut < 2 ^ 64 := by
  obtain ⟨snapshot, hsnapshot, hqueued⟩ := h
  obtain ⟨⟨total, latencySum, latencyCount⟩, hfold, hsnapshot⟩ := Outcome.bind_eq_ok.mp hsnapshot
  have hsums := foldlM_addMetrics_sum hfold
  have htotal : snapshot.currentPending = total.currentPending := by
    obtain rfl := Outcome.ok.inj hsnapshot
    split <;> rfl
  have hzero : (BackpressureMetrics.new.currentPending.toNat = 0) ∧ BackpressureMetrics.new.totalTimeouts.toNat = 0 := ⟨rfl, rfl⟩
  refine ⟨?_, ?_⟩
  · rw [← hqueued, htotal, hsums.1, hzero.1]
    simp [hpending]
  · have htimeouts : total.totalTimeouts.toNat = manager.timedOut := by
      rw [hsums.2, hzero.2, Nat.zero_add, List.map_map]
      rfl
    rw [← htimeouts]
    exact total.totalTimeouts.toNat_lt

theorem reportsQueued_of_idle
    {manager : PriorityBackpressureManager T} (hidle : ∀ priority, Idle (manager.channel priority).metrics)
    (hqueued : manager.queued = 0) (hfits : manager.timedOut < 2 ^ 64) : manager.ReportsQueued := by
  have hnew : Idle BackpressureMetrics.new := ⟨rfl, rfl, rfl, rfl⟩
  have hzero : BackpressureMetrics.new.totalTimeouts.toNat = 0 := rfl
  have hall : ∀ metrics ∈ Priority.all.map fun priority => (manager.channel priority).metrics, Idle metrics := by
    intro metrics hmetrics
    obtain ⟨priority, _, rfl⟩ := List.mem_map.mp hmetrics
    exact hidle priority
  obtain ⟨total, hfold, htotal⟩ := foldlM_addMetrics_idle 0 0 hnew hall (by
    rw [hzero, Nat.zero_add, List.map_map]
    exact hfits)
  refine ⟨total, ?_, ?_⟩
  · rw [aggregateMetrics]
    exact Outcome.bind_eq_ok.mpr ⟨_, hfold, rfl⟩
  · rw [htotal.currentPending, hqueued]
    rfl

end PriorityBackpressureManager

/-! ### What the counters are worth -/

theorem maxPending_lt (h : boundedWithBackpressure T config = .ok channel) : config.maxPending < 2 ^ 61 := by
  rw [boundedWithBackpressure] at h
  split at h
  · simp at h
  · next hfits =>
      have hle : config.maxPending ≤ maxPermits := Nat.not_lt.mp fun hlt => hfits (.inr hlt)
      rw [maxPermits] at hle
      omega

/-- A queue on which nothing was received holds whatever was accepted. -/
theorem Counted.idle (h : Counted 0 received system) : Idle system.shared.metrics ∧ system.shared.queue = [] := by
  have hle := h.le
  have huncounted : uncounted system.tasks = 0 := Nat.le_zero.mp h.uncounted_le
  obtain rfl : received = 0 := by omega
  refine ⟨⟨?_, h.totalReceived, h.totalDropped, h.pending⟩, List.length_eq_zero_iff.mp (by omega)⟩
  have htotal := h.totalSent
  rw [huncounted] at htotal
  exact (UInt64.add_zero _).symm.trans htotal

/-- The counters of the channel say what is queued. -/
def CountsQueue (channel : Channel T) : Prop :=
  channel.metrics.currentPending.toNat = channel.queue.length ∧
    channel.metrics.totalSent.toNat = channel.metrics.totalReceived.toNat + channel.queue.length

theorem Tallied.countsQueue_iff (h : Tallied nothing never system) (hconserved : Conserved config system)
    (hbound : config.maxPending < 2 ^ 61) (hquiescent : ∀ point ∈ system.tasks, point.isAccepted = false) :
    CountsQueue system.shared ∧ never ↔ nothing := by
  obtain ⟨accepted, received, hcounted, hnothing, hnever⟩ := h
  rw [hnothing, hnever]
  apply Iff.intro
  · intro hright
    obtain ⟨⟨hqueue, hsent⟩, rfl⟩ := hright
    have huncounted : uncounted system.tasks = 0 :=
      List.countP_eq_zero.mpr fun point hpoint => by rw [hquiescent point hpoint]; decide
    have hpending : system.shared.metrics.currentPending = 0 := hcounted.pending
    have htotalReceived : system.shared.metrics.totalReceived = 0 := hcounted.totalReceived
    have htotalSent : system.shared.metrics.totalSent = UInt64.ofNat accepted := by
      have htotal := hcounted.totalSent
      rw [huncounted] at htotal
      exact (UInt64.add_zero _).symm.trans htotal
    have hbelow := hcounted.bound
    rw [hconserved.config_eq] at hbelow
    rw [hpending] at hqueue
    rw [htotalSent, htotalReceived, ← hqueue, UInt64.toNat_ofNat', Nat.mod_eq_of_lt (by omega)] at hsent
    exact hsent
  · intro haccepted
    rw [haccepted] at hcounted
    obtain ⟨hidle, hqueue⟩ := hcounted.idle
    have hle := hcounted.le
    refine ⟨⟨?_, ?_⟩, by omega⟩
    · rw [hidle.currentPending, hqueue]
      rfl
    · rw [hidle.totalSent, hidle.totalReceived, hqueue]
      rfl

theorem reportsQueued_iff {manager : PriorityBackpressureManager T} {nothing never : Priority → Prop}
    (h : ∀ priority, Tallied (nothing priority) (never priority) (manager.queues priority))
    (halive : ∀ priority, (manager.channel priority).receiverAlive = true) :
    manager.ReportsQueued ∧ (∀ priority, never priority) ↔ (∀ priority, nothing priority) ∧ manager.timedOut < 2 ^ 64 := by
  apply Iff.intro
  · intro hright
    obtain ⟨hreports, hall⟩ := hright
    have hpending : ∀ priority, (manager.channel priority).metrics.currentPending = 0 := by
      intro priority
      obtain ⟨accepted, received, hcounted, _, hnever⟩ := h priority
      obtain rfl := hnever.mp (hall priority)
      exact hcounted.pending
    obtain ⟨hqueued, hfits⟩ := queued_eq_zero_of_reportsQueued hreports hpending
    refine ⟨fun priority => ?_, hfits⟩
    obtain ⟨accepted, received, hcounted, hnothing, hnever⟩ := h priority
    have hqueue : (manager.channel priority).queue.length = 0 :=
      List.sum_eq_zero_iff_forall_eq_nat.mp hqueued _ (List.mem_map_of_mem (Priority.mem_all priority))
    obtain rfl := hnever.mp (hall priority)
    have haccepted : accepted = 0 + (manager.channel priority).queue.length := hcounted.alive (halive priority)
    exact hnothing.mpr (by omega)
  · intro hright
    obtain ⟨hall, hfits⟩ := hright
    have hidle : ∀ priority, Idle (manager.channel priority).metrics ∧ (manager.channel priority).queue = [] ∧ never priority := by
      intro priority
      obtain ⟨accepted, received, hcounted, hnothing, hnever⟩ := h priority
      obtain rfl := hnothing.mp (hall priority)
      have hle := hcounted.le
      exact ⟨hcounted.idle.1, hcounted.idle.2, hnever.mpr (by omega)⟩
    have hqueued : manager.queued = 0 := by
      refine List.sum_eq_zero_iff_forall_eq_nat.mpr fun length hlength => ?_
      obtain ⟨priority, _, rfl⟩ := List.mem_map.mp hlength
      exact List.length_eq_zero_iff.mpr (hidle priority).2.1
    exact ⟨reportsQueued_of_idle (fun priority => (hidle priority).1) hqueued hfits, fun priority => (hidle priority).2.2⟩

/-- The counters of a channel are right in its quiescent states, and never wrap, exactly in the runs in which nothing gets
onto it; and so are the sums over the four queues, if the timeouts of the sends do not overflow them. -/
theorem counters_right_iff (config : BackpressureConfig) :
    (∀ (channel : Channel T) (labels : List (Label T)), boundedWithBackpressure T config = .ok channel →
      let system := Run.final (Tasks.step (program T)) ⟨channel, []⟩ labels
      (∀ point ∈ system.tasks, point.isAccepted = false) →
        (CountsQueue system.shared ∧ NeverWraps ⟨channel, []⟩ labels ↔ AcceptsNothing ⟨channel, []⟩ labels)) ∧
    (∀ (manager : PriorityBackpressureManager T) (receiver : Receiver T) (events : List (Event T)),
      PriorityBackpressureManager.new T config = .ok manager →
      let reception := Run.final Reception.step ⟨manager, receiver⟩ events
      (∀ priority, (reception.manager.channel priority).receiverAlive = true) →
        (reception.manager.ReportsQueued ∧ (∀ priority, NeverWrapsOn priority ⟨manager, receiver⟩ events) ↔
          (∀ priority, AcceptsNothingOn priority ⟨manager, receiver⟩ events) ∧ reception.manager.timedOut < 2 ^ 64)) := by
  refine ⟨?_, ?_⟩
  · intro channel labels hchannel system hquiescent
    exact (run_tallied hchannel labels).countsQueue_iff (Conserved.run hchannel labels) (maxPending_lt hchannel) hquiescent
  · intro manager receiver events hnew reception halive
    exact reportsQueued_iff (fun priority => Reception.run_tallied hnew receiver events priority) halive

/-- An empty channel is polled, and so are the four queues of a manager until the receiver waits. -/
theorem counters_right_iff_polled :
    let polls : List (Label UInt8) := [.spawn .tryRecv, .turn 0 (.proceed 5)]
    let manager : PriorityBackpressureManager UInt8 := { queues := fun _ => ⟨sampleChannel, []⟩ }
    let events : List (Event UInt8) := [.call, .receive 1, .receive 2, .receive 3, .receive 4]
    CountsQueue (Run.final (Tasks.step (program UInt8)) ⟨sampleChannel, []⟩ polls).shared ∧
      NeverWraps ⟨sampleChannel, []⟩ polls ∧
      (Run.final Reception.step ⟨manager, .ready none⟩ events).manager.ReportsQueued := by
  intro polls manager events
  have hchannel := (counters_right_iff sampleConfig).1 sampleChannel polls (by decide) (by decide)
  have hmanager := (counters_right_iff { sampleConfig with maxPending := 8 }).2 manager (.ready none) events rfl
    (fun priority => by cases priority <;> rfl)
  have hnothing : AcceptsNothing ⟨sampleChannel, []⟩ polls := ⟨Nat.lt_irrefl _, Nat.lt_irrefl _, trivial⟩
  have hnothingOn (priority : Priority) : AcceptsNothingOn priority ⟨manager, .ready none⟩ events := by
    cases priority <;>
      exact ⟨Nat.lt_irrefl _, Nat.lt_irrefl _, Nat.lt_irrefl _, Nat.lt_irrefl _, Nat.lt_irrefl _, trivial⟩
  have hright := hchannel.mpr hnothing
  exact ⟨hright.1, hright.2, (hmanager.mpr ⟨hnothingOn, by decide⟩).1⟩

/-- One message is sent and received. -/
def deliveredRun : List (Label UInt8) :=
  [.spawn (.send 7 .normal), .turn 0 (.proceed 0), .turn 0 (.proceed 1), .turn 0 (.proceed 2), .spawn .recv, .turn 1 (.proceed 3)]

theorem not_counters_right :
    ¬ ∀ (channel : Channel UInt8) (labels : List (Label UInt8)), boundedWithBackpressure UInt8 sampleConfig = .ok channel →
      let system := Run.final (Tasks.step (program UInt8)) ⟨channel, []⟩ labels
      (∀ point ∈ system.tasks, point.isAccepted = false) → system.shared.receiverAlive = true →
        CountsQueue system.shared ∧ NeverWraps ⟨channel, []⟩ labels := by
  intro h
  have hcounts := (h sampleChannel deliveredRun (by decide) (by decide) rfl).1.1
  have hqueue : (Run.final (Tasks.step (program UInt8)) ⟨sampleChannel, []⟩ deliveredRun).shared.queue = [] := by decide
  have hpending : (Run.final (Tasks.step (program UInt8)) ⟨sampleChannel, []⟩ deliveredRun).shared.metrics.currentPending =
      18446744073709551615 := by decide
  rw [hqueue, hpending] at hcounts
  exact absurd hcounts (by decide)

end Backpressure

end IrohRaft
