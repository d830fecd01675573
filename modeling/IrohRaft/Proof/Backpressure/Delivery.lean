import IrohRaft.Proof.Backpressure.Permits

/-!
# What is sent is received

The messages that were accepted come out in the order in which they were accepted, each to one receive. A send is told
that it succeeded exactly if its message was accepted, and a receive that nobody waits for any more has taken none.
-/

namespace IrohRaft

namespace Backpressure

open Rust

variable {T : Type}

/-! ### What happened -/

/-- The operations in the order in which they were started, and the messages that they have handed over and taken, each
with the number of its operation. -/
structure Traffic (T : Type) where
  started : List (Operation T) := []
  accepted : List (Nat × PrioritizedMessage T) := []
  received : List (Nat × PrioritizedMessage T) := []

def Traffic.note (task : Nat) (traffic : Traffic T) : Point T → Point T → Traffic T
  | .sending message, .accepted | .trySending message, .accepted =>
      { traffic with accepted := traffic.accepted ++ [(task, message)] }
  | .recv, .received (.ok (some message)) | .tryRecv, .received (.ok (some message)) =>
      { traffic with received := traffic.received ++ [(task, message)] }
  | _, _ => traffic

def Traffic.record (before : System T) (label : Label T) (after : System T) (traffic : Traffic T) : Traffic T :=
  match label with
  | .spawn operation => { traffic with started := traffic.started ++ [operation] }
  | .turn task _ =>
      match before.tasks[task]?, after.tasks[task]? with
      | some point, some point' => traffic.note task point point'
      | _, _ => traffic

def observe : System T × Traffic T → Label T → System T × Traffic T := Tasks.recording (program T) Traffic.record

/-- What an operation sends. -/
def Operation.sends : Operation T → Option (T × Priority)
  | .send data priority | .trySend data priority => some (data, priority)
  | .recv | .tryRecv | .dropReceiver | .dropSenders => none

/-- What the operation still has to hand over. -/
def Point.sends : Point T → Option (T × Priority)
  | .acquire data priority | .tryAcquire data priority => some (data, priority)
  | .sending message | .trySending message => some (message.data, message.priority)
  | .accepted | .recv | .tryRecv | .dropReceiver | .dropSenders | .sent _ | .received _ | .dropped => none

/-- The send has succeeded, or is about to. -/
def Point.succeeded : Point T → Bool
  | .accepted | .sent (.ok ()) => true
  | _ => false

/-- The message that a receive returned. -/
def Point.taken : Point T → Option (PrioritizedMessage T)
  | .received (.ok (some message)) => some message
  | _ => none

/-- The channel and its operations agree about what was handed over. -/
structure Delivers (system : System T) (traffic : Traffic T) : Prop where
  inOrder : system.shared.receiverAlive = true →
    traffic.accepted.map Prod.snd = traffic.received.map Prod.snd ++ system.shared.queue
  fromAccepted : traffic.received.map Prod.snd ++ system.shared.queue <+: traffic.accepted.map Prod.snd
  acceptedOnce : (traffic.accepted.map Prod.fst).Nodup
  receivedOnce : (traffic.received.map Prod.fst).Nodup
  succeeded : ∀ task, (∃ point, system.tasks[task]? = some point ∧ point.succeeded = true) ↔
    ∃ message, (task, message) ∈ traffic.accepted
  taken : ∀ task message, (∃ point, system.tasks[task]? = some point ∧ point.taken = some message) ↔
    (task, message) ∈ traffic.received
  asSent : ∀ task message, (task, message) ∈ traffic.accepted →
    ∃ operation, traffic.started[task]? = some operation ∧ operation.sends = some (message.data, message.priority)

/-! ### One turn -/

section Turn

variable {channel channel' : Channel T} {point point' : Point T} {message : PrioritizedMessage T} {now : UInt64}
  {input : Input}

/-- A message goes in at the end of the queue or comes out at its front, or none does either. -/
inductive Carries (channel channel' : Channel T) : Point T → Point T → Prop where
  | accepts (point : Point T) (message : PrioritizedMessage T) (hpoint : point = .sending message ∨ point = .trySending message)
      (halive : channel.receiverAlive = true) (hqueue : channel'.queue = channel.queue ++ [message]) :
      Carries channel channel' point .accepted
  | receives (point : Point T) (message : PrioritizedMessage T) (hpoint : point = .recv ∨ point = .tryRecv)
      (halive : channel'.receiverAlive = channel.receiverAlive) (hqueue : channel.queue = message :: channel'.queue) :
      Carries channel channel' point (.received (.ok (some message)))
  | neither (point point' : Point T) (hsucceeded : point'.succeeded = point.succeeded) (htaken : point'.taken = point.taken)
      (hsends : ∀ sent, point'.sends = some sent → point.sends = some sent)
      (hqueue : channel'.receiverAlive = channel.receiverAlive ∧ channel'.queue = channel.queue ∨
        channel'.receiverAlive = false ∧ channel'.queue = []) : Carries channel channel' point point'

theorem Carries.unchanged (hsucceeded : point'.succeeded = point.succeeded) (htaken : point'.taken = point.taken)
    (hsends : ∀ sent, point'.sends = some sent → point.sends = some sent)
    (halive : channel'.receiverAlive = channel.receiverAlive) (hqueue : channel'.queue = channel.queue) :
    Carries channel channel' point point' :=
  .neither point point' hsucceeded htaken hsends (.inl ⟨halive, hqueue⟩)

/-- A send that holds a permit. -/
theorem carries_of_sending {crowded : Option (Channel T × Point T)}
    (hpoint : point = .sending message ∨ point = .trySending message)
    (h : (if ¬ channel.receiverAlive then some (channel.releasePermit, Point.sent (.err (.internal "Channel closed")))
      else if channel.queue.length < channel.config.maxPending then some (channel.accept message, .accepted)
      else crowded) = some (channel', point'))
    (hcrowded : ∀ channel' point', crowded = some (channel', point') →
      channel' = channel.releasePermit ∧ ∃ error, point' = .sent (.err error)) : Carries channel channel' point point' := by
  have hsucceeded : point.succeeded = false := by obtain rfl | rfl := hpoint <;> simp [Point.succeeded]
  have htaken : point.taken = none := by obtain rfl | rfl := hpoint <;> simp [Point.taken]
  have hrefused (error : RaftError) : Carries channel channel.releasePermit point (.sent (.err error)) :=
    .unchanged hsucceeded.symm htaken.symm (by simp [Point.sends]) rfl rfl
  split at h
  · obtain ⟨rfl, rfl⟩ := Prod.mk.inj (Option.some.inj h)
    exact hrefused _
  · next halive =>
      split at h
      · obtain ⟨rfl, rfl⟩ := Prod.mk.inj (Option.some.inj h)
        exact .accepts point message hpoint (by simpa using halive) rfl
      · obtain ⟨rfl, error, rfl⟩ := hcrowded _ _ h
        exact hrefused error

theorem received_eq_of_small {rest : List (PrioritizedMessage T)} (hsmall : SmallLatency channel) :
    ∃ metrics, Channel.received message now { channel with queue := rest } =
      (.ok message, { channel with queue := rest, metrics, permits := channel.permits + 1 }) := by
  obtain ⟨average, hrecord, -⟩ := recordLatency_ok hsmall message now
  exact ⟨_, received_of_ok hrecord⟩

theorem carries_of_proceed (hsmall : SmallLatency channel) (h : proceed channel now point = some (channel', point')) :
    Carries channel channel' point point' := by
  cases point with
  | acquire data priority =>
      rw [proceed] at h
      split at h
      · simp at h
      · obtain ⟨rfl, rfl⟩ := Prod.mk.inj (Option.some.inj h)
        exact .unchanged rfl rfl (fun _ => id) rfl rfl
  | tryAcquire data priority =>
      rw [proceed] at h
      split at h
      · obtain ⟨rfl, rfl⟩ := Prod.mk.inj (Option.some.inj h)
        exact .unchanged rfl rfl (by simp [Point.sends]) rfl rfl
      · obtain ⟨rfl, rfl⟩ := Prod.mk.inj (Option.some.inj h)
        exact .unchanged rfl rfl (fun _ => id) rfl rfl
  | sending message =>
      rw [proceed] at h
      exact carries_of_sending (.inl rfl) h (by simp)
  | trySending message =>
      rw [proceed] at h
      refine carries_of_sending (.inr rfl) h fun channel' point' hcrowded => ?_
      obtain ⟨rfl, rfl⟩ := Prod.mk.inj (Option.some.inj hcrowded)
      exact ⟨rfl, _, rfl⟩
  | accepted =>
      obtain ⟨rfl, rfl⟩ := Prod.mk.inj (Option.some.inj h)
      exact .unchanged rfl rfl (by simp [Point.sends]) rfl rfl
  | recv =>
      rw [proceed] at h
      cases hqueue : channel.queue with
      | nil =>
          rw [recv_nil hqueue] at h
          split at h
          · next hrecv =>
              split at hrecv
              · simp at hrecv
              · obtain ⟨rfl, rfl⟩ := Prod.mk.inj (Option.some.inj hrecv)
                obtain ⟨rfl, rfl⟩ := Prod.mk.inj (Option.some.inj h)
                exact .unchanged rfl rfl (by simp [Point.sends]) rfl rfl
          · simp at h
      | cons message rest =>
          obtain ⟨metrics, hreceived⟩ := @received_eq_of_small _ channel message now rest hsmall
          rw [recv_cons hqueue, hreceived] at h
          obtain ⟨rfl, rfl⟩ := Prod.mk.inj (Option.some.inj h)
          exact .receives _ message (.inl rfl) rfl hqueue
  | tryRecv =>
      rw [proceed] at h
      obtain ⟨rfl, rfl⟩ := Prod.mk.inj (Option.some.inj h)
      cases hqueue : channel.queue with
      | nil =>
          obtain ⟨error, herror⟩ := tryRecv_nil now hqueue
          rw [herror]
          exact .unchanged rfl rfl (by simp [Point.sends]) rfl rfl
      | cons message rest =>
          obtain ⟨metrics, hreceived⟩ := @received_eq_of_small _ channel message now rest hsmall
          rw [tryRecv_cons hqueue, hreceived]
          exact .receives _ message (.inr rfl) rfl hqueue
  | dropReceiver =>
      obtain ⟨rfl, rfl⟩ := Prod.mk.inj (Option.some.inj h)
      exact .neither _ _ rfl rfl (by simp [Point.sends]) (.inr ⟨rfl, rfl⟩)
  | dropSenders =>
      obtain ⟨rfl, rfl⟩ := Prod.mk.inj (Option.some.inj h)
      exact .unchanged rfl rfl (by simp [Point.sends]) rfl rfl
  | sent _ | received _ | dropped => simp [proceed] at h

theorem carries_of_advance (hsmall : SmallLatency channel) (tasks : List (Point T))
    (h : advance channel tasks point input = some (channel', point')) :
    Carries channel channel' point point' := by
  cases input with
  | proceed now => exact carries_of_proceed hsmall h
  | elapse =>
      cases point with
      | acquire _ _ | sending _ =>
          obtain ⟨rfl, rfl⟩ := Prod.mk.inj (Option.some.inj h)
          exact .unchanged rfl rfl (by simp [Point.sends]) rfl rfl
      | _ => simp [advance, elapse] at h
  | cancel =>
      cases point with
      | acquire _ _ | recv | sending _ =>
          obtain ⟨rfl, rfl⟩ := Prod.mk.inj (Option.some.inj h)
          exact .unchanged rfl rfl (by simp [Point.sends]) rfl rfl
      | _ => simp [advance, cancel] at h

end Turn

/-! ### Runs -/

section Run

variable {config : BackpressureConfig} {channel channel' : Channel T} {tasks : List (Point T)} {task : Nat}
  {point point' : Point T} {traffic : Traffic T} {system : System T}

theorem note_of_neither (hsucceeded : point'.succeeded = point.succeeded) (htaken : point'.taken = point.taken) :
    traffic.note task point point' = traffic := by
  unfold Traffic.note
  split <;> simp_all [Point.succeeded, Point.taken]

theorem not_mem_accepted (h : Delivers ⟨channel, tasks⟩ traffic) (hpoint : tasks[task]? = some point)
    (hsucceeded : point.succeeded = false) : task ∉ traffic.accepted.map Prod.fst := by
  intro hmem
  obtain ⟨⟨other, message⟩, hmessage, rfl⟩ := List.mem_map.mp hmem
  obtain ⟨there, hthere, hdone⟩ := (h.succeeded other).mpr ⟨message, hmessage⟩
  obtain rfl := Option.some.inj (hpoint.symm.trans hthere)
  simp [hsucceeded] at hdone

theorem not_mem_received (h : Delivers ⟨channel, tasks⟩ traffic) (hpoint : tasks[task]? = some point)
    (htaken : point.taken = none) : task ∉ traffic.received.map Prod.fst := by
  intro hmem
  obtain ⟨⟨other, message⟩, hmessage, rfl⟩ := List.mem_map.mp hmem
  obtain ⟨there, hthere, hdone⟩ := (h.taken other message).mpr hmessage
  obtain rfl := Option.some.inj (hpoint.symm.trans hthere)
  simp [htaken] at hdone

/-- What an operation has still to hand over is what it was started with. -/
structure Keeps (system : System T) (traffic : Traffic T) : Prop where
  all : traffic.started.length = system.tasks.length
  asStarted : ∀ (task : Nat) (point : Point T) (sent : T × Priority), system.tasks[task]? = some point →
    point.sends = some sent → ∃ operation, traffic.started[task]? = some operation ∧ operation.sends = some sent

theorem Delivers.accepts (h : Delivers ⟨channel, tasks⟩ traffic) (hkeeps : Keeps ⟨channel, tasks⟩ traffic)
    (hpoint : tasks[task]? = some point) {message : PrioritizedMessage T}
    (hsending : point = .sending message ∨ point = .trySending message)
    (halive : channel.receiverAlive = true) (hqueue : channel'.queue = channel.queue ++ [message]) :
    Delivers ⟨channel', tasks.set task .accepted⟩ (traffic.note task point .accepted) := by
  have hnote : traffic.note task point .accepted = { traffic with accepted := traffic.accepted ++ [(task, message)] } := by
    obtain rfl | rfl := hsending <;> simp [Traffic.note]
  have hsucceeded : point.succeeded = false := by obtain rfl | rfl := hsending <;> simp [Point.succeeded]
  have htaken : point.taken = none := by obtain rfl | rfl := hsending <;> simp [Point.taken]
  have hsends : point.sends = some (message.data, message.priority) := by
    obtain rfl | rfl := hsending <;> simp [Point.sends]
  have hall : (traffic.accepted ++ [(task, message)]).map Prod.snd = traffic.received.map Prod.snd ++ channel'.queue := by
    rw [List.map_append, h.inOrder halive, hqueue, List.map_singleton, List.append_assoc]
  rw [hnote]
  refine ⟨fun _ => hall, hall ▸ List.prefix_refl _, ?_, h.receivedOnce, fun other => ?_, fun other taken => ?_, ?_⟩
  · rw [List.map_append, List.map_singleton]
    exact List.Nodup.append h.acceptedOnce (List.nodup_singleton task)
      (List.disjoint_singleton.mpr (not_mem_accepted h hpoint hsucceeded))
  · rw [Tasks.exists_getElem?_set_iff (fun there => there.succeeded = true) hpoint]
    by_cases hself : other = task
    · subst hself
      simp [Point.succeeded]
    · simp [hself, h.succeeded other]
  · rw [Tasks.exists_getElem?_set_iff_of_iff hpoint (by rw [htaken]; simp [Point.taken])]
    exact h.taken other taken
  · intro other taken hmem
    obtain hold | hnew := List.mem_append.mp hmem
    · exact h.asSent other taken hold
    · obtain ⟨rfl, rfl⟩ := Prod.mk.inj (List.mem_singleton.mp hnew)
      exact hkeeps.asStarted other point _ hpoint hsends

theorem Delivers.receives (h : Delivers ⟨channel, tasks⟩ traffic) (hpoint : tasks[task]? = some point)
    {message : PrioritizedMessage T} (hreceiving : point = .recv ∨ point = .tryRecv)
    (halive : channel'.receiverAlive = channel.receiverAlive) (hqueue : channel.queue = message :: channel'.queue) :
    Delivers ⟨channel', tasks.set task (.received (.ok (some message)))⟩
      (traffic.note task point (.received (.ok (some message)))) := by
  have hnote : traffic.note task point (.received (.ok (some message))) =
      { traffic with received := traffic.received ++ [(task, message)] } := by
    obtain rfl | rfl := hreceiving <;> simp [Traffic.note]
  have hsucceeded : point.succeeded = false := by obtain rfl | rfl := hreceiving <;> simp [Point.succeeded]
  have htaken : point.taken = none := by obtain rfl | rfl := hreceiving <;> simp [Point.taken]
  have hall : (traffic.received ++ [(task, message)]).map Prod.snd ++ channel'.queue =
      traffic.received.map Prod.snd ++ channel.queue := by
    rw [hqueue, List.map_append, List.map_singleton, List.append_assoc, List.singleton_append]
  rw [hnote]
  refine ⟨fun hlives => ?_, ?_, h.acceptedOnce, ?_, fun other => ?_, fun other taken => ?_, h.asSent⟩
  · rw [hall]
    exact h.inOrder (halive ▸ hlives)
  · rw [hall]
    exact h.fromAccepted
  · rw [List.map_append, List.map_singleton]
    exact List.Nodup.append h.receivedOnce (List.nodup_singleton task)
      (List.disjoint_singleton.mpr (not_mem_received h hpoint htaken))
  · rw [Tasks.exists_getElem?_set_iff_of_iff hpoint (by rw [hsucceeded]; simp [Point.succeeded])]
    exact h.succeeded other
  · have hnow : (Point.received (.ok (some message)) : Point T).taken = some message := rfl
    rw [Tasks.exists_getElem?_set_iff (fun there => there.taken = some taken) hpoint, List.mem_append, List.mem_singleton,
      Prod.mk.injEq, ← h.taken other taken, hnow]
    by_cases hself : other = task
    · subst hself
      have hbefore : ¬ ∃ there, tasks[other]? = some there ∧ there.taken = some taken := by simp [hpoint, htaken]
      simp only [hbefore, ne_eq, not_true_eq_false, and_false, or_false, false_or, true_and, Option.some.injEq]
      exact eq_comm
    · simp [hself]

theorem Delivers.neither (h : Delivers ⟨channel, tasks⟩ traffic) (hpoint : tasks[task]? = some point)
    (hsucceeded : point'.succeeded = point.succeeded) (htaken : point'.taken = point.taken)
    (hqueue : channel'.receiverAlive = channel.receiverAlive ∧ channel'.queue = channel.queue ∨
      channel'.receiverAlive = false ∧ channel'.queue = []) : Delivers ⟨channel', tasks.set task point'⟩ traffic := by
  refine ⟨fun hlives => ?_, ?_, h.acceptedOnce, h.receivedOnce, fun other => ?_, fun other taken => ?_, h.asSent⟩
  · obtain ⟨halive, hsame⟩ | ⟨hdead, -⟩ := hqueue
    · rw [hsame]
      exact h.inOrder (halive ▸ hlives)
    · simp [hdead] at hlives
  · obtain ⟨-, hsame⟩ | ⟨-, hnone⟩ := hqueue
    · rw [hsame]
      exact h.fromAccepted
    · rw [hnone, List.append_nil]
      exact (List.prefix_append _ _).trans h.fromAccepted
  · rw [Tasks.exists_getElem?_set_iff_of_iff hpoint (by rw [hsucceeded])]
    exact h.succeeded other
  · rw [Tasks.exists_getElem?_set_iff_of_iff hpoint (by rw [htaken])]
    exact h.taken other taken

theorem Keeps.turned (hkeeps : Keeps ⟨channel, tasks⟩ traffic) (hpoint : tasks[task]? = some point)
    (hsends : ∀ sent, point'.sends = some sent → point.sends = some sent) (accepted received : List (Nat × PrioritizedMessage T)) :
    Keeps ⟨channel', tasks.set task point'⟩ { started := traffic.started, accepted, received } := by
  refine ⟨by simpa using hkeeps.all, fun other there sent hthere hsent => ?_⟩
  obtain ⟨rfl, rfl⟩ | ⟨-, hbefore⟩ := Tasks.getElem?_set_cases hthere
  · exact hkeeps.asStarted other point sent hpoint (hsends sent hsent)
  · exact hkeeps.asStarted other there sent hbefore hsent

theorem started_note : (traffic.note task point point').started = traffic.started := by
  unfold Traffic.note
  split <;> rfl

/-- What every step keeps. -/
structure Observed (config : BackpressureConfig) (watched : System T × Traffic T) : Prop where
  conserved : Conserved config watched.1
  delivers : Delivers watched.1 watched.2
  keeps : Keeps watched.1 watched.2

theorem Observed.start (h : boundedWithBackpressure T config = .ok channel) : Observed config (⟨channel, []⟩, {}) := by
  refine ⟨.start h, ?_, ⟨rfl, by simp⟩⟩
  rw [boundedWithBackpressure] at h
  split at h
  · simp at h
  · obtain rfl := Outcome.ok.inj h
    exact ⟨by simp, by simp, by simp, by simp, by simp, by simp, by simp⟩

theorem Observed.spawned {watched : System T × Traffic T} (h : Observed config watched) (operation : Operation T) :
    Observed config (observe watched (.spawn operation)) := by
  have hsucceeded : operation.entry.succeeded = false := by cases operation <;> simp [Operation.entry, Point.succeeded]
  have htaken : operation.entry.taken = none := by cases operation <;> simp [Operation.entry, Point.taken]
  have hsends : operation.entry.sends = operation.sends := by
    cases operation <;> simp [Operation.entry, Point.sends, Operation.sends]
  have holder (task : Nat) (started : Operation T) (hstarted : watched.2.started[task]? = some started) :
      (watched.2.started ++ [operation])[task]? = some started := Tasks.getElem?_append_of_some hstarted
  refine ⟨h.conserved.step (.spawn operation), ?_, ?_⟩
  · refine ⟨h.delivers.inOrder, h.delivers.fromAccepted, h.delivers.acceptedOnce, h.delivers.receivedOnce, fun task => ?_,
      fun task message => ?_, fun task message hmessage => ?_⟩
    · exact (Tasks.exists_getElem?_append_iff (by simp [program, hsucceeded]) task).trans (h.delivers.succeeded task)
    · exact (Tasks.exists_getElem?_append_iff (by simp [program, htaken]) task).trans (h.delivers.taken task message)
    · obtain ⟨started, hstarted, hsent⟩ := h.delivers.asSent task message hmessage
      exact ⟨started, holder task started hstarted, hsent⟩
  · refine ⟨?_, fun task point sent hpoint hsent => ?_⟩
    · show (watched.2.started ++ [operation]).length = (watched.1.tasks ++ [operation.entry]).length
      rw [List.length_append, List.length_append, h.keeps.all]
      rfl
    · have hlength : watched.1.tasks.length = watched.2.started.length := h.keeps.all.symm
      obtain hnew | hold := lt_or_ge task watched.1.tasks.length
      · have hbefore : watched.1.tasks[task]? = some point := by
          rw [← hpoint]
          exact (List.getElem?_append_left hnew).symm
        obtain ⟨started, hstarted, hsame⟩ := h.keeps.asStarted task point sent hbefore hsent
        exact ⟨started, holder task started hstarted, hsame⟩
      · have hlast : [operation.entry][task - watched.1.tasks.length]? = some point := by
          rw [← hpoint]
          exact (List.getElem?_append_right hold).symm
        obtain ⟨hlt, hentry⟩ := List.getElem?_eq_some_iff.mp hlast
        have htask : task - watched.1.tasks.length = 0 := by simpa using hlt
        simp only [htask, List.getElem_cons_zero] at hentry
        refine ⟨operation, ?_, by rw [← hsends, hentry, hsent]⟩
        show (watched.2.started ++ [operation])[task]? = some operation
        rw [List.getElem?_append_right (hlength ▸ hold), ← hlength, htask, List.getElem?_cons_zero]

theorem observe_turn_of_lost {watched : System T × Traffic T} {task : Nat} {input : Input}
    (h : Tasks.step (program T) watched.1 (.turn task input) = watched.1) : observe watched (.turn task input) = watched := by
  rw [observe, Tasks.recording, h, Traffic.record]
  cases watched.1.tasks[task]? with
  | none => rfl
  | some point =>
      simp only
      rw [note_of_neither rfl rfl]

theorem observe_turn_of_move {watched : System T × Traffic T} {task : Nat} {input : Input}
    (hpoint : watched.1.tasks[task]? = some point)
    (h : Tasks.step (program T) watched.1 (.turn task input) = ⟨channel', watched.1.tasks.set task point'⟩) :
    observe watched (.turn task input) =
      (⟨channel', watched.1.tasks.set task point'⟩, watched.2.note task point point') := by
  rw [observe, Tasks.recording, h, Traffic.record]
  simp only [hpoint, Tasks.getElem?_set_self hpoint]

theorem Observed.turned {watched : System T × Traffic T} (h : Observed config watched) (task : Nat) (input : Input) :
    Observed config (observe watched (.turn task input)) := by
  have hconserved := h.conserved.step (.turn task input)
  obtain hlost | ⟨point, channel', point', hpoint, hadvance, hmove⟩ := Tasks.step_turn_cases (program T) watched.1 task input
  · rw [observe_turn_of_lost hlost]
    exact h
  · rw [hmove] at hconserved
    rw [observe_turn_of_move hpoint hmove]
    refine ⟨hconserved, ?_, ?_⟩
    · cases carries_of_advance h.conserved.small watched.1.tasks hadvance with
      | accepts message hsending halive hqueue => exact h.delivers.accepts h.keeps hpoint hsending halive hqueue
      | receives message hreceiving halive hqueue => exact h.delivers.receives hpoint hreceiving halive hqueue
      | neither _ hsucceeded htaken hsends hqueue =>
          rw [note_of_neither hsucceeded htaken]
          exact h.delivers.neither hpoint hsucceeded htaken hqueue
    · have hsends : ∀ sent, point'.sends = some sent → point.sends = some sent := by
        cases carries_of_advance h.conserved.small watched.1.tasks hadvance with
        | accepts message hsending halive hqueue => simp [Point.sends]
        | receives message hreceiving halive hqueue => simp [Point.sends]
        | neither _ hsucceeded htaken hsends hqueue => exact hsends
      have hkeeps := @Keeps.turned _ _ channel' _ _ _ point' _ h.keeps hpoint hsends
        (watched.2.note task point point').accepted (watched.2.note task point point').received
      rwa [← @started_note _ task point point'] at hkeeps

/-- **Delivery.** Whatever the sends and the receives do, and however they take turns. -/
theorem messages_delivered (h : boundedWithBackpressure T config = .ok channel) (labels : List (Label T)) :
    Delivers (Run.final observe (⟨channel, []⟩, {}) labels).1 (Run.final observe (⟨channel, []⟩, {}) labels).2 :=
  (Run.final_invariant (Observed config) (fun label _ _ hwatched =>
    match label with
    | .spawn operation => hwatched.spawned operation
    | .turn task input => hwatched.turned task input) (.start h)).delivers

end Run

/-- The first of the contending messages is received. -/
theorem messages_delivered_contended :
    let watched := Run.final observe (⟨sampleChannel, []⟩, {}) (contendedRun ++ [.spawn .recv, .turn 4 (.proceed 5)])
    Delivers watched.1 watched.2 ∧ watched.2.received = [(4, .new 1 .normal 0)] ∧ watched.1.shared.queue = [] :=
  ⟨messages_delivered (show boundedWithBackpressure UInt8 sampleConfig = .ok sampleChannel by decide) _, by decide, by decide⟩

end Backpressure

end IrohRaft
