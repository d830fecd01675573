import IrohRaft.Proof.Backpressure.Permits

/-!
# What the receiver of the four queues does to each of them

Whatever happens to a manager, each of its queues takes a step of its own, or a receive is made on it, or it
stays as it is. So what holds of one channel in every run holds of the four of them.
-/

namespace IrohRaft

namespace Backpressure

open Rust

variable {T : Type} {config : BackpressureConfig} {manager manager' : PriorityBackpressureManager T} {receiver receiver' : Receiver T}
  {priority other : Priority} {now : UInt64}

namespace PriorityBackpressureManager

@[simp] theorem queues_setQueue_self (manager : PriorityBackpressureManager T) (priority : Priority) (queue : System T) :
    (manager.setQueue priority queue).queues priority = queue := if_pos rfl

theorem queues_setQueue_of_ne (h : other ≠ priority) (manager : PriorityBackpressureManager T) (queue : System T) :
    (manager.setQueue priority queue).queues other = manager.queues other := if_neg h

@[simp] theorem setQueue_self (manager : PriorityBackpressureManager T) (priority : Priority) :
    manager.setQueue priority (manager.queues priority) = manager := by
  obtain ⟨queues⟩ := manager
  simp only [setQueue, mk.injEq]
  funext other
  split
  · next h => rw [h]
  · rfl

@[simp] theorem setChannel_self (manager : PriorityBackpressureManager T) (priority : Priority) :
    manager.setChannel priority (manager.channel priority) = manager :=
  manager.setQueue_self priority

@[simp] theorem channel_setChannel_self (manager : PriorityBackpressureManager T) (priority : Priority) (channel : Channel T) :
    (manager.setChannel priority channel).channel priority = channel := by
  rw [PriorityBackpressureManager.channel, setChannel, queues_setQueue_self]

theorem channel_setChannel_of_ne (h : other ≠ priority) (manager : PriorityBackpressureManager T) (channel : Channel T) :
    (manager.setChannel priority channel).channel other = manager.channel other := by
  rw [PriorityBackpressureManager.channel, setChannel, queues_setQueue_of_ne h]
  rfl

/-- A receive is made on one queue. -/
theorem recvPrioritized_cases (h : manager.recvPrioritized now receiver = some (manager', receiver')) :
    ∃ priority point channel result, (point = .recv ∨ point = .tryRecv) ∧
      proceed (manager.channel priority) now point = some (channel, .received result) ∧
      manager' = manager.setChannel priority channel := by
  cases receiver with
  | ready _ => simp [recvPrioritized] at h
  | polling priority =>
      refine ⟨priority, .tryRecv, ((manager.channel priority).tryRecv now).2, _, .inr rfl, rfl, ?_⟩
      rw [recvPrioritized] at h
      split at h
      all_goals
        next hreceived =>
          cases h
          rw [hreceived]
  | awaiting =>
      rw [recvPrioritized] at h
      split at h
      · next result channel hreceived =>
          cases h
          exact ⟨.critical, .recv, channel, result, .inl rfl, by rw [proceed, hreceived], rfl⟩
      · simp at h

end PriorityBackpressureManager

open PriorityBackpressureManager

theorem Reception.step_queues (reception : Reception T) (event : Event T) (priority : Priority) :
    (reception.step event).manager.queues priority = reception.manager.queues priority ∨
      (∃ label, (reception.step event).manager.queues priority =
        Tasks.step (program T) (reception.manager.queues priority) label) ∨
      Turns (reception.manager.queues priority) ((reception.step event).manager.queues priority) := by
  cases event with
  | queue there label =>
      by_cases hthere : priority = there
      · subst hthere
        exact .inr (.inl ⟨label, queues_setQueue_self _ _ _⟩)
      · exact .inl (queues_setQueue_of_ne hthere _ _)
  | call =>
      rw [Reception.step]
      split <;> exact .inl rfl
  | drop =>
      rw [Reception.step]
      split <;> exact .inl rfl
  | receive now =>
      rw [Reception.step]
      split
      · next manager receiver hreceive =>
          obtain ⟨there, point, channel, result, hreceiving, hproceed, rfl⟩ := recvPrioritized_cases hreceive
          by_cases hthere : priority = there
          · subst hthere
            refine .inr (.inr ⟨point, .received result, ?_, ?_⟩)
            · rw [setChannel, queues_setQueue_self]
              exact move_of_proceed hproceed
            · rw [setChannel, queues_setQueue_self]
              exact .receiver hreceiving result _
          · exact .inl (queues_setQueue_of_ne hthere _ _)
      · exact .inl rfl

/-- Every queue keeps its permits. -/
theorem Reception.conserved_step {reception : Reception T} (h : ∀ priority, Conserved config (reception.manager.queues priority))
    (event : Event T) (priority : Priority) : Conserved config ((reception.step event).manager.queues priority) := by
  obtain hsame | ⟨label, hlabel⟩ | hturns := reception.step_queues event priority
  · exact hsame ▸ h priority
  · exact hlabel ▸ (h priority).step label
  · exact (h priority).turned hturns

theorem new_eq_ok (h : PriorityBackpressureManager.new T config = .ok manager) :
    ∃ channel, boundedWithBackpressure T { config with maxPending := config.maxPending / 4 } = .ok channel ∧
      manager = { queues := fun _ => ⟨channel, []⟩ } := by
  obtain ⟨channel, hchannel, hmanager⟩ := Outcome.bind_eq_ok.mp h
  exact ⟨channel, hchannel, (Outcome.ok.inj hmanager).symm⟩

theorem Reception.conserved_run (h : PriorityBackpressureManager.new T config = .ok manager) (receiver : Receiver T)
    (events : List (Event T)) (priority : Priority) :
    Conserved { config with maxPending := config.maxPending / 4 }
      ((Run.final Reception.step ⟨manager, receiver⟩ events).manager.queues priority) := by
  obtain ⟨channel, hchannel, rfl⟩ := new_eq_ok h
  exact Run.final_invariant
    (fun reception : Reception T => ∀ priority, Conserved { config with maxPending := config.maxPending / 4 }
      (reception.manager.queues priority))
    (fun event _ _ hconserved => Reception.conserved_step hconserved event) (fun _ => Conserved.start hchannel) priority

end Backpressure

end IrohRaft
