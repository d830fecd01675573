import IrohRaft.Proof.Raft.Batching

/-!
# Batches of one priority

A batch is opened with normal priority, which what is put on it can raise but not lower, so a proposal of low priority
comes to a batch of normal priority. What is emptied of expired proposals has normal priority again, and stays open beside
a batch that had it before.
-/

namespace IrohRaft.OptimizedRaftBatchProcessor

open Rust

variable {Data F : Type}

namespace OptimizedProposalBatch

/-- All proposals have the priority of the batch. -/
def Uniform (batch : OptimizedProposalBatch Data) : Prop := ∀ proposal ∈ batch.proposals, proposal.priority = batch.priority

/-- The batch has normal priority once what has expired is gone: it has it now, or nothing is left. -/
def TurnsNormal (now : Nat) (batch : OptimizedProposalBatch Data) : Prop :=
  batch.priority = .normal ∨ ∀ proposal ∈ batch.proposals, proposal.isExpired now = true

end OptimizedProposalBatch

/-- The batches have proposals of their own priorities only, and no two have the same. -/
structure OneEach (batches : List (OptimizedProposalBatch Data)) : Prop where
  uniform : ∀ batch ∈ batches, batch.Uniform
  distinct : (batches.map OptimizedProposalBatch.priority).Nodup

/-- The batch that a proposal comes to, with the proposal. -/
def joined (now : Nat) (proposal : EnhancedRaftProposal Data) (processor : OptimizedRaftBatchProcessor Data F) :
    Option (OptimizedProposalBatch Data) :=
  let (index, opened) := findBatch now proposal.priority processor.priorityBatches
  opened[index]?.map (·.add proposal)

/-- The batch that is sent in a step. -/
def handedOver (processor : OptimizedRaftBatchProcessor Data F) : Event Data → Option (OptimizedProposalBatch Data)
  | .receive now _ =>
      match processor.phase, processor.proposalRx with
      | .receiving _, proposal :: _ =>
          if processor.isSaturated then none
          else (processor.joined now proposal).filter (·.shouldFlush processor.config now)
      | _, _ => none
  | .flushBatch index _ =>
      match processor.phase with
      | .flushing batches => batches[index]?
      | _ => none
  | _ => none

/-- After the step, and in what it sends, each batch has proposals of its own priority only, and there is one open batch for
a priority at most. -/
structure KeepsPriorities [Zero F] [LT F] [DecidableLT F] (perSecond : Nat → Nat → F)
    (processor : OptimizedRaftBatchProcessor Data F) (event : Event Data) : Prop where
  sent : ∀ batch ∈ processor.handedOver event, batch.Uniform
  opened : OneEach (step perSecond processor event).priorityBatches

/-! ### When -/

/-- No two of the batches have normal priority once what has expired is gone. -/
def StayApart (now : Nat) (batches : List (OptimizedProposalBatch Data)) : Prop :=
  batches.Pairwise fun first second => ¬ (first.TurnsNormal now ∧ second.TurnsNormal now)

/-- No proposal of low priority is taken, and two batches do not both turn to normal priority. -/
def KeepsApart (processor : OptimizedRaftBatchProcessor Data F) : Event Data → Prop
  | .receive _ _ =>
      match processor.phase, processor.proposalRx with
      | .receiving _, proposal :: _ => processor.isSaturated = true ∨ proposal.priority ≠ .low
      | _, _ => True
  | .tick now =>
      match processor.phase with
      | .receiving _ => StayApart now (processor.priorityBatches.filter fun batch => !batch.shouldFlush processor.config now)
      | _ => True
  | .removeExpired now => StayApart now processor.priorityBatches
  | .submit _ | .launch | .flushBatch _ _ | .startGroup _ | .groupRound _ _ _ | .raftStops => True

/-! ### Batches -/

theorem OneEach.perm {batches others : List (OptimizedProposalBatch Data)} (h : OneEach batches) (hperm : batches.Perm others) :
    OneEach others where
  uniform := fun batch hbatch => h.uniform batch (hperm.mem_iff.mpr hbatch)
  distinct := (hperm.map _).nodup_iff.mp h.distinct

theorem OneEach.sublist {batches others : List (OptimizedProposalBatch Data)} (h : OneEach batches)
    (hsub : others.Sublist batches) : OneEach others where
  uniform := fun batch hbatch => h.uniform batch (hsub.subset hbatch)
  distinct := h.distinct.sublist (hsub.map _)

theorem OneEach.cons {batch : OptimizedProposalBatch Data} {batches : List (OptimizedProposalBatch Data)}
    (hbatch : batch.Uniform) (hother : ∀ other ∈ batches, other.priority ≠ batch.priority) (h : OneEach batches) :
    OneEach (batch :: batches) where
  uniform := List.forall_mem_cons.mpr ⟨hbatch, h.uniform⟩
  distinct := by
    refine List.nodup_cons.mpr ⟨fun hmem => ?_, h.distinct⟩
    obtain ⟨other, hmem, hsame⟩ := List.mem_map.mp hmem
    exact hother other hmem hsame

/-! ### Expiry -/

section Expiry

variable {now : Nat} {batch : OptimizedProposalBatch Data}

theorem priority_removeExpired_of_kept (h : batch.Uniform)
    (hkept : ¬ ∀ proposal ∈ batch.proposals, proposal.isExpired now = true) :
    (batch.removeExpired now).priority = batch.priority := by
  obtain ⟨first, hfirst, hlive⟩ : ∃ proposal ∈ batch.proposals, proposal.isExpired now = false := by simpa using hkept
  rw [OptimizedProposalBatch.removeExpired]
  cases hmax : ((batch.proposals.filter fun proposal => !proposal.isExpired now).map EnhancedRaftProposal.priority).max? with
  | none =>
      have hnone := List.map_eq_nil_iff.mp (List.max?_eq_none_iff.mp hmax)
      exact absurd hlive (by simpa using List.filter_eq_nil_iff.mp hnone first hfirst)
  | some highest =>
      obtain ⟨proposal, hproposal, hhighest⟩ := List.mem_map.mp (List.max?_mem hmax)
      rw [Option.getD_some, ← hhighest]
      exact h proposal (List.mem_of_mem_filter hproposal)

theorem priority_removeExpired_of_expired (h : ∀ proposal ∈ batch.proposals, proposal.isExpired now = true) :
    (batch.removeExpired now).priority = .normal := by
  have hnone : (batch.proposals.filter fun proposal => !proposal.isExpired now) = [] := by simpa using h
  simp [OptimizedProposalBatch.removeExpired, hnone]

theorem priority_removeExpired (now : Nat) (h : batch.Uniform) :
    (batch.removeExpired now).priority = .normal ∨ (batch.removeExpired now).priority = batch.priority := by
  by_cases hexpired : ∀ proposal ∈ batch.proposals, proposal.isExpired now = true
  · exact .inl (priority_removeExpired_of_expired hexpired)
  · exact .inr (priority_removeExpired_of_kept h hexpired)

theorem priority_removeExpired_eq_normal (h : batch.Uniform) :
    (batch.removeExpired now).priority = .normal ↔ batch.TurnsNormal now := by
  by_cases hexpired : ∀ proposal ∈ batch.proposals, proposal.isExpired now = true
  · exact iff_of_true (priority_removeExpired_of_expired hexpired) (.inr hexpired)
  · rw [priority_removeExpired_of_kept h hexpired]
    exact ⟨.inl, fun hturns => hturns.resolve_right hexpired⟩

theorem uniform_removeExpired (h : batch.Uniform) : (batch.removeExpired now).Uniform := by
  intro proposal hproposal
  obtain ⟨hmem, hlive⟩ := List.mem_filter.mp hproposal
  have hkept : ¬ ∀ proposal ∈ batch.proposals, proposal.isExpired now = true := by
    intro hall
    simp [hall proposal hmem] at hlive
  rw [priority_removeExpired_of_kept h hkept]
  exact h proposal hmem

/-- Two batches of different priorities still are, unless both turn to normal priority. -/
theorem removeExpired_ne_iff {other : OptimizedProposalBatch Data} (h : batch.Uniform) (hother : other.Uniform)
    (hne : batch.priority ≠ other.priority) :
    (batch.removeExpired now).priority ≠ (other.removeExpired now).priority ↔
      ¬ (batch.TurnsNormal now ∧ other.TurnsNormal now) := by
  rw [← priority_removeExpired_eq_normal h, ← priority_removeExpired_eq_normal hother]
  apply Iff.intro
  · intro hapart hboth
    exact hapart (hboth.1.trans hboth.2.symm)
  · intro hboth hsame
    obtain hnormal | hkept := priority_removeExpired now h
    · exact hboth ⟨hnormal, hsame ▸ hnormal⟩
    · obtain hnormal' | hkept' := priority_removeExpired now hother
      · exact hboth ⟨hsame.trans hnormal', hnormal'⟩
      · exact hne (hkept.symm.trans (hsame.trans hkept'))

theorem oneEach_removeExpired_iff {batches : List (OptimizedProposalBatch Data)} (h : OneEach batches) :
    OneEach (batches.map (·.removeExpired now)) ↔ StayApart now batches := by
  have hdistinct := List.pairwise_map.mp h.distinct
  apply Iff.intro
  · intro hafter
    have hapart := List.pairwise_map.mp (List.pairwise_map.mp hafter.distinct)
    refine (hdistinct.and hapart).imp_of_mem fun hfirst hsecond hboth => ?_
    exact (removeExpired_ne_iff (h.uniform _ hfirst) (h.uniform _ hsecond) hboth.1).mp hboth.2
  · intro hapart
    refine ⟨List.forall_mem_map.mpr fun batch hbatch => uniform_removeExpired (h.uniform batch hbatch), ?_⟩
    refine List.pairwise_map.mpr (List.pairwise_map.mpr ((hdistinct.and hapart).imp_of_mem fun hfirst hsecond hboth => ?_))
    exact (removeExpired_ne_iff (h.uniform _ hfirst) (h.uniform _ hsecond) hboth.1).mpr hboth.2

end Expiry

/-! ### A proposal more -/

section Joining

variable {now : Nat} {proposal : EnhancedRaftProposal Data} {batches : List (OptimizedProposalBatch Data)}

theorem uniform_add {found : OptimizedProposalBatch Data} (h : found.Uniform) (hsame : found.priority = proposal.priority) :
    (found.add proposal).Uniform ∧ (found.add proposal).priority = proposal.priority := by
  have hpriority : (found.add proposal).priority = proposal.priority := by simp [OptimizedProposalBatch.add, hsame]
  refine ⟨fun other hother => ?_, hpriority⟩
  rw [hpriority]
  obtain hold | rfl : other ∈ found.proposals ∨ other = proposal := by simpa [OptimizedProposalBatch.add] using hother
  · exact (h other hold).trans hsame
  · rfl

/-- A batch that is opened with normal priority. -/
theorem priority_add_new (now : Nat) (proposal : EnhancedRaftProposal Data) :
    ((OptimizedProposalBatch.new now).add proposal).priority = proposal.priority ↔ proposal.priority ≠ .low := by
  cases hpriority : proposal.priority <;> simp [OptimizedProposalBatch.add, OptimizedProposalBatch.new, hpriority] <;> decide

theorem uniform_add_new (now : Nat) (proposal : EnhancedRaftProposal Data) :
    ((OptimizedProposalBatch.new now).add proposal).Uniform ↔ proposal.priority ≠ .low := by
  rw [← priority_add_new now proposal]
  apply Iff.intro
  · exact fun h => (h proposal (by simp [OptimizedProposalBatch.add])).symm
  · intro h other hother
    obtain rfl : other = proposal := by simpa [OptimizedProposalBatch.add, OptimizedProposalBatch.new] using hother
    exact h.symm

/-- Where a proposal goes, and the batches beside it. -/
structure Placed (now : Nat) (proposal : EnhancedRaftProposal Data) (batches : List (OptimizedProposalBatch Data)) (index : Nat)
    (opened : List (OptimizedProposalBatch Data)) (found : OptimizedProposalBatch Data) : Prop where
  find : findBatch now proposal.priority batches = (index, opened)
  get : opened[index]? = some found
  beside : (opened.eraseIdx index).Sublist batches
  alone : ∀ other ∈ opened.eraseIdx index, other.priority ≠ proposal.priority
  uniform_iff : (found.add proposal).Uniform ↔ proposal.priority ≠ .low
  priority : proposal.priority ≠ .low → (found.add proposal).priority = proposal.priority

theorem exists_placed (now : Nat) (proposal : EnhancedRaftProposal Data) (h : OneEach batches)
    (hlow : ∀ batch ∈ batches, batch.priority ≠ .low) :
    ∃ index opened found, Placed now proposal batches index opened found := by
  cases hfind : batches.findIdx? fun batch => batch.priority = proposal.priority with
  | some index =>
      obtain ⟨hlt, hsame, -⟩ := List.findIdx?_eq_some_iff_getElem.mp hfind
      have hpriority : batches[index].priority = proposal.priority := by simpa using hsame
      obtain ⟨hadded, hraised⟩ := uniform_add (h.uniform _ (List.getElem_mem hlt)) hpriority
      have hnotlow : proposal.priority ≠ .low := hpriority ▸ hlow _ (List.getElem_mem hlt)
      refine ⟨index, batches, batches[index], by simp [findBatch, hfind], by simp [hlt], List.eraseIdx_sublist _ _,
        fun other hother hequal => ?_, iff_of_true hadded hnotlow, fun _ => hraised⟩
      have hdistinct : (batches[index] :: batches.eraseIdx index).Pairwise fun first second => first.priority ≠ second.priority :=
        List.pairwise_map.mp (h.perm (List.getElem_cons_eraseIdx_perm hlt).symm).distinct
      exact (List.pairwise_cons.mp hdistinct).1 other hother (hpriority.trans hequal.symm)
  | none =>
      have hnone : ∀ batch ∈ batches, batch.priority ≠ proposal.priority := by simpa using hfind
      have herase : (batches ++ [OptimizedProposalBatch.new now]).eraseIdx batches.length = batches := by
        simp [List.eraseIdx_append_of_length_le (Nat.le_refl batches.length)]
      refine ⟨batches.length, batches ++ [.new now], .new now, by simp [findBatch, hfind], by simp, ?_, ?_,
        uniform_add_new now proposal, (priority_add_new now proposal).mpr⟩
      · rw [herase]
      · rw [herase]
        exact hnone

section Placed

variable {index : Nat} {opened : List (OptimizedProposalBatch Data)} {found : OptimizedProposalBatch Data}

theorem Placed.perm (h : Placed now proposal batches index opened found) :
    (found.add proposal :: opened.eraseIdx index).Perm (opened.set index (found.add proposal)) :=
  (List.set_perm_cons_eraseIdx (List.getElem?_eq_some_iff.mp h.get).1 _).symm

theorem Placed.oneEach (h : Placed now proposal batches index opened found) (hbatches : OneEach batches)
    (hnotlow : proposal.priority ≠ .low) : OneEach (opened.set index (found.add proposal)) := by
  have hbeside := hbatches.sublist h.beside
  refine (hbeside.cons (h.uniform_iff.mpr hnotlow) fun other hother => ?_).perm h.perm
  rw [h.priority hnotlow]
  exact h.alone other hother

theorem Placed.noneLow (h : Placed now proposal batches index opened found) (hlow : ∀ batch ∈ batches, batch.priority ≠ .low)
    (hnotlow : proposal.priority ≠ .low) : ∀ batch ∈ opened.set index (found.add proposal), batch.priority ≠ .low := by
  intro batch hbatch
  obtain rfl | hbeside := List.mem_cons.mp (h.perm.mem_iff.mpr hbatch)
  · rw [h.priority hnotlow]
    exact hnotlow
  · exact hlow batch (h.beside.subset hbeside)

end Placed

end Joining

/-! ### Steps -/

/-- A processor in traditional mode whose batches, also those it is sending, have proposals of their own priorities. -/
structure Orderly (processor : OptimizedRaftBatchProcessor Data F) : Prop where
  mode : processor.config.mode = .traditional
  oneEach : OneEach processor.priorityBatches
  noneLow : ∀ batch ∈ processor.priorityBatches, batch.priority ≠ .low
  flushing : ∀ batches, processor.phase = .flushing batches → ∀ batch ∈ batches, batch.Uniform
  ungrouped : ∀ groups, processor.phase ≠ .processing groups

section Steps

variable {perSecond : Nat → Nat → F} {processor : OptimizedRaftBatchProcessor Data F} {now : Nat} {sending : Sending}

theorem Orderly.processed (perSecond : Nat → Nat → F) (sending : Sending) (batch : OptimizedProposalBatch Data) (h : processor.Orderly) :
    (processSingleBatch perSecond sending batch processor).2.Orderly := by
  obtain ⟨raftTx, performanceMetrics, pendingProposals, ledger, hafter⟩ :=
    processSingleBatch_eq perSecond sending batch processor
  rw [hafter]
  exact ⟨h.mode, h.oneEach, h.noneLow, h.flushing, h.ungrouped⟩

theorem Orderly.launched (h : processor.Orderly) : (launch processor).Orderly := by
  rw [launch]
  split
  · exact ⟨h.mode, h.oneEach, h.noneLow, by simp [crash], by simp [crash]⟩
  · exact ⟨h.mode, h.oneEach, h.noneLow, by simp, by simp⟩

theorem noneLow_removeExpired {batches : List (OptimizedProposalBatch Data)} (h : OneEach batches)
    (hlow : ∀ batch ∈ batches, batch.priority ≠ .low) (now : Nat) :
    ∀ batch ∈ batches.map (·.removeExpired now), batch.priority ≠ .low := by
  refine List.forall_mem_map.mpr fun batch hbatch => ?_
  obtain hnormal | hkept := priority_removeExpired now (h.uniform batch hbatch)
  · simp [hnormal]
  · rw [hkept]
    exact hlow batch hbatch

variable [Zero F] [LT F] [DecidableLT F]

/-- The step is one of those that keep the priorities, and the processor is in order after it. -/
structure Settles (perSecond : Nat → Nat → F) (processor : OptimizedRaftBatchProcessor Data F) (event : Event Data) : Prop where
  keeps_iff : processor.KeepsApart event ↔ KeepsPriorities perSecond processor event
  orderly : processor.KeepsApart event → (step perSecond processor event).Orderly

theorem settles_of_orderly {event : Event Data} (hkeeps : processor.KeepsApart event)
    (hsent : ∀ batch ∈ processor.handedOver event, batch.Uniform) (hafter : (step perSecond processor event).Orderly) :
    Settles perSecond processor event where
  keeps_iff := iff_of_true hkeeps ⟨hsent, hafter.oneEach⟩
  orderly := fun _ => hafter

/-- A step that sends nothing. -/
theorem settles_of_unsent {event : Event Data} (hsent : processor.handedOver event = none)
    (hkeeps : processor.KeepsApart event ↔ OneEach (step perSecond processor event).priorityBatches)
    (hafter : processor.KeepsApart event → (step perSecond processor event).Orderly) : Settles perSecond processor event where
  keeps_iff := hkeeps.trans ⟨fun hopened => ⟨by simp [hsent], hopened⟩, fun hkept => hkept.opened⟩
  orderly := hafter

/-! A proposal more. -/

section Receiving

variable {chunk rest : List (EnhancedRaftProposal Data)} {proposal : EnhancedRaftProposal Data} {index : Nat}
  {opened : List (OptimizedProposalBatch Data)} {found : OptimizedProposalBatch Data}

theorem step_receive (hmode : processor.config.mode = .traditional) (hphase : processor.phase = .receiving chunk)
    (hwaiting : processor.proposalRx = proposal :: rest) :
    step perSecond processor (.receive now sending) =
      (addToPriorityBatch perSecond now sending proposal { processor with proposalRx := rest }).2 := by
  have hreceives : receives processor.config = true := by simp [receives, hmode]
  simp [step, hphase, hwaiting, hreceives, receive, hmode]

theorem settles_saturated (h : processor.Orderly) (hphase : processor.phase = .receiving chunk)
    (hwaiting : processor.proposalRx = proposal :: rest) (hsaturated : processor.isSaturated = true) :
    Settles perSecond processor (.receive now sending) := by
  refine settles_of_orderly (by simp [KeepsApart, hphase, hwaiting, hsaturated])
    (by simp [handedOver, hphase, hwaiting, hsaturated]) ?_
  rw [step_receive h.mode hphase hwaiting, addToPriorityBatch_of_saturated (by exact hsaturated)]
  exact ⟨h.mode, h.oneEach, h.noneLow, h.flushing, h.ungrouped⟩

theorem settles_flushed (h : processor.Orderly) (hphase : processor.phase = .receiving chunk)
    (hwaiting : processor.proposalRx = proposal :: rest) (hroom : processor.isSaturated = false)
    (hplaced : Placed now proposal processor.priorityBatches index opened found)
    (hflush : (found.add proposal).shouldFlush processor.config now = true) :
    Settles perSecond processor (.receive now sending) := by
  have hkeeps : processor.KeepsApart (.receive now sending) ↔ (found.add proposal).Uniform := by
    simp [KeepsApart, hphase, hwaiting, hroom, hplaced.uniform_iff]
  have hsent : processor.handedOver (.receive now sending) = some (found.add proposal) := by
    simp [handedOver, hphase, hwaiting, hroom, joined, hplaced.find, hplaced.get, hflush]
  have hafter : (step perSecond processor (.receive now sending)).Orderly := by
    rw [step_receive h.mode hphase hwaiting, addToPriorityBatch_of_room (by exact hroom) (by exact hplaced.find) hplaced.get,
      if_pos (by exact hflush)]
    exact Orderly.processed perSecond sending _ ⟨h.mode, h.oneEach.sublist hplaced.beside,
      fun batch hbatch => h.noneLow batch (hplaced.beside.subset hbatch), h.flushing, h.ungrouped⟩
  refine ⟨hkeeps.trans ?_, fun _ => hafter⟩
  exact ⟨fun hadded => ⟨by simpa [hsent] using hadded, hafter.oneEach⟩, fun hkept => hkept.sent _ (by simp [hsent])⟩

theorem settles_stacked (h : processor.Orderly) (hphase : processor.phase = .receiving chunk)
    (hwaiting : processor.proposalRx = proposal :: rest) (hroom : processor.isSaturated = false)
    (hplaced : Placed now proposal processor.priorityBatches index opened found)
    (hstays : (found.add proposal).shouldFlush processor.config now = false) :
    Settles perSecond processor (.receive now sending) := by
  have hkeeps : processor.KeepsApart (.receive now sending) ↔ proposal.priority ≠ .low := by
    simp [KeepsApart, hphase, hwaiting, hroom]
  have hsent : processor.handedOver (.receive now sending) = none := by
    simp [handedOver, hphase, hwaiting, hroom, joined, hplaced.find, hplaced.get, hstays]
  have hstep : step perSecond processor (.receive now sending) = _ := step_receive h.mode hphase hwaiting
  rw [addToPriorityBatch_of_room (by exact hroom) (by exact hplaced.find) hplaced.get, if_neg (by simpa using hstays)] at hstep
  have honeEach (hnotlow : proposal.priority ≠ .low) := hplaced.oneEach h.oneEach hnotlow
  refine settles_of_unsent hsent (hkeeps.trans ?_) fun hapart => ?_
  · rw [hstep]
    refine ⟨honeEach, fun hopened => hplaced.uniform_iff.mp ?_⟩
    exact hopened.uniform _ (hplaced.perm.mem_iff.mp List.mem_cons_self)
  · rw [hstep]
    exact ⟨h.mode, honeEach (hkeeps.mp hapart), hplaced.noneLow h.noneLow (hkeeps.mp hapart), h.flushing, h.ungrouped⟩

theorem settles_receive (now : Nat) (sending : Sending) (h : processor.Orderly) :
    Settles perSecond processor (.receive now sending) := by
  cases hphase : processor.phase with
  | receiving chunk =>
      cases hwaiting : processor.proposalRx with
      | nil =>
          refine settles_of_orderly (by simp [KeepsApart, hwaiting]) (by simp [handedOver, hwaiting]) ?_
          simpa [step, hphase, hwaiting] using h
      | cons proposal rest =>
          obtain hsaturated | hroom := Bool.eq_false_or_eq_true processor.isSaturated
          · exact settles_saturated h hphase hwaiting hsaturated
          · obtain ⟨index, opened, found, hplaced⟩ := exists_placed now proposal h.oneEach h.noneLow
            obtain hflush | hstays := Bool.eq_false_or_eq_true ((found.add proposal).shouldFlush processor.config now)
            · exact settles_flushed h hphase hwaiting hroom hplaced hflush
            · exact settles_stacked h hphase hwaiting hroom hplaced hstays
  | created | flushing batches | processing groups | stopped =>
      refine settles_of_orderly (by simp [KeepsApart, hphase]) (by simp [handedOver, hphase]) ?_
      simpa [step, hphase] using h

end Receiving

/-! Expiry and flushes. -/

theorem settles_tick (now : Nat) (h : processor.Orderly) : Settles perSecond processor (.tick now) := by
  cases hphase : processor.phase with
  | receiving chunk =>
      have hkeeps : processor.KeepsApart (.tick now) ↔
          StayApart now (processor.priorityBatches.filter fun batch => !batch.shouldFlush processor.config now) := by
        simp [KeepsApart, hphase]
      have hstep : step perSecond processor (.tick now) = flushReadyBatches now processor := by simp [step, hphase, h.mode]
      have hrest := h.oneEach.sublist
        (List.filter_sublist (p := fun batch => !batch.shouldFlush processor.config now) (l := processor.priorityBatches))
      refine settles_of_unsent (by simp [handedOver]) (hkeeps.trans ?_) fun hapart => ?_
      · rw [hstep]
        exact (oneEach_removeExpired_iff hrest).symm
      · rw [hstep]
        refine ⟨h.mode, (oneEach_removeExpired_iff hrest).mpr (hkeeps.mp hapart),
          noneLow_removeExpired hrest (fun batch hbatch => h.noneLow batch (List.mem_of_mem_filter hbatch)) now, ?_, ?_⟩
        · intro batches hflushing batch hbatch
          simp only [flushReadyBatches, fail] at hflushing
          split at hflushing
          · simp at hflushing
          · obtain rfl := Phase.flushing.inj hflushing
            exact h.oneEach.uniform batch (List.mem_of_mem_filter hbatch)
        · intro groups hgroups
          simp only [flushReadyBatches, fail] at hgroups
          split at hgroups <;> simp at hgroups
  | created | flushing batches | processing groups | stopped =>
      refine settles_of_orderly (by simp [KeepsApart, hphase]) (by simp [handedOver]) ?_
      simpa [step, hphase] using h

theorem settles_removeExpired (now : Nat) (h : processor.Orderly) : Settles perSecond processor (.removeExpired now) :=
  settles_of_unsent (by simp [handedOver]) (oneEach_removeExpired_iff h.oneEach).symm fun hapart =>
    ⟨h.mode, (oneEach_removeExpired_iff h.oneEach).mpr hapart, noneLow_removeExpired h.oneEach h.noneLow now, h.flushing, h.ungrouped⟩

theorem settles_flushBatch (index : Nat) (sending : Sending) (h : processor.Orderly) :
    Settles perSecond processor (.flushBatch index sending) := by
  cases hphase : processor.phase with
  | flushing batches =>
      have huniform := h.flushing batches hphase
      refine settles_of_orderly trivial (fun batch hbatch => ?_) ?_
      · simp only [handedOver, hphase] at hbatch
        exact huniform batch (List.mem_of_getElem? hbatch)
      · simp only [step, hphase]
        split
        · next batch hbatch =>
            have hafter := h.processed perSecond sending batch
            refine ⟨hafter.mode, hafter.oneEach, hafter.noneLow, fun left hleft other hother => ?_, fun groups hgroups => ?_⟩
            · simp only at hleft
              split at hleft
              · simp at hleft
              · obtain rfl := Phase.flushing.inj hleft
                exact huniform other (List.mem_of_mem_eraseIdx hother)
            · simp only at hgroups
              split at hgroups <;> simp at hgroups
        · exact h
  | created | receiving chunk | processing groups | stopped =>
      refine settles_of_orderly trivial (by simp [handedOver, hphase]) ?_
      simpa [step, hphase] using h

theorem settles (event : Event Data) (h : processor.Orderly) : Settles perSecond processor event := by
  cases event with
  | receive now sending => exact settles_receive now sending h
  | tick now => exact settles_tick now h
  | removeExpired now => exact settles_removeExpired now h
  | flushBatch index sending => exact settles_flushBatch index sending h
  | submit proposal =>
      refine settles_of_orderly trivial (by simp [handedOver]) ?_
      rw [step]
      split
      · exact h
      · exact ⟨h.mode, h.oneEach, h.noneLow, h.flushing, h.ungrouped⟩
  | launch =>
      refine settles_of_orderly trivial (by simp [handedOver]) ?_
      cases hphase : processor.phase with
      | created => simpa [step, hphase] using h.launched
      | receiving chunk | flushing batches | processing groups | stopped => simpa [step, hphase] using h
  | startGroup index | groupRound index admitted sending =>
      refine settles_of_orderly trivial (by simp [handedOver]) ?_
      cases hphase : processor.phase with
      | processing groups => exact absurd hphase (h.ungrouped groups)
      | created | receiving chunk | flushing batches | stopped => simpa [step, hphase] using h
  | raftStops => exact settles_of_orderly trivial (by simp [handedOver]) ⟨h.mode, h.oneEach, h.noneLow, h.flushing, h.ungrouped⟩

end Steps

/-! ### Runs -/

theorem orderly_start {config : OptimizedBatchConfig} (hmode : config.mode = .traditional) :
    Orderly ({ config } : OptimizedRaftBatchProcessor Data F) where
  mode := hmode
  oneEach := ⟨by simp, by simp⟩
  noneLow := by simp
  flushing := by simp
  ungrouped := by simp

theorem raftTx_processSingleBatch (perSecond : Nat → Nat → F) (sending : Sending) (batch : OptimizedProposalBatch Data)
    (processor : OptimizedRaftBatchProcessor Data F) :
    (processSingleBatch perSecond sending batch processor).2.raftTx = processor.raftTx ∨
      (processSingleBatch perSecond sending batch processor).2.raftTx =
        processor.raftTx ++ [{ proposals := batch.proposals, batchId := sending.batchId }] := by
  by_cases hbatch : batch.proposals = []
  · rw [processSingleBatch, hbatch]
    exact .inl rfl
  · obtain hopen | hclosed := Bool.eq_false_or_eq_true processor.raftOpen
    · rw [processSingleBatch_of_open perSecond sending hbatch hopen]
      exact .inr rfl
    · obtain ⟨ledger, hlost⟩ := loseMessage_eq batch.proposals processor
      rw [processSingleBatch_of_closed perSecond sending hbatch hclosed, hlost]
      exact .inl rfl

/-- What goes to raft in a step is the batch that is sent in it. -/
theorem raftTx_step [Zero F] [LT F] [DecidableLT F] {processor : OptimizedRaftBatchProcessor Data F} (h : processor.Orderly)
    (perSecond : Nat → Nat → F) (event : Event Data) :
    (step perSecond processor event).raftTx = processor.raftTx ∨
      ∃ batch ∈ processor.handedOver event, ∃ batchId,
        (step perSecond processor event).raftTx = processor.raftTx ++ [{ proposals := batch.proposals, batchId }] := by
  cases event with
  | receive now sending =>
      cases hphase : processor.phase with
      | receiving chunk =>
          cases hwaiting : processor.proposalRx with
          | nil => exact .inl (by simp [step, hphase, hwaiting])
          | cons proposal rest =>
              rw [step_receive h.mode hphase hwaiting]
              obtain hsaturated | hroom := Bool.eq_false_or_eq_true processor.isSaturated
              · rw [addToPriorityBatch_of_saturated (by exact hsaturated)]
                exact .inl rfl
              · obtain ⟨index, opened, found, hplaced⟩ := exists_placed now proposal h.oneEach h.noneLow
                rw [addToPriorityBatch_of_room (by exact hroom) (by exact hplaced.find) hplaced.get]
                split
                · next hflush =>
                    have hflush : (found.add proposal).shouldFlush processor.config now = true := hflush
                    refine (raftTx_processSingleBatch perSecond sending _ _).imp_right fun hsent => ⟨found.add proposal, ?_, _, hsent⟩
                    simp [handedOver, hphase, hwaiting, hroom, joined, hplaced.find, hplaced.get, hflush]
                · exact .inl rfl
      | created | flushing batches | processing groups | stopped => exact .inl (by simp [step, hphase])
  | flushBatch index sending =>
      cases hphase : processor.phase with
      | flushing batches =>
          simp only [step, hphase]
          split
          · next batch hbatch =>
              refine (raftTx_processSingleBatch perSecond sending batch processor).imp_right fun hsent => ⟨batch, ?_, _, hsent⟩
              simpa [handedOver, hphase] using hbatch
          · exact .inl rfl
      | created | receiving chunk | processing groups | stopped => exact .inl (by simp [step, hphase])
  | submit proposal =>
      rw [step]
      split <;> exact .inl rfl
  | launch =>
      have hlaunched : (launch processor).raftTx = processor.raftTx := by
        rw [launch]
        split <;> rfl
      cases hphase : processor.phase with
      | created => exact .inl (by simpa [step, hphase] using hlaunched)
      | receiving chunk | flushing batches | processing groups | stopped => exact .inl (by simp [step, hphase])
  | tick now =>
      rw [step]
      split
      · split <;> exact .inl rfl
      · exact .inl rfl
  | startGroup index | groupRound index admitted sending =>
      cases hphase : processor.phase with
      | processing groups => exact absurd hphase (h.ungrouped groups)
      | created | receiving chunk | flushing batches | stopped => exact .inl (by simp [step, hphase])
  | removeExpired now => exact .inl rfl
  | raftStops => exact .inl rfl

/-- In traditional mode the open and the sent batches have one priority each, and no two of the open ones the same, for as
long as no proposal of low priority is taken and no two batches turn to normal priority at once. -/
theorem keepsPriorities_iff [Zero F] [LT F] [DecidableLT F] (perSecond : Nat → Nat → F) {config : OptimizedBatchConfig}
    (hmode : config.mode = .traditional) (events : List (Event Data)) :
    Run.Follows (step perSecond) (KeepsPriorities perSecond) ({ config } : OptimizedRaftBatchProcessor Data F) events ↔
      Run.Follows (step perSecond) KeepsApart ({ config } : OptimizedRaftBatchProcessor Data F) events :=
  (Run.follows_congr Orderly (fun _ event horderly => (settles event horderly).orderly)
    (fun _ event horderly => (settles event horderly).keeps_iff) (orderly_start hmode)).symm

def proposalOfPriority (priority : ProposalPriority) : EnhancedRaftProposal Unit where
  inner := { id := [], data := (), responseTx := none }
  priority
  submittedAt := 0
  estimatedSize := 64
  timeout := none

/-- One proposal is submitted and received. -/
def oneReceived (priority : ProposalPriority) : List (Event Unit) :=
  [.submit (proposalOfPriority priority), .launch, .receive 0 {}]

theorem keepsPriorities_high : Run.Follows (step fun size _ => size) (KeepsPriorities fun size _ => size)
    ({ config := { enableStreaming := false } } : OptimizedRaftBatchProcessor Unit Nat) (oneReceived .high) :=
  (keepsPriorities_iff (fun size _ => size) (by decide) (oneReceived .high)).mpr ⟨trivial, trivial, .inr (by decide), trivial⟩

/-- A proposal of low priority is alone on a batch of normal priority. -/
theorem not_keepsPriorities : ¬ ∀ (Data F : Type) [Zero F] [LT F] [DecidableLT F] (perSecond : Nat → Nat → F)
    (config : OptimizedBatchConfig), config.mode = .traditional → ∀ events : List (Event Data),
    Run.Follows (step perSecond) (KeepsPriorities perSecond) ({ config } : OptimizedRaftBatchProcessor Data F) events := by
  intro h
  have hopened := (h Unit Nat (fun size _ => size) { enableStreaming := false } (by decide) (oneReceived .low)).2.2.1.opened
  have hsame := hopened.uniform _ List.mem_cons_self (proposalOfPriority .low) List.mem_cons_self
  exact absurd hsame (by decide)

end IrohRaft.OptimizedRaftBatchProcessor
