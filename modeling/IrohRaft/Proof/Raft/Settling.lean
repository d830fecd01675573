import IrohRaft.Proof.Raft.Batching
import Mathlib.Algebra.Order.BigOperators.Group.List
import Mathlib.Algebra.Order.Group.Nat

/-!
# What is held can go to raft

From every state of a run that meets the condition, with raft still there, the processor can go on so that it meets the
condition and holds nothing in the end: a chunk is filled or comes to the end of the queue, groups take rounds that each
make them shorter, and batches grow old enough to be flushed.
-/

namespace IrohRaft.OptimizedRaftBatchProcessor

open Rust Lanes

variable {Data F : Type}

/-- When every open batch is old enough. -/
def ripe (processor : OptimizedRaftBatchProcessor Data F) : Nat :=
  (processor.priorityBatches.map fun batch => batch.createdAt + batch.timeout processor.config).sum

theorem shouldFlush_ripe
    {processor : OptimizedRaftBatchProcessor Data F} {batch : OptimizedProposalBatch Data}
    (hbatch : batch ∈ processor.priorityBatches)
    (hsome : batch.proposals ≠ []) : batch.shouldFlush processor.config processor.ripe = true := by
  have hle : batch.createdAt + batch.timeout processor.config ≤ processor.ripe :=
    List.single_le_sum (by simp) _ (List.mem_map_of_mem hbatch)
  rw [OptimizedProposalBatch.shouldFlush, if_neg (by simpa using hsome)]
  split
  · rfl
  · exact decide_eq_true (by omega)

/-- What is not flushed then is empty. -/
theorem proposals_unripe {processor : OptimizedRaftBatchProcessor Data F} {batch : OptimizedProposalBatch Data} (now : Nat)
    (hbatch : batch ∈ (processor.priorityBatches.filter fun batch => !batch.shouldFlush processor.config processor.ripe).map
      (·.removeExpired now)) : batch.proposals = [] := by
  obtain ⟨before, hbefore, rfl⟩ := List.mem_map.mp hbatch
  obtain ⟨hmem, hunripe⟩ := List.mem_filter.mp hbefore
  by_contra hsome
  have hproposals : before.proposals ≠ [] := by
    intro hnone
    simp [OptimizedProposalBatch.removeExpired, hnone] at hsome
  simp [shouldFlush_ripe hmem hproposals] at hunripe

variable [Zero F] [LT F] [DecidableLT F]

/-- The processor can go on, as the condition has it, to where it holds nothing. -/
def CanSettle (perSecond : Nat → Nat → F) (processor : OptimizedRaftBatchProcessor Data F) : Prop :=
  ∃ later, Run.Follows (step perSecond) Safe processor later ∧ (Run.final (step perSecond) processor later).held = []

/-- A processor on which all is in order, with raft there. -/
structure Running (processor : OptimizedRaftBatchProcessor Data F) : Prop where
  steady : processor.Steady
  raftOpen : processor.raftOpen = true

variable {perSecond : Nat → Nat → F} {processor : OptimizedRaftBatchProcessor Data F}

theorem CanSettle.of_held (h : processor.held = []) : CanSettle perSecond processor := ⟨[], trivial, h⟩

theorem CanSettle.step (event : Event Data) (hsafe : processor.Safe event)
    (h : CanSettle perSecond (step perSecond processor event)) : CanSettle perSecond processor := by
  obtain ⟨later, hfollows, hheld⟩ := h
  exact ⟨event :: later, ⟨hsafe, hfollows⟩, hheld⟩

theorem Running.step (hpositive : ∀ size time, 0 < size → 0 < perSecond size time) {event : Event Data} (h : processor.Running)
    (hsafe : processor.Safe event) (hopen : (step perSecond processor event).raftOpen = true) :
    (step perSecond processor event).Running :=
  ⟨step_steady hpositive h.steady hsafe, hopen⟩

/-! ### Flushing -/

/-- The batches that are being flushed go one by one. -/
theorem settle_flushing
    (hpositive : ∀ size time, 0 < size → 0 < perSecond size time) (batches : List (OptimizedProposalBatch Data))
    (h : processor.Running) (hphase : processor.phase = .flushing batches)
    (hafter : ∀ after : OptimizedRaftBatchProcessor Data F, after.Running → after.config = processor.config →
      after.phase = .receiving [] → after.priorityBatches = processor.priorityBatches → CanSettle perSecond after) :
    CanSettle perSecond processor := by
  induction batches generalizing processor with
  | nil => exact absurd rfl (hphase ▸ h.steady.shaped.phase : Phase.Shaped _ _ (.flushing [])).2.1
  | cons batch rest ih =>
      have hshaped : Phase.Shaped _ _ (.flushing (batch :: rest)) := hphase ▸ h.steady.shaped.phase
      have hbatch : batch.proposals ≠ [] := hshaped.2.2 batch List.mem_cons_self
      have hsafe : processor.Safe (.flushBatch 0 {}) := by
        simp only [Safe, hphase]
        exact fun _ _ => .inl h.raftOpen
      have hstep : step perSecond processor (.flushBatch 0 {}) =
          { sent perSecond {} batch.proposals processor with
            phase := if rest.isEmpty then .receiving [] else .flushing rest } := by
        simp [step, hphase, processSingleBatch_of_open perSecond {} hbatch h.raftOpen]
      have hrunning : (step perSecond processor (.flushBatch 0 {})).Running := by
        refine h.step hpositive hsafe ?_
        rw [hstep]
        exact h.raftOpen
      refine CanSettle.step (.flushBatch 0 {}) hsafe ?_
      cases rest with
      | nil => exact hafter _ hrunning (by rw [hstep]; rfl) (by simp [hstep]) (by rw [hstep]; rfl)
      | cons next rest =>
          refine ih hrunning (by simp [hstep]) fun after hrunning' hconfig hreceiving hbatches => ?_
          refine hafter after hrunning' (hconfig.trans ?_) hreceiving (hbatches.trans ?_) <;> rw [hstep] <;> rfl

/-! ### The flush timer -/

theorem settle_traditional (hpositive : ∀ size time, 0 < size → 0 < perSecond size time) (h : processor.Running)
    (hmode : processor.config.mode = .traditional) (hphase : processor.phase = .receiving []) :
    CanSettle perSecond processor := by
  have hstep : step perSecond processor (.tick processor.ripe) = flushReadyBatches processor.ripe processor := by
    simp [step, hphase, hmode]
  have hrunning : (step perSecond processor (.tick processor.ripe)).Running :=
    h.step hpositive trivial (by rw [hstep]; exact h.raftOpen)
  have hempty (after : OptimizedRaftBatchProcessor Data F) (hreceiving : after.phase = .receiving [])
      (hbatches : after.priorityBatches = (flushReadyBatches processor.ripe processor).priorityBatches) : after.held = [] := by
    refine List.flatten_eq_nil_iff.mpr fun pile hpile => ?_
    rw [piles, hreceiving, hbatches] at hpile
    obtain hchunk | hopened := List.mem_append.mp hpile
    · exact List.mem_singleton.mp hchunk
    · obtain ⟨batch, hbatch, rfl⟩ := List.mem_map.mp hopened
      exact proposals_unripe processor.ripe hbatch
  refine CanSettle.step (.tick processor.ripe) trivial ?_
  by_cases hready : (processor.priorityBatches.filter fun batch => batch.shouldFlush processor.config processor.ripe).isEmpty = true
  · have hreceiving : (flushReadyBatches processor.ripe processor).phase = .receiving [] := if_pos hready
    rw [hstep]
    exact CanSettle.of_held (hempty _ hreceiving rfl)
  · have hflushing : (flushReadyBatches processor.ripe processor).phase = .flushing _ := if_neg hready
    rw [hstep] at hrunning ⊢
    refine settle_flushing hpositive _ hrunning hflushing fun after _ _ hreceiving hbatches => ?_
    exact CanSettle.of_held (hempty after hreceiving hbatches)

/-! ### Groups -/

/-- In the streaming mode, between two proposals, without a chunk. -/
structure Streaming (processor : OptimizedRaftBatchProcessor Data F) : Prop where
  running : processor.Running
  mode : processor.config.mode = .streaming
  chunk : ∀ chunk, processor.phase = .receiving chunk → chunk = []

theorem chunk_processing {groups : List (Group Data)} {chunk : List (EnhancedRaftProposal Data)}
    (h : processing groups = .receiving chunk) : chunk = [] := by
  rw [processing] at h
  split at h
  · exact (Phase.receiving.inj h).symm
  · simp at h

omit [DecidableLT F] in
/-- Everything that was submitted is still somewhere. -/
theorem length_submitted (h : processor.Steady) : processor.ledger.submitted.length =
    processor.forwarded.length + processor.held.length + processor.proposalRx.length + processor.ledger.failed.length := by
  have hlength := h.sound.conserved.length_eq
  rw [List.length_append, List.length_append, List.length_append] at hlength
  exact hlength

/-- A group that has its permit takes a round, which leaves less to do. -/
theorem settle_round (hpositive : ∀ size time, 0 < size → 0 < perSecond size time) {groups : List (Group Data)} {index size : Nat}
    {group : Group Data} (h : processor.Streaming) (hphase : processor.phase = .processing groups)
    (hgroup : groups[index]? = some group)
    (hsize : group.optimalSize = some size)
    (hafter : ∀ after : OptimizedRaftBatchProcessor Data F, after.Streaming → after.held.length < processor.held.length →
      CanSettle perSecond after) : CanSettle perSecond processor := by
  have hshaped : Phase.Shaped _ _ (.processing groups) := hphase ▸ h.running.steady.shaped.phase
  obtain ⟨hremaining, hsizes⟩ := hshaped.2 group (List.mem_of_getElem? hgroup)
  have htaken : 0 < (group.remaining.take size).length := by
    rw [List.length_take]
    exact Nat.lt_min.mpr ⟨hsizes size hsize, List.length_pos_of_ne_nil hremaining⟩
  have hsafe : processor.Safe (.groupRound index true {}) := by
    simp only [Safe, hphase]
    exact fun _ _ _ _ => ⟨trivial, .inl h.running.raftOpen⟩
  have hstep : step perSecond processor (.groupRound index true {}) =
      { sent perSecond {} (group.remaining.take size) processor with
        phase :=
          if (group.remaining.drop size).isEmpty then processing (groups.eraseIdx index)
          else .processing (groups.set index { group with remaining := group.remaining.drop size }) } := by
    obtain ⟨priority, remaining, optimalSize⟩ := group
    obtain rfl : optimalSize = some size := hsize
    have hbatch : (groupBatch priority (remaining.take size)).proposals = remaining.take size := by
      simp [groupBatch, proposals_foldl_add, OptimizedProposalBatch.new]
    have hsent := processSingleBatch_of_open perSecond {} (hbatch ▸ List.ne_nil_of_length_pos htaken) h.running.raftOpen
    simp [step, hphase, groupRound, hgroup, hsent, hbatch]
  have hrunning : (step perSecond processor (.groupRound index true {})).Running := by
    refine h.running.step hpositive hsafe ?_
    rw [hstep]
    exact h.running.raftOpen
  refine CanSettle.step (.groupRound index true {}) hsafe (hafter _ ⟨hrunning, ?_, fun chunk hreceiving => ?_⟩ ?_)
  · rw [hstep]
    exact h.mode
  · rw [hstep] at hreceiving
    dsimp only at hreceiving
    split at hreceiving
    · exact chunk_processing hreceiving
    · simp at hreceiving
  · have hbefore := length_submitted h.running.steady
    have hnow := length_submitted hrunning.steady
    have hgone : (step perSecond processor (.groupRound index true {})).forwarded.length =
        processor.forwarded.length + (group.remaining.take size).length := by
      rw [hstep]
      simp [forwarded, sent]
    have hsame : (step perSecond processor (.groupRound index true {})).ledger = processor.ledger ∧
        (step perSecond processor (.groupRound index true {})).proposalRx = processor.proposalRx := by
      rw [hstep]
      exact ⟨rfl, rfl⟩
    rw [hsame.1, hsame.2] at hnow
    omega

theorem settle_streaming (hpositive : ∀ size time, 0 < size → 0 < perSecond size time) (bound : Nat) (h : processor.Streaming)
    (hbound : processor.held.length ≤ bound) : CanSettle perSecond processor := by
  induction bound generalizing processor with
  | zero => exact CanSettle.of_held (List.eq_nil_of_length_eq_zero (Nat.le_zero.mp hbound))
  | succ bound ih =>
      have hless (start : OptimizedRaftBatchProcessor Data F) (hstart : start.held.length = processor.held.length)
          (after : OptimizedRaftBatchProcessor Data F) (hafter : after.Streaming) (hheld : after.held.length < start.held.length) :
          CanSettle perSecond after := ih hafter (by omega)
      have hbatches := batches_eq_nil h.running.steady.shaped (by simp [h.mode])
      have hshaped := h.running.steady.shaped.phase
      cases hphase : processor.phase with
      | created => exact CanSettle.of_held (by simp [held, piles, hphase, Phase.piles, hbatches])
      | receiving chunk =>
          exact CanSettle.of_held (by simp [held, piles, hphase, Phase.piles, hbatches, h.chunk chunk hphase])
      | flushing batches =>
          rw [hphase] at hshaped
          exact absurd (h.mode.symm.trans hshaped.1) (by decide)
      | stopped => exact (hphase ▸ hshaped : Phase.Shaped _ _ .stopped).elim
      | processing groups =>
          cases groups with
          | nil => exact CanSettle.of_held (by simp [held, piles, hphase, Phase.piles, hbatches])
          | cons first rest =>
              by_cases hstarted : ∃ group ∈ first :: rest, group.optimalSize ≠ none
              · obtain ⟨group, hmem, hsome⟩ := hstarted
                obtain ⟨index, hindex⟩ := List.getElem?_of_mem hmem
                obtain ⟨size, hsize⟩ := Option.ne_none_iff_exists'.mp hsome
                exact settle_round hpositive h hphase hindex hsize (hless processor rfl)
              · -- A permit is free, as no group has one.
                have hnone : ∀ group ∈ first :: rest, group.optimalSize = none := by
                  intro group hmem
                  by_contra hsome
                  exact hstarted ⟨group, hmem, hsome⟩
                have hfree : ((first :: rest).filter (·.optimalSize.isSome)).length < processor.config.maxConcurrentBatches := by
                  rw [List.filter_eq_nil_iff.mpr fun group hmem => by simp [hnone group hmem]]
                  exact h.running.steady.shaped.workable.permits h.mode
                obtain ⟨size, hsize, -⟩ := optimalSize_pos h.running.steady.shaped h.mode
                have hstep : step perSecond processor (.startGroup 0) =
                    { processor with phase := .processing ({ first with optimalSize := some size } :: rest) } := by
                  simp only [step, hphase, startGroup, List.getElem?_cons_zero]
                  rw [if_pos ⟨hnone first List.mem_cons_self, hfree⟩, hsize]
                  rfl
                have hrunning : (step perSecond processor (.startGroup 0)).Running :=
                  h.running.step hpositive trivial (by rw [hstep]; exact h.running.raftOpen)
                refine CanSettle.step (.startGroup 0) trivial ?_
                rw [hstep] at hrunning ⊢
                refine settle_round hpositive ⟨hrunning, h.mode, by simp⟩ rfl List.getElem?_cons_zero rfl (hless _ ?_)
                simp [held, piles, hphase, Phase.piles]

/-! ### Chunks -/

/-- A chunk is filled, or the queue comes to its end. -/
theorem settle_chunk (hpositive : ∀ size time, 0 < size → 0 < perSecond size time) (queue : List (EnhancedRaftProposal Data))
    (h : processor.Running) (hmode : processor.config.mode = .streaming) (hqueue : processor.proposalRx = queue)
    {chunk : List (EnhancedRaftProposal Data)} (hphase : processor.phase = .receiving chunk) : CanSettle perSecond processor := by
  induction queue generalizing processor chunk with
  | nil =>
      refine settle_streaming hpositive _ ⟨h, hmode, fun chunk' hphase' => ?_⟩ (Nat.le_refl _)
      by_contra hchunk
      exact ((hphase' ▸ h.steady.shaped.phase : Phase.Shaped _ _ (.receiving chunk')) hchunk).2 hqueue
  | cons proposal rest ih =>
      have hreceives : receives processor.config = true := by
        simp [receives, hmode, h.steady.shaped.workable.buffer hmode]
      have hsafe : processor.Safe (.receive 0 {}) := by
        simp [Safe, hphase, hqueue, hmode]
      have hstep : step perSecond processor (.receive 0 {}) =
          { processor with
            proposalRx := rest
            phase :=
              if (chunk ++ [proposal]).length = processor.config.streamBufferSize ∨ (!rest.isEmpty) = false then
                processing (priorityGroups (chunk ++ [proposal]))
              else .receiving (chunk ++ [proposal]) } := by
        simp only [step, hphase, hqueue, hreceives, receive, hmode, if_true]
      have hrunning : (step perSecond processor (.receive 0 {})).Running :=
        h.step hpositive hsafe (by rw [hstep]; exact h.raftOpen)
      refine CanSettle.step (.receive 0 {}) hsafe ?_
      by_cases hfull : (chunk ++ [proposal]).length = processor.config.streamBufferSize ∨ (!rest.isEmpty) = false
      · rw [if_pos hfull] at hstep
        rw [hstep] at hrunning ⊢
        exact settle_streaming hpositive _ ⟨hrunning, hmode, fun _ => chunk_processing⟩ (Nat.le_refl _)
      · rw [if_neg hfull] at hstep
        rw [hstep] at hrunning ⊢
        exact ih hrunning hmode rfl rfl

/-- Whatever is held can go. -/
theorem canSettle_of_running (hpositive : ∀ size time, 0 < size → 0 < perSecond size time) (h : processor.Running) :
    CanSettle perSecond processor := by
  have hreceiving (after : OptimizedRaftBatchProcessor Data F) (hafter : after.Running) (hphase : after.phase = .receiving []) :
      CanSettle perSecond after := by
    cases hmode : after.config.mode with
    | traditional => exact settle_traditional hpositive hafter hmode hphase
    | streaming => exact settle_chunk hpositive _ hafter hmode rfl hphase
    | passthrough =>
        have hbatches := batches_eq_nil hafter.steady.shaped (by simp [hmode])
        exact CanSettle.of_held (by simp [held, piles, hphase, Phase.piles, hbatches])
  have hshaped := h.steady.shaped.phase
  cases hphase : processor.phase with
  | created =>
      have hstep : step perSecond processor .launch = { processor with phase := .receiving [] } := by
        have hzero : ¬ (processor.config.mode = .traditional ∧ processor.config.batchTimeoutMs = 0) :=
          fun hzero => h.steady.shaped.workable.timer hzero.1 hzero.2
        simp only [step, hphase, launch, if_neg hzero, if_true]
      have hrunning : (step perSecond processor .launch).Running := h.step hpositive trivial (by rw [hstep]; exact h.raftOpen)
      refine CanSettle.step .launch trivial ?_
      rw [hstep] at hrunning ⊢
      exact hreceiving _ hrunning rfl
  | receiving chunk =>
      cases hmode : processor.config.mode with
      | streaming => exact settle_chunk hpositive _ h hmode rfl hphase
      | traditional =>
          obtain rfl := chunk_eq_nil h.steady.shaped hphase (by simp [hmode])
          exact hreceiving _ h hphase
      | passthrough =>
          obtain rfl := chunk_eq_nil h.steady.shaped hphase (by simp [hmode])
          exact hreceiving _ h hphase
  | flushing batches =>
      exact settle_flushing hpositive batches h hphase fun after hafter _ hphase' _ => hreceiving after hafter hphase'
  | processing groups =>
      rw [hphase] at hshaped
      exact settle_streaming hpositive _ ⟨h, hshaped.1, by simp [hphase]⟩ (Nat.le_refl _)
  | stopped => exact (hphase ▸ hshaped : Phase.Shaped _ _ .stopped).elim

end IrohRaft.OptimizedRaftBatchProcessor
