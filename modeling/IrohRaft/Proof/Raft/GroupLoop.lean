import IrohRaft.Proof.Raft.Batching
import Mathlib.Data.List.Induction

/-!
# The loop over a group of proposals

Each round takes a batch off the group, so the loop ends if a batch has room for a proposal. The estimate of the best
size is half the largest size until five batches were recorded, which is no room at all where that is one.
-/

namespace IrohRaft.OptimizedRaftBatchProcessor

open Rust

variable {Data F : Type} {perSecond : Nat → Nat → F} {priority : ProposalPriority} {optimalSize : Nat}
  {proposals remaining : List (EnhancedRaftProposal Data)} {processor : OptimizedRaftBatchProcessor Data F}

/-! ### One round -/

/-- A round that returns has taken a batch of the given size off the group. -/
theorem processNextBatch_ok {admitted : Bool} {sending : Sending} {rest : List (EnhancedRaftProposal Data)}
    {after : OptimizedRaftBatchProcessor Data F}
    (hok : processNextBatch perSecond priority optimalSize admitted sending remaining processor = (.ok rest, after)) :
    rest = remaining.drop optimalSize := by
  rw [processNextBatch] at hok
  split at hok
  · rcases hsent : processSingleBatch perSecond sending (groupBatch priority (remaining.take optimalSize)) processor with
      ⟨done | e | _, sentTo⟩
    · rw [Action.bind_of_ok hsent] at hok
      exact (Outcome.ok.inj (congrArg Prod.fst hok)).symm
    · rw [Action.bind_of_err hsent] at hok
      simp at hok
    · rw [Action.bind_of_panic hsent] at hok
      simp at hok
  · simp [Action.lift] at hok

/-- An empty batch is processed without a word. -/
theorem processNextBatch_zero (sending : Sending) :
    processNextBatch perSecond priority 0 true sending remaining processor = (.ok remaining, processor) := by
  simp [processNextBatch, groupBatch, processSingleBatch, OptimizedProposalBatch.new, Action.pure_apply]

/-- The round that a group takes in turn with the other tasks is a round of the loop. -/
theorem groupRound_eq {index : Nat} {groups : List (Group Data)} {admitted : Bool} {sending : Sending}
    (hgroup : groups[index]? = some { priority, remaining, optimalSize := some optimalSize }) :
    groupRound perSecond index admitted sending groups processor =
      match processNextBatch perSecond priority optimalSize admitted sending remaining processor with
      | (.ok rest, after) =>
          { after with
            phase :=
              if rest.isEmpty then processing (groups.eraseIdx index)
              else .processing (groups.set index { priority, remaining := rest, optimalSize := some optimalSize }) }
      | (_, after) => { after with phase := processing (groups.eraseIdx index) } := by
  rw [groupRound, hgroup, processNextBatch]
  cases admitted with
  | false => simp [Action.lift]
  | true =>
      rcases hsent : processSingleBatch perSecond sending (groupBatch priority (remaining.take optimalSize)) processor with
        ⟨done | e | _, sentTo⟩
      · simp only [if_true, Action.bind_of_ok hsent, hsent, Action.pure_apply]
      · simp only [if_true, Action.bind_of_err hsent, hsent]
      · simp only [if_true, Action.bind_of_panic hsent, hsent]

/-! ### The loop -/

/-- With room for a proposal in each batch, there are no more rounds than proposals. -/
theorem groupLoop_ends (hsize : 0 < optimalSize) {rounds : List (Bool × Sending)} (hrounds : remaining.length ≤ rounds.length) :
    groupLoop perSecond priority optimalSize rounds remaining processor ≠ none := by
  induction rounds generalizing remaining processor with
  | nil =>
      obtain rfl := List.eq_nil_of_length_eq_zero (Nat.le_zero.mp hrounds)
      simp [groupLoop]
  | cons round rest ih =>
      cases remaining with
      | nil => simp [groupLoop]
      | cons proposal proposals =>
          rw [groupLoop]
          rcases hround : processNextBatch perSecond priority optimalSize round.1 round.2 (proposal :: proposals) processor with
            ⟨left | e | _, after⟩
          · apply ih
            rw [processNextBatch_ok hround, List.length_drop]
            simp only [List.length_cons] at hrounds ⊢
            omega
          · simp
          · simp

/-- Without room, the loop goes on for as long as the circuit breaker lets it. -/
theorem groupLoop_zero (hremaining : remaining ≠ []) (count : Nat) :
    groupLoop perSecond priority 0 (List.replicate count (true, {})) remaining processor = none := by
  induction count with
  | zero =>
      cases remaining with
      | nil => exact absurd rfl hremaining
      | cons proposal proposals => simp [groupLoop]
  | succ count ih =>
      cases remaining with
      | nil => exact absurd rfl hremaining
      | cons proposal proposals =>
          rw [List.replicate_succ, groupLoop, processNextBatch_zero]
          exact ih

/-! ### Every history -/

/-- The performance recorded of these batches, each with its size and the time it took. -/
def recorded (perSecond : Nat → Nat → F) (batches : List (Nat × Nat)) : BatchPerformanceMetrics F :=
  batches.foldl (fun metrics batch => metrics.recordBatch batch.1 (perSecond batch.1 batch.2)) {}

/-- The group is done after so many rounds, whatever they get from outside, and each round removes a proposal. -/
structure Terminates [Zero F] [LT F] [DecidableLT F] (perSecond : Nat → Nat → F) (priority : ProposalPriority)
    (proposals : List (EnhancedRaftProposal Data)) (processor : OptimizedRaftBatchProcessor Data F) : Prop where
  ends : ∃ bound, ∀ rounds : List (Bool × Sending), bound ≤ rounds.length →
    processPriorityGroup perSecond priority rounds proposals processor ≠ none
  removes : ∀ optimalSize, processor.optimalSize = .ok optimalSize → ∀ remaining, remaining <:+ proposals → remaining ≠ [] →
    ∀ admitted sending rest after before,
      processNextBatch perSecond priority optimalSize admitted sending remaining before = (.ok rest, after) →
        rest.length < remaining.length

theorem recorded_concat (history : List (Nat × Nat)) (batch : Nat × Nat) :
    recorded perSecond (history ++ [batch]) =
      (recorded perSecond history).recordBatch batch.1 (perSecond batch.1 batch.2) := by
  rw [recorded, List.foldl_append]
  rfl

/-- The samples are as many as the batches, up to fifty. -/
theorem lengths_recorded (perSecond : Nat → Nat → F) (history : List (Nat × Nat)) :
    (recorded perSecond history).batchSizes.length = min history.length BatchPerformanceMetrics.maxSamples ∧
      (recorded perSecond history).throughputSamples.length = min history.length BatchPerformanceMetrics.maxSamples := by
  induction history using List.reverseRecOn with
  | nil => simp [recorded]
  | append_singleton history batch ih =>
      obtain ⟨hsizes, hsamples⟩ := ih
      rw [recorded_concat, BatchPerformanceMetrics.recordBatch]
      split
      · next hfull =>
          simp only [BatchPerformanceMetrics.push, List.length_append, List.length_singleton] at hfull
          simp only [BatchPerformanceMetrics.push, BatchPerformanceMetrics.pop, List.length_tail, List.length_append,
            List.length_singleton]
          omega
      · next hroom =>
          simp only [BatchPerformanceMetrics.push, List.length_append, List.length_singleton] at hroom ⊢
          omega

section Histories

variable [Zero F] [LT F]

theorem positive_recorded (hpositive : ∀ size time, 0 < size → 0 < perSecond size time) {history : List (Nat × Nat)}
    (hhistory : ∀ batch ∈ history, 0 < batch.1) : (recorded perSecond history).Positive := by
  induction history using List.reverseRecOn with
  | nil => exact ⟨by simp [recorded], by simp [recorded], by simp [recorded]⟩
  | append_singleton history batch ih =>
      have hbatch : 0 < batch.1 := hhistory batch (by simp)
      rw [recorded_concat]
      exact (ih fun other hother => hhistory other (by simp [hother])).record hbatch (hpositive batch.1 batch.2 hbatch)

variable [DecidableLT F]

/-- What the size of a batch is decided by. -/
theorem optimalSize_recorded (hpositive : ∀ size time, 0 < size → 0 < perSecond size time) {history : List (Nat × Nat)}
    (hhistory : ∀ batch ∈ history, 0 < batch.1) (hmetrics : processor.performanceMetrics = recorded perSecond history)
    (hmax : 1 ≤ processor.config.maxBatchSize) (hbounds : processor.config.minBatchSize ≤ processor.config.maxBatchSize) :
    ∃ size, processor.optimalSize = .ok size ∧
      (0 < size ↔ processor.config.enableAdaptiveBatching = false ∨ 2 ≤ processor.config.maxBatchSize ∨ 5 ≤ history.length) := by
  have hlength := (lengths_recorded perSecond history).2
  rw [optimalSize]
  split
  · next hadaptive =>
      rw [hmetrics, BatchPerformanceMetrics.getOptimalBatchSize, hlength, BatchPerformanceMetrics.maxSamples]
      split
      · refine ⟨_, rfl, ?_⟩
        simp only [hadaptive, Bool.true_eq_false, false_or]
        omega
      · next hmany =>
          have hsome : (recorded perSecond history).throughputSamples ≠ [] := by
            intro hnone
            rw [hnone, BatchPerformanceMetrics.maxSamples] at hlength
            simp only [List.length_nil] at hlength
            omega
          have hbest := (positive_recorded hpositive hhistory).bestSize hsome processor.config
          refine ⟨_, rfl, iff_of_true (by omega) (.inr (.inr (by omega)))⟩
  · next hfixed => exact ⟨_, rfl, iff_of_true hmax (.inl (by simpa using hfixed))⟩

/-- A group of proposals is done, one or more a round, exactly if there are permits and, where the size of a batch is
estimated, two proposals are allowed in one or five batches were recorded. -/
theorem processPriorityGroup_terminates_iff (hpositive : ∀ size time, 0 < size → 0 < perSecond size time)
    {history : List (Nat × Nat)} (hhistory : ∀ batch ∈ history, 0 < batch.1)
    (hmetrics : processor.performanceMetrics = recorded perSecond history)
    (hmax : 1 ≤ processor.config.maxBatchSize) (hbounds : processor.config.minBatchSize ≤ processor.config.maxBatchSize) :
    Terminates perSecond priority proposals processor ↔
      0 < processor.config.maxConcurrentBatches ∧
        (proposals = [] ∨ processor.config.enableAdaptiveBatching = false ∨ 2 ≤ processor.config.maxBatchSize ∨
          5 ≤ history.length) := by
  obtain ⟨size, hsize, hpos⟩ := optimalSize_recorded hpositive hhistory hmetrics hmax hbounds
  apply Iff.intro
  · intro hterminates
    obtain ⟨bound, hends⟩ := hterminates.ends
    have hended := hends (List.replicate bound (true, {})) (by simp)
    rw [processPriorityGroup] at hended
    have hpermits : processor.config.maxConcurrentBatches ≠ 0 := fun hzero => hended (if_pos hzero)
    rw [if_neg hpermits, hsize] at hended
    refine ⟨Nat.pos_of_ne_zero hpermits, ?_⟩
    by_cases hproposals : proposals = []
    · exact .inl hproposals
    · refine .inr (hpos.mp (Nat.pos_of_ne_zero fun hzero => hended ?_))
      rw [hzero]
      exact groupLoop_zero hproposals bound
  · intro hcond
    obtain ⟨hpermits, hroom⟩ := hcond
    obtain hnone | hroom := hroom
    · refine ⟨⟨0, fun rounds _ => ?_⟩, fun _ _ remaining hsuffix hremaining => ?_⟩
      · rw [processPriorityGroup, if_neg (Nat.ne_of_gt hpermits), hsize, hnone]
        simp [groupLoop]
      · exact absurd (List.suffix_nil.mp (hnone ▸ hsuffix)) hremaining
    · have hbatch := hpos.mpr hroom
      refine ⟨⟨proposals.length, fun rounds hrounds => ?_⟩, ?_⟩
      · rw [processPriorityGroup, if_neg (Nat.ne_of_gt hpermits), hsize]
        exact groupLoop_ends hbatch hrounds
      · intro other hother remaining _ hremaining admitted sending rest after before hround
        obtain rfl := Outcome.ok.inj (hsize.symm.trans hother)
        have hlength := List.length_pos_of_ne_nil hremaining
        rw [processNextBatch_ok hround, List.length_drop]
        omega

end Histories

/-- Adaptive batching of up to so many proposals at a time. -/
def upTo (maxBatchSize : Nat) : OptimizedRaftBatchProcessor Unit Nat where
  config := { maxBatchSize, minBatchSize := 1 }

def soleProposal : EnhancedRaftProposal Unit where
  inner := { id := [], data := (), responseTx := none }
  priority := .normal
  submittedAt := 0
  estimatedSize := 64
  timeout := none

theorem processPriorityGroup_terminates_two :
    Terminates (fun size _ => size) .normal [soleProposal, soleProposal] (upTo 2) := by
  have hhistory : ∀ batch ∈ ([] : List (Nat × Nat)), 0 < batch.1 := by simp
  exact (processPriorityGroup_terminates_iff (fun _ _ hsize => hsize) hhistory (by rfl) (by decide) (by decide)).mpr (by decide)

/-- Before five batches were recorded, one proposal a batch is none by the estimate. -/
theorem not_processPriorityGroup_terminates :
    ¬ ∀ (Data F : Type) [Zero F] [LT F] [DecidableLT F] (perSecond : Nat → Nat → F) (priority : ProposalPriority)
      (proposals : List (EnhancedRaftProposal Data)) (processor : OptimizedRaftBatchProcessor Data F)
      (history : List (Nat × Nat)), (∀ size time, 0 < size → 0 < perSecond size time) → (∀ batch ∈ history, 0 < batch.1) →
      processor.performanceMetrics = recorded perSecond history → 1 ≤ processor.config.maxBatchSize →
      processor.config.minBatchSize ≤ processor.config.maxBatchSize → Terminates perSecond priority proposals processor := by
  intro h
  obtain ⟨bound, hends⟩ := (h Unit Nat (fun size _ => size) .normal [soleProposal] (upTo 1) [] (fun _ _ hsize => hsize)
    (by simp) rfl (by decide) (by decide)).ends
  apply hends (List.replicate bound (true, {})) (by simp)
  exact groupLoop_zero (by simp) bound

end IrohRaft.OptimizedRaftBatchProcessor
