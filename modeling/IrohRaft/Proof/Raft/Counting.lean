import IrohRaft.Proof.Raft.Priorities

/-!
# The count of pending proposals

The counter goes up where a proposal is put on an open batch, and down where a batch goes to raft. In streaming mode it only
goes down, and what expires or is lost on the way to raft stays counted.
-/

namespace IrohRaft.OptimizedRaftBatchProcessor

open Rust

variable {Data F : Type}

/-! ### The counter -/

/-- What is done to the counter: `increment` once, or `decrement` so many times. -/
inductive CounterMove where
  | increment
  | decrement (times : Nat)
  deriving DecidableEq, Repr

namespace CounterMove

def apply (pending : UInt64) : CounterMove → UInt64
  | .increment => pending + 1
  | .decrement times => pending - .ofNat times

/-- The counter does not wrap around, at zero or at its end. -/
def Fits (pending : UInt64) : CounterMove → Prop
  | .increment => pending.toNat + 1 < 2 ^ 64
  | .decrement times => times ≤ pending.toNat

instance (pending : UInt64) (move : CounterMove) : Decidable (move.Fits pending) :=
  match move with
  | .increment => inferInstanceAs (Decidable (_ < _))
  | .decrement _ => inferInstanceAs (Decidable (_ ≤ _))

def change : CounterMove → Int
  | .increment => 1
  | .decrement times => -times

end CounterMove

theorem CounterMove.toNat_apply {pending : UInt64} {move : CounterMove} (h : move.Fits pending) :
    ((move.apply pending).toNat : Int) = pending.toNat + move.change := by
  cases move with
  | increment =>
      have hsum : (pending + 1).toNat = pending.toNat + 1 := by
        rw [UInt64.toNat_add]
        exact Nat.mod_eq_of_lt h
      simp [CounterMove.apply, CounterMove.change, hsum]
  | decrement times =>
      have hle : times ≤ pending.toNat := h
      have hlt : times < UInt64.size := Nat.lt_of_le_of_lt hle pending.toNat_lt
      have htimes : (UInt64.ofNat times).toNat = times := UInt64.toNat_ofNat_of_lt' hlt
      have hdiff : (pending - .ofNat times).toNat = pending.toNat - times := by
        rw [UInt64.toNat_sub_of_le _ _ (UInt64.le_iff_toNat_le.mpr (htimes.symm ▸ hle)), htimes]
      simp only [CounterMove.apply, CounterMove.change, hdiff]
      omega

theorem toNat_final {pending : UInt64} {moves : List CounterMove}
    (h : Run.Follows CounterMove.apply CounterMove.Fits pending moves) :
    ((Run.final CounterMove.apply pending moves).toNat : Int) = pending.toNat + (moves.map CounterMove.change).sum := by
  induction moves generalizing pending with
  | nil => simp
  | cons move rest ih =>
      rw [Run.final_cons, ih h.2, CounterMove.toNat_apply h.1, List.map_cons, List.sum_cons, Int.add_assoc]

/-- A batch that goes to raft is taken off the counter. -/
def forwardMoves (processor : OptimizedRaftBatchProcessor Data F) (proposals : List (EnhancedRaftProposal Data)) :
    List CounterMove :=
  if processor.raftOpen then [.decrement proposals.length] else []

def receiveMoves (now : Nat) (proposal : EnhancedRaftProposal Data) (processor : OptimizedRaftBatchProcessor Data F) :
    List CounterMove :=
  if processor.isSaturated then []
  else
    .increment :: ((processor.joined now proposal).filter (·.shouldFlush processor.config now)).toList.flatMap fun batch =>
      processor.forwardMoves batch.proposals

def roundMoves (group : Group Data) (admitted : Bool) (processor : OptimizedRaftBatchProcessor Data F) : List CounterMove :=
  match group.optimalSize with
  | some size => if admitted then processor.forwardMoves (group.remaining.take size) else []
  | none => []

/-- What a step does to the counter. -/
def counterMoves (processor : OptimizedRaftBatchProcessor Data F) : Event Data → List CounterMove
  | .receive now _ =>
      match processor.config.mode, processor.phase, processor.proposalRx with
      | .traditional, .receiving _, proposal :: _ => receiveMoves now proposal processor
      | _, _, _ => []
  | .flushBatch index _ =>
      match processor.phase with
      | .flushing batches => batches[index]?.toList.flatMap fun batch => processor.forwardMoves batch.proposals
      | _ => []
  | .groupRound index admitted _ =>
      match processor.phase with
      | .processing groups => groups[index]?.toList.flatMap fun group => roundMoves group admitted processor
      | _ => []
  | .submit _ | .launch | .tick _ | .startGroup _ | .removeExpired _ | .raftStops => []

/-- After the step as many proposals are counted as are held, and the step does not wrap the counter around. -/
structure KeepsCount [Zero F] [LT F] [DecidableLT F] (perSecond : Nat → Nat → F)
    (processor : OptimizedRaftBatchProcessor Data F) (event : Event Data) : Prop where
  counted : (step perSecond processor event).pendingProposals.toNat = (step perSecond processor event).held.length
  fits : Run.Follows CounterMove.apply CounterMove.Fits processor.pendingProposals (processor.counterMoves event)

/-! ### What a step does to the counter -/

section Moves

variable {perSecond : Nat → Nat → F} {sending : Sending} {processor : OptimizedRaftBatchProcessor Data F}

theorem pendingProposals_processSingleBatch (batch : OptimizedProposalBatch Data) :
    (processSingleBatch perSecond sending batch processor).2.pendingProposals =
      Run.final CounterMove.apply processor.pendingProposals (processor.forwardMoves batch.proposals) := by
  obtain hopen | hclosed := Bool.eq_false_or_eq_true processor.raftOpen
  · rw [forwardMoves, if_pos hopen, Run.final_cons, Run.final_nil]
    by_cases hbatch : batch.proposals = []
    · simp [processSingleBatch, hbatch, Action.pure_apply, CounterMove.apply]
    · rw [processSingleBatch_of_open perSecond sending hbatch hopen]
      rfl
  · rw [forwardMoves, if_neg (by simp [hclosed]), Run.final_nil]
    by_cases hbatch : batch.proposals = []
    · simp [processSingleBatch, hbatch, Action.pure_apply]
    · obtain ⟨ledger, hlost⟩ := loseMessage_eq batch.proposals processor
      rw [processSingleBatch_of_closed perSecond sending hbatch hclosed, hlost]

theorem pendingProposals_sendToRaft (forwarded : Forwarded Data) :
    (sendToRaft forwarded processor).2.pendingProposals = processor.pendingProposals := by
  rw [sendToRaft]
  split
  · rfl
  · obtain ⟨ledger, hlost⟩ := loseMessage_eq forwarded.proposals processor
    rw [hlost]

theorem receiveMoves_of_room {now index : Nat} {proposal : EnhancedRaftProposal Data}
    {opened : List (OptimizedProposalBatch Data)} {found : OptimizedProposalBatch Data}
    (hroom : processor.isSaturated = false)
    (hfind : findBatch now proposal.priority processor.priorityBatches = (index, opened)) (hfound : opened[index]? = some found) :
    receiveMoves now proposal processor =
      .increment :: if (found.add proposal).shouldFlush processor.config now then
        processor.forwardMoves (found.add proposal).proposals else [] := by
  rw [receiveMoves, if_neg (by simp [hroom]), joined]
  simp only [hfind, hfound, Option.map_some, Option.filter_some]
  split <;> simp

theorem pendingProposals_addToPriorityBatch {now : Nat} {proposal : EnhancedRaftProposal Data} :
    (addToPriorityBatch perSecond now sending proposal processor).2.pendingProposals =
      Run.final CounterMove.apply processor.pendingProposals (receiveMoves now proposal processor) := by
  obtain hsaturated | hroom := Bool.eq_false_or_eq_true processor.isSaturated
  · rw [addToPriorityBatch_of_saturated hsaturated, receiveMoves, if_pos hsaturated, Run.final_nil]
  · obtain ⟨found, hfound, -⟩ := findBatch_cases now proposal.priority processor.priorityBatches
    rw [receiveMoves_of_room hroom rfl hfound, Run.final_cons, addToPriorityBatch_of_room hroom rfl hfound]
    split
    · rw [pendingProposals_processSingleBatch]
      rfl
    · rfl

theorem pendingProposals_startGroup [Zero F] [LT F] [DecidableLT F] {index : Nat} {groups : List (Group Data)} :
    (startGroup index groups processor).pendingProposals = processor.pendingProposals := by
  rw [startGroup]
  split
  · rfl
  · split
    · split <;> rfl
    · rfl

theorem pendingProposals_groupRound {index : Nat} {admitted : Bool} {groups : List (Group Data)} :
    (groupRound perSecond index admitted sending groups processor).pendingProposals =
      Run.final CounterMove.apply processor.pendingProposals
        (groups[index]?.toList.flatMap fun group => roundMoves group admitted processor) := by
  rw [groupRound]
  split
  · next priority remaining size hgroup =>
      rw [hgroup]
      cases admitted with
      | false => simp [roundMoves]
      | true =>
          have hbatch : (groupBatch priority (remaining.take size)).proposals = remaining.take size := by
            simp [groupBatch, proposals_foldl_add, OptimizedProposalBatch.new]
          have hafter : (processSingleBatch perSecond sending (groupBatch priority (remaining.take size)) processor).2.pendingProposals =
              Run.final CounterMove.apply processor.pendingProposals (processor.forwardMoves (remaining.take size)) := by
            rw [pendingProposals_processSingleBatch, hbatch]
          simp only [if_true, Option.toList_some, List.flatMap_singleton, roundMoves]
          rw [← hafter]
          split
          · next after hsent => rw [hsent]
          · next after hsent => rw [hsent]
  · next hgroup =>
      cases hsome : groups[index]? with
      | none => simp
      | some group =>
          obtain ⟨priority, remaining, optimalSize⟩ := group
          cases optimalSize with
          | none => simp [roundMoves]
          | some size => exact absurd hsome (hgroup priority remaining size)

theorem pendingProposals_receive {now : Nat} {proposal : EnhancedRaftProposal Data} {more : Bool}
    {chunk : List (EnhancedRaftProposal Data)} :
    (receive perSecond now sending proposal more chunk processor).pendingProposals =
      Run.final CounterMove.apply processor.pendingProposals
        (if processor.config.mode = .traditional then receiveMoves now proposal processor else []) := by
  cases hmode : processor.config.mode with
  | passthrough => simp [receive, hmode, pendingProposals_sendToRaft]
  | traditional => simp [receive, hmode, pendingProposals_addToPriorityBatch]
  | streaming => simp [receive, hmode]

theorem step_receiving [Zero F] [LT F] [DecidableLT F] {now : Nat} {proposal : EnhancedRaftProposal Data}
    {chunk rest : List (EnhancedRaftProposal Data)} (hphase : processor.phase = .receiving chunk)
    (hwaiting : processor.proposalRx = proposal :: rest) :
    step perSecond processor (.receive now sending) =
      if receives processor.config then
        receive perSecond now sending proposal (!rest.isEmpty) chunk { processor with proposalRx := rest }
      else processor := by
  simp only [step, hphase, hwaiting]

/-- The moves are what becomes of the counter. -/
theorem pendingProposals_step [Zero F] [LT F] [DecidableLT F] (perSecond : Nat → Nat → F)
    (processor : OptimizedRaftBatchProcessor Data F) (event : Event Data) :
    (step perSecond processor event).pendingProposals =
      Run.final CounterMove.apply processor.pendingProposals (processor.counterMoves event) := by
  cases event with
  | submit proposal =>
      rw [step]
      split <;> rfl
  | launch =>
      have hlaunched : (launch processor).pendingProposals = processor.pendingProposals := by
        rw [launch]
        split <;> rfl
      cases hphase : processor.phase with
      | created => simpa [step, hphase, counterMoves] using hlaunched
      | receiving chunk | flushing batches | processing groups | stopped => simp [step, hphase, counterMoves]
  | receive now sending =>
      cases hphase : processor.phase with
      | receiving chunk =>
          cases hwaiting : processor.proposalRx with
          | nil => cases hmode : processor.config.mode <;> simp [step, hphase, hwaiting, counterMoves, hmode]
          | cons proposal rest =>
              have hreceived : (receive perSecond now sending proposal (!rest.isEmpty) chunk
                  { processor with proposalRx := rest }).pendingProposals = _ := pendingProposals_receive
              have hsame : receiveMoves now proposal { processor with proposalRx := rest } = receiveMoves now proposal processor := rfl
              rw [hsame] at hreceived
              rw [step_receiving hphase hwaiting]
              cases hmode : processor.config.mode with
              | passthrough | traditional => simpa [hphase, hwaiting, counterMoves, receives, hmode] using hreceived
              | streaming =>
                  simp only [counterMoves, hmode]
                  split
                  · simpa [hmode] using hreceived
                  · rfl
      | created | flushing batches | processing groups | stopped =>
          cases hmode : processor.config.mode <;> simp [step, hphase, counterMoves, hmode]
  | tick now =>
      rw [step]
      split
      · split <;> rfl
      · rfl
  | flushBatch index sending =>
      cases hphase : processor.phase with
      | flushing batches =>
          cases hbatch : batches[index]? with
          | none => simp [step, hphase, counterMoves, hbatch]
          | some batch => simp [step, hphase, counterMoves, hbatch, pendingProposals_processSingleBatch]
      | created | receiving chunk | processing groups | stopped => simp [step, hphase, counterMoves]
  | startGroup index =>
      cases hphase : processor.phase with
      | processing groups => simpa [step, hphase, counterMoves] using pendingProposals_startGroup
      | created | receiving chunk | flushing batches | stopped => simp [step, hphase, counterMoves]
  | groupRound index admitted sending =>
      cases hphase : processor.phase with
      | processing groups => simpa [step, hphase, counterMoves] using pendingProposals_groupRound
      | created | receiving chunk | flushing batches | stopped => simp [step, hphase, counterMoves]
  | removeExpired now => rfl
  | raftStops => rfl

end Moves

/-! ### When -/

/-- Nothing comes in while streaming, nothing that is open expires, and nothing is sent that does not reach raft. The counter
has room for one more. -/
def Counts (processor : OptimizedRaftBatchProcessor Data F) : Event Data → Prop
  | .receive now _ =>
      match processor.phase, processor.proposalRx with
      | .receiving _, proposal :: _ =>
          match processor.config.mode with
          | .passthrough => True
          | .streaming => processor.config.streamBufferSize = 0
          | .traditional => processor.isSaturated = true ∨ (processor.pendingProposals.toNat + 1 < 2 ^ 64 ∧
              ∀ batch ∈ processor.joined now proposal, batch.shouldFlush processor.config now = true → processor.raftOpen = true)
      | _, _ => True
  | .tick now =>
      match processor.phase, processor.config.mode with
      | .receiving _, .traditional =>
          ∀ batch ∈ processor.priorityBatches, batch.shouldFlush processor.config now = false → batch.expired now = []
      | _, _ => True
  | .flushBatch index _ =>
      match processor.phase with
      | .flushing batches => index < batches.length → processor.raftOpen = true
      | _ => True
  | .removeExpired now => ∀ batch ∈ processor.priorityBatches, batch.expired now = []
  | .submit _ | .launch | .startGroup _ | .groupRound _ _ _ | .raftStops => True

/-! ### How many are held -/

/-- The proposals on these batches. -/
def total (batches : List (OptimizedProposalBatch Data)) : Nat := (batches.map fun batch => batch.proposals.length).sum

section Totals

variable {batches : List (OptimizedProposalBatch Data)}

theorem length_held (processor : OptimizedRaftBatchProcessor Data F) :
    processor.held.length = processor.phase.piles.flatten.length + total processor.priorityBatches := by
  simp [held, piles, total, Function.comp_def]

theorem length_flushing (batches : List (OptimizedProposalBatch Data)) :
    (Phase.flushing batches).piles.flatten.length = total batches := by
  simp [Phase.piles, total, Function.comp_def]

theorem total_eraseIdx {index : Nat} {found : OptimizedProposalBatch Data} (h : batches[index]? = some found) :
    total batches = found.proposals.length + total (batches.eraseIdx index) := by
  obtain ⟨hlt, hget⟩ := List.getElem?_eq_some_iff.mp h
  have hperm := (List.getElem_cons_eraseIdx_perm hlt).map fun batch => batch.proposals.length
  rw [total, ← hperm.sum_nat, List.map_cons, List.sum_cons, hget, total]

theorem total_set {index : Nat} {found : OptimizedProposalBatch Data} (h : batches[index]? = some found)
    (batch : OptimizedProposalBatch Data) :
    total (batches.set index batch) = batch.proposals.length + total (batches.eraseIdx index) := by
  obtain ⟨hlt, -⟩ := List.getElem?_eq_some_iff.mp h
  have hperm := (List.set_perm_cons_eraseIdx hlt batch).map fun batch => batch.proposals.length
  rw [total, hperm.sum_nat, List.map_cons, List.sum_cons, total]

theorem total_filter (ready : OptimizedProposalBatch Data → Bool) (batches : List (OptimizedProposalBatch Data)) :
    total batches = total (batches.filter ready) + total (batches.filter fun batch => !ready batch) := by
  have hperm := (List.filter_append_perm ready batches).map fun batch => batch.proposals.length
  rw [total, ← hperm.sum_nat, List.map_append, List.sum_append_nat, total, total]

theorem total_removeExpired (now : Nat) (batches : List (OptimizedProposalBatch Data)) :
    total batches = total (batches.map (·.removeExpired now)) + (batches.flatMap (·.expired now)).length := by
  induction batches with
  | nil => simp [total]
  | cons batch rest ih =>
      have hsplit : batch.proposals.length = (batch.removeExpired now).proposals.length + (batch.expired now).length := by
        rw [List.length_eq_length_filter_add (·.isExpired now), Nat.add_comm]
        rfl
      have hcons (first : OptimizedProposalBatch Data) (others : List (OptimizedProposalBatch Data)) :
          total (first :: others) = first.proposals.length + total others := by simp [total]
      rw [List.map_cons, List.flatMap_cons, List.length_append, hcons, hcons, ih, hsplit]
      omega

theorem total_removeExpired_iff (now : Nat) (batches : List (OptimizedProposalBatch Data)) :
    total (batches.map (·.removeExpired now)) = total batches ↔ ∀ batch ∈ batches, batch.expired now = [] := by
  have hsplit := total_removeExpired now batches
  have hnone : (batches.flatMap (·.expired now)).length = 0 ↔ ∀ batch ∈ batches, batch.expired now = [] := by
    rw [List.length_eq_zero_iff, List.flatMap_eq_nil_iff]
  rw [← hnone]
  omega

end Totals

/-! ### Steps -/

/-- Nothing stands in a chunk or in a group, and nothing empty is sent. -/
def Phase.Tidy : Phase Data → Prop
  | .receiving chunk => chunk = []
  | .flushing batches => ∀ batch ∈ batches, batch.proposals ≠ []
  | .processing _ => False
  | .created | .stopped => True

structure Tallied (processor : OptimizedRaftBatchProcessor Data F) : Prop where
  counted : processor.pendingProposals.toNat = processor.held.length
  tidy : processor.phase.Tidy

section Steps

variable [Zero F] [LT F] [DecidableLT F] {perSecond : Nat → Nat → F} {processor : OptimizedRaftBatchProcessor Data F}
  {event : Event Data}

/-- The step is one of those that keep the count, and the processor is as it should be after it. -/
structure Tallies (perSecond : Nat → Nat → F) (processor : OptimizedRaftBatchProcessor Data F) (event : Event Data) : Prop where
  counts_iff : processor.Counts event ↔ KeepsCount perSecond processor event
  tallied : processor.Counts event → (step perSecond processor event).Tallied

/-- The count is kept if what is held changes as the counter does. -/
theorem tallies_of (h : processor.Tallied) (hcounts : processor.Counts event ↔
      Run.Follows CounterMove.apply CounterMove.Fits processor.pendingProposals (processor.counterMoves event) ∧
        ((step perSecond processor event).held.length : Int) =
          processor.held.length + ((processor.counterMoves event).map CounterMove.change).sum)
    (htidy : processor.Counts event → (step perSecond processor event).phase.Tidy) : Tallies perSecond processor event := by
  have hkeeps : processor.Counts event ↔ KeepsCount perSecond processor event := by
    rw [hcounts]
    apply Iff.intro
    · intro hboth
      obtain ⟨hfits, hheld⟩ := hboth
      have hafter := toNat_final hfits
      rw [← pendingProposals_step perSecond, h.counted, ← hheld] at hafter
      exact ⟨Int.ofNat.inj hafter, hfits⟩
    · intro hkept
      have hafter := toNat_final hkept.fits
      rw [← pendingProposals_step perSecond, h.counted, hkept.counted] at hafter
      exact ⟨hkept.fits, hafter⟩
  exact ⟨hkeeps, fun hcond => ⟨(hkeeps.mp hcond).counted, htidy hcond⟩⟩

/-- Nothing that counts is done. -/
theorem tallies_of_same (h : processor.Tallied) (hcounts : processor.Counts event) (hmoves : processor.counterMoves event = [])
    (hheld : (step perSecond processor event).held.length = processor.held.length)
    (htidy : (step perSecond processor event).phase.Tidy) : Tallies perSecond processor event := by
  refine tallies_of h (iff_of_true hcounts ?_) fun _ => htidy
  rw [hmoves]
  exact ⟨trivial, by simp [hheld]⟩

theorem tallies_of_idle (h : processor.Tallied) (hcounts : processor.Counts event) (hmoves : processor.counterMoves event = [])
    (hstep : step perSecond processor event = processor) : Tallies perSecond processor event := by
  refine tallies_of_same h hcounts hmoves ?_ ?_
  · rw [hstep]
  · rw [hstep]
    exact h.tidy

omit [Zero F] [LT F] [DecidableLT F] in
/-- What leaves with a batch is taken off the counter just if raft receives it. -/
theorem raftOpen_iff_forwardMoves (processor : OptimizedRaftBatchProcessor Data F) (pending : UInt64)
    {proposals : List (EnhancedRaftProposal Data)} (hsome : 0 < proposals.length) (hle : proposals.length ≤ pending.toNat) :
    processor.raftOpen = true ↔
      Run.Follows CounterMove.apply CounterMove.Fits pending (processor.forwardMoves proposals) ∧
        ((processor.forwardMoves proposals).map CounterMove.change).sum = -(proposals.length : Int) := by
  rw [forwardMoves]
  obtain hopen | hclosed := Bool.eq_false_or_eq_true processor.raftOpen
  · rw [if_pos hopen]
    exact iff_of_true hopen ⟨⟨hle, trivial⟩, by simp [CounterMove.change]⟩
  · rw [if_neg (by simp [hclosed])]
    refine iff_of_false (by simp [hclosed]) fun hkept => ?_
    have hnone := hkept.2
    rw [List.map_nil, List.sum_nil] at hnone
    omega

/-! Receiving. -/

section Receiving

variable {now : Nat} {sending : Sending} {proposal : EnhancedRaftProposal Data} {rest : List (EnhancedRaftProposal Data)}

omit [Zero F] [LT F] [DecidableLT F] in
theorem length_processed (batch : OptimizedProposalBatch Data) (processor : OptimizedRaftBatchProcessor Data F) :
    (processSingleBatch perSecond sending batch processor).2.held.length = processor.held.length := by
  obtain ⟨raftTx, performanceMetrics, pendingProposals, ledger, hafter⟩ :=
    processSingleBatch_eq perSecond sending batch processor
  rw [hafter, length_held, length_held]

theorem tallies_passthrough (h : processor.Tallied) (hmode : processor.config.mode = .passthrough)
    (hphase : processor.phase = .receiving []) (hwaiting : processor.proposalRx = proposal :: rest) :
    Tallies perSecond processor (.receive now sending) := by
  have hreceives : receives processor.config = true := by simp [receives, hmode]
  have hsent : ∃ raftTx ledger, step perSecond processor (.receive now sending) =
      { processor with proposalRx := rest, raftTx, ledger } := by
    rw [step_receiving hphase hwaiting, if_pos hreceives]
    simp only [receive, hmode, sendToRaft]
    split
    · exact ⟨_, _, rfl⟩
    · exact ⟨_, _, rfl⟩
  obtain ⟨raftTx, ledger, hsent⟩ := hsent
  refine tallies_of_same h (by simp [Counts, hphase, hwaiting, hmode]) (by simp [counterMoves, hmode]) ?_ ?_
  · rw [hsent, length_held, length_held]
  · rw [hsent]
    exact h.tidy

/-- A proposal that came in makes a group of its own. -/
theorem length_processing (proposal : EnhancedRaftProposal Data) :
    (processing (priorityGroups [proposal])).piles.flatten.length = 1 := by
  cases hpriority : proposal.priority <;>
    simp [priorityGroups, priorities, priorityGroup, hpriority, processing, Phase.piles]

theorem tallies_streaming (h : processor.Tallied) (hmode : processor.config.mode = .streaming)
    (hphase : processor.phase = .receiving []) (hwaiting : processor.proposalRx = proposal :: rest) :
    Tallies perSecond processor (.receive now sending) := by
  have hcounts : processor.Counts (.receive now sending) ↔ processor.config.streamBufferSize = 0 := by
    simp [Counts, hphase, hwaiting, hmode]
  have hmoves : processor.counterMoves (.receive now sending) = [] := by simp [counterMoves, hmode]
  by_cases hnone : processor.config.streamBufferSize = 0
  · have hstep : step perSecond processor (.receive now sending) = processor := by
      rw [step_receiving hphase hwaiting, if_neg (by simp [receives, hmode, hnone])]
    exact tallies_of_idle h (hcounts.mpr hnone) hmoves hstep
  · have hreceives : receives processor.config = true := by simp [receives, Nat.pos_of_ne_zero hnone]
    have hheld : (step perSecond processor (.receive now sending)).held.length = processor.held.length + 1 := by
      rw [step_receiving hphase hwaiting, if_pos hreceives, length_held, length_held, hphase]
      simp only [receive, hmode, List.nil_append]
      split
      · rw [length_processing]
        simp [Phase.piles, Nat.add_comm]
      · simp [Phase.piles, Nat.add_comm]
    refine tallies_of h (iff_of_false (fun hcond => hnone (hcounts.mp hcond)) fun hkept => ?_)
      fun hcond => absurd (hcounts.mp hcond) hnone
    have hsame := hkept.2
    rw [hmoves, hheld] at hsame
    simp at hsame

theorem tallies_saturated (h : processor.Tallied) (hmode : processor.config.mode = .traditional)
    (hphase : processor.phase = .receiving []) (hwaiting : processor.proposalRx = proposal :: rest)
    (hsaturated : processor.isSaturated = true) : Tallies perSecond processor (.receive now sending) := by
  have hstep : step perSecond processor (.receive now sending) = { processor with proposalRx := rest } := by
    rw [step_receive hmode hphase hwaiting, addToPriorityBatch_of_saturated (by exact hsaturated)]
  refine tallies_of_same h (by simp [Counts, hphase, hwaiting, hmode, hsaturated])
    (by simp [counterMoves, hmode, hphase, hwaiting, receiveMoves, hsaturated]) ?_ ?_
  · rw [hstep, length_held, length_held]
  · rw [hstep]
    exact h.tidy

variable {index : Nat} {opened : List (OptimizedProposalBatch Data)} {found : OptimizedProposalBatch Data}

omit [Zero F] [LT F] [DecidableLT F] in
/-- Of the batches on which a proposal is put, the one that it comes to and the others. -/
theorem total_opened (hfind : findBatch now proposal.priority processor.priorityBatches = (index, opened))
    (hfound : opened[index]? = some found) :
    total processor.priorityBatches = found.proposals.length + total (opened.eraseIdx index) := by
  obtain ⟨-, -, hopened⟩ := findBatch_cases now proposal.priority processor.priorityBatches
  rw [← total_eraseIdx hfound]
  rw [hfind] at hopened
  obtain rfl | rfl := hopened
  · rfl
  · simp [total, OptimizedProposalBatch.new]

theorem tallies_flushed (h : processor.Tallied) (hmode : processor.config.mode = .traditional)
    (hphase : processor.phase = .receiving []) (hwaiting : processor.proposalRx = proposal :: rest)
    (hroom : processor.isSaturated = false)
    (hfind : findBatch now proposal.priority processor.priorityBatches = (index, opened)) (hfound : opened[index]? = some found)
    (hflush : (found.add proposal).shouldFlush processor.config now = true) :
    Tallies perSecond processor (.receive now sending) := by
  have hcounts : processor.Counts (.receive now sending) ↔
      processor.pendingProposals.toNat + 1 < 2 ^ 64 ∧ processor.raftOpen = true := by
    simp [Counts, hphase, hwaiting, hmode, hroom, joined, hfind, hfound, hflush]
  have hmoves : processor.counterMoves (.receive now sending) =
      .increment :: processor.forwardMoves (found.add proposal).proposals := by
    simp only [counterMoves, hmode, hphase, hwaiting]
    rw [receiveMoves_of_room hroom hfind hfound, if_pos hflush]
  have hlength : (found.add proposal).proposals.length = found.proposals.length + 1 := by simp [OptimizedProposalBatch.add]
  have hbefore : processor.held.length = found.proposals.length + total (opened.eraseIdx index) := by
    rw [length_held, total_opened hfind hfound, hphase]
    simp [Phase.piles]
  have hafter : (step perSecond processor (.receive now sending)).held.length = total (opened.eraseIdx index) := by
    rw [step_receive hmode hphase hwaiting, addToPriorityBatch_of_room (by exact hroom) (by exact hfind) hfound,
      if_pos (by exact hflush), length_processed, length_held, hphase]
    simp [Phase.piles]
  have hcounted := h.counted
  refine tallies_of h ?_ fun _ => ?_
  · have hraised (hfits : CounterMove.increment.Fits processor.pendingProposals) :
        (found.add proposal).proposals.length ≤ (CounterMove.increment.apply processor.pendingProposals).toNat := by
      have hplus := CounterMove.toNat_apply hfits
      rw [CounterMove.change] at hplus
      omega
    have hforward (hfits : CounterMove.increment.Fits processor.pendingProposals) :=
      raftOpen_iff_forwardMoves processor _ (hlength ▸ Nat.succ_pos _) (hraised hfits)
    rw [hcounts, hmoves, hafter, hbefore, List.map_cons, List.sum_cons, CounterMove.change]
    refine ⟨fun hboth => ?_, fun hkept => ?_⟩
    · obtain ⟨hfollows, hsum⟩ := (hforward hboth.1).mp hboth.2
      exact ⟨⟨hboth.1, hfollows⟩, by omega⟩
    · obtain ⟨⟨hfits, hfollows⟩, hsum⟩ := hkept
      exact ⟨hfits, (hforward hfits).mpr ⟨hfollows, by omega⟩⟩
  · obtain ⟨raftTx, performanceMetrics, pendingProposals, ledger, hprocessed⟩ :=
      processSingleBatch_eq perSecond sending (found.add proposal)
        { processor with
          proposalRx := rest, pendingProposals := processor.pendingProposals + 1, priorityBatches := opened.eraseIdx index }
    rw [step_receive hmode hphase hwaiting, addToPriorityBatch_of_room (by exact hroom) (by exact hfind) hfound,
      if_pos (by exact hflush), hprocessed]
    exact h.tidy

theorem tallies_stacked (h : processor.Tallied) (hmode : processor.config.mode = .traditional)
    (hphase : processor.phase = .receiving []) (hwaiting : processor.proposalRx = proposal :: rest)
    (hroom : processor.isSaturated = false)
    (hfind : findBatch now proposal.priority processor.priorityBatches = (index, opened)) (hfound : opened[index]? = some found)
    (hstays : (found.add proposal).shouldFlush processor.config now = false) :
    Tallies perSecond processor (.receive now sending) := by
  have hcounts : processor.Counts (.receive now sending) ↔ processor.pendingProposals.toNat + 1 < 2 ^ 64 := by
    simp [Counts, hphase, hwaiting, hmode, hroom, joined, hfind, hfound, hstays]
  have hmoves : processor.counterMoves (.receive now sending) = [.increment] := by
    simp only [counterMoves, hmode, hphase, hwaiting]
    rw [receiveMoves_of_room hroom hfind hfound, if_neg (by simp [hstays])]
  have hstep : step perSecond processor (.receive now sending) = _ := step_receive hmode hphase hwaiting
  rw [addToPriorityBatch_of_room (by exact hroom) (by exact hfind) hfound, if_neg (by simpa using hstays)] at hstep
  have hheld : (step perSecond processor (.receive now sending)).held.length = processor.held.length + 1 := by
    rw [hstep, length_held, length_held, total_set hfound, total_opened hfind hfound]
    simp only [OptimizedProposalBatch.add, List.length_append, List.length_singleton]
    omega
  refine tallies_of h ?_ fun _ => ?_
  · rw [hcounts, hmoves, hheld]
    refine ⟨fun hfits => ⟨⟨hfits, trivial⟩, by simp [CounterMove.change]⟩, fun hkept => hkept.1.1⟩
  · rw [hstep]
    exact h.tidy

theorem tallies_receive (now : Nat) (sending : Sending) (h : processor.Tallied) :
    Tallies perSecond processor (.receive now sending) := by
  cases hphase : processor.phase with
  | receiving chunk =>
      obtain rfl : chunk = [] := (hphase ▸ h.tidy : Phase.Tidy (.receiving chunk))
      cases hwaiting : processor.proposalRx with
      | nil =>
          refine tallies_of_idle h (by simp [Counts, hwaiting]) ?_ (by simp [step, hphase, hwaiting])
          cases hmode : processor.config.mode <;> simp [counterMoves, hmode, hwaiting]
      | cons proposal rest =>
          cases hmode : processor.config.mode with
          | passthrough => exact tallies_passthrough h hmode hphase hwaiting
          | streaming => exact tallies_streaming h hmode hphase hwaiting
          | traditional =>
              obtain hsaturated | hroom := Bool.eq_false_or_eq_true processor.isSaturated
              · exact tallies_saturated h hmode hphase hwaiting hsaturated
              · obtain ⟨found, hfound, -⟩ := findBatch_cases now proposal.priority processor.priorityBatches
                obtain hflush | hstays := Bool.eq_false_or_eq_true ((found.add proposal).shouldFlush processor.config now)
                · exact tallies_flushed h hmode hphase hwaiting hroom rfl hfound hflush
                · exact tallies_stacked h hmode hphase hwaiting hroom rfl hfound hstays
  | created | flushing batches | processing groups | stopped =>
      refine tallies_of_idle h (by simp [Counts, hphase]) ?_ (by simp [step, hphase])
      cases hmode : processor.config.mode <;> simp [counterMoves, hmode, hphase]

end Receiving

/-! Expiry and flushes. -/

omit [Zero F] [LT F] [DecidableLT F] in
theorem length_flushReadyBatches (now : Nat) (processor : OptimizedRaftBatchProcessor Data F) :
    (flushReadyBatches now processor).held.length =
      total (processor.priorityBatches.filter fun batch => batch.shouldFlush processor.config now) +
        total ((processor.priorityBatches.filter fun batch => !batch.shouldFlush processor.config now).map (·.removeExpired now)) := by
  rw [length_held, flushReadyBatches, fail]
  simp only
  split
  · next hnone => simp [Phase.piles, List.isEmpty_iff.mp hnone, total]
  · rw [length_flushing]

theorem tallies_ticked (now : Nat) (h : processor.Tallied) (hmode : processor.config.mode = .traditional)
    (hphase : processor.phase = .receiving []) : Tallies perSecond processor (.tick now) := by
  have hstep : step perSecond processor (.tick now) = flushReadyBatches now processor := by simp [step, hphase, hmode]
  have hcounts : processor.Counts (.tick now) ↔
      ∀ batch ∈ processor.priorityBatches.filter fun batch => !batch.shouldFlush processor.config now, batch.expired now = [] := by
    simp [Counts, hphase, hmode]
  have hbefore : processor.held.length = total processor.priorityBatches := by simp [length_held, hphase, Phase.piles]
  have hsplit := total_filter (fun batch => batch.shouldFlush processor.config now) processor.priorityBatches
  refine tallies_of h ?_ fun _ => ?_
  · rw [hcounts, ← total_removeExpired_iff, hstep, length_flushReadyBatches, hbefore]
    simp only [counterMoves, List.map_nil, List.sum_nil]
    refine ⟨fun hsame => ⟨trivial, ?_⟩, fun hkept => ?_⟩
    · omega
    · have hsame := hkept.2
      omega
  · rw [hstep]
    simp only [flushReadyBatches, fail]
    split
    · rfl
    · exact fun batch hbatch => nonempty_of_shouldFlush (List.of_mem_filter hbatch)

theorem tallies_tick (now : Nat) (h : processor.Tallied) : Tallies perSecond processor (.tick now) := by
  cases hphase : processor.phase with
  | receiving chunk =>
      obtain rfl : chunk = [] := (hphase ▸ h.tidy : Phase.Tidy (.receiving chunk))
      cases hmode : processor.config.mode with
      | traditional => exact tallies_ticked now h hmode hphase
      | passthrough | streaming =>
          exact tallies_of_idle h (by simp [Counts, hphase, hmode]) (by simp [counterMoves]) (by simp [step, hphase, hmode])
  | created | flushing batches | processing groups | stopped =>
      exact tallies_of_idle h (by simp [Counts, hphase]) (by simp [counterMoves]) (by simp [step, hphase])

theorem tallies_removeExpired (now : Nat) (h : processor.Tallied) : Tallies perSecond processor (.removeExpired now) := by
  have hheld : (step perSecond processor (.removeExpired now)).held.length =
      processor.phase.piles.flatten.length + total (processor.priorityBatches.map (·.removeExpired now)) := length_held _
  refine tallies_of h ?_ fun _ => h.tidy
  rw [hheld, length_held, Counts, ← total_removeExpired_iff]
  refine ⟨fun hsame => ⟨trivial, by simp [counterMoves, hsame]⟩, fun hkept => ?_⟩
  have hsame := hkept.2
  simp only [counterMoves, List.map_nil, List.sum_nil] at hsame
  omega

/-- Once a batch of those that are sent is gone. -/
theorem length_afterBatch (index : Nat) (batches : List (OptimizedProposalBatch Data)) :
    (if (batches.eraseIdx index).isEmpty then Phase.receiving [] else .flushing (batches.eraseIdx index)).piles.flatten.length =
      total (batches.eraseIdx index) := by
  split
  · next hnone => simp [Phase.piles, List.isEmpty_iff.mp hnone, total]
  · exact length_flushing _

theorem tallies_flushed_batch {index : Nat} (sending : Sending) {batches : List (OptimizedProposalBatch Data)}
    {batch : OptimizedProposalBatch Data} (h : processor.Tallied) (hphase : processor.phase = .flushing batches)
    (hbatch : batches[index]? = some batch) : Tallies perSecond processor (.flushBatch index sending) := by
  have hnonempty : ∀ batch ∈ batches, batch.proposals ≠ [] := (hphase ▸ h.tidy : Phase.Tidy (.flushing batches))
  have hsome := List.length_pos_of_ne_nil (hnonempty batch (List.mem_of_getElem? hbatch))
  have hlt : index < batches.length := (List.getElem?_eq_some_iff.mp hbatch).1
  have hcounts : processor.Counts (.flushBatch index sending) ↔ processor.raftOpen = true := by simp [Counts, hphase, hlt]
  have hmoves : processor.counterMoves (.flushBatch index sending) = processor.forwardMoves batch.proposals := by
    simp [counterMoves, hphase, hbatch]
  have hbefore : processor.held.length = batch.proposals.length + total (batches.eraseIdx index) + total processor.priorityBatches := by
    rw [length_held, hphase, length_flushing, total_eraseIdx hbatch]
  obtain ⟨raftTx, performanceMetrics, pendingProposals, ledger, hprocessed⟩ := processSingleBatch_eq perSecond sending batch processor
  have hafter : (step perSecond processor (.flushBatch index sending)).held.length =
      total (batches.eraseIdx index) + total processor.priorityBatches := by
    simp only [step, hphase, hbatch, hprocessed]
    rw [length_held, length_afterBatch]
  have hcounted := h.counted
  refine tallies_of h ?_ fun _ => ?_
  · rw [hcounts, hmoves, hafter, hbefore, raftOpen_iff_forwardMoves processor processor.pendingProposals hsome (by omega)]
    exact and_congr_right fun _ => by omega
  · simp only [step, hphase, hbatch]
    split
    · rfl
    · exact fun other hother => hnonempty other (List.mem_of_mem_eraseIdx hother)

theorem tallies_flushBatch (index : Nat) (sending : Sending) (h : processor.Tallied) :
    Tallies perSecond processor (.flushBatch index sending) := by
  cases hphase : processor.phase with
  | flushing batches =>
      cases hbatch : batches[index]? with
      | none =>
          have hpast : ¬ index < batches.length := by simpa using hbatch
          exact tallies_of_idle h (by simp [Counts, hphase, hpast]) (by simp [counterMoves, hphase, hbatch])
            (by simp [step, hphase, hbatch])
      | some batch => exact tallies_flushed_batch sending h hphase hbatch
  | created | receiving chunk | processing groups | stopped =>
      exact tallies_of_idle h (by simp [Counts, hphase]) (by simp [counterMoves, hphase]) (by simp [step, hphase])

theorem tallies (event : Event Data) (h : processor.Tallied) : Tallies perSecond processor event := by
  cases event with
  | receive now sending => exact tallies_receive now sending h
  | tick now => exact tallies_tick now h
  | removeExpired now => exact tallies_removeExpired now h
  | flushBatch index sending => exact tallies_flushBatch index sending h
  | submit proposal =>
      refine tallies_of_same h trivial (by simp [counterMoves]) ?_ ?_
      · rw [step]
        split <;> rfl
      · rw [step]
        split <;> exact h.tidy
  | launch =>
      cases hphase : processor.phase with
      | created =>
          have hstep : step perSecond processor .launch = launch processor := by simp [step, hphase]
          refine tallies_of_same h trivial (by simp [counterMoves]) ?_ ?_
          · rw [hstep, length_held, length_held, hphase, launch]
            split <;> simp [crash, Phase.piles]
          · rw [hstep, launch]
            split
            · trivial
            · rfl
      | receiving chunk | flushing batches | processing groups | stopped =>
          exact tallies_of_idle h trivial (by simp [counterMoves]) (by simp [step, hphase])
  | startGroup index | groupRound index admitted sending =>
      cases hphase : processor.phase with
      | processing groups => exact (hphase ▸ h.tidy : Phase.Tidy (.processing groups)).elim
      | created | receiving chunk | flushing batches | stopped =>
          exact tallies_of_idle h trivial (by simp [counterMoves, hphase]) (by simp [step, hphase])
  | raftStops => exact tallies_of_same h trivial (by simp [counterMoves]) (by rfl) h.tidy

end Steps

/-! ### Runs -/

theorem tallied_start (config : OptimizedBatchConfig) : Tallied ({ config } : OptimizedRaftBatchProcessor Data F) where
  counted := by simp [length_held, Phase.piles, total]
  tidy := trivial

/-- The count of pending proposals is right for as long as none comes in while streaming, none that is open expires, and all
that is sent reaches raft. -/
theorem keepsCount_iff [Zero F] [LT F] [DecidableLT F] (perSecond : Nat → Nat → F) (config : OptimizedBatchConfig)
    (events : List (Event Data)) :
    Run.Follows (step perSecond) (KeepsCount perSecond) ({ config } : OptimizedRaftBatchProcessor Data F) events ↔
      Run.Follows (step perSecond) Counts ({ config } : OptimizedRaftBatchProcessor Data F) events :=
  (Run.follows_congr Tallied (fun _ event htallied => (tallies event htallied).tallied)
    (fun _ event htallied => (tallies event htallied).counts_iff) (tallied_start config)).symm

/-- One proposal is streamed to raft. -/
def oneStreamed : List (Event Unit) := oneReceived .normal ++ [.startGroup 0, .groupRound 0 true {}]

/-- The counter is at zero when it is decremented for a proposal that was streamed. -/
theorem not_keepsCount : ¬ ∀ (Data F : Type) [Zero F] [LT F] [DecidableLT F] (perSecond : Nat → Nat → F)
    (config : OptimizedBatchConfig) (events : List (Event Data)),
    Run.Follows (step perSecond) (KeepsCount perSecond) ({ config } : OptimizedRaftBatchProcessor Data F) events := by
  intro h
  obtain ⟨-, -, -, -, hround, -⟩ := h Unit Nat (fun size _ => size) {} oneStreamed
  exact absurd hround.fits.1 (by decide)

end IrohRaft.OptimizedRaftBatchProcessor
