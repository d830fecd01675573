import IrohRaft.Library.Lanes
import IrohRaft.Raft.BatchProcessor

/-!
# What becomes of proposals in batches

Every submitted proposal waits, is held, has gone to raft once, or has failed with an answer, and none overtakes another
one of its priority, in a run that meets the condition below. It leaves out what drops proposals: a queue that is full, a
circuit breaker that is open, the background task when it finds something expired, and raft having stopped when a
proposal goes alone. It also leaves out a proposal that is put on another batch than the open ones of its priority.
-/

namespace IrohRaft.OptimizedRaftBatchProcessor

open Rust Lanes

variable {Data F : Type}

/-! ### Where the proposals are -/

def Phase.piles : Phase Data → List (List (EnhancedRaftProposal Data))
  | .receiving chunk => [chunk]
  | .flushing batches => batches.map OptimizedProposalBatch.proposals
  | .processing groups => groups.map Group.remaining
  | .created | .stopped => []

def piles (processor : OptimizedRaftBatchProcessor Data F) : List (List (EnhancedRaftProposal Data)) :=
  processor.phase.piles ++ processor.priorityBatches.map OptimizedProposalBatch.proposals

/-- The proposals that were received and are still here. -/
def held (processor : OptimizedRaftBatchProcessor Data F) : List (EnhancedRaftProposal Data) := processor.piles.flatten

def forwarded (processor : OptimizedRaftBatchProcessor Data F) : List (EnhancedRaftProposal Data) :=
  processor.raftTx.flatMap Forwarded.proposals

/-- The processor as a flow of proposals, each in the lane of its priority. -/
def flow (processor : OptimizedRaftBatchProcessor Data F) : Lanes.Flow (EnhancedRaftProposal Data) where
  arrived := processor.ledger.submitted
  waiting := processor.proposalRx
  piles := processor.piles
  gone := processor.forwarded
  failed := processor.ledger.failed

/-- The clients of what has failed are told so, once each, and no other client is. -/
structure Ledger.Answered (ledger : Ledger Data) : Prop where
  channels : ledger.answers.map Prod.fst = ledger.failed.filterMap (·.inner.responseTx)
  errors : ∀ answer ∈ ledger.answers, ∃ e, answer.2 = .error e

/-! ### When -/

/-- The message reaches raft, or it is a batch, whose clients are told. -/
def Reaches (processor : OptimizedRaftBatchProcessor Data F) (proposals : List (EnhancedRaftProposal Data)) : Prop :=
  processor.raftOpen = true ∨ proposals.length ≠ 1

/-- A proposal is taken, and to the batch that holds the open proposals of its priority. -/
structure Joins (now : Nat) (proposal : EnhancedRaftProposal Data) (processor : OptimizedRaftBatchProcessor Data F) : Prop where
  room : processor.isSaturated = false
  alone : ∀ other ∈ (findBatch now proposal.priority processor.priorityBatches).2.eraseIdx
    (findBatch now proposal.priority processor.priorityBatches).1, ∀ held ∈ other.proposals, held.priority ≠ proposal.priority
  reaches : ∀ found ∈ (findBatch now proposal.priority processor.priorityBatches).2[
    (findBatch now proposal.priority processor.priorityBatches).1]?,
    (found.add proposal).shouldFlush processor.config now = true → processor.Reaches (found.add proposal).proposals

/-- Nothing is dropped, and nothing put where it can be overtaken. -/
def Safe (processor : OptimizedRaftBatchProcessor Data F) : Event Data → Prop
  | .receive now _ =>
      match processor.phase, processor.proposalRx with
      | .receiving _, proposal :: _ =>
          match processor.config.mode with
          | .passthrough => processor.raftOpen = true
          | .streaming => True
          | .traditional => processor.Joins now proposal
      | _, _ => True
  | .flushBatch index _ =>
      match processor.phase with
      | .flushing batches => ∀ batch ∈ batches[index]?, processor.Reaches batch.proposals
      | _ => True
  | .groupRound index admitted _ =>
      match processor.phase with
      | .processing groups => ∀ group ∈ groups[index]?, ∀ size ∈ group.optimalSize,
          admitted = true ∧ (processor.raftOpen = true ∨ (group.remaining.length ≠ 1 ∧ group.remaining.length ≤ size))
      | _ => True
  | .removeExpired now => ∀ batch ∈ processor.priorityBatches, batch.expired now = []
  | .submit _ | .launch | .tick _ | .startGroup _ | .raftStops => True

/-- The loop that is entered neither panics nor turns for ever. -/
structure OptimizedBatchConfig.Workable (config : OptimizedBatchConfig) : Prop where
  timer : config.mode = .traditional → config.batchTimeoutMs ≠ 0
  buffer : config.mode = .streaming → 0 < config.streamBufferSize
  permits : config.mode = .streaming → 0 < config.maxConcurrentBatches
  sizes : config.mode = .streaming →
    if config.enableAdaptiveBatching then 2 ≤ config.maxBatchSize ∧ config.minBatchSize ≤ config.maxBatchSize
    else 1 ≤ config.maxBatchSize

/-! ### What holds all along -/

/-- The samples of the performance are positive. -/
structure BatchPerformanceMetrics.Positive [Zero F] [LT F] (metrics : BatchPerformanceMetrics F) : Prop where
  lengths : metrics.batchSizes.length = metrics.throughputSamples.length
  sizes : ∀ size ∈ metrics.batchSizes, 0 < size
  samples : ∀ sample ∈ metrics.throughputSamples, 0 < sample

def Phase.Shaped (mode : Mode) (proposalRx : List (EnhancedRaftProposal Data)) : Phase Data → Prop
  | .created => True
  | .receiving chunk => chunk ≠ [] → mode = .streaming ∧ proposalRx ≠ []
  | .flushing batches => mode = .traditional ∧ batches ≠ [] ∧ ∀ batch ∈ batches, batch.proposals ≠ []
  | .processing groups => mode = .streaming ∧ ∀ group ∈ groups, group.remaining ≠ [] ∧ ∀ size ∈ group.optimalSize, 0 < size
  | .stopped => False

structure Shaped [Zero F] [LT F] (processor : OptimizedRaftBatchProcessor Data F) : Prop where
  workable : processor.config.Workable
  batches : processor.priorityBatches ≠ [] → processor.config.mode = .traditional
  phase : processor.phase.Shaped processor.config.mode processor.proposalRx
  metrics : processor.performanceMetrics.Positive
  answered : processor.ledger.Answered

/-- A processor on which all is in order. -/
structure Steady [Zero F] [LT F] (processor : OptimizedRaftBatchProcessor Data F) : Prop where
  shaped : processor.Shaped
  sound : processor.flow.Sound EnhancedRaftProposal.priority

theorem Phase.Shaped.submitted {phase : Phase Data} {mode : Mode} {proposalRx : List (EnhancedRaftProposal Data)}
    (h : phase.Shaped mode proposalRx) (proposal : EnhancedRaftProposal Data) : phase.Shaped mode (proposalRx ++ [proposal]) := by
  cases phase with
  | receiving chunk => exact fun hchunk => ⟨(h hchunk).1, by simp⟩
  | created => trivial
  | flushing batches => exact h
  | processing groups => exact h
  | stopped => exact h

/-! ### One batch -/

theorem distribute_channels (answer : Option (Except String Unit)) (proposals : List (EnhancedRaftProposal Data)) :
    (distribute answer (responseChannels proposals)).map Prod.fst = proposals.filterMap (·.inner.responseTx) := by
  rw [distribute, responseChannels, List.map_map, List.map_filterMap]
  refine List.filterMap_congr fun proposal _ => ?_
  cases proposal.inner.responseTx <;> simp

theorem Ledger.Answered.append {ledger : Ledger Data} (h : ledger.Answered) {proposals : List (EnhancedRaftProposal Data)}
    {answers : List (ResponseTx × Except RaftError Unit)}
    (hchannels : answers.map Prod.fst = proposals.filterMap (·.inner.responseTx))
    (herrors : ∀ answer ∈ answers, ∃ e, answer.2 = .error e) :
    Ledger.Answered { ledger with failed := ledger.failed ++ proposals, answers := ledger.answers ++ answers } where
  channels := by simp [h.channels, hchannels]
  errors := List.forall_mem_append.mpr ⟨h.errors, herrors⟩

theorem distribute_none_error (channels : List (Bytes × ResponseTx)) :
    ∀ answer ∈ distribute none channels, ∃ e, answer.2 = .error e := by
  intro answer hanswer
  obtain ⟨channel, -, rfl⟩ := List.mem_map.mp hanswer
  exact ⟨_, rfl⟩

theorem BatchPerformanceMetrics.Positive.record [Zero F] [LT F]
    {metrics : BatchPerformanceMetrics F} (h : metrics.Positive) {size : Nat}
    {throughput : F} (hsize : 0 < size) (hthroughput : 0 < throughput) : (metrics.recordBatch size throughput).Positive := by
  have hpush : (metrics.push size throughput).Positive :=
    { lengths := by simp [push, h.lengths]
      sizes := List.forall_mem_append.mpr ⟨h.sizes, by simpa using hsize⟩
      samples := List.forall_mem_append.mpr ⟨h.samples, by simpa using hthroughput⟩ }
  rw [recordBatch]
  split
  · exact
      { lengths := by simp [pop, hpush.lengths]
        sizes := fun size hmem => hpush.sizes size (List.mem_of_mem_tail hmem)
        samples := fun sample hmem => hpush.samples sample (List.mem_of_mem_tail hmem) }
  · exact hpush

variable {perSecond : Nat → Nat → F} {sending : Sending}

/-- The processor once the proposals have gone to raft together. -/
def sent (perSecond : Nat → Nat → F) (sending : Sending) (proposals : List (EnhancedRaftProposal Data))
    (processor : OptimizedRaftBatchProcessor Data F) : OptimizedRaftBatchProcessor Data F :=
  { processor with
    raftTx := processor.raftTx ++ [{ proposals, batchId := sending.batchId }]
    performanceMetrics :=
      processor.performanceMetrics.recordBatch proposals.length (perSecond proposals.length sending.processingTime)
    pendingProposals := processor.pendingProposals - .ofNat proposals.length }

/-- The processor once the proposals have failed together. -/
def refused (proposals : List (EnhancedRaftProposal Data)) (processor : OptimizedRaftBatchProcessor Data F) :
    OptimizedRaftBatchProcessor Data F :=
  fail proposals (distribute none (responseChannels proposals)) processor

theorem processSingleBatch_of_open (perSecond : Nat → Nat → F) (sending : Sending) {batch : OptimizedProposalBatch Data}
    {processor : OptimizedRaftBatchProcessor Data F} (hbatch : batch.proposals ≠ []) (hopen : processor.raftOpen = true) :
    processSingleBatch perSecond sending batch processor = (.ok (), sent perSecond sending batch.proposals processor) := by
  have hnonempty : batch.proposals.isEmpty = false := by simpa using hbatch
  have hsent : sendToRaft { proposals := batch.proposals, batchId := sending.batchId } processor =
      (.ok (), { processor with
        raftTx := processor.raftTx ++ [{ proposals := batch.proposals, batchId := sending.batchId }] }) := by
    rw [sendToRaft, if_pos hopen]
  rw [processSingleBatch, hnonempty, if_neg (by simp), Action.bind_of_ok hsent]
  rfl

theorem processSingleBatch_of_closed (perSecond : Nat → Nat → F) (sending : Sending) {batch : OptimizedProposalBatch Data}
    {processor : OptimizedRaftBatchProcessor Data F} (hbatch : batch.proposals ≠ []) (hclosed : processor.raftOpen = false) :
    processSingleBatch perSecond sending batch processor =
      (.err (sendError { proposals := batch.proposals, batchId := sending.batchId }), loseMessage batch.proposals processor) := by
  have hnonempty : batch.proposals.isEmpty = false := by simpa using hbatch
  have hsent : sendToRaft { proposals := batch.proposals, batchId := sending.batchId } processor =
      (.err (sendError { proposals := batch.proposals, batchId := sending.batchId }), loseMessage batch.proposals processor) := by
    rw [sendToRaft, if_neg (by simp [hclosed])]
  rw [processSingleBatch, hnonempty, if_neg (by simp), Action.bind_of_err hsent]

/-- A batch goes to raft, or it fails as a whole. -/
theorem processSingleBatch_cases
    (perSecond : Nat → Nat → F) (sending : Sending) {batch : OptimizedProposalBatch Data}
    {processor : OptimizedRaftBatchProcessor Data F}
    (hbatch : batch.proposals ≠ []) (hreaches : processor.Reaches batch.proposals) :
    (processor.raftOpen = true ∧
      processSingleBatch perSecond sending batch processor = (.ok (), sent perSecond sending batch.proposals processor)) ∨
    (processor.raftOpen = false ∧ batch.proposals.length ≠ 1 ∧
      ∃ e, processSingleBatch perSecond sending batch processor = (.err e, refused batch.proposals processor)) := by
  cases hopen : processor.raftOpen with
  | true => exact .inl ⟨rfl, processSingleBatch_of_open perSecond sending hbatch hopen⟩
  | false =>
      have hseveral : batch.proposals.length ≠ 1 := hreaches.resolve_left (by simp [hopen])
      have hlost : loseMessage batch.proposals processor = refused batch.proposals processor := by
        unfold loseMessage
        split
        · next hsingle => simp [hsingle] at hseveral
        · rfl
      refine .inr ⟨rfl, hseveral, sendError { proposals := batch.proposals, batchId := sending.batchId }, ?_⟩
      rw [processSingleBatch_of_closed perSecond sending hbatch hopen, hlost]

theorem loseMessage_eq (proposals : List (EnhancedRaftProposal Data)) (processor : OptimizedRaftBatchProcessor Data F) :
    ∃ ledger, loseMessage proposals processor = { processor with ledger } := by
  unfold loseMessage
  split
  · exact ⟨processor.ledger, rfl⟩
  · exact ⟨_, rfl⟩

/-- What a batch may change. -/
theorem processSingleBatch_eq (perSecond : Nat → Nat → F) (sending : Sending) (batch : OptimizedProposalBatch Data)
    (processor : OptimizedRaftBatchProcessor Data F) :
    ∃ raftTx performanceMetrics pendingProposals ledger, (processSingleBatch perSecond sending batch processor).2 =
      { processor with raftTx, performanceMetrics, pendingProposals, ledger } := by
  by_cases hbatch : batch.proposals = []
  · rw [processSingleBatch, hbatch]
    exact ⟨_, _, _, _, rfl⟩
  · obtain hopen | hclosed := Bool.eq_false_or_eq_true processor.raftOpen
    · rw [processSingleBatch_of_open perSecond sending hbatch hopen]
      exact ⟨_, _, _, _, rfl⟩
    · obtain ⟨ledger, hlost⟩ := loseMessage_eq batch.proposals processor
      rw [processSingleBatch_of_closed perSecond sending hbatch hclosed, hlost]
      exact ⟨_, _, _, _, rfl⟩

/-- The phase makes no difference to a batch, nor a batch to the phase. -/
theorem processSingleBatch_phase {batch : OptimizedProposalBatch Data} {phase : Phase Data}
    {processor : OptimizedRaftBatchProcessor Data F} (hbatch : batch.proposals ≠ [])
    (hreaches : processor.Reaches batch.proposals) :
    (processSingleBatch perSecond sending batch { processor with phase }).2 =
      { (processSingleBatch perSecond sending batch processor).2 with phase } := by
  have hreaches' : Reaches { processor with phase } batch.proposals := hreaches
  obtain ⟨hopen, hsent⟩ | ⟨hclosed, -, e, hrefused⟩ := processSingleBatch_cases perSecond sending hbatch hreaches <;>
    obtain ⟨hopen', hsent'⟩ | ⟨hclosed', -, e', hrefused'⟩ := processSingleBatch_cases perSecond sending hbatch hreaches'
  · rw [hsent, hsent']
    rfl
  · simp [hopen] at hclosed'
  · simp [hclosed] at hopen'
  · rw [hrefused, hrefused']
    rfl

theorem flow_sent (processor : OptimizedRaftBatchProcessor Data F) (batch : List (EnhancedRaftProposal Data)) :
    (sent perSecond sending batch processor).flow = { processor.flow with gone := processor.forwarded ++ batch } := by
  simp [flow, sent, forwarded, piles]

/-! ### Groups -/

theorem priorityGroup_eq_some {chunk : List (EnhancedRaftProposal Data)} {priority : ProposalPriority} {group : Group Data}
    (h : priorityGroup chunk priority = some group) :
    inLane EnhancedRaftProposal.priority priority chunk ≠ [] ∧
      group = { priority, remaining := inLane EnhancedRaftProposal.priority priority chunk } := by
  rw [priorityGroup] at h
  split at h
  · simp at h
  · next hsome => exact ⟨by simpa [inLane] using hsome, (Option.some.inj h).symm⟩

theorem flatten_groups (chunk : List (EnhancedRaftProposal Data)) (which : List ProposalPriority) :
    ((which.filterMap (priorityGroup chunk)).map Group.remaining).flatten =
      which.flatMap fun priority => inLane EnhancedRaftProposal.priority priority chunk := by
  induction which with
  | nil => simp
  | cons priority rest ih =>
      rw [List.flatMap_cons, ← ih]
      cases hgroup : priorityGroup chunk priority with
      | some group => simp [hgroup, (priorityGroup_eq_some hgroup).2]
      | none =>
          have hnone : inLane EnhancedRaftProposal.priority priority chunk = [] := by
            simpa [priorityGroup, inLane] using hgroup
          simp [hgroup, hnone]

theorem inLane_priorityGroups (chunk : List (EnhancedRaftProposal Data)) (which : ProposalPriority) :
    inLane EnhancedRaftProposal.priority which ((priorityGroups chunk).map Group.remaining).flatten =
      inLane EnhancedRaftProposal.priority which chunk := by
  rw [priorityGroups, flatten_groups]
  cases which <;> simp [priorities, inLane_inLane]

theorem apart_priorityGroups (chunk : List (EnhancedRaftProposal Data)) :
    Apart EnhancedRaftProposal.priority ((priorityGroups chunk).map Group.remaining) := by
  refine List.pairwise_map.mpr (List.pairwise_filterMap.mpr ?_)
  have hnodup : priorities.Nodup := by decide
  refine hnodup.imp fun {first second} hne group hgroup other hother item hitem less hless => ?_
  rw [(priorityGroup_eq_some hgroup).2] at hitem
  rw [(priorityGroup_eq_some hother).2] at hless
  rw [(mem_inLane.mp hitem).2, (mem_inLane.mp hless).2]
  exact hne

theorem mem_priorityGroups {chunk : List (EnhancedRaftProposal Data)} {group : Group Data} (h : group ∈ priorityGroups chunk) :
    group.remaining ≠ [] ∧ group.optimalSize = none := by
  obtain ⟨priority, -, hgroup⟩ := List.mem_filterMap.mp h
  obtain ⟨hsome, rfl⟩ := priorityGroup_eq_some hgroup
  exact ⟨hsome, rfl⟩

/-- What is left of groups that are as they should be. -/
theorem shaped_processing {groups : List (Group Data)} {proposalRx : List (EnhancedRaftProposal Data)}
    (h : ∀ group ∈ groups, group.remaining ≠ [] ∧ ∀ size ∈ group.optimalSize, 0 < size) :
    (processing groups).Shaped .streaming proposalRx := by
  rw [processing]
  split
  · exact fun hchunk => absurd rfl hchunk
  · exact ⟨rfl, h⟩

theorem sound_processing {flow : Lanes.Flow (EnhancedRaftProposal Data)} {groups : List (Group Data)}
    (h : flow.Sound EnhancedRaftProposal.priority) (hpiles : flow.piles = groups.map Group.remaining) :
    Lanes.Flow.Sound EnhancedRaftProposal.priority { flow with piles := (processing groups).piles } := by
  rw [processing]
  split
  · next hempty =>
      rw [List.isEmpty_iff.mp hempty, List.map_nil] at hpiles
      simpa [Phase.piles, hpiles] using h.room
  · rw [Phase.piles, ← hpiles]
    exact h

/-! ### Sizes -/

section Sizes

variable [Zero F] [LT F] [DecidableLT F]

omit [Zero F] in
theorem bestSize_fold {samples : List (Nat × F)} {best : Nat × F} (hbest : 0 < best.1)
    (h : ∀ sample ∈ samples, 0 < sample.1) :
    0 < (samples.foldl (fun best sample => if sample.2 > best.2 then sample else best) best).1 := by
  induction samples generalizing best with
  | nil => exact hbest
  | cons sample rest ih =>
      refine ih ?_ fun other hother => h other (List.mem_cons_of_mem _ hother)
      show 0 < (if sample.2 > best.2 then sample else best).1
      split
      · exact h sample List.mem_cons_self
      · exact hbest

theorem BatchPerformanceMetrics.Positive.bestSize {metrics : BatchPerformanceMetrics F} (h : metrics.Positive)
    (hsome : metrics.throughputSamples ≠ []) (config : OptimizedBatchConfig) : 0 < metrics.bestSize config := by
  obtain ⟨batchSizes, throughputSamples⟩ := metrics
  cases throughputSamples with
  | nil => simp at hsome
  | cons sample samples =>
      cases batchSizes with
      | nil => simpa using h.lengths
      | cons size sizes =>
          have hfirst : sample > 0 := h.samples sample List.mem_cons_self
          simp only [BatchPerformanceMetrics.bestSize, List.zip_cons_cons, List.foldl_cons, if_pos hfirst]
          refine bestSize_fold (h.sizes size List.mem_cons_self) fun other hother => ?_
          exact h.sizes _ (List.mem_cons_of_mem _ (List.of_mem_zip hother).1)

theorem getOptimalBatchSize_pos {metrics : BatchPerformanceMetrics F} {config : OptimizedBatchConfig} (h : metrics.Positive)
    (hmax : 2 ≤ config.maxBatchSize) (hbounds : config.minBatchSize ≤ config.maxBatchSize) :
    ∃ size, metrics.getOptimalBatchSize config = .ok size ∧ 0 < size := by
  rw [BatchPerformanceMetrics.getOptimalBatchSize]
  split
  · exact ⟨_, rfl, by omega⟩
  · next hmany =>
      have hbest := h.bestSize (fun hnone => hmany (by simp [hnone])) config
      exact ⟨_, rfl, by omega⟩

theorem optimalSize_pos {processor : OptimizedRaftBatchProcessor Data F} (h : processor.Shaped)
    (hmode : processor.config.mode = .streaming) : ∃ size, processor.optimalSize = .ok size ∧ 0 < size := by
  have hsizes := h.workable.sizes hmode
  rw [optimalSize]
  split
  · next hadaptive =>
      rw [if_pos hadaptive] at hsizes
      exact getOptimalBatchSize_pos h.metrics hsizes.1 hsizes.2
  · next hfixed =>
      rw [if_neg hfixed] at hsizes
      exact ⟨_, rfl, hsizes⟩

end Sizes

/-! ### Open batches -/

theorem findBatch_cases (now : Nat) (priority : ProposalPriority) (batches : List (OptimizedProposalBatch Data)) :
    ∃ found, (findBatch now priority batches).2[(findBatch now priority batches).1]? = some found ∧
      ((findBatch now priority batches).2 = batches ∨ (findBatch now priority batches).2 = batches ++ [.new now]) := by
  cases hfind : batches.findIdx? fun batch => batch.priority = priority with
  | none => exact ⟨.new now, by simp [findBatch, hfind], .inr (by simp [findBatch, hfind])⟩
  | some index =>
      obtain ⟨hlt, -, -⟩ := List.findIdx?_eq_some_iff_getElem.mp hfind
      exact ⟨batches[index], by simp [findBatch, hfind, hlt], .inl (by simp [findBatch, hfind])⟩

theorem addToPriorityBatch_of_saturated {now : Nat} {proposal : EnhancedRaftProposal Data}
    {processor : OptimizedRaftBatchProcessor Data F} (h : processor.isSaturated = true) :
    addToPriorityBatch perSecond now sending proposal processor = (.err (pendingExhausted processor.config), processor) := by
  rw [addToPriorityBatch, if_pos h]

/-- A proposal is put on a batch, which goes to raft if it is ready then. -/
theorem addToPriorityBatch_of_room {now index : Nat} {proposal : EnhancedRaftProposal Data}
    {opened : List (OptimizedProposalBatch Data)} {found : OptimizedProposalBatch Data}
    {processor : OptimizedRaftBatchProcessor Data F} (hroom : processor.isSaturated = false)
    (hfind : findBatch now proposal.priority processor.priorityBatches = (index, opened)) (hfound : opened[index]? = some found) :
    addToPriorityBatch perSecond now sending proposal processor =
      if (found.add proposal).shouldFlush processor.config now then
        processSingleBatch perSecond sending (found.add proposal)
          { processor with pendingProposals := processor.pendingProposals + 1, priorityBatches := opened.eraseIdx index }
      else
        (.ok (), { processor with
          pendingProposals := processor.pendingProposals + 1
          priorityBatches := opened.set index (found.add proposal) }) := by
  rw [addToPriorityBatch, if_neg (by simp [hroom])]
  simp only [hfind, hfound]

/-! ### What a step keeps -/

section Steps

variable [Zero F] [LT F] {processor : OptimizedRaftBatchProcessor Data F}

/-- A processor that has a batch less than it had, before the batch goes. -/
structure Releases (batch : List (EnhancedRaftProposal Data)) (processor : OptimizedRaftBatchProcessor Data F) : Prop where
  shaped : processor.Shaped
  sound : Lanes.Flow.Sound EnhancedRaftProposal.priority { processor.flow with piles := batch :: processor.piles }

theorem steady_sent (hpositive : ∀ size time, 0 < size → 0 < perSecond size time) {batch : List (EnhancedRaftProposal Data)}
    (h : processor.Releases batch) (hbatch : batch ≠ []) : (sent perSecond sending batch processor).Steady where
  shaped :=
    { h.shaped with
      metrics := h.shaped.metrics.record (List.length_pos_of_ne_nil hbatch) (hpositive _ _ (List.length_pos_of_ne_nil hbatch)) }
  sound := by
    rw [flow_sent]
    exact h.sound.leavePile rfl

theorem steady_refused {batch : List (EnhancedRaftProposal Data)} (h : processor.Releases batch) :
    (refused batch processor).Steady where
  shaped :=
    { h.shaped with answered := h.shaped.answered.append (distribute_channels none batch) (distribute_none_error _) }
  sound := h.sound.failPile rfl

theorem steady_processed (hpositive : ∀ size time, 0 < size → 0 < perSecond size time) {batch : OptimizedProposalBatch Data}
    (h : processor.Releases batch.proposals) (hbatch : batch.proposals ≠ []) (hreaches : processor.Reaches batch.proposals) :
    (processSingleBatch perSecond sending batch processor).2.Steady := by
  obtain ⟨-, hsent⟩ | ⟨-, -, e, hrefused⟩ := processSingleBatch_cases perSecond sending hbatch hreaches
  · rw [hsent]
    exact steady_sent hpositive h hbatch
  · rw [hrefused]
    exact steady_refused h

/-! ### Receiving -/

theorem steady_submitted (proposal : EnhancedRaftProposal Data) (h : processor.Steady) :
    (submitted proposal processor).Steady where
  shaped :=
    { h.shaped with
      phase := h.shaped.phase.submitted proposal
      answered := ⟨h.shaped.answered.channels, h.shaped.answered.errors⟩ }
  sound := h.sound.arrive proposal

/-- While proposals are received, a chunk is there in streaming mode only, and batches in traditional mode. -/
theorem chunk_eq_nil
    (h : processor.Shaped) {chunk : List (EnhancedRaftProposal Data)} (hphase : processor.phase = .receiving chunk)
    (hmode : processor.config.mode ≠ .streaming) : chunk = [] := by
  by_contra hchunk
  have hshaped := h.phase
  rw [hphase] at hshaped
  exact hmode (hshaped hchunk).1

theorem batches_eq_nil (h : processor.Shaped) (hmode : processor.config.mode ≠ .traditional) :
    processor.priorityBatches = [] := by
  by_contra hbatches
  exact hmode (h.batches hbatches)

/-- A batch with room for the proposal, apart from the others. -/
theorem sound_stacked {now : Nat} {proposal : EnhancedRaftProposal Data} {rest : List (EnhancedRaftProposal Data)} {index : Nat}
    {batches : List (OptimizedProposalBatch Data)} {found : OptimizedProposalBatch Data} (h : processor.Steady)
    (hphase : processor.phase = .receiving []) (hwaiting : processor.proposalRx = proposal :: rest)
    (hfound : batches[index]? = some found)
    (hbatches : batches = processor.priorityBatches ∨ batches = processor.priorityBatches ++ [.new now])
    (halone : ∀ other ∈ batches.eraseIdx index, ∀ held ∈ other.proposals, held.priority ≠ proposal.priority) :
    Lanes.Flow.Sound EnhancedRaftProposal.priority
      { processor.flow with
        waiting := rest
        piles := (found.add proposal).proposals :: [] :: (batches.eraseIdx index).map OptimizedProposalBatch.proposals } := by
  have hpiles : processor.flow.piles = [] :: processor.priorityBatches.map OptimizedProposalBatch.proposals := by
    simp [flow, piles, hphase, Phase.piles]
  have hopened : Lanes.Flow.Sound EnhancedRaftProposal.priority
      { processor.flow with piles := [] :: batches.map OptimizedProposalBatch.proposals } := by
    obtain rfl | rfl := hbatches
    · exact hpiles ▸ h.sound
    · refine h.sound.room.perm ?_
      rw [hpiles, List.map_append]
      exact (List.perm_append_singleton _ _).symm.cons []
  obtain ⟨hlt, hget⟩ := List.getElem?_eq_some_iff.mp hfound
  have hsplit : (found.proposals :: (batches.eraseIdx index).map OptimizedProposalBatch.proposals).Perm
      (batches.map OptimizedProposalBatch.proposals) := by
    have hperm := (List.getElem_cons_eraseIdx_perm hlt).map OptimizedProposalBatch.proposals
    rwa [hget, List.map_cons] at hperm
  have hfirst : Lanes.Flow.Sound EnhancedRaftProposal.priority
      { processor.flow with piles := found.proposals :: [] :: (batches.eraseIdx index).map OptimizedProposalBatch.proposals } := by
    refine hopened.perm ?_
    exact ((hsplit.symm.cons []).trans (List.Perm.swap _ _ _))
  refine hfirst.stack hwaiting rfl fun other hother held hheld => ?_
  obtain rfl | hother := List.mem_cons.mp hother
  · simp at hheld
  · obtain ⟨batch, hbatch, rfl⟩ := List.mem_map.mp hother
    exact halone batch hbatch held hheld

theorem steady_added
    (hpositive : ∀ size time, 0 < size → 0 < perSecond size time) {now : Nat} {proposal : EnhancedRaftProposal Data}
    {rest : List (EnhancedRaftProposal Data)} (h : processor.Steady) (hmode : processor.config.mode = .traditional)
    (hphase : processor.phase = .receiving []) (hwaiting : processor.proposalRx = proposal :: rest)
    (hjoins : processor.Joins now proposal) :
    (addToPriorityBatch perSecond now sending proposal { processor with proposalRx := rest }).2.Steady := by
  obtain ⟨found, hfound, hbatches⟩ := findBatch_cases now proposal.priority processor.priorityBatches
  obtain ⟨hroom, halone, hreaches⟩ := hjoins
  have hstacked := sound_stacked h hphase hwaiting hfound hbatches halone
  rcases hfind : findBatch now proposal.priority processor.priorityBatches with ⟨index, batches⟩
  rw [hfind] at hfound hreaches hstacked
  have hshaped (left : List (OptimizedProposalBatch Data)) (count : UInt64) :
      Shaped { processor with proposalRx := rest, pendingProposals := count, priorityBatches := left } :=
    { h.shaped with
      batches := fun _ => hmode
      phase := by simp [hphase, Phase.Shaped] }
  have hpiles (left : List (OptimizedProposalBatch Data)) (count : UInt64) :
      piles { processor with proposalRx := rest, pendingProposals := count, priorityBatches := left } =
        [] :: left.map OptimizedProposalBatch.proposals := by
    simp [piles, hphase, Phase.piles]
  have hsaturated : isSaturated { processor with proposalRx := rest } = false := hroom
  rw [addToPriorityBatch_of_room hsaturated hfind hfound]
  split
  · next hflush =>
      refine steady_processed hpositive ⟨hshaped _ _, ?_⟩ (by simp [OptimizedProposalBatch.add]) (hreaches found hfound hflush)
      rw [hpiles]
      exact hstacked
  · refine ⟨hshaped _ _, ?_⟩
    obtain ⟨hlt, -⟩ := List.getElem?_eq_some_iff.mp hfound
    have hset := (List.set_perm_cons_eraseIdx hlt (found.add proposal)).map OptimizedProposalBatch.proposals
    rw [flow, hpiles]
    refine hstacked.perm ?_
    exact (List.Perm.swap _ _ _).trans (hset.symm.cons [])

theorem steady_passed {proposal : EnhancedRaftProposal Data} {rest : List (EnhancedRaftProposal Data)} (h : processor.Steady)
    (hmode : processor.config.mode = .passthrough) (hphase : processor.phase = .receiving [])
    (hwaiting : processor.proposalRx = proposal :: rest) (hopen : processor.raftOpen = true) :
    (sendToRaft { proposals := [proposal], batchId := sending.batchId } { processor with proposalRx := rest }).2.Steady := by
  have hbatches := batches_eq_nil h.shaped (by simp [hmode])
  have hpiles : processor.flow.piles = [[]] := by simp [flow, piles, hphase, Phase.piles, hbatches]
  rw [sendToRaft, if_pos hopen]
  refine ⟨{ h.shaped with phase := by simp [hphase, Phase.Shaped] }, ?_⟩
  have hgone := (h.sound.stack hwaiting hpiles (by simp)).leavePile rfl
  simpa [flow, forwarded, piles, hphase, Phase.piles, hbatches] using hgone.room

theorem steady_chunk {proposal : EnhancedRaftProposal Data} {chunk rest : List (EnhancedRaftProposal Data)} (h : processor.Steady)
    (hmode : processor.config.mode = .streaming) (hphase : processor.phase = .receiving chunk)
    (hwaiting : processor.proposalRx = proposal :: rest) :
    (receive perSecond now sending proposal (!rest.isEmpty) chunk { processor with proposalRx := rest }).Steady := by
  have hbatches := batches_eq_nil h.shaped (by simp [hmode])
  have hpiles : processor.flow.piles = [chunk] := by simp [flow, piles, hphase, Phase.piles, hbatches]
  have hstacked := h.sound.stack hwaiting hpiles (by simp)
  simp only [receive, hmode]
  split
  · refine ⟨{ h.shaped with phase := ?_ }, ?_⟩
    · show (processing _).Shaped processor.config.mode rest
      rw [hmode]
      refine shaped_processing fun group hgroup => ?_
      obtain ⟨hremaining, hsize⟩ := mem_priorityGroups hgroup
      exact ⟨hremaining, by simp [hsize]⟩
    · have hgrouped := hstacked.repile (apart_priorityGroups (chunk ++ [proposal])) fun which => by
        simpa using inLane_priorityGroups (chunk ++ [proposal]) which
      simpa [flow, piles, forwarded, hbatches] using sound_processing hgrouped rfl
  · next hmore =>
      have hrest : rest ≠ [] := by
        intro hnil
        simp [hnil] at hmore
      refine ⟨{ h.shaped with phase := fun _ => ⟨hmode, hrest⟩ }, ?_⟩
      simpa [flow, piles, forwarded, Phase.piles, hbatches] using hstacked

theorem steady_received
    (hpositive : ∀ size time, 0 < size → 0 < perSecond size time) {now : Nat} {proposal : EnhancedRaftProposal Data}
    {chunk rest : List (EnhancedRaftProposal Data)} (h : processor.Steady) (hphase : processor.phase = .receiving chunk)
    (hwaiting : processor.proposalRx = proposal :: rest) (hsafe : processor.Safe (.receive now sending)) :
    (receive perSecond now sending proposal (!rest.isEmpty) chunk { processor with proposalRx := rest }).Steady := by
  simp only [Safe, hphase, hwaiting] at hsafe
  cases hmode : processor.config.mode with
  | streaming => exact steady_chunk h hmode hphase hwaiting
  | passthrough =>
      obtain rfl := chunk_eq_nil h.shaped hphase (by simp [hmode])
      simp only [receive, hmode] at hsafe ⊢
      exact steady_passed h hmode hphase hwaiting hsafe
  | traditional =>
      obtain rfl := chunk_eq_nil h.shaped hphase (by simp [hmode])
      simp only [receive, hmode] at hsafe ⊢
      exact steady_added hpositive h hmode hphase hwaiting hsafe

/-! ### Timers -/

theorem steady_launched (h : processor.Steady) (hphase : processor.phase = .created) : (launch processor).Steady := by
  have hnone : ¬ (processor.config.mode = .traditional ∧ processor.config.batchTimeoutMs = 0) :=
    fun hzero => h.shaped.workable.timer hzero.1 hzero.2
  rw [launch, if_neg hnone]
  refine ⟨{ h.shaped with phase := by simp [Phase.Shaped] }, ?_⟩
  simpa [flow, forwarded, piles, hphase, Phase.piles] using h.sound.room

theorem proposals_removeExpired (now : Nat) (batches : List (OptimizedProposalBatch Data)) :
    (batches.map (·.removeExpired now)).map OptimizedProposalBatch.proposals =
      (batches.map OptimizedProposalBatch.proposals).map (·.filter fun proposal => !proposal.isExpired now) := by
  simp [OptimizedProposalBatch.removeExpired]

theorem flatMap_expired (now : Nat) (batches : List (OptimizedProposalBatch Data)) :
    batches.flatMap (·.expired now) = (batches.map OptimizedProposalBatch.proposals).flatten.filter (·.isExpired now) := by
  rw [List.filter_flatten, List.map_map, List.flatMap_def]
  rfl

theorem timedOut_channels (now : Nat) (expired : List (EnhancedRaftProposal Data)) :
    (timedOut now expired).map Prod.fst = expired.filterMap (·.inner.responseTx) := by
  rw [timedOut, List.map_filterMap]
  refine List.filterMap_congr fun proposal _ => ?_
  cases proposal.inner.responseTx <;> simp

theorem timedOut_error (now : Nat) (expired : List (EnhancedRaftProposal Data)) :
    ∀ answer ∈ timedOut now expired, ∃ e, answer.2 = .error e := by
  intro answer hanswer
  obtain ⟨proposal, -, hproposal⟩ := List.mem_filterMap.mp hanswer
  obtain ⟨responseTx, -, rfl⟩ := Option.map_eq_some_iff.mp hproposal
  exact ⟨_, rfl⟩

theorem nonempty_of_shouldFlush {config : OptimizedBatchConfig} {now : Nat} {batch : OptimizedProposalBatch Data}
    (h : batch.shouldFlush config now = true) : batch.proposals ≠ [] := by
  intro hempty
  simp [OptimizedProposalBatch.shouldFlush, hempty] at h

/-- What stands of the open batches once those that are ready are set apart, behind an empty pile. -/
theorem sound_setApart {ready rest : List (OptimizedProposalBatch Data)} (now : Nat) (h : processor.Steady)
    (hphase : processor.phase = .receiving []) (hsplit : processor.priorityBatches.Perm (ready ++ rest)) :
    Lanes.Flow.Sound EnhancedRaftProposal.priority
      { processor.flow with
        piles := [] :: (ready.map OptimizedProposalBatch.proposals ++
          (rest.map (·.removeExpired now)).map OptimizedProposalBatch.proposals)
        failed := processor.ledger.failed ++ rest.flatMap (·.expired now) } := by
  have hpiles : processor.flow.piles = [] :: processor.priorityBatches.map OptimizedProposalBatch.proposals := by
    simp [flow, piles, hphase, Phase.piles]
  have hperm : processor.flow.piles.Perm
      (([] :: ready.map OptimizedProposalBatch.proposals) ++ rest.map OptimizedProposalBatch.proposals) := by
    rw [hpiles, List.cons_append, ← List.map_append]
    exact (hsplit.map _).cons []
  rw [proposals_removeExpired, flatMap_expired]
  exact (h.sound.perm hperm).fail (·.isExpired now) rfl

theorem steady_flushed {now : Nat} (h : processor.Steady) (hmode : processor.config.mode = .traditional)
    (hphase : processor.phase = .receiving []) : (flushReadyBatches now processor).Steady := by
  have hsplit := (List.filter_append_perm (·.shouldFlush processor.config now) processor.priorityBatches).symm
  have hapart := sound_setApart now h hphase hsplit
  refine ⟨{ h.shaped with
      batches := fun _ => hmode
      phase := ?_
      answered := h.shaped.answered.append (timedOut_channels now _) (timedOut_error now _) }, ?_⟩
  · show Phase.Shaped processor.config.mode processor.proposalRx (if _ then _ else _)
    split
    · exact fun hchunk => absurd rfl hchunk
    · next hsome =>
        refine ⟨hmode, by simpa using hsome, fun batch hbatch => ?_⟩
        exact nonempty_of_shouldFlush (List.of_mem_filter hbatch)
  · show Lanes.Flow.Sound EnhancedRaftProposal.priority (Lanes.Flow.mk _ _ (Phase.piles (if _ then _ else _) ++ _) _ _)
    split
    · next hnone =>
        rw [List.isEmpty_iff.mp hnone] at hapart
        exact hapart
    · exact hapart.clear rfl

theorem steady_flushBatch (hpositive : ∀ size time, 0 < size → 0 < perSecond size time) {index : Nat}
    {batches : List (OptimizedProposalBatch Data)} {batch : OptimizedProposalBatch Data} (h : processor.Steady)
    (hphase : processor.phase = .flushing batches) (hbatch : batches[index]? = some batch)
    (hreaches : processor.Reaches batch.proposals) :
    Steady
      { (processSingleBatch perSecond sending batch processor).2 with
        phase := if (batches.eraseIdx index).isEmpty then .receiving [] else .flushing (batches.eraseIdx index) } := by
  have hshaped := h.shaped.phase
  rw [hphase] at hshaped
  obtain ⟨hmode, -, hnonempty⟩ := hshaped
  have hsome : batch.proposals ≠ [] := hnonempty batch (List.mem_of_getElem? hbatch)
  rw [← processSingleBatch_phase hsome hreaches]
  refine steady_processed hpositive ⟨{ h.shaped with phase := ?_ }, ?_⟩ hsome hreaches
  · show Phase.Shaped processor.config.mode processor.proposalRx (if _ then _ else _)
    split
    · exact fun hchunk => absurd rfl hchunk
    · next hleft =>
        exact ⟨hmode, by simpa using hleft, fun other hother => hnonempty other (List.mem_of_mem_eraseIdx hother)⟩
  · have hfirst : Lanes.Flow.Sound EnhancedRaftProposal.priority
        { processor.flow with
          piles := batch.proposals :: ((batches.eraseIdx index).map OptimizedProposalBatch.proposals ++
            processor.priorityBatches.map OptimizedProposalBatch.proposals) } := by
      refine h.sound.perm ?_
      obtain ⟨hlt, hget⟩ := List.getElem?_eq_some_iff.mp hbatch
      have hperm := (List.getElem_cons_eraseIdx_perm hlt).symm.map OptimizedProposalBatch.proposals
      rw [hget, List.map_cons] at hperm
      simpa [flow, piles, hphase, Phase.piles] using hperm.append_right (processor.priorityBatches.map OptimizedProposalBatch.proposals)
    show Lanes.Flow.Sound EnhancedRaftProposal.priority (Lanes.Flow.mk _ _ (_ :: (Phase.piles (if _ then _ else _) ++ _)) _ _)
    split
    · next hlast =>
        rw [List.isEmpty_iff.mp hlast] at hfirst
        exact hfirst.room.perm (List.Perm.swap _ _ _)
    · exact hfirst

theorem steady_unexpired
    {now : Nat} (h : processor.Steady) (hnone : ∀ batch ∈ processor.priorityBatches, batch.expired now = []) :
    (removeExpired now processor).Steady := by
  have hkept : (processor.priorityBatches.map (·.removeExpired now)).map OptimizedProposalBatch.proposals =
      processor.priorityBatches.map OptimizedProposalBatch.proposals := by
    rw [List.map_map]
    refine List.map_congr_left fun batch hbatch => List.filter_eq_self.mpr fun proposal hproposal => ?_
    have hlive := List.filter_eq_nil_iff.mp (hnone batch hbatch) proposal hproposal
    simpa using hlive
  refine ⟨{ h.shaped with batches := fun hbatches => h.shaped.batches (by simpa [removeExpired] using hbatches) }, ?_⟩
  simpa only [flow, forwarded, piles, removeExpired, hkept] using h.sound

/-! ### Rounds -/

theorem proposals_foldl_add (proposals : List (EnhancedRaftProposal Data)) (batch : OptimizedProposalBatch Data) :
    (proposals.foldl OptimizedProposalBatch.add batch).proposals = batch.proposals ++ proposals := by
  induction proposals generalizing batch with
  | nil => simp
  | cons proposal rest ih => simp [ih, OptimizedProposalBatch.add]

/-- The other groups, and what is made of this one. -/
theorem perm_groups {groups : List (Group Data)} {index : Nat} {group : Group Data} (hgroup : groups[index]? = some group) :
    (groups.map Group.remaining).Perm (group.remaining :: (groups.eraseIdx index).map Group.remaining) := by
  obtain ⟨hlt, hget⟩ := List.getElem?_eq_some_iff.mp hgroup
  have hperm := (List.getElem_cons_eraseIdx_perm hlt).symm.map Group.remaining
  rwa [hget, List.map_cons] at hperm

theorem steady_started [DecidableLT F] {index : Nat} {groups : List (Group Data)} (h : processor.Steady)
    (hphase : processor.phase = .processing groups) : (startGroup index groups processor).Steady := by
  have hshaped := h.shaped.phase
  rw [hphase] at hshaped
  obtain ⟨hmode, hgroups⟩ := hshaped
  obtain ⟨size, hsize, hpositive⟩ := optimalSize_pos h.shaped hmode
  unfold startGroup
  split
  · exact h
  · next group hgroup =>
      split
      · simp only [hsize]
        obtain ⟨hlt, hget⟩ := List.getElem?_eq_some_iff.mp hgroup
        refine ⟨{ h.shaped with phase := ⟨hmode, fun other hother => ?_⟩ }, ?_⟩
        · obtain hold | rfl := List.mem_or_eq_of_mem_set hother
          · exact hgroups other hold
          · exact ⟨(hgroups group (List.mem_of_getElem? hgroup)).1, by simpa using hpositive⟩
        · have hsame :
              (groups.set index { group with optimalSize := some size }).map Group.remaining = groups.map Group.remaining := by
            have hlt' : index < (groups.map Group.remaining).length := by simpa using hlt
            have hself : (groups.map Group.remaining).set index (groups.map Group.remaining)[index] = groups.map Group.remaining :=
              List.set_getElem_self hlt'
            rw [List.getElem_map, hget] at hself
            rw [List.map_set, hself]
          simpa only [flow, forwarded, piles, hphase, Phase.piles, hsame] using h.sound
      · exact h

/-- What a group has left is apart from the other groups. -/
theorem sound_group {groups : List (Group Data)} {index : Nat} {group : Group Data} (h : processor.Steady)
    (hphase : processor.phase = .processing groups) (hgroup : groups[index]? = some group) :
    Lanes.Flow.Sound EnhancedRaftProposal.priority
      { processor.flow with piles := group.remaining :: (groups.eraseIdx index).map Group.remaining } := by
  have hmode : processor.config.mode = .streaming := (hphase ▸ h.shaped.phase : Phase.Shaped _ _ (.processing groups)).1
  have hbatches := batches_eq_nil h.shaped (by simp [hmode])
  refine h.sound.perm ?_
  simpa [flow, piles, hphase, Phase.piles, hbatches] using perm_groups hgroup

theorem steady_groupSent
    (hpositive : ∀ size time, 0 < size → 0 < perSecond size time) {groups : List (Group Data)} {index size : Nat}
    {group : Group Data} (h : processor.Steady) (hphase : processor.phase = .processing groups)
    (hgroup : groups[index]? = some group)
    (hsize : group.optimalSize = some size) :
    Steady
      { sent perSecond sending (group.remaining.take size) processor with
        phase :=
          if (group.remaining.drop size).isEmpty then processing (groups.eraseIdx index)
          else .processing (groups.set index { group with remaining := group.remaining.drop size }) } := by
  obtain ⟨hmode, hgroups⟩ : Phase.Shaped _ _ (.processing groups) := hphase ▸ h.shaped.phase
  have hbatches := batches_eq_nil h.shaped (by simp [hmode])
  obtain ⟨hremaining, hsizes⟩ := hgroups group (List.mem_of_getElem? hgroup)
  have hlength : 0 < (group.remaining.take size).length := by
    rw [List.length_take]
    exact Nat.lt_min.mpr ⟨hsizes size hsize, List.length_pos_of_ne_nil hremaining⟩
  have hmetrics := h.shaped.metrics.record hlength (hpositive _ sending.processingTime hlength)
  have hleft : Lanes.Flow.Sound EnhancedRaftProposal.priority
      { processor.flow with
        piles := group.remaining.drop size :: (groups.eraseIdx index).map Group.remaining
        gone := processor.forwarded ++ group.remaining.take size } := by
    refine (sound_group h hphase hgroup).leave ?_
    rw [List.take_append_drop]
  split
  · next hdone =>
      refine ⟨{ h.shaped with metrics := hmetrics, phase := ?_ }, ?_⟩
      · show (processing _).Shaped processor.config.mode processor.proposalRx
        rw [hmode]
        exact shaped_processing fun other hother => hgroups other (List.mem_of_mem_eraseIdx hother)
      · rw [List.isEmpty_iff.mp hdone] at hleft
        have hcleared := sound_processing (hleft.clear rfl) rfl
        simpa [flow, forwarded, piles, sent, hbatches] using hcleared
  · next hmore =>
      refine ⟨{ h.shaped with metrics := hmetrics, phase := ⟨hmode, fun other hother => ?_⟩ }, ?_⟩
      · obtain hold | rfl := List.mem_or_eq_of_mem_set hother
        · exact hgroups other hold
        · exact ⟨by simpa using hmore, hsizes⟩
      · obtain ⟨hlt, -⟩ := List.getElem?_eq_some_iff.mp hgroup
        have hset := (List.set_perm_cons_eraseIdx hlt { group with remaining := group.remaining.drop size }).map Group.remaining
        simpa [flow, forwarded, piles, sent, Phase.piles, hbatches] using hleft.perm hset.symm

theorem steady_groupRefused {groups : List (Group Data)} {index : Nat} {group : Group Data} (h : processor.Steady)
    (hphase : processor.phase = .processing groups) (hgroup : groups[index]? = some group) :
    Steady { refused group.remaining processor with phase := processing (groups.eraseIdx index) } := by
  obtain ⟨hmode, hgroups⟩ : Phase.Shaped _ _ (.processing groups) := hphase ▸ h.shaped.phase
  have hbatches := batches_eq_nil h.shaped (by simp [hmode])
  refine ⟨{ h.shaped with
    phase := ?_
    answered := h.shaped.answered.append (distribute_channels none group.remaining) (distribute_none_error _) }, ?_⟩
  · show (processing _).Shaped processor.config.mode processor.proposalRx
    rw [hmode]
    exact shaped_processing fun other hother => hgroups other (List.mem_of_mem_eraseIdx hother)
  · have hfailed := sound_processing ((sound_group h hphase hgroup).failPile rfl) rfl
    simpa [flow, forwarded, piles, refused, fail, hbatches] using hfailed

theorem steady_round (hpositive : ∀ size time, 0 < size → 0 < perSecond size time) {index : Nat} {admitted : Bool}
    {groups : List (Group Data)} (h : processor.Steady) (hphase : processor.phase = .processing groups)
    (hsafe : ∀ group ∈ groups[index]?, ∀ size ∈ group.optimalSize,
      admitted = true ∧ (processor.raftOpen = true ∨ (group.remaining.length ≠ 1 ∧ group.remaining.length ≤ size))) :
    (groupRound perSecond index admitted sending groups processor).Steady := by
  obtain ⟨hmode, hgroups⟩ : Phase.Shaped _ _ (.processing groups) := hphase ▸ h.shaped.phase
  unfold groupRound
  split
  · next priority remaining size hgroup =>
      obtain ⟨hremaining, hsize⟩ := hgroups _ (List.mem_of_getElem? hgroup)
      obtain ⟨rfl, hreaches⟩ := hsafe _ hgroup size rfl
      have hbatch : (groupBatch priority (remaining.take size)).proposals = remaining.take size := by
        simp [groupBatch, proposals_foldl_add, OptimizedProposalBatch.new]
      have hsome : (groupBatch priority (remaining.take size)).proposals ≠ [] := by
        rw [hbatch]
        simp [hremaining, Nat.pos_iff_ne_zero.mp (hsize size rfl)]
      have hcan : processor.Reaches (groupBatch priority (remaining.take size)).proposals := by
        rw [hbatch]
        refine hreaches.imp_right fun hfew => ?_
        rw [List.take_of_length_le hfew.2]
        exact hfew.1
      obtain ⟨-, hsent⟩ | ⟨hclosed, -, e, hrefused⟩ := processSingleBatch_cases perSecond sending hsome hcan
      · rw [if_pos rfl, hsent, hbatch]
        exact steady_groupSent hpositive h hphase hgroup rfl
      · have hwhole : remaining.take size = remaining :=
          List.take_of_length_le (hreaches.resolve_left (by simp [hclosed])).2
        rw [if_pos rfl, hrefused, hbatch, hwhole]
        exact steady_groupRefused h hphase hgroup
  · exact h

/-! ### Runs -/

theorem step_steady [DecidableLT F] (hpositive : ∀ size time, 0 < size → 0 < perSecond size time) {event : Event Data}
    (h : processor.Steady) (hsafe : processor.Safe event) : (step perSecond processor event).Steady := by
  cases event with
  | submit proposal =>
      rw [step]
      split
      · exact h
      · exact steady_submitted proposal h
  | launch =>
      rw [step]
      split
      · next hcreated =>
          have hphase : processor.phase = .created := by
            cases hphase : processor.phase <;> simp [hphase] at hcreated ⊢
          exact steady_launched h hphase
      · exact h
  | receive now sending =>
      rw [step]
      split
      · next chunk proposal rest hphase hwaiting =>
          split
          · exact steady_received hpositive h hphase hwaiting hsafe
          · exact h
      · exact h
  | tick now =>
      rw [step]
      split
      · next chunk hphase =>
          split
          · next hmode =>
              obtain rfl := chunk_eq_nil h.shaped hphase (by simp [hmode])
              exact steady_flushed h hmode hphase
          · exact h
      · exact h
  | flushBatch index sending =>
      rw [step]
      split
      · next batches hphase =>
          split
          · next batch hbatch =>
              simp only [Safe, hphase] at hsafe
              exact steady_flushBatch hpositive h hphase hbatch (hsafe batch hbatch)
          · exact h
      · exact h
  | startGroup index =>
      rw [step]
      split
      · next groups hphase => exact steady_started h hphase
      · exact h
  | groupRound index admitted sending =>
      rw [step]
      split
      · next groups hphase =>
          simp only [Safe, hphase] at hsafe
          exact steady_round hpositive h hphase hsafe
      · exact h
  | removeExpired now => exact steady_unexpired h hsafe
  | raftStops => exact ⟨{ h.shaped with }, h.sound⟩

theorem start_steady {config : OptimizedBatchConfig} (h : config.Workable) :
    Steady ({ config } : OptimizedRaftBatchProcessor Data F) where
  shaped :=
    { workable := h
      batches := fun hbatches => absurd rfl hbatches
      phase := trivial
      metrics := ⟨rfl, by simp, by simp⟩
      answered := ⟨rfl, by simp⟩ }
  sound :=
    { conserved := List.Perm.nil
      apart := List.Pairwise.nil
      inOrder := fun which => List.Sublist.refl _ }

end Steps

end IrohRaft.OptimizedRaftBatchProcessor
