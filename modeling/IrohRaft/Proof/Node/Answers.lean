import IrohRaft.Library.Replication
import IrohRaft.Proof.Node.Bookkeeping
import IrohRaft.Proof.Node.Restart

/-!
# What a node answers

A node answers the proposals that it took itself, when it applies their entries. As long as nothing fails that is done
for the state machine, this has taken the part of the log that raft has handed out, and every answer is the response to
an entry of this part at its place in the log.
-/

namespace IrohRaft.RaftNode

open Rust Redb Handler Replication

variable {σ : Type}

/-! ### One state machine -/

/-- What an entry makes of the state machine, and what its proposal is answered with. -/
def sequential (machine : NodeStateMachine σ) : Replication.Machine σ Entry (Except RaftError Bytes) where
  next := takeEntry machine
  response state entry :=
    if entry.data.isEmpty then none
    else
      match ProposalData.decode entry.data with
      | .ok (proposal, _) => some (machine.apply entry.index proposal state).1
      | .error _ => none

/-- The senders that an input registers, each under the id of its proposal. -/
def Input.asked : Input → List (Bytes × Nat)
  | .propose proposalId responseTx _ _ _ => [(proposalId, responseTx)]
  | .tick .. | .message .. | .addPeer .. | .removePeer .. => []

/-- The node has applied this part of the log, and told nobody anything else than the responses to it. -/
structure HasTaken (machine : NodeStateMachine σ) (initial : σ) (asked : List (Bytes × Nat)) (taken : List Entry)
    (node : RaftNode σ) : Prop where
  state : node.stateMachine = (sequential machine).state initial taken
  waits : ∀ (id : Bytes) sender, node.pendingProposals[id]? = some sender → (id, sender) ∈ asked
  told : ∀ answer ∈ node.answers, ∃ entry, (entry, answer.2) ∈ (sequential machine).responses initial taken ∧
    (entry.context, answer.1) ∈ asked

/-- The snapshot is of the state machine that the entries up to its index make. -/
def Portrays (machine : NodeStateMachine σ) (initial : σ) (log : List Entry) (snapshot : Snapshot) : Prop :=
  ∀ metadata ∈ snapshot.metadata, ∀ state,
    machine.restore snapshot.data state = (.ok (), (sequential machine).state initial (entriesUpTo log metadata.index))

/-- Nothing fails that is done for the state machine, and nothing that it needs comes with a LightReady, whose entries
`handle_ready` does not take. -/
structure Round.Serves (machine : NodeStateMachine σ) (initial : σ) (log : List Entry) (round : Round) : Prop where
  reaches : round.Reaches machine
  light : ∀ entry ∈ round.light.committedEntries, hasData entry = false
  snapshot : hasSnapshot round.ready = true → Portrays machine initial log round.ready.snapshot

variable {machine : NodeStateMachine σ} {prost : ProstCodec Snapshot} {initial : σ} {asked : List (Bytes × Nat)}
  {taken more log : List Entry} {node : RaftNode σ} {round : Round} {stop : Observed (RaftNode σ) → Prop}

namespace HasTaken

theorem mono (h : HasTaken machine initial asked taken node) (others : List (Bytes × Nat)) :
    HasTaken machine initial (asked ++ others) taken node := by
  refine ⟨h.state, fun id sender hsender => List.mem_append_left _ (h.waits id sender hsender), fun answer hanswer => ?_⟩
  obtain ⟨entry, hresponse, hasked⟩ := h.told answer hanswer
  exact ⟨entry, hresponse, List.mem_append_left _ hasked⟩

/-- The state machine goes on to what a longer part of the log makes of it. -/
theorem goesOn (h : HasTaken machine initial asked taken node) (hfront : taken <+: more) {state : σ}
    (hstate : state = (sequential machine).state initial more) :
    HasTaken machine initial asked more { node with stateMachine := state } := by
  refine ⟨hstate, h.waits, fun answer hanswer => ?_⟩
  obtain ⟨entry, hresponse, hasked⟩ := h.told answer hanswer
  exact ⟨entry, Machine.mem_responses_of_prefix hfront hresponse, hasked⟩

/-- What has no data is as good as taken. -/
theorem append_quiet (h : HasTaken machine initial asked taken node) (hquiet : ∀ entry ∈ more, hasData entry = false) :
    HasTaken machine initial asked (taken ++ more) node := by
  refine h.goesOn (List.prefix_append _ _) ?_
  rw [Machine.state_append_of_quiet, h.state]
  intro entry hentry state
  have hempty : entry.data.isEmpty = true := by simpa [hasData] using hquiet entry hentry
  simp [sequential, takeEntry, hempty]

theorem register (h : HasTaken machine initial asked taken node) (id : Bytes) (sender : Nat) :
    HasTaken machine initial (asked ++ [(id, sender)]) taken
      { node with pendingProposals := node.pendingProposals.insert id sender } := by
  have hmono := h.mono [(id, sender)]
  refine ⟨hmono.state, fun other waiting hother => ?_, hmono.told⟩
  rw [HashMap.getElem?_insert_if] at hother
  split at hother
  · next heq =>
      obtain rfl := Option.some.inj hother
      exact List.mem_append_right _ (List.mem_singleton.mpr (by rw [heq]))
  · exact hmono.waits other waiting hother

theorem withdraw (h : HasTaken machine initial asked taken node) (id : Bytes) :
    HasTaken machine initial asked taken { node with pendingProposals := node.pendingProposals.erase id } :=
  ⟨h.state, fun other waiting hother => h.waits other waiting (Oneshot.getElem?_erase_eq_some.mp hother).2, h.told⟩

/-- The one who waits under an entry's context is told the response to the entry. -/
theorem answer (h : HasTaken machine initial asked taken node) {entry : Entry} {result : Except RaftError Bytes}
    (hresponse : (entry, result) ∈ (sequential machine).responses initial taken) :
    HasTaken machine initial asked taken
      { node with
        pendingProposals := node.pendingProposals.erase entry.context
        answers := node.answers ++ (node.pendingProposals[entry.context]?.map (·, result)).toList } := by
  refine ⟨h.state, (h.withdraw entry.context).waits, fun answer hanswer => ?_⟩
  obtain hold | hnew := List.mem_append.mp hanswer
  · exact h.told answer hold
  · simp only [Option.mem_toList, Option.map_eq_some_iff] at hnew
    obtain ⟨sender, hsender, rfl⟩ := hnew
    exact ⟨entry, hresponse, h.waits _ _ hsender⟩

end HasTaken

/-! ### One Ready -/

/-- What holds of the node wherever its storage is, with the faults that are still to come. -/
structure About (round : Round) (about : RaftNode σ → Prop) (seen : Observed (RaftNode σ)) : Prop where
  faults_mem : ∀ fault ∈ seen.faults, fault ∈ round.faults
  node : about seen.node

section About

variable {about about' : RaftNode σ → Prop}

theorem about_writeStorage (update : RaftStorage → RaftStorage) (h : ∀ node storage, about node → about { node with storage }) :
    Action.Triple (About round about) (writeStorage update) (fun _ => About round about)
      (fun seen => ¬ round.Faultless ∧ about seen.node) := by
  intro seen hseen
  have hmem := hseen.faults_mem
  cases hfaults : seen.faults with
  | nil =>
      simp only [writeStorage, store, hfaults, Session.result, Session.commit]
      exact ⟨by simp, h _ _ hseen.node⟩
  | cons fault rest =>
      rw [hfaults] at hmem
      cases fault with
      | none =>
          simp only [writeStorage, store, hfaults, Session.result, Session.commit]
          exact ⟨fun other hother => hmem other (List.mem_cons_of_mem _ hother), h _ _ hseen.node⟩
      | some fault =>
          simp only [writeStorage, store, hfaults]
          exact ⟨fun hfine => by simpa using hfine _ (hmem _ List.mem_cons_self), h _ _ hseen.node⟩

theorem about_record (effect : Effect) : Action.Triple (About round about) (record effect) (fun _ => About round about) stop :=
  Action.Triple.modify fun _ hseen => ⟨hseen.faults_mem, hseen.node⟩

theorem about_onNode {update : RaftNode σ → RaftNode σ} (h : ∀ node, about node → about' (update node)) :
    Action.Triple (About round about) (onNode update) (fun _ => About round about') stop :=
  Action.Triple.modify fun seen hseen => ⟨hseen.faults_mem, h seen.node hseen.node⟩

theorem about_sendAll (messages : List Message) :
    Action.Triple (About round about) (messages.forM sendMessage) (fun _ => About round about) stop :=
  Action.Triple.forM (fun _ => About round about) fun _ message _ _ => about_record (.send message)

end About

/-- The part of the log that a Ready leads to: with its entries, or up to the index of its snapshot. -/
inductive LeadsTo (log : List Entry) (ready : Ready) (taken : List Entry) : List Entry → Prop where
  | entries (hsnapshot : hasSnapshot ready = false) : LeadsTo log ready taken (taken ++ ready.committedEntries)
  | snapshot (metadata : SnapshotMetadata) (hmetadata : ready.snapshot.metadata = some metadata) (hsnapshot : hasSnapshot ready = true)
      (hfront : taken ++ ready.committedEntries <+: entriesUpTo log metadata.index) :
      LeadsTo log ready taken (entriesUpTo log metadata.index)

abbrev Taking (machine : NodeStateMachine σ) (initial : σ) (asked : List (Bytes × Nat)) (round : Round) (taken : List Entry)
    (seen : Observed (RaftNode σ)) : Prop :=
  About round (HasTaken machine initial asked taken) seen

theorem answerContext_taking {entry : Entry} {result : Except RaftError Bytes}
    (hresponse : (entry, result) ∈ (sequential machine).responses initial taken) :
    Action.Triple (Taking machine initial asked round taken) (answerContext entry.context result)
      (fun _ => Taking machine initial asked round taken) stop := by
  rw [answerContext]
  split
  · exact Action.Triple.pure fun _ => id
  · exact about_onNode fun _ h => h.answer hresponse

theorem applyEntry_taking {entry : Entry} (h : Reads entry) :
    Action.Triple (Taking machine initial asked round taken) (applyEntry machine entry)
      (fun _ => Taking machine initial asked round (taken ++ [entry])) stop := by
  rw [applyEntry]
  by_cases hempty : entry.data.isEmpty = true
  · rw [if_pos hempty]
    refine Action.Triple.pure fun seen hseen => ⟨hseen.faults_mem, hseen.node.append_quiet fun other hother => ?_⟩
    obtain rfl := List.mem_singleton.mp hother
    simpa [hasData] using hempty
  · obtain hnone | ⟨⟨proposal, rest⟩, hproposal⟩ := h
    · simp [hnone] at hempty
    · simp only [if_neg hempty, hproposal]
      refine Action.Triple.get_bind fun seen hseen => ?_
      rw [hseen.node.state]
      have hnext : (machine.apply entry.index proposal ((sequential machine).state initial taken)).2 =
          (sequential machine).state initial (taken ++ [entry]) := by
        rw [Machine.state_concat]
        simp [sequential, takeEntry, hempty, hproposal]
      have hresponse : (entry, (machine.apply entry.index proposal ((sequential machine).state initial taken)).1) ∈
          (sequential machine).responses initial (taken ++ [entry]) := by
        rw [Machine.responses_concat]
        refine List.mem_append_right _ ?_
        simpa [sequential, hproposal] using hempty
      exact (about_onNode fun _ hnode => hnode.goesOn (List.prefix_append _ _) hnext).bind fun _ =>
        (about_record _).bind fun _ => answerContext_taking hresponse

theorem applyEntries_taking {entries : List Entry} (h : ∀ entry ∈ entries, Reads entry) :
    Action.Triple (Taking machine initial asked round taken) (entries.forM (applyEntry machine))
      (fun _ => Taking machine initial asked round (taken ++ entries)) stop := by
  refine Action.Triple.strengthen (Action.Triple.forM (fun (done : List Entry) =>
    Taking machine initial asked round (taken ++ done)) fun done entry rest hentries => ?_) fun seen hseen => by simpa using hseen
  have hentry : Reads entry := h entry (hentries ▸ List.mem_append_right done List.mem_cons_self)
  rw [← List.append_assoc]
  exact applyEntry_taking hentry

theorem applySnapshot_taking (h : round.Serves machine initial log) {after : List Entry}
    (hafter : LeadsTo log round.ready taken after) :
    Action.Triple (Taking machine initial asked round (taken ++ round.ready.committedEntries))
      (applySnapshot machine prost round.ready) (fun _ => Taking machine initial asked round after) stop := by
  rw [applySnapshot]
  cases hafter with
  | entries hsnapshot =>
      simp only [hsnapshot, Bool.false_eq_true, if_false]
      exact Action.Triple.pure fun _ => id
  | snapshot metadata hmetadata hsnapshot hfront =>
      simp only [if_pos hsnapshot]
      have hrestore : Action.Triple (Taking machine initial asked round (taken ++ round.ready.committedEntries))
          (restore machine round.ready.snapshot.data)
          (fun _ => Taking machine initial asked round (entriesUpTo log metadata.index)) stop := by
        intro seen hseen
        rw [restore, h.snapshot hsnapshot metadata hmetadata]
        exact ⟨hseen.faults_mem, hseen.node.goesOn hfront rfl⟩
      refine hrestore.bind fun _ => Action.Triple.bind ?_ fun _ => about_record _
      refine (about_writeStorage _ fun _ _ hnode => ⟨hnode.state, hnode.waits, hnode.told⟩).stopping fun _ hstop => ?_
      exact absurd (h.reaches.snapshot hsnapshot).1 hstop.1

/-- A handling that stops has nothing to take. -/
theorem LeadsTo.eq_of_not_faultless (h : round.Serves machine initial log) {after : List Entry}
    (hafter : LeadsTo log round.ready taken after) (hfaulty : ¬ round.Faultless) : after = taken := by
  cases hafter with
  | entries hsnapshot =>
      have hnone : round.ready.committedEntries = [] := by
        by_contra hsome
        exact hfaulty (h.reaches.entries hsome).1
      rw [hnone, List.append_nil]
  | snapshot metadata hmetadata hsnapshot hfront => exact absurd (h.reaches.snapshot hsnapshot).1 hfaulty

theorem handleReady_takes (h : round.Serves machine initial log) {after : List Entry}
    (hafter : LeadsTo log round.ready taken after) :
    Action.Triple (fun seen => HasTaken machine initial asked taken seen.node) (handleReady machine prost round)
      (fun _ seen => HasTaken machine initial asked after seen.node)
      (fun seen => HasTaken machine initial asked after seen.node) := by
  have hpre (seen : Observed (RaftNode σ)) (hseen : HasTaken machine initial asked taken seen.node) :
      Taking machine initial asked round taken { seen with faults := round.faults, effects := [] } := ⟨fun _ => id, hseen⟩
  refine handling_about (HasTaken machine initial asked after) hpre ?_
  have hwrite (update : RaftStorage → RaftStorage) : Action.Triple (Taking machine initial asked round taken)
      (writeStorage update) (fun _ => Taking machine initial asked round taken)
      (fun seen => HasTaken machine initial asked after seen.node) := by
    refine (about_writeStorage _ fun _ _ hnode => ⟨hnode.state, hnode.waits, hnode.told⟩).stopping fun _ hstop => ?_
    rw [hafter.eq_of_not_faultless h hstop.1]
    exact hstop.2
  refine (saveHardState_keeps _ (fun _ => hwrite _) about_record).bind fun _ =>
    (saveEntries_keeps _ (hwrite _) about_record).bind fun _ => (about_sendAll _).bind fun _ =>
      (applyEntries_taking h.reaches.reads).bind fun _ => (applySnapshot_taking h hafter).bind fun _ =>
        (about_record _).bind fun _ => (about_sendAll _).weaken fun _ _ hseen => hseen.node

/-! ### A run of one node -/

/-- Whatever part of the log the raft crate has handed out, the node has taken. -/
def HasTakenAll (machine : NodeStateMachine σ) (initial : σ) (log : List Entry) (asked : List (Bytes × Nat))
    (seen : Observed (RaftNode σ)) : Prop :=
  ∀ last, Redelivers log 0 seen.history last → HasTaken machine initial asked (entriesUpTo log last) seen.node

theorem Redelivers.split_last {history : List Handled} {handled : Handled} {first last : UInt64}
    (h : Redelivers log first (history ++ [handled]) last) :
    ∃ reached, Redelivers log first history reached ∧ HandsOutNext log reached handled last := by
  induction history generalizing first with
  | nil =>
      cases h with
      | next hnext hrest =>
          cases hrest with
          | done => exact ⟨first, .done first, hnext⟩
  | cons other rest ih =>
      cases h with
      | next hnext hrest =>
          obtain ⟨reached, hreached, hlast⟩ := ih hrest
          exact ⟨reached, .next hnext hreached, hlast⟩

/-- Whether or not the node came to ask for the LightReady, what it hands out has no data. -/
theorem HandsOutNext.leadsTo (hlog : Committed log) (h : round.Serves machine initial log) {effects : List Effect}
    {reached last : UInt64} (hnext : HandsOutNext log reached ⟨round.ready, round.light, effects⟩ last) :
    ∃ after quiet, LeadsTo log round.ready (entriesUpTo log reached) after ∧ entriesUpTo log last = after ++ quiet ∧
      ∀ entry ∈ quiet, hasData entry = false := by
  have hquiet : ∀ entry ∈ (if Effect.advance ∈ effects then round.light.committedEntries else []), hasData entry = false := by
    intro entry hentry
    split at hentry
    · exact h.light entry hentry
    · simp at hentry
  cases hnext with
  | entries hle hsnapshot hentries =>
      refine ⟨_, _, .entries hsnapshot, ?_, hquiet⟩
      rw [← entriesUpTo_append hlog hle, ← hentries, Handled.handedOut, List.append_assoc]
  | snapshot metadata hmetadata hsnapshot hreached hle hnone hentries =>
      have hnone' : round.ready.committedEntries = [] := hnone
      refine ⟨_, _, .snapshot metadata hmetadata hsnapshot ?_, ?_, hquiet⟩
      · rw [hnone', List.append_nil, ← entriesUpTo_append hlog hreached]
        exact List.prefix_append _ _
      · rw [← entriesUpTo_append hlog hle, ← hentries, Handled.handedOut, hnone']
        simp

section Run

variable {seen : Observed (RaftNode σ)}

theorem HasTakenAll.mono (h : HasTakenAll machine initial log asked seen) (others : List (Bytes × Nat)) :
    HasTakenAll machine initial log (asked ++ others) seen :=
  fun last hlast => (h last hlast).mono others

theorem HasTakenAll.handleReady (hlog : Committed log) (hround : round.Serves machine initial log)
    (h : HasTakenAll machine initial log asked seen) :
    HasTakenAll machine initial log asked (RaftNode.handleReady machine prost round seen).2 := by
  intro last hlast
  obtain ⟨effects, -, hhistory⟩ := (@handleReady_spec _ machine prost round seen.history).final rfl
  rw [hhistory] at hlast
  obtain ⟨reached, hreached, hnext⟩ := hlast.split_last
  obtain ⟨after, quiet, hafter, hsplit, hquiet⟩ := hnext.leadsTo hlog hround
  rw [hsplit]
  exact ((handleReady_takes hround hafter).final (h reached hreached)).append_quiet hquiet

theorem HasTakenAll.handleIfReady (hlog : Committed log) {next : Option Round}
    (hrounds : ∀ round ∈ next, round.Serves machine initial log) (h : HasTakenAll machine initial log asked seen) :
    HasTakenAll machine initial log asked (RaftNode.handleIfReady machine prost next seen).2 := by
  cases next with
  | none => exact h
  | some round => exact HasTakenAll.handleReady hlog (hrounds round rfl) h

/-- The step: an input registers the senders that it asks with, and a Ready is taken. -/
theorem HasTakenAll.step (hlog : Committed log) {input : Input} (hrounds : ∀ round ∈ input.next, round.Serves machine initial log)
    (h : HasTakenAll machine initial log asked seen) :
    HasTakenAll machine initial log (asked ++ input.asked) (RaftNode.step machine prost seen input) := by
  have hunchanged (operation : String) (confChange : ConfChange) (leadership : Leadership)
      (submit : ConfChange → Except String Unit) :
      (proposeConfChange operation confChange leadership submit seen).2 = seen := by
    have hkeeps : Action.Triple (· = seen) (proposeConfChange operation confChange leadership submit)
        (fun _ => (· = seen)) (· = seen) := proposeConfChange_keeps _ _ _ _
    exact hkeeps.final rfl
  cases input with
  | tick next => exact (HasTakenAll.handleIfReady hlog hrounds h).mono []
  | message answer next =>
      cases answer with
      | error e => exact h.mono []
      | ok done => exact (HasTakenAll.handleIfReady hlog hrounds h).mono []
  | addPeer peerId address leadership submit =>
      rw [RaftNode.step, Input.handle, hunchanged]
      exact h.mono []
  | removePeer peerId leadership submit =>
      rw [RaftNode.step, Input.handle, hunchanged]
      exact h.mono []
  | propose proposalId responseTx data leadership submit =>
      have hregistered : HasTakenAll machine initial log (asked ++ [(proposalId, responseTx)])
          (registered proposalId responseTx seen) := fun last hlast => (h last hlast).register proposalId responseTx
      rw [RaftNode.step, Input.handle]
      by_cases hleader : leadership.isLeader = true
      · cases hsubmit : submit proposalId data.encode with
        | ok done => rwa [propose_of_submitted hleader hsubmit]
        | error e => rwa [propose_of_refused hleader hsubmit]
      · rw [propose_of_not_leader hleader]
        exact fun last hlast => (hregistered last hlast).withdraw proposalId

end Run

end IrohRaft.RaftNode
