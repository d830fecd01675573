import IrohRaft.Library.Run
import IrohRaft.Library.Triple
import IrohRaft.Raft.Manager

/-!
# Following the manager through its effects

What is known of the manager from the effects it had so far: a relation between the two that every part of the handling
of a Ready keeps, with what is left of it where the handling stops. One lemma for each part, and from them the whole run.
-/

namespace IrohRaft

open Rust

/-- What was done about the Readys of a history, in order. -/
def effectsOf (history : List Handled) : List Effect := history.flatMap Handled.effects

namespace Handler

variable {σ τ α : Type} {follows follows' stopped : List Effect → σ → Prop} {stop : Observed σ → Prop}

/-- Between two Readys. -/
def Between (follows : List Effect → σ → Prop) (seen : Observed σ) : Prop := follows (effectsOf seen.history) seen.node

/-- While a Ready is handled. -/
def Within (follows : List Effect → σ → Prop) (seen : Observed σ) : Prop :=
  follows (effectsOf seen.history ++ seen.effects) seen.node

theorem record_within (effect : Effect) :
    Action.Triple (Within fun trace => follows (trace ++ [effect])) (record effect) (fun _ => Within follows) stop := by
  apply Action.Triple.modify
  intro seen hseen
  rw [Within, ← List.append_assoc]
  exact hseen

theorem onNode_within {update : σ → σ} (h : ∀ trace node, follows trace node → follows' trace (update node)) :
    Action.Triple (Within follows) (onNode update) (fun _ => Within follows') stop :=
  Action.Triple.modify fun _ hseen => h _ _ hseen

theorem onNode_between {update : σ → σ} (h : ∀ trace node, follows trace node → follows' trace (update node)) :
    Action.Triple (Between follows) (onNode update) (fun _ => Between follows') stop :=
  Action.Triple.modify fun _ hseen => h _ _ hseen

theorem store_within {part : σ → τ} {replace : σ → τ → σ} {session : Session τ RaftError α}
    {returned : α → List Effect → σ → Prop}
    (hstates : ∀ trace node, follows trace node → ∀ state ∈ session.states (part node), stopped trace (replace node state))
    (hok : ∀ trace node, follows trace node → ∀ value, session.result (part node) = .ok value →
      returned value trace (replace node (session.final (part node)))) :
    Action.Triple (Within follows) (store part replace session) (fun value => Within (returned value)) (Within stopped) := by
  intro seen hseen
  have hleft (state : τ) (hstate : state ∈ session.states (part seen.node)) (rest : List (Option (Nat × RaftError))) :
      Within stopped { seen with faults := rest, node := replace seen.node state } :=
    hstates _ _ hseen state hstate
  have hreturned (value : α) (hvalue : session.result (part seen.node) = .ok value) (rest : List (Option (Nat × RaftError))) :
      Within (returned value) { seen with faults := rest, node := replace seen.node (session.final (part seen.node)) } :=
    hok _ _ hseen value hvalue
  cases hfaults : seen.faults with
  | nil =>
      simp only [store, hfaults]
      cases hresult : session.result (part seen.node) with
      | ok value => exact hreturned value hresult _
      | err error => exact hleft _ (Session.final_mem_states session) _
      | panic => exact hleft _ (Session.final_mem_states session) _
  | cons fault rest =>
      cases fault with
      | none =>
          simp only [store, hfaults]
          cases hresult : session.result (part seen.node) with
          | ok value => exact hreturned value hresult _
          | err error => exact hleft _ (Session.final_mem_states session) _
          | panic => exact hleft _ (Session.final_mem_states session) _
      | some fault =>
          simp only [store, hfaults]
          exact hleft _ (Session.stopped_mem_states session _) _

/-- A handled Ready joins the history, with all that holds within its handling. -/
theorem handling_between {body : Handler σ α} (ready : Ready) (light : LightReady) (faults : List (Option (Nat × RaftError)))
    (hbody : Action.Triple (Within follows) body (fun _ => Within follows) (Within stopped)) :
    Action.Triple (Between follows) (handling ready light faults body) (fun _ => Between follows)
      (fun seen => Between stopped seen ∧ ∃ (before : List Handled) (effects : List Effect), seen.history = before ++ [⟨ready, light, effects⟩]) := by
  have hended {holds : List Effect → σ → Prop} (after : Observed σ) (hafter : Within holds after) :
      Between holds { after with history := after.history ++ [{ ready, light, effects := after.effects }] } := by
    rw [Between, effectsOf, List.flatMap_append, List.flatMap_singleton]
    exact hafter
  intro seen hseen
  have hstart : Within follows { seen with faults, effects := [] } := by
    rw [Within, List.append_nil]
    exact hseen
  have hafter := hbody _ hstart
  rcases hresult : body { seen with faults, effects := [] } with ⟨value | error | _, after⟩ <;>
    simp only [handling, hresult] at hafter ⊢
  · exact hended after hafter
  · exact ⟨hended after hafter, _, _, rfl⟩
  · exact ⟨hended after hafter, _, _, rfl⟩

end Handler

namespace RaftManager

open Handler

/-- The call of the storage that is recorded as the effect, if one is. -/
def sessionOf (codec : ManagerCodec) : Effect → Session Redb.Database RaftError Unit
  | .installSnapshot snapshot => RaftSnapshotManager.processSnapshotIfPresent codec.toRaftStateCodec snapshot
  | .append entries => RedbRaftStorage.appendEntries codec.toRaftStateCodec entries
  | .saveHardState hardState => RedbRaftStorage.saveHardState codec.toRaftStateCodec hardState
  | .send _ | .applyEntry _ | .applyConfChange _ | .advance | .advanceApplyTo _ => return ()

/-- What can be done about a Ready, other than to apply a conf change. -/
def Round.Asks (round : Round) : Effect → Prop
  | .installSnapshot snapshot => snapshot = round.ready.snapshot
  | .append entries => entries = round.ready.entries
  | .saveHardState hardState =>
      hardState ∈ round.ready.hs ∨ ∃ commit ∈ round.light.commitIndex, hardState = { round.hardState with commit }
  | .send _ | .applyEntry _ | .advance | .advanceApplyTo _ => True
  | .applyConfChange _ => False

/-- What every part of the handling of the given Readys keeps. -/
structure Followed (codec : ManagerCodec) (meets : Round → Prop) (follows : List Effect → RaftManager → Prop)
    (stopped : Round → List Effect → RaftManager → Prop) : Prop where
  stops : ∀ round trace manager, follows trace manager → stopped round trace manager
  frame : ∀ trace manager manager', manager'.database = manager.database →
    manager'.configManager.peers = manager.configManager.peers → follows trace manager → follows trace manager'
  effect : ∀ round, meets round → ∀ effect, round.Asks effect → ∀ trace manager, follows trace manager →
    (∀ database ∈ (sessionOf codec effect).states manager.database, stopped round trace { manager with database }) ∧
      ((sessionOf codec effect).result manager.database = .ok () →
        follows (trace ++ [effect]) { manager with database := (sessionOf codec effect).final manager.database })
  confChange : ∀ round entry cc, codec.mergeConfChange entry.data = .ok cc → ∀ trace manager, follows trace manager →
    let session := manager.configManager.applyConfChange cc (round.applyConfChange cc)
    (∀ database ∈ session.states manager.database, stopped round trace { manager with database }) ∧
      ∀ configManager, session.result manager.database = .ok configManager →
        follows (trace ++ [.applyConfChange entry]) { manager with database := session.final manager.database, configManager }
  compact : ∀ round, meets round → ∀ trace manager, follows trace manager → ∀ compacted,
    RaftSnapshotManager.checkAndTriggerLogCompaction codec.toRaftStateCodec manager.snapshotManager round.appliedAfter
      manager.database = .ok compacted →
    follows trace { manager with database := compacted.1, snapshotManager := compacted.2 }

/-- Between two Readys, or in the midst of the last one. -/
def Halted (meets : Round → Prop) (follows : List Effect → RaftManager → Prop)
    (stopped : Round → List Effect → RaftManager → Prop) (seen : Observed RaftManager) : Prop :=
  Between follows seen ∨ ∃ round, meets round ∧ Between (stopped round) seen ∧
    ∃ (before : List Handled) (effects : List Effect), seen.history = before ++ [⟨round.ready, round.light, effects⟩]

variable {codec : ManagerCodec} {meets : Round → Prop} {follows : List Effect → RaftManager → Prop}
  {stopped : Round → List Effect → RaftManager → Prop} {round : Round} {α : Type}

/-- Where nothing is lost by stopping. -/
theorem Halted.between {seen : Observed RaftManager} (h : Halted meets follows (fun _ => follows) seen) : Between follows seen := by
  obtain hbetween | ⟨_, -, hstopped, -⟩ := h
  · exact hbetween
  · exact hstopped

/-- However it ends, in the course of a handling. -/
abbrev KeepsWithin (follows : List Effect → RaftManager → Prop) (stopped : Round → List Effect → RaftManager → Prop) (round : Round)
    (handler : Handler RaftManager α) : Prop :=
  Action.Triple (Within follows) handler (fun _ => Within follows) (Within (stopped round))

/-- However it ends, between two of them. -/
abbrev KeepsBetween (meets : Round → Prop) (follows : List Effect → RaftManager → Prop)
    (stopped : Round → List Effect → RaftManager → Prop) (handler : Handler RaftManager α) : Prop :=
  Action.Triple (Between follows) handler (fun _ => Between follows) (Halted meets follows stopped)

theorem lift_between (outcome : Outcome RaftError α) : KeepsBetween meets follows stopped (Action.lift outcome) :=
  Action.Triple.lift (fun _ _ _ => id) fun _ _ => .inl

theorem handling_keeps (hround : meets round) {body : Handler RaftManager α} (hbody : KeepsWithin follows stopped round body) :
    KeepsBetween meets follows stopped (Handler.handling round.ready round.light round.faults body) :=
  (handling_between round.ready round.light round.faults hbody).stopping fun _ hseen => .inr ⟨round, hround, hseen⟩

namespace Followed

variable (h : Followed codec meets follows stopped)

include h

theorem lift_within (outcome : Outcome RaftError α) : KeepsWithin follows stopped round (Action.lift outcome) :=
  Action.Triple.lift (fun _ _ _ => id) fun _ _ => h.stops round _ _

/-! ### The parts of the handling of a Ready -/

theorem quiet (hround : meets round) (effect : Effect) (hasks : round.Asks effect) (hquiet : sessionOf codec effect = return ())
    {trace : List Effect} {manager : RaftManager} (hfollows : follows trace manager) : follows (trace ++ [effect]) manager := by
  have heffect := (h.effect round hround effect hasks trace manager hfollows).2
  rw [hquiet, Session.final_pure] at heffect
  exact heffect (Session.result_pure ())

theorem recordQuiet (hround : meets round) (effect : Effect) (hasks : round.Asks effect)
    (hquiet : sessionOf codec effect = return ()) : KeepsWithin follows stopped round (record effect) :=
  (record_within effect).strengthen fun _ hseen => h.quiet hround effect hasks hquiet hseen

theorem answerContext (context : Bytes) (result : Except RaftError Unit) :
    KeepsWithin follows stopped round (RaftManager.answerContext context result) := by
  rw [RaftManager.answerContext]
  split
  · exact Action.Triple.pure fun _ => id
  · exact onNode_within fun trace manager => h.frame trace manager _ rfl rfl

theorem sendRaftMessage (hround : meets round) (message : Message) :
    KeepsWithin follows stopped round (RaftManager.sendRaftMessage message) := by
  apply Action.Triple.modify
  intro seen hseen
  have hsent : follows (effectsOf seen.history ++ (seen.effects ++ [.send (fixFrom seen.node.nodeId message)])) seen.node := by
    rw [← List.append_assoc]
    exact h.quiet hround (.send _) trivial rfl hseen
  cases hroom : seen.node.outgoingMessages with
  | none => exact hsent
  | some room =>
      cases room with
      | zero => exact hseen
      | succ room => exact h.frame _ seen.node _ rfl rfl hsent

theorem sendAll (hround : meets round) (messages : List Message) :
    KeepsWithin follows stopped round (messages.forM RaftManager.sendRaftMessage) :=
  Action.Triple.forM (fun _ => Within follows) fun _ message _ _ => h.sendRaftMessage hround message

/-- A write, and the effect that records it. -/
theorem write (hround : meets round) (effect : Effect) (hasks : round.Asks effect) :
    KeepsWithin follows stopped round (do callStorage (sessionOf codec effect); record effect) := by
  refine Action.Triple.bind (store_within ?_ ?_) fun _ => record_within effect
  · exact fun trace manager hfollows => (h.effect round hround effect hasks trace manager hfollows).1
  · exact fun trace manager hfollows _ => (h.effect round hround effect hasks trace manager hfollows).2

theorem processSnapshotIfPresent (hround : meets round) :
    KeepsWithin follows stopped round (RaftManager.processSnapshotIfPresent codec round.ready) := by
  rw [RaftManager.processSnapshotIfPresent]
  split
  · exact Action.Triple.pure fun _ => id
  · exact h.write hround (.installSnapshot round.ready.snapshot) rfl

theorem saveEntriesToStorage (hround : meets round) :
    KeepsWithin follows stopped round (RaftManager.saveEntriesToStorage codec round.ready) := by
  rw [RaftManager.saveEntriesToStorage]
  split
  · exact Action.Triple.pure fun _ => id
  · exact h.write hround (.append round.ready.entries) rfl

theorem saveHardStateIfChanged (hround : meets round) :
    KeepsWithin follows stopped round (RaftManager.saveHardStateIfChanged codec round.ready) := by
  rw [RaftManager.saveHardStateIfChanged]
  split
  next hs hsome => exact h.write hround (.saveHardState hs) (.inl hsome)
  next => exact Action.Triple.pure fun _ => id

theorem processConfChangeEntry (entry : Entry) :
    KeepsWithin follows stopped round (RaftManager.processConfChangeEntry codec round entry) := by
  rw [RaftManager.processConfChangeEntry]
  cases hmerge : codec.mergeConfChange entry.data with
  | error e => exact (h.answerContext _ _).bind fun _ => h.lift_within _
  | ok cc =>
      -- the session is that of the config manager when it is called
      refine Action.Triple.of_start fun start hstart => Action.Triple.get_bind fun seen hseen => ?_
      subst hseen
      have hstored : Action.Triple
          (Within fun trace manager => follows trace manager ∧ manager.configManager = seen.node.configManager)
          (callStorage (seen.node.configManager.applyConfChange cc (round.applyConfChange cc)))
          (fun configManager => Within fun trace manager =>
            follows (trace ++ [.applyConfChange entry]) { manager with configManager })
          (Within (stopped round)) := by
        refine store_within ?_ ?_
        · intro trace manager ⟨hfollows, hsame⟩
          rw [← hsame]
          exact (h.confChange round entry cc hmerge trace manager hfollows).1
        · intro trace manager ⟨hfollows, hsame⟩
          rw [← hsame]
          exact (h.confChange round entry cc hmerge trace manager hfollows).2
      refine (hstored.strengthen fun state hstate => ?_).bind fun configManager =>
        Action.Triple.bind (onNode_within fun _ _ => id) fun _ => record_within _
      rw [hstate]
      exact ⟨hstart, rfl⟩

theorem processEntry (hround : meets round) (entry : Entry) :
    KeepsWithin follows stopped round (RaftManager.processEntry codec round entry) := by
  rw [RaftManager.processEntry]
  cases entry.kind with
  | entryNormal => exact (h.recordQuiet hround (.applyEntry entry) trivial rfl).bind fun _ => h.answerContext _ _
  | entryConfChange => exact h.processConfChangeEntry entry
  | entryConfChangeV2 => exact Action.Triple.pure fun _ => id

theorem processEntries (hround : meets round) (last : UInt64) (entries : List Entry) :
    KeepsWithin follows stopped round (RaftManager.processEntries codec round last entries) := by
  induction entries generalizing last with
  | nil => exact Action.Triple.pure fun _ => id
  | cons entry rest ih => exact (h.processEntry hround entry).bind fun _ => ih entry.index

theorem handleNewlyCommittedEntries (hround : meets round) (last : UInt64) (hadCommitUpdate : Bool) :
    KeepsWithin follows stopped round (RaftManager.handleNewlyCommittedEntries codec round last hadCommitUpdate) := by
  rw [RaftManager.handleNewlyCommittedEntries]
  split
  · refine (h.lift_within _).bind fun start => (h.lift_within _).bind fun stop => Action.Triple.get_bind fun seen _ => ?_
    split
    · refine (h.processEntries hround last _).bind fun applied => ?_
      split
      · exact h.recordQuiet hround (.advanceApplyTo _) trivial rfl
      · exact Action.Triple.pure fun _ => id
    · exact Action.Triple.pure fun _ => id
    · exact h.lift_within _
  · exact Action.Triple.pure fun _ => id

theorem saveCommitIndex (hround : meets round) : KeepsWithin follows stopped round (RaftManager.saveCommitIndex codec round) := by
  rw [RaftManager.saveCommitIndex]
  split
  next commit hcommit =>
    refine Action.Triple.bind ?_ fun _ => Action.Triple.pure fun _ => id
    exact h.write hround (.saveHardState { round.hardState with commit }) (.inr ⟨commit, hcommit, rfl⟩)
  next => exact Action.Triple.pure fun _ => id

theorem advanceRaftNode (hround : meets round) (last : UInt64) :
    KeepsWithin follows stopped round (RaftManager.advanceRaftNode codec round last) :=
  (h.recordQuiet hround .advance trivial rfl).bind fun _ => (h.sendAll hround _).bind fun _ => (h.saveCommitIndex hround).bind fun _ =>
    h.handleNewlyCommittedEntries hround last _

theorem checkAndTriggerLogCompaction (hround : meets round) :
    KeepsWithin follows stopped round (RaftManager.checkAndTriggerLogCompaction codec round) := by
  refine Action.Triple.of_start fun start hstart => Action.Triple.get_bind fun seen hseen => ?_
  subst hseen
  refine Action.Triple.lift_bind (fun _ _ hsame => hsame ▸ h.stops round _ _ hstart) fun compacted hcompacted => ?_
  apply Action.Triple.modify
  intro state hstate
  rw [hstate]
  exact h.compact round hround _ seen.node hstart compacted hcompacted

/-! ### The handling of a Ready -/

theorem onReady {next : Option Round} (hnext : ∀ round ∈ next, meets round) :
    KeepsBetween meets follows stopped (RaftManager.onReady codec next) := by
  cases next with
  | none => exact Action.Triple.pure fun _ => id
  | some round =>
      have hround : meets round := hnext round rfl
      rw [RaftManager.onReady, handleReady]
      apply handling_keeps hround
      refine (h.processSnapshotIfPresent hround).bind fun _ => (h.saveEntriesToStorage hround).bind fun _ =>
        (h.saveHardStateIfChanged hround).bind fun _ => (h.sendAll hround _).bind fun _ =>
          (h.processEntries hround _ _).bind fun last => ?_
      exact (h.advanceRaftNode hround last).bind fun _ => h.checkAndTriggerLogCompaction hround

theorem handleReadyInline (hround : meets round) : KeepsBetween meets follows stopped (RaftManager.handleReadyInline codec round) := by
  rw [RaftManager.handleReadyInline]
  apply handling_keeps hround
  refine (h.saveEntriesToStorage hround).bind fun _ => (h.saveHardStateIfChanged hround).bind fun _ =>
    (h.sendAll hround _).bind fun _ => (h.sendAll hround _).bind fun _ =>
      Action.Triple.bind (Action.Triple.forM (fun _ => Within follows) ?_) fun _ => h.recordQuiet hround .advance trivial rfl
  intro _ entry _ _
  split
  · exact h.processConfChangeEntry entry
  · exact Action.Triple.pure fun _ => id

theorem stepMessage (sender : UInt64) (msg : Message) (step : Message → Except String Unit) {inlined : Option Round}
    (hinlined : ∀ round ∈ inlined, meets round) :
    KeepsBetween meets follows stopped (RaftManager.stepMessage codec sender msg step inlined) := by
  unfold RaftManager.stepMessage
  split
  · exact lift_between _
  · cases inlined with
    | none => exact Action.Triple.pure fun _ => id
    | some round => exact h.handleReadyInline (hinlined round rfl)

end Followed

/-! ### Runs -/

/-- The Readys that come with an input. -/
def Input.rounds : Input → List Round
  | .bootstrap _ first _ _ second | .tick first _ second => first.toList ++ second.toList
  | .proposal _ _ _ next => next.toList
  | .message _ _ _ inlined remaining => inlined.toList ++ remaining.toList
  | .confChange .. => []

/-- The node that is to be added, and its address, where a leader's raft takes the proposal. -/
def Input.addedPeer : Input → Option (UInt64 × Str)
  | .confChange request leadership propose _ =>
      if leadership.isLeader && request.changeType = .addNode then
        match propose request.toProposal with
        | .ok () => some (request.nodeId, request.address)
        | .error _ => none
      else none
  | .bootstrap .. | .tick .. | .proposal .. | .message .. => none

/-- What holds stays when the peers that an input adds are entered. -/
def Input.Enters (follows : List Effect → RaftManager → Prop) (input : Input) : Prop :=
  ∀ peer ∈ input.addedPeer, ∀ trace manager, follows trace manager →
    follows trace { manager with configManager.peers := manager.configManager.peers.insert peer.1 peer.2 }

namespace Followed

variable (h : Followed codec meets follows stopped)

include h

theorem answer (responseTx : Option ResponseTx) (result : Except RaftError Unit) :
    KeepsBetween meets follows stopped (RaftManager.answer responseTx result) :=
  onNode_between fun trace manager => h.frame trace manager _ rfl rfl

theorem handleConfChange {request : RaftConfChange} {leadership : Leadership} {propose : ConfChange → Except String Unit}
    {connect : Except RaftError Unit} (henters : (Input.confChange request leadership propose connect).Enters follows) :
    KeepsBetween meets follows stopped (RaftManager.handleConfChange request leadership propose connect) := by
  unfold RaftManager.handleConfChange
  cases hleader : leadership.isLeader with
  | false => exact h.answer _ _
  | true =>
      cases hpropose : propose request.toProposal with
      | error e => exact h.answer _ _
      | ok done =>
          cases hchange : request.changeType with
          | removeNode => exact h.answer _ _
          | addNode =>
              refine (onNode_between (henters (request.nodeId, request.address) ?_)).bind fun _ => ?_
              · simp [Input.addedPeer, hleader, hchange, hpropose]
              · split
                · exact h.answer _ _
                · exact lift_between _

/-- The trigger is taken back in the state it was read in. -/
theorem takeTrigger {start : Observed RaftManager} (hstart : Between follows start) :
    Action.Triple (· = start)
      (onNode fun manager => { manager with configManager := start.node.configManager.takeReplicationTrigger.2 })
      (fun _ => Between follows) (Halted meets follows stopped) := by
  apply Action.Triple.modify
  intro state hstate
  rw [hstate]
  exact h.frame _ start.node _ rfl rfl hstart

theorem handle {input : Input} (hrounds : ∀ round ∈ input.rounds, meets round) (henters : input.Enters follows) :
    KeepsBetween meets follows stopped (input.handle codec) := by
  cases input with
  | bootstrap joins first isLeader propose second =>
      refine (lift_between _).bind fun _ => (h.onReady fun round hround => ?_).bind fun _ =>
        (lift_between _).bind fun _ => h.onReady fun round hround => ?_
      · exact hrounds round (List.mem_append_left _ (Option.mem_toList.mpr hround))
      · exact hrounds round (List.mem_append_right _ (Option.mem_toList.mpr hround))
  | tick first isLeader second =>
      refine (h.onReady fun round hround => ?_).bind fun _ => Action.Triple.of_start fun start hstart =>
        Action.Triple.get_bind fun seen hseen => ?_
      · exact hrounds round (List.mem_append_left _ (Option.mem_toList.mpr hround))
      · subst hseen
        refine (h.takeTrigger hstart).bind fun _ => ?_
        split
        · exact h.onReady fun round hround => hrounds round (List.mem_append_right _ (Option.mem_toList.mpr hround))
        · exact Action.Triple.pure fun _ => id
  | proposal request leadership propose next =>
      have hregister : KeepsBetween meets follows stopped (registerProposal request) := by
        rw [registerProposal]
        split
        · exact onNode_between fun trace manager => h.frame trace manager _ rfl rfl
        · exact Action.Triple.pure fun _ => id
      refine hregister.bind fun _ => (lift_between _).bind fun data => ?_
      split
      · exact (lift_between _).bind fun _ => h.onReady fun round hround => hrounds round (Option.mem_toList.mpr hround)
      · exact onNode_between fun trace manager => h.frame trace manager _ rfl rfl
  | message sender msg step inlined remaining =>
      refine (h.stepMessage sender msg step fun round hround => ?_).bind fun _ => h.onReady fun round hround => ?_
      · exact hrounds round (List.mem_append_left _ (Option.mem_toList.mpr hround))
      · exact hrounds round (List.mem_append_right _ (Option.mem_toList.mpr hround))
  | confChange request leadership propose connect => exact h.handleConfChange henters

/-- The relation holds as long as the manager runs, and what is left of it from then on. -/
theorem run {start : Execution} {inputs : List Input} (hstart : Between follows start.observed)
    (hrounds : ∀ input ∈ inputs, ∀ round ∈ input.rounds, meets round) (henters : ∀ input ∈ inputs, input.Enters follows) :
    let after := Run.final (Execution.step codec) start inputs
    (after.exited = false → Between follows after.observed) ∧ Halted meets follows stopped after.observed := by
  refine Run.final_invariant (fun execution : Execution => (execution.exited = false → Between follows execution.observed) ∧
    Halted meets follows stopped execution.observed) ?_ ⟨fun _ => hstart, .inl hstart⟩
  intro input hinput execution ⟨hfollows, hstopped⟩
  rw [Execution.step]
  cases hexited : execution.exited with
  | true => exact ⟨fun hrunning => absurd (hexited.symm.trans hrunning) (by decide), hstopped⟩
  | false =>
      have hafter := h.handle (hrounds input hinput) (henters input hinput) execution.observed (hfollows hexited)
      rcases hresult : input.handle codec execution.observed with ⟨value | error | _, observed⟩ <;> simp only [hresult] at hafter
      · exact ⟨fun _ => hafter, .inl hafter⟩
      · exact ⟨by simp, hafter⟩
      · exact ⟨by simp, hafter⟩

end Followed

end RaftManager

end IrohRaft
