import IrohRaft.Proof.Raft.Rounds

/-!
# Runs of the manager

A condition on the Readys of a run, each with the database it meets, and what every handled Ready then has in common. One
lemma for each handler of the loop, and from them the run.
-/

namespace IrohRaft.RaftManager

open Rust Redb Handler

variable (codec : ManagerCodec)

/-- The Readys of an input meet a condition: one for those that are handled right after a step, one for the others,
which also depends on the database when they are handled. -/
def Input.Meets (inlineOk : Round → Prop) (readyOk : Redb.Database → Round → Prop) (seen : Observed RaftManager) : Input → Prop
  | .bootstrap _ first _ _ second | .tick first _ second =>
      (∀ round ∈ first, readyOk seen.node.database round) ∧
        ∀ between, onReady codec first seen = (.ok (), between) → ∀ round ∈ second, readyOk between.node.database round
  | .proposal _ _ _ next => ∀ round ∈ next, readyOk seen.node.database round
  | .message sender msg step inlined remaining =>
      (∀ round ∈ inlined, inlineOk round) ∧
        ∀ between, stepMessage codec sender msg step inlined seen = (.ok (), between) →
          ∀ round ∈ remaining, readyOk between.node.database round
  | .confChange .. => True

/-- Every input of a run meets the condition, up to the one at which the loop ends. -/
def RunMeets
    (inlineOk : Round → Prop) (readyOk : Redb.Database → Round → Prop) (manager : RaftManager) (inputs : List Input) : Prop :=
  Run.Follows (Execution.step codec)
    (fun execution input => execution.exited = false → input.Meets codec inlineOk readyOk execution.observed)
    (Execution.start manager) inputs

/-- What the conditions have to give for a handled Ready. -/
structure Ensures (inlineOk : Round → Prop) (readyOk : Redb.Database → Round → Prop) (nodeId : UInt64) (isOpen : Prop)
    (good : Handled → Prop) : Prop where
  ofInline : ∀ round, inlineOk round → ∀ effects, InlineTrace codec round nodeId isOpen effects →
    good ⟨round.ready, round.light, effects⟩
  ofReady : ∀ database round, readyOk database round → ∀ effects,
    ReadyTrace codec round nodeId isOpen (round.readBack codec database) effects → good ⟨round.ready, round.light, effects⟩

variable {codec} {inlineOk : Round → Prop} {readyOk : Redb.Database → Round → Prop} {nodeId : UInt64} {isOpen : Prop}
  {good : Handled → Prop}

def AllGood (good : Handled → Prop) (seen : Observed RaftManager) : Prop := ∀ handled ∈ seen.history, good handled

/-- Between two inputs of the loop. -/
structure Stands (nodeId : UInt64) (isOpen : Prop) (good : Handled → Prop) (seen : Observed RaftManager) : Prop where
  allGood : AllGood good seen
  about : About nodeId isOpen (fun _ => True) seen.node

theorem allGood_concat
    {history : List Handled} {seen : Observed RaftManager} {handled : Handled} (h : ∀ other ∈ history, good other)
    (hhandled : good handled) (hseen : seen.history = history ++ [handled]) : AllGood good seen := by
  intro other hother
  rw [hseen] at hother
  obtain hold | hnew := List.mem_append.mp hother
  · exact h other hold
  · exact List.mem_singleton.mp hnew ▸ hhandled

variable {start : Observed RaftManager}

theorem stands_of_handles {round : Round} {traced : List Effect → Prop} {handler : Handler RaftManager Unit}
    (hstart : Stands nodeId isOpen good start) (hgood : ∀ effects, traced effects → good ⟨round.ready, round.light, effects⟩)
    (h : Handles start round nodeId isOpen traced handler) :
    Action.Triple (· = start) handler (fun _ => Stands nodeId isOpen good) (AllGood good) := by
  refine h.consequence (fun _ => id) ?_ ?_
  · intro _ seen ⟨⟨effects, htrace, hhistory⟩, habout⟩
    exact ⟨allGood_concat hstart.allGood (hgood effects htrace) hhistory, habout⟩
  · intro seen ⟨effects, htrace, hhistory⟩
    exact allGood_concat hstart.allGood (hgood effects htrace) hhistory

theorem onReady_stands (h : Ensures codec inlineOk readyOk nodeId isOpen good) {next : Option Round}
    (hnext : ∀ round ∈ next, readyOk start.node.database round) (hstart : Stands nodeId isOpen good start) :
    Action.Triple (· = start) (onReady codec next) (fun _ => Stands nodeId isOpen good) (AllGood good) := by
  cases next with
  | none => exact Action.Triple.pure fun seen hseen => hseen ▸ hstart
  | some round =>
      exact stands_of_handles hstart (h.ofReady _ round (hnext round rfl)) (handleReady_handles hstart.about)

theorem stepMessage_stands (h : Ensures codec inlineOk readyOk nodeId isOpen good) (sender : UInt64) (msg : Message)
    (step : Message → Except String Unit) {inlined : Option Round} (hinlined : ∀ round ∈ inlined, inlineOk round)
    (hstart : Stands nodeId isOpen good start) :
    Action.Triple (· = start) (stepMessage codec sender msg step inlined) (fun _ => Stands nodeId isOpen good)
    (AllGood good) := by
  unfold stepMessage
  split
  · exact Action.Triple.lift (by simp) fun _ seen hseen => hseen ▸ hstart.allGood
  · cases inlined with
    | none => exact Action.Triple.pure fun seen hseen => hseen ▸ hstart
    | some round =>
        exact stands_of_handles hstart (h.ofInline round (hinlined round rfl)) (handleReadyInline_handles hstart.about)

/-- What changes of the manager between two Readys. -/
def Bookkeeping (update : RaftManager → RaftManager) : Prop :=
  ∀ manager, (update manager).nodeId = manager.nodeId ∧ (update manager).outgoingMessages = manager.outgoingMessages ∧
    (update manager).database = manager.database

theorem onNode_stands {update : RaftManager → RaftManager} (h : Bookkeeping update) (hstart : Stands nodeId isOpen good start) :
    Action.Triple (· = start) (onNode update)
      (fun _ seen => Stands nodeId isOpen good seen ∧ seen.node.database = start.node.database) (AllGood good) := by
  apply Action.Triple.modify
  intro seen hseen
  subst hseen
  obtain ⟨hnodeId, hchannel, hdatabase⟩ := h seen.node
  refine ⟨⟨hstart.allGood, ?_⟩, hdatabase⟩
  exact ⟨hnodeId.trans hstart.about.nodeId_eq, fun hopen => hchannel.trans (hstart.about.channel hopen), trivial⟩

theorem answer_stands
    (responseTx : Option ResponseTx) (result : Except RaftError Unit) (hstart : Stands nodeId isOpen good start) :
    Action.Triple (· = start) (answer responseTx result) (fun _ => Stands nodeId isOpen good) (AllGood good) := by
  refine Action.Triple.weaken (onNode_stands ?_ hstart) fun _ _ h => h.1
  exact fun _ => ⟨rfl, rfl, rfl⟩

/-- A second Ready after a first one. -/
theorem onReady_then
    {first : Option Round} {rest : Handler RaftManager Unit} (h : Ensures codec inlineOk readyOk nodeId isOpen good)
    (hfirst : ∀ round ∈ first, readyOk start.node.database round) (hstart : Stands nodeId isOpen good start)
    (hrest : ∀ between, onReady codec first start = (.ok (), between) → Stands nodeId isOpen good between →
      Action.Triple (· = between) rest (fun _ => Stands nodeId isOpen good) (AllGood good)) :
    Action.Triple (· = start) (onReady codec first >>= fun _ => rest) (fun _ => Stands nodeId isOpen good) (AllGood good) :=
  Action.Triple.bind_of_start (onReady_stands h hfirst hstart) fun _ between hbetween => hrest between hbetween

theorem handle_stands (h : Ensures codec inlineOk readyOk nodeId isOpen good) {input : Input}
    (hmeets : input.Meets codec inlineOk readyOk start) (hstart : Stands nodeId isOpen good start) :
    Action.Triple (· = start) (input.handle codec) (fun _ => Stands nodeId isOpen good) (AllGood good) := by
  cases input with
  | bootstrap joins first isLeader propose second =>
      refine Action.Triple.lift_bind (fun _ seen hseen => hseen ▸ hstart.allGood) fun _ _ =>
        onReady_then h hmeets.1 hstart fun between hbetween hstands => ?_
      exact Action.Triple.lift_bind (fun _ seen hseen => hseen ▸ hstands.allGood) fun _ _ =>
        onReady_stands h (hmeets.2 between hbetween) hstands
  | tick first isLeader second =>
      refine onReady_then h hmeets.1 hstart fun between hbetween hstands => ?_
      refine Action.Triple.get_bind fun seen hseen => ?_
      refine Action.Triple.bind_of_start (onNode_stands (fun _ => ⟨rfl, rfl, rfl⟩) hstands) fun _ next _ ⟨hnext, hdatabase⟩ => ?_
      split
      · exact onReady_stands h (hdatabase ▸ hmeets.2 between hbetween) hnext
      · exact Action.Triple.pure fun _ hsame => hsame ▸ hnext
  | proposal request leadership propose next =>
      have hregister : Action.Triple (· = start) (registerProposal request)
          (fun _ seen => Stands nodeId isOpen good seen ∧ seen.node.database = start.node.database) (AllGood good) := by
        rw [registerProposal]
        split
        · exact onNode_stands (fun _ => ⟨rfl, rfl, rfl⟩) hstart
        · refine Action.Triple.pure fun seen hsame => ?_
          subst hsame
          exact ⟨hstart, rfl⟩
      refine Action.Triple.bind_of_start hregister fun _ between _ ⟨hbetween, hdatabase⟩ => ?_
      refine Action.Triple.lift_bind (fun _ _ hsame => hsame ▸ hbetween.allGood) fun data _ => ?_
      split
      · refine Action.Triple.lift_bind (fun _ _ hsame => hsame ▸ hbetween.allGood) fun _ _ => ?_
        exact onReady_stands h (hdatabase ▸ hmeets) hbetween
      · refine Action.Triple.weaken (onNode_stands ?_ hbetween) fun _ _ hafter => hafter.1
        exact fun _ => ⟨rfl, rfl, rfl⟩
  | message sender msg step inlined remaining =>
      refine Action.Triple.bind_of_start (stepMessage_stands h sender msg step hmeets.1 hstart) fun _ between hbetween hstands => ?_
      exact onReady_stands h (hmeets.2 between hbetween) hstands
  | confChange request leadership propose connect =>
      show Action.Triple _ (handleConfChange request leadership propose connect) _ _
      unfold handleConfChange
      split
      · split
        · split
          · exact answer_stands _ _ hstart
          · refine Action.Triple.bind_of_start (onNode_stands (fun _ => ⟨rfl, rfl, rfl⟩) hstart) fun _ between _ ⟨hbetween, _⟩ => ?_
            split
            · exact answer_stands _ _ hbetween
            · exact Action.Triple.lift (by simp) fun _ _ hsame => hsame ▸ hbetween.allGood
        · exact answer_stands _ _ hstart
      · exact answer_stands _ _ hstart

/-- Every Ready that a run handles is handled as its condition ensures. -/
theorem history_good
    {manager : RaftManager} (h : Ensures codec inlineOk readyOk manager.nodeId (manager.outgoingMessages = none) good)
    {inputs : List Input} (hmeets : RunMeets codec inlineOk readyOk manager inputs) :
    ∀ handled ∈ history codec manager inputs, good handled := by
  have hstands : AllGood good (Run.final (Execution.step codec) (Execution.start manager) inputs).observed ∧
      ((Run.final (Execution.step codec) (Execution.start manager) inputs).exited = false →
        Stands manager.nodeId (manager.outgoingMessages = none) good
          (Run.final (Execution.step codec) (Execution.start manager) inputs).observed) := by
    refine Run.Follows.invariant (fun execution => AllGood good execution.observed ∧
      (execution.exited = false → Stands manager.nodeId (manager.outgoingMessages = none) good execution.observed)) ?_ ?_ hmeets
    · intro execution input ⟨hgood, hstanding⟩ hinput
      rw [Execution.step]
      cases hexited : execution.exited with
      | true => exact ⟨hgood, fun hrunning => absurd (hexited.symm.trans hrunning) (by decide)⟩
      | false =>
          have hafter := handle_stands h (hinput hexited) (hstanding hexited) execution.observed rfl
          rcases hresult : input.handle codec execution.observed with ⟨value | error | _, observed⟩ <;> simp only [hresult] at hafter
          · exact ⟨hafter.allGood, fun _ => hafter⟩
          · exact ⟨hafter, by simp⟩
          · exact ⟨hafter, by simp⟩
    · have hstart : Stands manager.nodeId (manager.outgoingMessages = none) good (Execution.start manager).observed :=
        ⟨by simp [AllGood, Execution.start], rfl, id, trivial⟩
      exact ⟨hstart.allGood, fun _ => hstart⟩
  exact hstands.1

/-- A node that has nothing stored yet. -/
def freshManager (nodeId : UInt64) : RaftManager where
  nodeId
  database := {}
  configManager := { peers := ∅, needsReplicationTrigger := false }

end IrohRaft.RaftManager
