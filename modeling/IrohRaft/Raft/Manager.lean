import IrohRaft.Library.Run
import IrohRaft.Raft.ConfigManager
import IrohRaft.Raft.Ready
import IrohRaft.Raft.Snapshot
import IrohRaft.Types

/-!
# The raft manager

`RaftManager` of `raft/core.rs`: the loop that drives the raft node, and its two copies of the handling of a Ready. The
state machine is outside the repository: an entry given to its `apply_entry` counts as applied, whatever the call
answers. Log lines and the status that other parts of the node read are left out.
-/

namespace IrohRaft

open Rust Redb

/-- The functions of other crates that the manager encodes and decodes with. An error is its text. -/
structure ManagerCodec extends RaftStateCodec where
  serializeProposal : ProposalData → Except String Bytes
  mergeConfChange : Bytes → Except String ConfChange

/-- The encodings of the sibling storage's codec, bincode and protobuf. -/
def ManagerCodec.ofStorage : ManagerCodec where
  toRaftStateCodec := .ofStorage
  serializeProposal data := .ok data.encode
  mergeConfChange := ConfChange.merge

/-- The sender of a response channel, by a number of its own. -/
abbrev ResponseTx : Type := Nat

structure RaftProposal where
  id : Bytes
  data : ProposalData
  responseTx : Option ResponseTx

inductive ConfChangeType where
  | addNode
  | removeNode
  deriving DecidableEq, Repr

def ConfChangeType.number : ConfChangeType → Int32
  | .addNode => ConfChange.addNode
  | .removeNode => ConfChange.removeNode

structure RaftConfChange where
  changeType : ConfChangeType
  nodeId : UInt64
  address : Str
  p2pNodeId : Option Str
  p2pAddresses : List Str
  p2pRelayUrl : Option Str
  responseTx : Option ResponseTx

/-- The conf change that is proposed for a request. -/
def RaftConfChange.toProposal (request : RaftConfChange) : ConfChange :=
  let context : ConfChangeContext :=
    { address := request.address, p2pNodeId := request.p2pNodeId, p2pAddresses := request.p2pAddresses
      p2pRelayUrl := request.p2pRelayUrl }
  { id := 0, changeType := request.changeType.number, nodeId := request.nodeId, context := context.encode }

/-- The channel of outgoing messages takes any number of messages, or as many as are left until its receiver is
dropped. -/
structure RaftManager where
  nodeId : UInt64
  database : Redb.Database
  configManager : RaftConfigManager
  snapshotManager : RaftSnapshotManager := {}
  pendingProposals : HashMap Bytes ResponseTx := ∅
  outgoingMessages : Option Nat := none
  answers : List (ResponseTx × Except RaftError Unit) := []

namespace RaftManager

open Handler

/-- What the raft crate and the state machine answer while a Ready is handled. The hard state and the positions of
the raft log are those after `advance`, `appliedAfter` is the applied position when it is all done. -/
structure Round where
  ready : Ready
  light : LightReady := {}
  hardState : HardState := {}
  committed : UInt64 := 0
  applied : UInt64 := 0
  appliedAfter : UInt64 := 0
  applyEntry : Entry → Except RaftError Unit := fun _ => .ok ()
  applyConfChange : ConfChange → Outcome RaftError ConfState := fun _ => .ok {}
  faults : List (Option (Nat × RaftError)) := []

variable (codec : ManagerCodec) (round : Round)

/-! ### Parts of the handling of a Ready -/

def callStorage {α : Type} (session : Session Redb.Database RaftError α) : Handler RaftManager α :=
  store database (fun manager database => { manager with database }) session

/-- `response_tx.send(result)`, of a channel that may not be there. -/
def answer (responseTx : Option ResponseTx) (result : Except RaftError Unit) : Handler RaftManager Unit :=
  onNode fun manager => { manager with answers := manager.answers ++ (responseTx.map (·, result)).toList }

/-- `if let Some(response_tx) = pending.remove(id) { response_tx.send(result) }`. -/
def answerPending (id : Bytes) (result : Except RaftError Unit) : Handler RaftManager Unit :=
  onNode fun manager =>
    { manager with
      pendingProposals := manager.pendingProposals.erase id
      answers := manager.answers ++ (manager.pendingProposals[id]?.map (·, result)).toList }

/-- An entry without a context belongs to no proposal. -/
def answerContext (context : Bytes) (result : Except RaftError Unit) : Handler RaftManager Unit :=
  if context.isEmpty then return () else answerPending context result

def fixFrom (nodeId : UInt64) (msg : Message) : Message :=
  if msg.fromId = 0 then { msg with fromId := nodeId } else msg

/-- A channel that is closed is logged. -/
def sendRaftMessage (msg : Message) : Handler RaftManager Unit :=
  Action.modify fun seen =>
    let sent : Observed RaftManager := { seen with effects := seen.effects ++ [.send (fixFrom seen.node.nodeId msg)] }
    match seen.node.outgoingMessages with
    | some 0 => seen
    | some (room + 1) => { sent with node := { sent.node with outgoingMessages := some room } }
    | none => sent

def processSnapshotIfPresent (ready : Ready) : Handler RaftManager Unit :=
  if RaftSnapshotManager.isEmpty ready.snapshot then return ()
  else do
    callStorage (RaftSnapshotManager.processSnapshotIfPresent codec.toRaftStateCodec ready.snapshot)
    record (.installSnapshot ready.snapshot)

def saveEntriesToStorage (ready : Ready) : Handler RaftManager Unit :=
  if ready.entries.isEmpty then return ()
  else do
    callStorage (RedbRaftStorage.appendEntries codec.toRaftStateCodec ready.entries)
    record (.append ready.entries)

def saveHardState (hardState : HardState) : Handler RaftManager Unit := do
  callStorage (RedbRaftStorage.saveHardState codec.toRaftStateCodec hardState)
  record (.saveHardState hardState)

/-- `if let Some(hs) = ready.hs()`. -/
def saveHardStateIfChanged (ready : Ready) : Handler RaftManager Unit :=
  match ready.hs with
  | some hs => saveHardState codec hs
  | none => return ()

/-- The answer of the state machine goes to whoever waits for the entry; it is no failure of the manager. -/
def processNormalEntry (entry : Entry) : Handler RaftManager Unit := do
  record (.applyEntry entry)
  answerContext entry.context (round.applyEntry entry)

def confChangeParseError (e : String) : RaftError := .internal s!"Failed to parse ConfChange: {e}"

def processConfChangeEntry (entry : Entry) : Handler RaftManager Unit :=
  match codec.mergeConfChange entry.data with
  | .error e => do
      answerContext entry.context (.error (confChangeParseError e))
      Action.lift (.err (confChangeParseError e))
  | .ok cc => do
      let seen ← Action.get
      let configManager ← callStorage (seen.node.configManager.applyConfChange cc (round.applyConfChange cc))
      onNode fun manager => { manager with configManager }
      record (.applyConfChange entry)

/-- Entries of the third kind are logged. -/
def processEntry (entry : Entry) : Handler RaftManager Unit :=
  match entry.kind with
  | .entryNormal => processNormalEntry round entry
  | .entryConfChange => processConfChangeEntry codec round entry
  | .entryConfChangeV2 => return ()

/-- The index of the last entry that was processed. -/
def processEntries (lastAppliedIndex : UInt64) : List Entry → Handler RaftManager UInt64
  | [] => return lastAppliedIndex
  | entry :: rest => do
      processEntry codec round entry
      processEntries entry.index rest

/-- `process_committed_entries`. -/
def processCommittedEntries (ready : Ready) : Handler RaftManager UInt64 :=
  processEntries codec round 0 ready.committedEntries

/-! ### on_ready -/

def currentApplied (lastAppliedIndex : UInt64) : UInt64 :=
  if lastAppliedIndex > 0 then lastAppliedIndex else round.applied

/-- The entries up to the commit index are read back from the storage; an error of that is passed over. -/
def handleNewlyCommittedEntries (lastAppliedIndex : UInt64) (hadCommitUpdate : Bool) : Handler RaftManager Unit :=
  if hadCommitUpdate && round.committed > currentApplied round lastAppliedIndex then do
    let start ← Action.lift (u64Add (currentApplied round lastAppliedIndex) 1)
    let stop ← Action.lift (u64Add round.committed 1)
    let seen ← Action.get
    match RedbRaftStorage.entries codec.toRaftStateCodec seen.node.database start stop none with
    | .ok entries => do
        let lastAppliedIndex ← processEntries codec round lastAppliedIndex entries
        if lastAppliedIndex > 0 then record (.advanceApplyTo lastAppliedIndex) else return ()
    | .err _ => return ()
    | .panic => Action.lift .panic
  else return ()

/-- `if let Some(commit) = light_rd.commit_index()`. -/
def saveCommitIndex : Handler RaftManager Bool :=
  match round.light.commitIndex with
  | some commit => do
      saveHardState codec { round.hardState with commit }
      return true
  | none => return false

/-- The entries in the LightReady are not looked at. -/
def advanceRaftNode (lastAppliedIndex : UInt64) : Handler RaftManager Unit := do
  record .advance
  round.light.messages.forM sendRaftMessage
  let hadCommitUpdate ← saveCommitIndex codec round
  handleNewlyCommittedEntries codec round lastAppliedIndex hadCommitUpdate

def checkAndTriggerLogCompaction : Handler RaftManager Unit := do
  let seen ← Action.get
  let compacted ← Action.lift (RaftSnapshotManager.checkAndTriggerLogCompaction codec.toRaftStateCodec
    seen.node.snapshotManager round.appliedAfter seen.node.database)
  onNode fun manager => { manager with database := compacted.1, snapshotManager := compacted.2 }

/-- What `on_ready` does from `node.ready()` on. -/
def handleReady : Handler RaftManager Unit :=
  handling round.ready round.light round.faults do
    processSnapshotIfPresent codec round.ready
    saveEntriesToStorage codec round.ready
    saveHardStateIfChanged codec round.ready
    round.ready.messages.forM sendRaftMessage
    let lastAppliedIndex ← processCommittedEntries codec round round.ready
    advanceRaftNode codec round lastAppliedIndex
    checkAndTriggerLogCompaction codec round

/-- Without a Ready, `node.has_ready()` is false. -/
def onReady : Option Round → Handler RaftManager Unit
  | none => return ()
  | some round => handleReady codec round

/-! ### The handlers of the loop -/

/-- The second copy of the handling: right after a step. Of the committed entries it looks at conf changes only, and
what `advance` returns is dropped. -/
def handleReadyInline : Handler RaftManager Unit :=
  handling round.ready round.light round.faults do
    saveEntriesToStorage codec round.ready
    saveHardStateIfChanged codec round.ready
    round.ready.messages.forM sendRaftMessage
    round.ready.persistedMessages.forM sendRaftMessage
    round.ready.committedEntries.forM fun entry =>
      if entry.kind = .entryConfChange then processConfChangeEntry codec round entry else return ()
    record .advance

/-- A message is taken to come from the node that delivered it. -/
def correctFrom (sender : UInt64) (msg : Message) : Message :=
  if msg.fromId = 0 ∨ msg.fromId ≠ sender then { msg with fromId := sender } else msg

/-- What `handle_raft_message` does in its first critical section: `step(msg)`, and the Ready that follows. -/
def stepMessage (sender : UInt64) (msg : Message) (step : Message → Except String Unit) (inlined : Option Round) :
    Handler RaftManager Unit :=
  match step (correctFrom sender msg) with
  | .error e => Action.lift (.err (.raft "step message" e))
  | .ok () =>
      match inlined with
      | some round => handleReadyInline codec round
      | none => return ()

def handleRaftMessage (sender : UInt64) (msg : Message) (step : Message → Except String Unit)
    (inlined remaining : Option Round) : Handler RaftManager Unit := do
  stepMessage codec sender msg step inlined
  onReady codec remaining

/-- Between the two Readys, `needs_replication_trigger()` is read and taken back. -/
def tick (first : Option Round) (isLeader : Bool) (second : Option Round) : Handler RaftManager Unit := do
  onReady codec first
  let seen ← Action.get
  let (needsReplication, configManager) := seen.node.configManager.takeReplicationTrigger
  onNode fun manager => { manager with configManager }
  if needsReplication && isLeader then onReady codec second else return ()

def ofExcept {α : Type} : Except String α → Outcome RaftError α
  | .ok value => .ok value
  | .error e => .err (.fromRaft e)

def serializeProposal (data : ProposalData) : Outcome RaftError Bytes :=
  match codec.serializeProposal data with
  | .ok bytes => .ok bytes
  | .error e => .err (.serialization "serialize proposal" e)

def notLeader (operation : String) (leadership : Leadership) : Except RaftError Unit :=
  .error (.notLeader operation leadership.current)

/-- `if let Some(response_tx) = proposal.response_tx { pending.insert(id, response_tx) }`. -/
def registerProposal (proposal : RaftProposal) : Handler RaftManager Unit :=
  match proposal.responseTx with
  | some responseTx =>
      onNode fun manager => { manager with pendingProposals := manager.pendingProposals.insert proposal.id responseTx }
  | none => return ()

def handleProposal (proposal : RaftProposal) (leadership : Leadership) (propose : Bytes → Bytes → Except String Unit)
    (round : Option Round) : Handler RaftManager Unit := do
  registerProposal proposal
  let data ← Action.lift (serializeProposal codec proposal.data)
  if leadership.isLeader then do
    Action.lift (ofExcept (propose proposal.id data))
    onReady codec round
  else answerPending proposal.id (notLeader "propose" leadership)

/-- `RaftConfigManager::handle_conf_change`. A cluster never counts as one of a single node, so that nothing is applied
here. Connecting to a new node fails only on an address that is none. -/
def handleConfChange (confChange : RaftConfChange) (leadership : Leadership) (propose : ConfChange → Except String Unit)
    (connect : Except RaftError Unit) : Handler RaftManager Unit :=
  if leadership.isLeader then
    match propose confChange.toProposal with
    | .ok () =>
        match confChange.changeType with
        | .removeNode => answer confChange.responseTx (.ok ())
        | .addNode => do
            onNode fun manager =>
              { manager with configManager.peers := manager.configManager.peers.insert confChange.nodeId confChange.address }
            match connect with
            | .ok () => answer confChange.responseTx (.ok ())
            | .error e => Action.lift (.err e)
    | .error e => answer confChange.responseTx (.error (.raft "propose configuration change" e))
  else answer confChange.responseTx (notLeader "propose configuration change" leadership)

def joinsInstead : RaftError :=
  .internal "Cannot bootstrap when join_addr is configured - this node should join, not bootstrap"

/-- The empty entry that establishes leadership. -/
def proposeEmpty (isLeader : Bool) (propose : Bytes → Bytes → Except String Unit) : Outcome RaftError Unit :=
  if isLeader then ofExcept (propose [] []) else .ok ()

def bootstrapSingleNode (joins : Bool) (first : Option Round) (isLeader : Bool) (propose : Bytes → Bytes → Except String Unit)
    (second : Option Round) : Handler RaftManager Unit := do
  Action.lift (Outcome.rejectIf (joins = true) joinsInstead)
  onReady codec first
  Action.lift (proposeEmpty isLeader propose)
  onReady codec second

/-! ### Runs -/

/-- What reaches the manager, with what the raft crate answers in the course of it. -/
inductive Input where
  | bootstrap (joins : Bool) (first : Option Round) (isLeader : Bool) (propose : Bytes → Bytes → Except String Unit)
      (second : Option Round)
  | tick (first : Option Round) (isLeader : Bool) (second : Option Round)
  | proposal (request : RaftProposal) (leadership : Leadership) (propose : Bytes → Bytes → Except String Unit)
      (round : Option Round)
  | message (sender : UInt64) (msg : Message) (step : Message → Except String Unit) (inlined remaining : Option Round)
  | confChange (request : RaftConfChange) (leadership : Leadership) (propose : ConfChange → Except String Unit)
      (connect : Except RaftError Unit)

def Input.handle : Input → Handler RaftManager Unit
  | .bootstrap joins first isLeader propose second => bootstrapSingleNode codec joins first isLeader propose second
  | .tick first isLeader second => RaftManager.tick codec first isLeader second
  | .proposal request leadership propose round => handleProposal codec request leadership propose round
  | .message sender msg step inlined remaining => handleRaftMessage codec sender msg step inlined remaining
  | .confChange request leadership propose connect => handleConfChange request leadership propose connect

/-- The manager in the course of `run`, which returns at the first error. -/
structure Execution where
  observed : Observed RaftManager
  exited : Bool := false

def Execution.start (manager : RaftManager) : Execution where
  observed := { node := manager }

def Execution.step (execution : Execution) (input : Input) : Execution :=
  if execution.exited then execution
  else
    match input.handle codec execution.observed with
    | (.ok (), observed) => { observed }
    | (_, observed) => { observed, exited := true }

/-- What was handed out and done when the inputs have been handled. -/
def history (manager : RaftManager) (inputs : List Input) : List Handled :=
  (Run.final (Execution.step codec) (Execution.start manager) inputs).observed.history

end RaftManager

end IrohRaft
