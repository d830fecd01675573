import IrohRaft.Library.Run
import IrohRaft.Library.Text
import IrohRaft.Raft.ConfigManager
import IrohRaft.Raft.Ready
import IrohRaft.Storage.Simple
import IrohRaft.Types

/-!
# The raft node

`RaftNode` of `node.rs`: proposals and membership changes that are given to raft, and the main loop, which handles the
Readys that follow a tick or a message. The application's state machine is a parameter. The status that callers read is
left out. Whoever proposes waits outside the main loop, which goes on in the meantime.
-/

namespace IrohRaft

open Rust Redb

/-- `NodeStateMachine`, for a state machine with states of type `σ`. -/
structure NodeStateMachine (σ : Type) where
  apply : UInt64 → ProposalData → σ → Except RaftError Bytes × σ
  restore : Bytes → σ → Except RaftError Unit × σ

/-- The sender of a proposal's response channel, by a number of its own, is what `pendingProposals` holds. -/
structure RaftNode (σ : Type) where
  storage : RaftStorage
  stateMachine : σ
  pendingProposals : HashMap Bytes Nat := ∅
  answers : List (Nat × Except RaftError Bytes) := []

namespace RaftNode

open Handler

/-- What the raft crate answers while a Ready is handled. -/
structure Round where
  ready : Ready
  light : LightReady := {}
  faults : List (Option (Nat × RaftError)) := []

variable {σ : Type} (machine : NodeStateMachine σ) (prost : ProstCodec Snapshot)

/-- `RaftNode::new`, with the index that the raft crate is configured with. First the configuration, the storage and
the transport are set up. -/
def new (setup : Except RaftError Unit) (rawNode : UInt64 → Except String Unit) (database : Database) (stateMachine : σ) :
    Outcome RaftError (UInt64 × RaftNode σ) :=
  match setup with
  | .error e => .err e
  | .ok () => do
      let applied ← (RaftStorage.new database).appliedIndex
      match rawNode applied with
      | .ok () => return (applied, { storage := .new database, stateMachine })
      | .error e => .err (.raft "create raft node" e)

/-- The ticks that the raft crate is configured with. -/
structure RaftTicks where
  electionTick : UInt64
  heartbeatTick : UInt64
  deriving DecidableEq, Repr

/-- The ticks of `raft_config` in `RaftNode::new`; dividing by zero panics. -/
def raftTicks (electionTimeoutMs heartbeatIntervalMs : UInt64) : Outcome RaftError RaftTicks :=
  if heartbeatIntervalMs = 0 then .panic
  else .ok { electionTick := electionTimeoutMs / heartbeatIntervalMs, heartbeatTick := 1 }

/-! ### Handling a Ready -/

/-- Each of the storage's writes is one transaction. -/
def writeStorage (update : RaftStorage → RaftStorage) : Handler (RaftNode σ) Unit :=
  store storage (fun node storage => { node with storage }) (.commit fun storage => .ok (update storage))

def saveHardState (ready : Ready) : Handler (RaftNode σ) Unit :=
  match ready.hs with
  | some hs => do
      writeStorage (·.saveHardState hs)
      record (.saveHardState hs)
  | none => return ()

def saveEntries (ready : Ready) : Handler (RaftNode σ) Unit :=
  if ready.entries.isEmpty then return ()
  else do
    writeStorage (·.append ready.entries)
    record (.append ready.entries)

/-- `transport.send_message(msg)`, whose error is logged. -/
def sendMessage (msg : Message) : Handler (RaftNode σ) Unit := record (.send msg)

/-- `if !context.is_empty() { if let Some(response_tx) = pending.remove(context) { response_tx.send(result) } }`. -/
def answerContext (context : Bytes) (result : Except RaftError Bytes) : Handler (RaftNode σ) Unit :=
  if context.isEmpty then return ()
  else onNode fun node =>
    { node with
      pendingProposals := node.pendingProposals.erase context
      answers := node.answers ++ (node.pendingProposals[context]?.map (·, result)).toList }

/-- An entry of any kind: its data is read as a proposal. -/
def applyEntry (entry : Entry) : Handler (RaftNode σ) Unit :=
  if entry.data.isEmpty then return ()
  else
    match ProposalData.decode entry.data with
    | .error e => Action.lift (.err (.serialization "deserialize entry data" e))
    | .ok (proposal, _) => do
        let seen ← Action.get
        let (result, stateMachine) := machine.apply entry.index proposal seen.node.stateMachine
        onNode fun node => { node with stateMachine }
        record (.applyEntry entry)
        answerContext entry.context result

/-- `state_machine.restore(&snapshot.data).await?`. -/
def restore (data : Bytes) : Handler (RaftNode σ) Unit := fun seen =>
  match machine.restore data seen.node.stateMachine with
  | (.ok (), stateMachine) => (.ok (), { seen with node.stateMachine := stateMachine })
  | (.error e, stateMachine) => (.err e, { seen with node.stateMachine := stateMachine })

/-- `snapshot.is_empty()`, of the raft crate. -/
def hasSnapshot (ready : Ready) : Bool := (ready.snapshot.metadata.map SnapshotMetadata.index).getD 0 ≠ 0

def applySnapshot (ready : Ready) : Handler (RaftNode σ) Unit :=
  if hasSnapshot ready then do
    restore machine ready.snapshot.data
    writeStorage (·.applySnapshot prost ready.snapshot)
    record (.installSnapshot ready.snapshot)
  else return ()

/-- Neither the persisted messages of the Ready nor the entries of the LightReady are looked at. -/
def handleReady (round : Round) : Handler (RaftNode σ) Unit :=
  handling round.ready round.light round.faults do
    saveHardState round.ready
    saveEntries round.ready
    round.ready.messages.forM sendMessage
    round.ready.committedEntries.forM (applyEntry machine)
    applySnapshot machine prost round.ready
    record .advance
    round.light.messages.forM sendMessage

def handleIfReady : Option Round → Handler (RaftNode σ) Unit
  | some round => handleReady machine prost round
  | none => return ()

/-- `handle_message`, with what `step(message)` answers. -/
def handleMessage (step : Except String Unit) (round : Option Round) : Handler (RaftNode σ) Unit :=
  match step with
  | .ok () => handleIfReady machine prost round
  | .error e => Action.lift (.err (.raft "step message" e))

/-! ### What is given to raft -/

/-- `add_peer`: the conf change that is proposed. -/
def addPeer (peerId : UInt64) (address : Str) : ConfChange where
  id := 0
  changeType := ConfChange.addNode
  nodeId := peerId
  context := address.asBytes

def removePeer (peerId : UInt64) : ConfChange where
  id := 0
  changeType := ConfChange.removeNode
  nodeId := peerId
  context := []

/-- `add_peer` and `remove_peer`, with what `propose_conf_change` answers. -/
def proposeConfChange (operation : String) (confChange : ConfChange) (leadership : Leadership)
    (propose : ConfChange → Except String Unit) : Handler (RaftNode σ) Unit :=
  if leadership.isLeader then
    match propose confChange with
    | .ok () => return ()
    | .error e => Action.lift (.err (.raft "propose conf change" e))
  else Action.lift (.err (.notLeader operation leadership.current))

/-- `generate_proposal_id`, with the number that the process has counted to. -/
def generateProposalId (id count : UInt64) : Bytes := s!"{id}_{count}".toByteArray.data.toList

/-- `propose`, up to the answer of raft; the proposal's id is the next of a counter. -/
def propose (proposalId : Bytes) (responseTx : Nat) (data : ProposalData) (leadership : Leadership)
    (submit : Bytes → Bytes → Except String Unit) : Handler (RaftNode σ) Unit := do
  onNode fun node => { node with pendingProposals := node.pendingProposals.insert proposalId responseTx }
  if leadership.isLeader then
    match submit proposalId data.encode with
    | .ok () => return ()
    | .error e => Action.lift (.err (.raft "propose data" e))
  else do
    onNode fun node => { node with pendingProposals := node.pendingProposals.erase proposalId }
    Action.lift (.err (.notLeader "propose" leadership.current))

/-! ### Runs -/

inductive Input where
  | tick (round : Option Round)
  | message (step : Except String Unit) (round : Option Round)
  | addPeer (peerId : UInt64) (address : Str) (leadership : Leadership) (propose : ConfChange → Except String Unit)
  | removePeer (peerId : UInt64) (leadership : Leadership) (propose : ConfChange → Except String Unit)
  | propose (proposalId : Bytes) (responseTx : Nat) (data : ProposalData) (leadership : Leadership)
      (submit : Bytes → Bytes → Except String Unit)

/-- The Ready that an input leads to. -/
def Input.next : Input → Option Round
  | .tick next | .message _ next => next
  | .addPeer .. | .removePeer .. | .propose .. => none

def Input.handle : Input → Handler (RaftNode σ) Unit
  | .tick next => handleIfReady machine prost next
  | .message answer next => handleMessage machine prost answer next
  | .addPeer peerId address leadership submit => proposeConfChange "add peer" (RaftNode.addPeer peerId address) leadership submit
  | .removePeer peerId leadership submit => proposeConfChange "remove peer" (RaftNode.removePeer peerId) leadership submit
  | .propose proposalId responseTx data leadership submit => RaftNode.propose proposalId responseTx data leadership submit

/-- The main loop logs what a handler fails with, and goes on. -/
def step (seen : Observed (RaftNode σ)) (input : Input) : Observed (RaftNode σ) := (input.handle machine prost seen).2

/-- What was handed out and done when the inputs have been handled. -/
def history (node : RaftNode σ) (inputs : List Input) : List Handled :=
  (Run.final (step machine prost) { node } inputs).history

/-- The node when the inputs have been handled. -/
def after (node : RaftNode σ) (inputs : List Input) : RaftNode σ := (Run.final (step machine prost) { node } inputs).node

/-! ### Waiting for an answer -/

/-- The end of the wait for a response: what was sent is received also when the time is up, and a sender that is neither
used nor kept has been dropped. -/
def awaitResponse (responseTx : Nat) (requestTimeoutMs : Nat) : Handler (RaftNode σ) Bytes := do
  let seen ← Action.get
  match seen.node.answers.find? fun answer => answer.1 = responseTx with
  | some (_, .ok response) => return response
  | some (_, .error e) => Action.lift (.err e)
  | none =>
      if responseTx ∈ seen.node.pendingProposals.values then
        Action.lift (.err (.timeout "proposal" (requestTimeoutMs * 1000000)))
      else Action.lift (.err (.internal "proposal channel closed"))

/-- `propose`, with what `bincode::serialize` answers and with what the main loop handles until the wait is over. -/
def proposeAndWait (serialized : Except String Unit) (proposalId : Bytes) (responseTx : Nat) (data : ProposalData)
    (leadership : Leadership) (submit : Bytes → Bytes → Except String Unit) (meanwhile : List Input) (requestTimeoutMs : Nat) :
    Handler (RaftNode σ) Bytes :=
  match serialized with
  | .error e => Action.lift (.err (.serialization "serialize proposal" e))
  | .ok () => do
      propose proposalId responseTx data leadership submit
      Action.modify fun seen => Run.final (step machine prost) seen meanwhile
      awaitResponse responseTx requestTimeoutMs

/-! ### Lives -/

/-- A node is created, and handles inputs until it stops. Where it stops in the middle of a handling, the storage calls
that were still to come are faults of its last Ready. -/
structure Life where
  setup : Except RaftError Unit := .ok ()
  rawNode : UInt64 → Except String Unit := fun _ => .ok ()
  inputs : List Input

/-- What a life leaves on disk: the state machine is gone with the process. A creation that fails leaves at most tables
behind that are still empty. -/
def live (initial : σ) (database : Database) (life : Life) : Database :=
  match new life.setup life.rawNode database initial with
  | .ok (_, node) => (after machine prost node life.inputs).storage.database
  | .err _ | .panic => database

end RaftNode

end IrohRaft
