import IrohRaft.Library.Tasks
import IrohRaft.Management.Protocol

/-!
# The management client

`management/client.rs`: the frames the client sends and how it takes a reply, its connection pool, and the
failover of `send_request`. Calls of `send_request` are tasks that share the client. In the edition of the
language the code is written in, the guard that an `if let` reads through lives to the end of its body. The
lock of the cached leader lets in no reader while somebody waits to write.
-/

namespace IrohRaft.Management

open Rust

/-! ### Requests -/

/-- How long a request may take, as it says itself. -/
def requestTimeout : Duration := ⟨30 * nanosPerSec, by decide⟩

/-- `serialize_payload`. -/
def serializeRequest (request : ManagementRequest) : Outcome RaftError Bytes :=
  match request.encode with
  | .ok payload => .ok payload
  | .error e => .err (.internal s!"Failed to serialize payload: {e}")

namespace ZeroCopyManagementMessage

/-- Calculate the total message size including headers. -/
def calculateSize (payloadLen : Nat) : Outcome RaftError UInt32 :=
  -- conservative estimate: 4 bytes length + header + payload
  u32Add (4 + 64) (UInt32.ofNat payloadLen)

def newOwned (msgType : ManagementMessageType) (requestId : Option RequestId) (payload : Bytes) (authorization : Option Str) :
    Outcome RaftError ZeroCopyManagementMessage := do
  let totalSize ← calculateSize payload.length
  return { msgType, requestId, operation := none, payload, totalSize, authorization }

def newRequest (operation : ManagementOperation) (requestId : Option RequestId) (authorization : Option Str) :
    Outcome RaftError ZeroCopyManagementMessage := do
  let request : ManagementRequest := { operation, timeout := some requestTimeout, authorization }
  let payload ← serializeRequest request
  let totalSize ← calculateSize payload.length
  return { msgType := .request, requestId, operation := some operation, payload, totalSize, authorization }

end ZeroCopyManagementMessage

-- the id is what generate_request_id draws

def createManagementRequest (id : RequestId) (operation : ManagementOperation) (authorization : Option Str) :
    Outcome RaftError ZeroCopyManagementMessage :=
  ZeroCopyManagementMessage.newRequest operation (some id) authorization

def createHealthCheckMessage (id : RequestId) : Outcome RaftError ZeroCopyManagementMessage :=
  ZeroCopyManagementMessage.newOwned .healthCheck (some id) [] none

/-- What the client asks of one node. -/
inductive ClientRequest where
  | sendRequestToNode (operation : ManagementOperation)
  | pingNode
  deriving DecidableEq

/-- The message that is written. -/
def ClientRequest.message (id : RequestId) : ClientRequest → Outcome RaftError ZeroCopyMessage
  | .sendRequestToNode operation => do
      let requestMsg ← createManagementRequest id operation none
      return { msgType := .request, requestId := requestMsg.requestId, payload := requestMsg.payload }
  | .pingNode => do
      let pingMsg ← createHealthCheckMessage id
      return { msgType := .request, requestId := pingMsg.requestId, payload := pingMsg.payload }

/-! ### Replies -/

section

variable {Answer : Type} (answers : Bincode.Serde Answer)

def ManagementResponse.decode (data : Bytes) : Except String (ManagementResponse Answer) := do
  let (variant, rest) ← Bincode.decodeU32 data
  match variant.toNat with
  | 11 => .ok .success
  | 12 => do
      let (message, _) ← Bincode.decodeString rest
      return .error message
  | _ => do
      let data ← answers.deserialize data
      return .answer data

/-- `deserialize_payload::<ManagementResponse>`. -/
def deserializeResponse (data : Bytes) : Outcome RaftError (ManagementResponse Answer) :=
  match ManagementResponse.decode answers data with
  | .ok response => .ok response
  | .error e => .err (.internal s!"Failed to deserialize payload: {e}")

/-- How the reply is read; a ping only wants a message. -/
def ClientRequest.readReply : ClientRequest → Action ByteStream RaftError (Option (ManagementResponse Answer))
  | .sendRequestToNode _ => do
      let (_header, payload) ← readMessageZeroCopy
      let response ← Action.lift (deserializeResponse answers payload)
      return some response
  | .pingNode => do
      let (_header, _payload) ← readMessageZeroCopy
      return none

end

/-! ### The connection pool -/

/-- The client with its pool, and the leader it knows. Addresses and connections are opaque. -/
structure IrohRaftManagementClient (NodeAddr Connection : Type) where
  connections : HashMap UInt64 Connection
  endpoints : HashMap UInt64 NodeAddr
  currentLeader : Option UInt64

/-- What the network does with an attempt at a node: whether it connects, where it has to, and how the
exchange over the connection ends. -/
structure Attempt (Connection Answer : Type) where
  connect : Except String Connection
  exchange : Outcome RaftError (ManagementResponse Answer)

namespace IrohRaftManagementClient

variable {NodeAddr Connection Answer : Type}

def getConnection (nodeId : UInt64) (connect : Except String Connection) :
    Action (IrohRaftManagementClient NodeAddr Connection) RaftError Connection := fun client =>
  match client.connections[nodeId]? with
  | some connection => (.ok connection, client)
  | none =>
      match client.endpoints[nodeId]? with
      | none => (.err (.internal s!"No endpoint found for node {nodeId}"), client)
      | some _ =>
          match connect with
          | .error e => (.err (.internal s!"Failed to connect to node {nodeId}: {e}"), client)
          | .ok connection => (.ok connection, { client with connections := client.connections.insert nodeId connection })

def removeConnection (nodeId : UInt64) (client : IrohRaftManagementClient NodeAddr Connection) :
    IrohRaftManagementClient NodeAddr Connection :=
  { client with connections := client.connections.erase nodeId }

def getAvailableNodes (client : IrohRaftManagementClient NodeAddr Connection) : List UInt64 := client.endpoints.keys

def sendRequestToNode (nodeId : UInt64) (attempt : Attempt Connection Answer) :
    Action (IrohRaftManagementClient NodeAddr Connection) RaftError (ManagementResponse Answer) := do
  let _connection ← getConnection nodeId attempt.connect
  Action.lift attempt.exchange

/-! ### Failover -/

/-- Where a call of `send_request` stands. -/
inductive Point (Answer : Type) where
  -- current_leader.read()
  | readLeader
  -- the body of the if let, with the guard
  | attemptLeader (leader : UInt64)
  -- current_leader.write(), in the body of the if let
  | clearLeader
  | listNodes
  | tryNodes (nodeId : UInt64) (rest : List UInt64)
  -- current_leader.write(), in the loop
  | updateLeader (leader : UInt64) (response : ManagementResponse Answer)
  | returned (result : Outcome RaftError (ManagementResponse Answer))
  | dropped

/-- The call holds a read guard of the cached leader. -/
def Point.holdsRead : Point Answer → Bool
  | .attemptLeader _ | .clearLeader => true
  | _ => false

/-- The call waits to write the cached leader. -/
def Point.waitsForWrite : Point Answer → Bool
  | .clearLeader | .updateLeader _ _ => true
  | _ => false

/-- What a call waits for, with what comes of it; or its caller drops it. -/
inductive Input (Connection Answer : Type) where
  | proceed
  | attempted (attempt : Attempt Connection Answer)
  | listed (nodes : List UInt64)
  | cancel

/-- The loop over the nodes, at the next of them. -/
def Point.trying : List UInt64 → Point Answer
  | [] => .returned (.err (.internal "No available cluster members"))
  | nodeId :: rest => .tryNodes nodeId rest

variable (statusLeader : ManagementResponse Answer → Option UInt64)

/-- One turn of `send_request`, where the leader of a cluster status is known to the caller. -/
def sendRequest (client : IrohRaftManagementClient NodeAddr Connection) (tasks : List (Point Answer)) (point : Point Answer)
    (input : Input Connection Answer) : Option (IrohRaftManagementClient NodeAddr Connection × Point Answer) :=
  match point, input with
  | .readLeader, .proceed =>
      if tasks.any Point.waitsForWrite then none
      else
        match client.currentLeader with
        | some leader => some (client, .attemptLeader leader)
        | none => some (client, .listNodes)
  | .attemptLeader leader, .attempted attempt =>
      match sendRequestToNode leader attempt client with
      | (.ok response, client) => some (client, .returned (.ok response))
      | (.err _, client) => some (client, .clearLeader)
      | (.panic, client) => some (client, .returned .panic)
  | .clearLeader, .proceed =>
      if tasks.any Point.holdsRead then none else some ({ client with currentLeader := none }, .listNodes)
  | .listNodes, .listed nodes =>
      -- the keys of a hash map come in any order
      if nodes.Perm client.getAvailableNodes then some (client, .trying nodes) else none
  | .tryNodes nodeId rest, .attempted attempt =>
      match sendRequestToNode nodeId attempt client with
      | (.ok response, client) =>
          match statusLeader response with
          | some leader => some (client, .updateLeader leader response)
          | none => some (client, .returned (.ok response))
      | (.err _, client) => some (client.removeConnection nodeId, .trying rest)
      | (.panic, client) => some (client, .returned .panic)
  | .updateLeader leader response, .proceed =>
      if tasks.any Point.holdsRead then none else some ({ client with currentLeader := some leader }, .returned (.ok response))
  | .returned _, _ | .dropped, _ => none
  | _, .cancel => some (client, .dropped)
  | _, _ => none

abbrev System (NodeAddr Connection Answer : Type) := Tasks.System (IrohRaftManagementClient NodeAddr Connection) (Point Answer)

abbrev Label (Connection Answer : Type) := Tasks.Label Unit (Input Connection Answer)

def program : Tasks.Program (IrohRaftManagementClient NodeAddr Connection) (Point Answer) Unit (Input Connection Answer) where
  entry _ := .readLeader
  advance := sendRequest statusLeader

end IrohRaftManagementClient

end IrohRaft.Management
