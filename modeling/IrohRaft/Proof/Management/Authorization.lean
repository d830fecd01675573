import IrohRaft.Proof.Transport.Framing
import IrohRaft.Management.Protocol

/-!
# What reaches the cluster manager

Of all a stream's handler does, only `handle_management_request` uses the channel of the cluster manager,
and it sends whatever the frame decodes to. So the requests a connection sends are those its streams
carry, whoever the peer is: they are all permitted exactly when the peer asks for nothing else.
-/

namespace IrohRaft.Management

open Rust ManagementProtocolHandler

variable {Answer : Type} {encodeAnswer : Answer → Bytes} {surroundings : Surroundings Answer} {ε α β : Type}
  {permissions : HashMap UInt64 ManagementPermissions} {stream : ManagementStream} {request : ManagementRequest}

/-! ### Who uses the channel -/

/-- A computation that leaves the channel of the cluster manager alone. -/
def Silent (x : Action ManagementStream ε α) : Prop := ∀ stream, (x stream).2.managementTx = stream.managementTx

theorem silent_onSend (x : Action Sink ε α) : Silent (ManagementStream.onSend x) := fun _ => rfl

theorem silent_pure (value : α) : Silent (pure value : Action ManagementStream ε α) := fun _ => rfl

/-- What follows without using the channel does not change what was sent. -/
theorem managementTx_bind {x : Action ManagementStream ε α} {next : α → Action ManagementStream ε β}
    (hnext : ∀ value, Silent (next value)) (stream : ManagementStream) :
    ((x >>= next) stream).2.managementTx = (x stream).2.managementTx := by
  rcases hx : x stream with ⟨value | error | _, stream'⟩
  · rw [Action.bind_of_ok hx]
    exact hnext value stream'
  · rw [Action.bind_of_err hx]
  · rw [Action.bind_of_panic hx]

theorem silent_bind {x : Action ManagementStream ε α} {next : α → Action ManagementStream ε β} (hx : Silent x)
    (hnext : ∀ value, Silent (next value)) : Silent (x >>= next) := fun stream => by
  rw [managementTx_bind hnext, hx]

theorem silent_within {expired : Prop} [Decidable expired] {x : Action ManagementStream RaftError α} (hx : Silent x) :
    Silent (within expired x) := by
  intro stream
  rw [within]
  split
  · rfl
  · exact hx stream

theorem silent_sendManagementResponse (response : ManagementResponse Answer) (requestId : Option RequestId) :
    Silent (sendManagementResponse encodeAnswer surroundings response requestId) :=
  silent_onSend _

/-! ### Handlers -/

/-- The channel after what there is to send was sent on it. -/
def UnboundedSender.offered {α : Type} (tx : UnboundedSender α) : Option α → UnboundedSender α
  | some value => (UnboundedSender.send value tx).2
  | none => tx

def requestIn (payload : Bytes) : Option ManagementRequest :=
  match deserializeRequest payload with
  | .ok request => some request
  | _ => none

/-- The request that is decoded from a frame, which must be of type `Request`. -/
def requestOf (header : MessageHeader) (payload : Bytes) : Option ManagementRequest :=
  if header.msgType = .request then requestIn payload else none

/-- The request a stream carries: its first frame is all that is read. -/
def carried (bytes : ByteStream) : Option ManagementRequest :=
  match (readMessageZeroCopy bytes).1 with
  | .ok (header, payload) => requestOf header payload
  | _ => none

theorem managementTx_send (request : ManagementRequest) (stream : ManagementStream) :
    ((ManagementStream.onTx (UnboundedSender.send request)).succeeds stream : Outcome Interrupt Bool × _).2.managementTx =
      stream.managementTx.offered (some request) := by
  by_cases hreceiving : stream.managementTx.receiving = true
  · simp [Action.succeeds, ManagementStream.onTx, Action.onPart, UnboundedSender.offered, UnboundedSender.send, hreceiving]
  · simp [Action.succeeds, ManagementStream.onTx, Action.onPart, UnboundedSender.offered, UnboundedSender.send, hreceiving]

/-- Sending on the channel comes before anything is known of the response. -/
theorem managementTx_handleManagementRequest (permissions : HashMap UInt64 ManagementPermissions)
    (message : ZeroCopyManagementMessage) (stream : ManagementStream) :
    (handleManagementRequest encodeAnswer surroundings message permissions stream).2.managementTx =
      stream.managementTx.offered (requestIn message.payload) := by
  rw [handleManagementRequest, requestIn]
  cases hrequest : deserializeRequest message.payload with
  | ok request =>
      have hread : (Action.lift (.ok request)).mapErr Interrupt.failed stream = (.ok request, stream) := rfl
      rw [Action.bind_of_ok hread, managementTx_bind, managementTx_send]
      intro available
      cases available with
      | false => exact silent_sendManagementResponse _ _
      | true =>
          refine silent_bind (silent_within (silent_pure _)) fun response => ?_
          cases response with
          | none => exact silent_sendManagementResponse _ _
          | some response => exact silent_sendManagementResponse _ _
  | err error => rfl
  | panic => rfl

theorem managementTx_processManagementMessage (header : MessageHeader) (payload : Bytes) (stream : ManagementStream) :
    (processManagementMessage encodeAnswer surroundings (managementMessage header payload) permissions stream).2.managementTx =
      stream.managementTx.offered (requestOf header payload) := by
  obtain ⟨msgType, requestId, payloadLen⟩ := header
  cases msgType with
  | request => exact managementTx_handleManagementRequest permissions _ stream
  | heartbeat => exact silent_sendManagementResponse _ _ stream
  | _ => rfl

theorem managementTx_serve (hexpires : surroundings.expires ≠ some .reading) (stream : ManagementStream) :
    (serve encodeAnswer surroundings permissions stream).2.managementTx = stream.managementTx.offered (carried stream.recv) := by
  have hread : (ManagementStream.onRecv readMessageZeroCopy).mapErr Interrupt.failed stream =
      ((readMessageZeroCopy stream.recv).1.mapErr Interrupt.failed,
        { stream with recv := (readMessageZeroCopy stream.recv).2 }) := rfl
  rw [serve, within, if_neg hexpires, carried]
  cases hmessage : (readMessageZeroCopy stream.recv).1 with
  | ok message =>
      rw [hmessage] at hread
      rw [Action.bind_of_ok hread]
      exact managementTx_processManagementMessage message.1 message.2 _
  | err error =>
      rw [hmessage] at hread
      rw [Action.bind_of_err hread]
      rfl
  | panic =>
      rw [hmessage] at hread
      rw [Action.bind_of_panic hread]
      rfl

theorem managementTx_serve_of_reading (hexpires : surroundings.expires = some .reading) (stream : ManagementStream) :
    (serve encodeAnswer surroundings permissions stream).2.managementTx = stream.managementTx := by
  have hread : Action.lift (.err Interrupt.elapsed) stream =
      ((.err .elapsed, stream) : Outcome Interrupt (MessageHeader × Bytes) × ManagementStream) := rfl
  rw [serve, within, if_pos hexpires, Action.bind_of_err hread]

/-- However the deadline and the response turn out, what was sent stays sent. -/
theorem managementTx_handleManagementStream (nodeId : UInt64) (stream : ManagementStream) :
    (handleManagementStream encodeAnswer surroundings nodeId permissions stream).2.managementTx =
      (serve encodeAnswer surroundings permissions stream).2.managementTx := by
  rw [handleManagementStream]
  rcases serve encodeAnswer surroundings permissions stream with ⟨done | interrupt | _, stream'⟩
  · exact silent_bind (silent_onSend _) (fun _ => silent_pure ()) stream'
  · cases interrupt with
    | elapsed => rfl
    | failed error => rfl
  · rfl

/-! ### Connections -/

/-- The request this stream's handler sends to the cluster manager. -/
def Accepted.forwarded (accepted : Accepted Answer) : Option ManagementRequest :=
  if accepted.receiving = true ∧ accepted.surroundings.expires ≠ some .reading then carried accepted.recv else none

theorem handleAccepted_eq (handler : ManagementProtocolHandler) (sent : List ManagementRequest) (accepted : Accepted Answer) :
    handler.handleAccepted encodeAnswer sent accepted = sent ++ accepted.forwarded.toList := by
  rw [handleAccepted, managementTx_handleManagementStream]
  by_cases hexpires : accepted.surroundings.expires = some .reading
  · rw [managementTx_serve_of_reading hexpires, Accepted.forwarded, if_neg (fun h => h.2 hexpires)]
    exact (List.append_nil sent).symm
  · rw [managementTx_serve hexpires]
    cases hcarried : carried accepted.recv with
    | none => simp [UnboundedSender.offered, Accepted.forwarded, hcarried]
    | some request =>
        by_cases hreceiving : accepted.receiving = true
        · simp [UnboundedSender.offered, UnboundedSender.send, Accepted.forwarded, hcarried, hexpires, hreceiving]
        · simp [UnboundedSender.offered, UnboundedSender.send, Accepted.forwarded, hreceiving]

/-- A connection sends the requests of its streams, and asks nobody for permission. -/
theorem handleConnection_eq (handler : ManagementProtocolHandler) (streams : List (Accepted Answer)) :
    handler.handleConnection encodeAnswer streams = streams.filterMap Accepted.forwarded := by
  let holds (done : List (Accepted Answer)) (sent : List ManagementRequest) : Prop := sent = done.filterMap Accepted.forwarded
  refine Run.final_history holds (fun done sent accepted hsent => ?_) rfl streams
  have hlast : [accepted].filterMap Accepted.forwarded = accepted.forwarded.toList := by
    cases hforwarded : accepted.forwarded <;> simp [hforwarded]
  show handler.handleAccepted encodeAnswer sent accepted = (done ++ [accepted]).filterMap Accepted.forwarded
  rw [handleAccepted_eq, hsent, List.filterMap_append, hlast]

/-- The stream starts with a frame of type `Request` whose payload decodes to this request. -/
def Carries (bytes : ByteStream) (request : ManagementRequest) : Prop :=
  ∃ header payload rest, readMessageZeroCopy bytes = (.ok (header, payload), rest) ∧ header.msgType = .request ∧
    deserializeRequest payload = .ok request

theorem requestIn_eq_some {payload : Bytes} : requestIn payload = some request ↔ deserializeRequest payload = .ok request := by
  rw [requestIn]
  cases deserializeRequest payload <;> simp

theorem carried_eq_some {bytes : ByteStream} : carried bytes = some request ↔ Carries bytes request := by
  rw [carried, Carries]
  rcases readMessageZeroCopy bytes with ⟨message | error | _, rest⟩
  · obtain ⟨header, payload⟩ := message
    simp [requestOf, requestIn_eq_some]
  · simp
  · simp

/-- **A connection sends only what the peer may ask for** exactly when that is all the peer asks for: every
request that is read in time, while the cluster manager is there. -/
theorem forwarded_permitted_iff (encodeAnswer : Answer → Bytes) (handler : ManagementProtocolHandler) (peer : UInt64)
    (streams : List (Accepted Answer)) :
    (∀ request ∈ handler.handleConnection encodeAnswer streams, handler.checkPermission peer request.operation = true) ↔
      ∀ accepted ∈ streams, accepted.receiving = true → accepted.surroundings.expires ≠ some .reading →
        ∀ request, Carries accepted.recv request → handler.checkPermission peer request.operation = true := by
  have hforwarded : ∀ (accepted : Accepted Answer) (request : ManagementRequest), accepted.forwarded = some request ↔
      (accepted.receiving = true ∧ accepted.surroundings.expires ≠ some .reading) ∧ Carries accepted.recv request := by
    intro accepted request
    rw [Accepted.forwarded, Option.ite_none_right_eq_some, carried_eq_some]
  rw [handleConnection_eq]
  simp only [List.mem_filterMap, hforwarded]
  apply Iff.intro
  · intro h accepted hmem hreceiving hexpires request hcarries
    exact h request ⟨accepted, hmem, ⟨hreceiving, hexpires⟩, hcarries⟩
  · intro h request hsent
    obtain ⟨accepted, hmem, ⟨hreceiving, hexpires⟩, hcarries⟩ := hsent
    exact h accepted hmem hreceiving hexpires request hcarries

/-- A stream on which a request to step down arrives. -/
def stepDownStream : Accepted Unit :=
  { send := ⟨[], 1000, "", .ok ()⟩
    recv := ⟨frame { msgType := .request, requestId := none, payload := [5, 0, 0, 0, 0, 0] }, ""⟩
    receiving := true
    surroundings := { response := some .success, expires := none } }

/-- A peer nobody gave permissions to has the leader step down. -/
theorem not_forwarded_permitted :
    (ManagementProtocolHandler.new 1).handleConnection (fun _ => []) [stepDownStream] = [⟨.stepDown, none, none⟩] ∧
      (ManagementProtocolHandler.new 1).checkPermission 9 .stepDown = false := by
  refine ⟨?_, rfl⟩
  rw [handleConnection_eq]
  decide

end IrohRaft.Management
