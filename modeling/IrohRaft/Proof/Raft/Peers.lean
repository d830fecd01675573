import IrohRaft.Library.Register
import IrohRaft.Proof.Raft.Following
import IrohRaft.Proof.Raft.Runs

/-!
# The addresses of the peers

The address under a peer's id is a register that the applied conf changes write. A leader enters the address of a node as
soon as raft takes the proposal to add it, before any node has applied it; what the entry of that proposal writes later is
the same.
-/

namespace IrohRaft

open Rust Redb Bincode Protobuf Register Handler

/-! ### What goes through the log -/

theorem ConfChange.decode_encode (cc : ConfChange) : decode cc.encode = some cc := by
  have hkind : Int32.ofNat cc.changeType.toUInt32.toNat = cc.changeType := by
    have hbits : (Int32.ofNat cc.changeType.toUInt32.toNat).toUInt32 = cc.changeType.toUInt32 := by simp
    exact congrArg UInt32.toInt32 hbits
  simp [decode, encode, -List.append_nil, hkind]

theorem ConfChange.merge_encode (cc : ConfChange) : merge cc.encode = .ok cc := by
  rw [merge, decode_encode]

theorem ConfChangeContext.decode_encode {context : ConfChangeContext} (h : context.p2pAddresses.length < 2 ^ 64) :
    decode context.encode = .ok (context, []) := by
  have hoption (value : Option Str) (rest : Bytes) :
      decodeOption decodeString (encodeOption encodeString value ++ rest) = .ok (value, rest) :=
    decodeOption_append rest value fun inner _ => decodeString_append inner rest
  have hseq (rest : Bytes) : decodeSeq decodeString (encodeSeq encodeString context.p2pAddresses ++ rest) =
      .ok (context.p2pAddresses, rest) :=
    decodeSeq_append (fun item _ rest => decodeString_append item rest) h rest
  have hlast := hoption context.p2pRelayUrl []
  rw [List.append_nil] at hlast
  simp only [encode, decode, List.append_assoc, decodeString_append, hoption, hseq, hlast, ok_bind, pure_eq_ok]

namespace RaftConfigManager

/-- What an applied change leaves under an id: an address, where it brings one that can be read. -/
def leavesPeer (id : UInt64) (cc : ConfChange) : Option (Option Str) :=
  if cc.nodeId ≠ id then none
  else if cc.changeType = ConfChange.addNode then
    if cc.context.isEmpty then none
    else match ConfChangeContext.decode cc.context with
      | .ok (context, _) => some (some context.address)
      | .error _ => none
  else if cc.changeType = ConfChange.removeNode then some none
  else none

theorem getElem?_updateLocalPeers (manager : RaftConfigManager) (cc : ConfChange) (id : UInt64) :
    (manager.updateLocalPeersAfterConfChange cc).peers[id]? = (leavesPeer id cc).getD manager.peers[id]? := by
  have hinsert (address : Str) : (manager.peers.insert cc.nodeId address)[id]? =
      (if cc.nodeId ≠ id then none else some (some address) : Option (Option Str)).getD manager.peers[id]? := by
    rw [HashMap.getElem?_insert_if]
    by_cases hid : cc.nodeId = id <;> simp [hid]
  have herase : (manager.peers.erase cc.nodeId)[id]? =
      (if cc.nodeId ≠ id then none else some none : Option (Option Str)).getD manager.peers[id]? := by
    rw [HashMap.getElem?_erase_if]
    by_cases hid : cc.nodeId = id <;> simp [hid]
  by_cases hadds : cc.changeType = ConfChange.addNode
  · cases hempty : cc.context.isEmpty with
    | true => simp [updateLocalPeersAfterConfChange, leavesPeer, hadds, hempty]
    | false =>
        cases hdecode : ConfChangeContext.decode cc.context with
        | error e => simp [updateLocalPeersAfterConfChange, leavesPeer, hadds, hempty, hdecode]
        | ok read => simpa [updateLocalPeersAfterConfChange, leavesPeer, hadds, hempty, hdecode] using hinsert read.1.address
  · by_cases hremoves : cc.changeType = ConfChange.removeNode
    · have hneither : ConfChange.removeNode ≠ ConfChange.addNode := by decide
      simpa [updateLocalPeersAfterConfChange, leavesPeer, hremoves, hneither] using herase
    · simp [updateLocalPeersAfterConfChange, leavesPeer, hadds, hremoves]

theorem peers_applyConfChange {manager configManager : RaftConfigManager} {cc : ConfChange} {answer : Outcome RaftError ConfState}
    {database : Redb.Database} (h : (manager.applyConfChange cc answer).result database = .ok configManager) :
    configManager.peers = (manager.updateLocalPeersAfterConfChange cc).peers := by
  obtain ⟨confState, -, h⟩ := Session.result_bind_eq_ok.mp h
  obtain ⟨_, -, h⟩ := Session.result_bind_eq_ok.mp h
  by_cases hadds : cc.changeType = ConfChange.addNode
  · rw [if_pos hadds] at h
    rw [← Outcome.ok.inj h]
  · rw [if_neg hadds] at h
    rw [← Outcome.ok.inj h]

end RaftConfigManager

namespace RaftManager

/-! ### The peers in the course of a run -/

variable (codec : ManagerCodec)

/-- What an effect leaves under an id. -/
def leavesPeer (id : UInt64) : Effect → Option (Option Str)
  | .applyConfChange entry =>
      match codec.mergeConfChange entry.data with
      | .ok cc => RaftConfigManager.leavesPeer id cc
      | .error _ => none
  | .installSnapshot _ | .append _ | .saveHardState _ | .send _ | .applyEntry _ | .advance | .advanceApplyTo _ => none

/-- The address under an id is what the effects have left of it. -/
def PeerIs (id : UInt64) (start : Option Str) (trace : List Effect) (manager : RaftManager) : Prop :=
  manager.configManager.peers[id]? = (lastWrite (leavesPeer codec id) trace).getD start

variable {codec} {id : UInt64} {start : Option Str}

theorem exists_entry_of_leavesPeer {effect : Effect} {left : Option Str} (h : leavesPeer codec id effect = some left) :
    ∃ entry, effect = .applyConfChange entry := by
  cases effect with
  | applyConfChange entry => exact ⟨entry, rfl⟩
  | installSnapshot snapshot => cases h
  | append entries => cases h
  | saveHardState hardState => cases h
  | send message => cases h
  | applyEntry entry => cases h
  | advance => cases h
  | advanceApplyTo index => cases h

theorem peer_followed : Followed codec (fun _ => True) (PeerIs codec id start) (fun _ => PeerIs codec id start) where
  stops _ _ _ h := h
  frame _ _ _ _ hpeers h := by rwa [PeerIs, hpeers]
  effect round _ effect hasks trace manager h := by
    refine ⟨fun _ _ => h, fun _ => ?_⟩
    have hleaves : leavesPeer codec id effect = none := by
      cases hleft : leavesPeer codec id effect with
      | none => rfl
      | some left =>
          obtain ⟨entry, rfl⟩ := exists_entry_of_leavesPeer hleft
          exact hasks.elim
    rw [PeerIs, lastWrite_concat_getD, hleaves]
    exact h
  confChange _ entry cc hmerge trace manager h := by
    refine ⟨fun _ _ => h, fun configManager hok => ?_⟩
    have hleaves : leavesPeer codec id (.applyConfChange entry) = RaftConfigManager.leavesPeer id cc := by
      simp only [leavesPeer, hmerge]
    rw [PeerIs, lastWrite_concat_getD, hleaves, ← h, ← RaftConfigManager.getElem?_updateLocalPeers,
      ← RaftConfigManager.peers_applyConfChange hok]
  compact _ _ _ _ h _ _ := h

/-! ### A node that is added early -/

/-- What is proposed for a request to add a node leaves the address of the request. -/
theorem leavesPeer_toProposal (hcodec : ∀ cc, codec.mergeConfChange cc.encode = .ok cc) {request : RaftConfChange}
    (hkind : request.changeType = .addNode) (hfits : request.p2pAddresses.length < 2 ^ 64) {entry : Entry}
    (hdata : entry.data = request.toProposal.encode) :
    leavesPeer codec request.nodeId (.applyConfChange entry) = some (some request.address) := by
  have hnumber : request.toProposal.changeType = ConfChange.addNode := by
    rw [RaftConfChange.toProposal, hkind]
    rfl
  have hdecode : ConfChangeContext.decode request.toProposal.context =
      .ok (⟨request.address, request.p2pNodeId, request.p2pAddresses, request.p2pRelayUrl⟩, []) :=
    ConfChangeContext.decode_encode hfits
  have hcontext : request.toProposal.context.isEmpty = false := by
    cases hempty : request.toProposal.context with
    | nil =>
        rw [hempty, show ConfChangeContext.decode [] = .error unexpectedEof from rfl] at hdecode
        cases hdecode
    | cons byte rest => rfl
  have hnode : request.toProposal.nodeId = request.nodeId := rfl
  simp [leavesPeer, hdata, hcodec, RaftConfigManager.leavesPeer, hnumber, hdecode, hcontext, hnode]

theorem addedPeer_eq_some {request : RaftConfChange} {leadership : Leadership} {propose : ConfChange → Except String Unit}
    {connect : Except RaftError Unit} {peer : UInt64 × Str}
    (h : (Input.confChange request leadership propose connect).addedPeer = some peer) :
    leadership.isLeader = true ∧ request.changeType = .addNode ∧ propose request.toProposal = .ok () ∧
      peer = (request.nodeId, request.address) := by
  rw [Input.addedPeer] at h
  split at h
  next hleads =>
    obtain ⟨hleader, hkind⟩ := Bool.and_eq_true_iff.mp hleads
    split at h
    next hpropose => exact ⟨hleader, of_decide_eq_true hkind, hpropose, (Option.some.inj h).symm⟩
    next => cases h
  next => cases h

/-- A leader whose raft takes the proposal enters the address at once, whether it can connect to the node or not. -/
theorem step_added {manager : RaftManager} {request : RaftConfChange} {leadership : Leadership}
    {propose : ConfChange → Except String Unit} {connect : Except RaftError Unit} {peer : UInt64 × Str}
    (hadded : (Input.confChange request leadership propose connect).addedPeer = some peer) :
    Between (PeerIs codec peer.1 (some peer.2))
      (Execution.step codec (Execution.start manager) (.confChange request leadership propose connect)).observed := by
  obtain ⟨hleader, hkind, hpropose, rfl⟩ := addedPeer_eq_some hadded
  have hentered : Action.Triple (· = (Execution.start manager).observed)
      (onNode fun manager =>
        { manager with configManager.peers := manager.configManager.peers.insert request.nodeId request.address })
      (fun _ => Between (PeerIs codec request.nodeId (some request.address)))
      (Between (PeerIs codec request.nodeId (some request.address))) := by
    apply Action.Triple.modify
    intro state hstate
    rw [hstate]
    show (manager.configManager.peers.insert request.nodeId request.address)[request.nodeId]? = some request.address
    rw [HashMap.getElem?_insert_if, if_pos rfl]
  have hhandled : Action.Triple (· = (Execution.start manager).observed) (handleConfChange request leadership propose connect)
      (fun _ => Between (PeerIs codec request.nodeId (some request.address)))
      (Between (PeerIs codec request.nodeId (some request.address))) := by
    simp only [handleConfChange, hleader, hpropose, hkind, if_true]
    refine hentered.bind fun _ => ?_
    cases connect with
    | ok done => exact (peer_followed.answer _ _).stopping fun _ => Halted.between
    | error e => exact Action.Triple.lift (fun _ _ _ => id) fun _ _ => id
  have hfinal := hhandled.final rfl
  rw [Execution.step, if_neg (by simp [Execution.start])]
  split
  next hresult => rwa [← Input.handle, hresult] at hfinal
  next hresult => rwa [← Input.handle, hresult] at hfinal

/-- In every run without a new request for it, the address of a peer is what the last applied change of it left. A request
that adds it on the leader enters the address that its own entry brings later, so that nothing but another change ever alters
it. -/
theorem peers_follow (codec : ManagerCodec) (hcodec : ∀ cc, codec.mergeConfChange cc.encode = .ok cc) (manager : RaftManager)
    (id : UInt64) {inputs : List Input} (hadds : ∀ input ∈ inputs, ∀ peer ∈ input.addedPeer, peer.1 ≠ id) :
    (let after := (Run.final (Execution.step codec) (Execution.start manager) inputs).observed
     after.node.configManager.peers[id]? =
      (lastWrite (leavesPeer codec id) (effectsOf after.history)).getD manager.configManager.peers[id]?) ∧
    ∀ (request : RaftConfChange) (leadership : Leadership) (propose : ConfChange → Except String Unit)
      (connect : Except RaftError Unit), request.p2pAddresses.length < 2 ^ 64 →
      (Input.confChange request leadership propose connect).addedPeer = some (id, request.address) →
      let all := .confChange request leadership propose connect :: inputs
      let after := (Run.final (Execution.step codec) (Execution.start manager) all).observed
      (∀ entry, .applyConfChange entry ∈ effectsOf after.history →
        leavesPeer codec id (.applyConfChange entry) ≠ none → entry.data = request.toProposal.encode) →
      after.node.configManager.peers[id]? = some request.address := by
  have henters (start : Option Str) (input : Input) (hinput : input ∈ inputs) : input.Enters (PeerIs codec id start) := by
    intro peer hpeer trace manager h
    rw [PeerIs, HashMap.getElem?_insert_of_ne (hadds input hinput peer hpeer)]
    exact h
  have hrun {execution : Execution} {start : Option Str} (hstart : Between (PeerIs codec id start) execution.observed) :
      Between (PeerIs codec id start) (Run.final (Execution.step codec) execution inputs).observed :=
    (peer_followed.run hstart (fun _ _ _ _ => trivial) (henters start)).2.between
  refine ⟨hrun (show Between _ (Execution.start manager).observed from rfl), ?_⟩
  intro request leadership propose connect hfits hadded all after hown
  obtain ⟨-, hkind, -, hpeer⟩ := addedPeer_eq_some hadded
  obtain ⟨rfl, -⟩ := Prod.mk.inj hpeer
  have hafter : after.node.configManager.peers[request.nodeId]? =
      (lastWrite (leavesPeer codec request.nodeId) (effectsOf after.history)).getD (some request.address) :=
    hrun (step_added hadded)
  rw [hafter]
  cases hlast : lastWrite (leavesPeer codec request.nodeId) (effectsOf after.history) with
  | none => rfl
  | some left =>
      obtain ⟨before, effect, later, hsplit, hwrite, -⟩ := lastWrite_eq_some_iff.mp hlast
      have hmem : effect ∈ effectsOf after.history := hsplit ▸ List.mem_append_right before List.mem_cons_self
      obtain ⟨entry, rfl⟩ := exists_entry_of_leavesPeer hwrite
      rw [leavesPeer_toProposal hcodec hkind hfits (hown entry hmem (by simp [hwrite]))] at hwrite
      rw [← Option.some.inj hwrite]
      rfl

/-- A request to add a second node, and the entry that it becomes. -/
def addsSecond : RaftConfChange where
  changeType := .addNode
  nodeId := 2
  address := ⟨"10.0.0.2:7000", by decide⟩
  p2pNodeId := none
  p2pAddresses := []
  p2pRelayUrl := none
  responseTx := some 0

def addsSecondEntry : Entry := { Entry.noop 1 1 with entryType := 1, data := addsSecond.toProposal.encode }

/-- The next Ready has the entry. -/
def appliesSecond : Input := .tick (some { ready := { committedEntries := [addsSecondEntry] } }) true none

theorem peers_follow_addsSecond :
    let added := Input.confChange addsSecond { isLeader := true, leaderId := 1 } (fun _ => .ok ()) (.ok ())
    let after := (Run.final (Execution.step .ofStorage) (Execution.start (freshManager 1)) [added, appliesSecond]).observed
    effectsOf after.history = [.applyConfChange addsSecondEntry, .advance] ∧
      after.node.configManager.peers[(2 : UInt64)]? = some addsSecond.address := by
  intro added after
  have heffects : effectsOf after.history = [.applyConfChange addsSecondEntry, .advance] := by decide
  have hadds : ∀ input ∈ [appliesSecond], ∀ peer ∈ input.addedPeer, peer.1 ≠ 2 := by
    intro input hinput peer hpeer
    rw [List.mem_singleton.mp hinput] at hpeer
    cases hpeer
  refine ⟨heffects, (peers_follow .ofStorage ConfChange.merge_encode (freshManager 1) 2 hadds).2 addsSecond _ _ _ (by decide) rfl ?_⟩
  intro entry hentry _
  have hmem : .applyConfChange entry ∈ effectsOf after.history := hentry
  have hown : entry = addsSecondEntry := by simpa only [heffects, List.mem_cons, reduceCtorEq, List.not_mem_nil, or_false,
    Effect.applyConfChange.injEq] using hmem
  rw [hown]
  rfl

end RaftManager

end IrohRaft
