import IrohRaft.Config

/-!
# What validation accepts
-/

namespace IrohRaft

open Rust

namespace Config

/-- What `validate` asks of a configuration. -/
structure Valid (config : Config) : Prop where
  nodeId : config.node.id ≠ none
  dataDir : config.node.dataDir ≠ []
  heartbeat : config.raft.heartbeatInterval.val < config.raft.electionTimeoutMin.val
  election : config.raft.electionTimeoutMin.val < config.raft.electionTimeoutMax.val
  peers : config.transport.peers.Nodup
  level : config.observability.logging.level ∈ logLevels
  sampleRate : isRate config.observability.tracing.sampleRate = true

theorem checkPeers_eq_ok_iff {seenPeers peers : List SocketAddr} {done : Unit} :
    checkPeers seenPeers peers = .ok done ↔ peers.Nodup ∧ ∀ peer ∈ peers, peer ∉ seenPeers := by
  induction peers generalizing seenPeers with
  | nil => simp [checkPeers]
  | cons peer rest ih =>
      rw [checkPeers, Outcome.bind_eq_ok, List.nodup_cons, List.forall_mem_cons]
      simp only [Outcome.rejectIf_eq_ok, ih, List.mem_cons, not_or]
      apply Iff.intro
      · intro haccepted
        obtain ⟨_, hpeer, hnodup, hrest⟩ := haccepted
        have hnot : peer ∉ rest := fun hmem => (hrest peer hmem).1 rfl
        exact ⟨⟨hnot, hnodup⟩, hpeer, fun other hother => (hrest other hother).2⟩
      · intro hdistinct
        obtain ⟨⟨hnot, hnodup⟩, hpeer, hrest⟩ := hdistinct
        refine ⟨(), hpeer, hnodup, fun other hother => ⟨?_, hrest other hother⟩⟩
        exact fun heq => hnot (heq ▸ hother)

theorem validate_eq_ok_iff {config : Config} {done : Unit} : config.validate = .ok done ↔ config.Valid := by
  simp only [validate, Outcome.bind_eq_ok, Outcome.rejectIf_eq_ok, checkPeers_eq_ok_iff, ge_iff_le, not_le, not_not,
    Bool.not_eq_false, List.not_mem_nil, not_false_eq_true, implies_true, and_true]
  apply Iff.intro
  · intro haccepted
    obtain ⟨_, hid, _, hdir, _, hheartbeat, _, helection, _, hpeers, _, hlevel, hrate⟩ := haccepted
    exact ⟨hid, hdir, hheartbeat, helection, hpeers, hlevel, hrate⟩
  · intro hvalid
    exact ⟨(), hvalid.nodeId, (), hvalid.dataDir, (), hvalid.heartbeat, (), hvalid.election, (), hvalid.peers, (),
      hvalid.level, hvalid.sampleRate⟩

end Config

end IrohRaft
