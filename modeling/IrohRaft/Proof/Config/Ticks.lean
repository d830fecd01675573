import IrohRaft.Node
import IrohRaft.Proof.Config.Validation

/-!
# The ticks of an accepted configuration

Raft counts time in ticks of one heartbeat interval, and starts only if an election takes more ticks than a heartbeat.
Validation orders the two times but does not compare their ticks, which are whole numbers.
-/

namespace IrohRaft

open Rust

namespace Config

/-- The ticks of the raft crate, from the configuration's times in milliseconds. -/
def raftTicks (config : Config) : Outcome RaftError RaftNode.RaftTicks :=
  RaftNode.raftTicks (durationAsMillis config.raft.electionTimeoutMin) (durationAsMillis config.raft.heartbeatInterval)

/-- Raft starts with this configuration. -/
structure Starts (config : Config) : Prop where
  nodeId : ∃ id, config.node.id = some id ∧ id ≠ 0
  heartbeat_pos : 0 < config.raft.heartbeatInterval.val
  heartbeat : config.raft.heartbeatInterval.val < config.raft.electionTimeoutMin.val
  election : config.raft.electionTimeoutMin.val < config.raft.electionTimeoutMax.val
  ticks : config.raftTicks.Returns fun ticks => ticks.heartbeatTick < ticks.electionTick

end Config

namespace RaftNode

theorem raftTicks_returns_iff (electionTimeoutMs heartbeatIntervalMs : UInt64) :
    ((raftTicks electionTimeoutMs heartbeatIntervalMs).Returns fun ticks => ticks.heartbeatTick < ticks.electionTick) ↔
      0 < heartbeatIntervalMs.toNat ∧ 2 * heartbeatIntervalMs.toNat ≤ electionTimeoutMs.toNat := by
  rw [raftTicks]
  split
  next hzero => simp [Outcome.Returns, hzero]
  next hnonzero =>
      have hpos : 0 < heartbeatIntervalMs.toNat := by
        apply Nat.pos_of_ne_zero
        simpa [← UInt64.toNat_inj] using hnonzero
      have htwo : 1 < electionTimeoutMs.toNat / heartbeatIntervalMs.toNat ↔
          2 * heartbeatIntervalMs.toNat ≤ electionTimeoutMs.toNat := Nat.le_div_iff_mul_le hpos
      simp [Outcome.Returns, UInt64.lt_iff_toNat_lt, UInt64.toNat_div, hpos, htwo]

end RaftNode

namespace Config

theorem pos_of_durationAsMillis_pos {duration : Management.Duration} (hpos : 0 < (durationAsMillis duration).toNat) :
    0 < duration.val := by
  apply Nat.pos_of_ne_zero
  intro hzero
  simp [durationAsMillis, hzero] at hpos

/-- Of what validation accepts, raft starts with what has a node id other than zero and an election timeout of at least
two heartbeat intervals, counted in whole milliseconds of which a heartbeat has one or more. -/
theorem starts_iff_of_validate {config : Config} (haccepted : config.validate = .ok ()) :
    config.Starts ↔
      config.node.id ≠ some 0 ∧ 0 < (durationAsMillis config.raft.heartbeatInterval).toNat ∧
        2 * (durationAsMillis config.raft.heartbeatInterval).toNat ≤
          (durationAsMillis config.raft.electionTimeoutMin).toNat := by
  have hvalid := validate_eq_ok_iff.mp haccepted
  have hticks := RaftNode.raftTicks_returns_iff (durationAsMillis config.raft.electionTimeoutMin)
    (durationAsMillis config.raft.heartbeatInterval)
  apply Iff.intro
  · intro hstarts
    obtain ⟨id, hid, hne⟩ := hstarts.nodeId
    refine ⟨?_, hticks.mp hstarts.ticks⟩
    rw [hid]
    exact fun hzero => hne (Option.some_inj.mp hzero)
  · intro hcond
    obtain ⟨hnode, hpos, htwo⟩ := hcond
    obtain ⟨id, hid⟩ := Option.ne_none_iff_exists'.mp hvalid.nodeId
    refine ⟨⟨id, hid, ?_⟩, pos_of_durationAsMillis_pos hpos, hvalid.heartbeat, hvalid.election, hticks.mpr ⟨hpos, htwo⟩⟩
    intro hzero
    exact hnode (hzero ▸ hid)

theorem starts_default_one : ({ default with node.id := some 1 } : Config).Starts :=
  (starts_iff_of_validate (by decide)).mpr (by decide)

def zeroId : Config := { default with node.id := some 0 }

/-- The election timeout is three seconds. -/
def slowHeartbeat : Config :=
  { default with
    node.id := some 1
    raft.heartbeatInterval := durationFromMillis 2000 }

/-- Accepted are the node id zero, and times that take equally many ticks. -/
theorem not_starts_accepted :
    (zeroId.validate = .ok () ∧ ¬ zeroId.Starts) ∧ slowHeartbeat.validate = .ok () ∧ ¬ slowHeartbeat.Starts := by
  refine ⟨⟨by decide, ?_⟩, by decide, ?_⟩
  · intro hstarts
    obtain ⟨id, hid, hne⟩ := hstarts.nodeId
    exact hne (Option.some_inj.mp hid).symm
  · intro hstarts
    have hticks := hstarts.ticks
    revert hticks
    decide

end Config

end IrohRaft
