import IrohRaft.Proof.Storage.StateCodec
import IrohRaft.Storage.Ops
import IrohRaft.Storage.Eraftpb

/-!
# What a restart reads back

The hard state last saved and the conf state of the last snapshot that carried one, both read off the
operations alone. Each record is written by one operation and by no other, so the run invariant says
what is stored under its key, and the codecs' round trips say what that reads as.
-/

namespace IrohRaft

open Rust Redb

namespace RaftStorage

variable {prost : ProstCodec Snapshot} {storage : RaftStorage}

/-! ### The two records -/

theorem initialState_eq_ok {state : RaftState} :
    initialState storage = .ok state ↔ readHardState storage = .ok state.hardState ∧
    readConfState storage = .ok state.confState := by
  simp only [initialState, Outcome.bind_eq_ok, Outcome.pure_eq_ok]
  apply Iff.intro
  · intro hread
    obtain ⟨hardState, hhard, confState, hconf, hstate⟩ := hread
    rw [← Outcome.ok.inj hstate]
    exact ⟨hhard, hconf⟩
  · intro hreads
    obtain ⟨hhard, hconf⟩ := hreads
    exact ⟨_, hhard, _, hconf, rfl⟩

theorem appliedIndex_of_readHardState {hardState : HardState} (h : readHardState storage = .ok hardState) :
    appliedIndex storage = .ok hardState.commit := by
  rw [readHardState] at h
  rw [appliedIndex]
  cases hget : storage.hardStateTable[hardStateKey]? with
  | some data =>
      simp only [hget] at h ⊢
      rw [Outcome.mapErr_eq_ok.mp h]
      rfl
  | none =>
      simp only [hget, Outcome.pure_eq_ok] at h ⊢
      rw [← Outcome.ok.inj h]

theorem readHardState_applySnapshot (storage : RaftStorage) (snapshot : Snapshot) :
    readHardState (applySnapshot prost storage snapshot) = readHardState storage := by
  unfold applySnapshot
  split <;> rfl

theorem readConfState_applySnapshot {snapshot : Snapshot} {metadata : SnapshotMetadata}
    (hmetadata : snapshot.metadata = some metadata) :
    readConfState (applySnapshot prost storage snapshot) =
      match metadata.confState with
      | some confState => (deserializeConfState (serializeConfState confState)).mapErr .codec
      | none => readConfState storage := by
  rw [applySnapshot, hmetadata]
  cases hconf : metadata.confState with
  | some confState => simp only [readConfState, hconf, Table.getElem?_insert_self]
  | none => simp only [readConfState, hconf]

/-! ### Runs -/

/-- The hard state an operation saves. -/
def savedHardState (hardState : HardState) : Op → HardState
  | .saveHardState saved => saved
  | _ => hardState

/-- The conf state a snapshot carries. -/
def appliedConfState (confState : ConfState) : Op → ConfState
  | .applySnapshot snapshot => (snapshot.metadata.bind SnapshotMetadata.confState).getD confState
  | _ => confState

def lastHardState (ops : List Op) : HardState := ops.foldl savedHardState {}

def lastConfState (ops : List Op) : ConfState := ops.foldl appliedConfState {}

/-- The conf state an operation carries, if any, has lists that fit. -/
def ConfStateFits : Op → Prop
  | .applySnapshot snapshot => ∀ confState ∈ snapshot.metadata.bind SnapshotMetadata.confState, confState.Encodable
  | _ => True

/-- The two records read as these states. -/
structure Recovers (storage : RaftStorage) (hardState : HardState) (confState : ConfState) : Prop where
  hardState_eq : readHardState storage = .ok hardState
  confState_eq : readConfState storage = .ok confState

variable {hardState : HardState} {confState : ConfState}

theorem recovers_new : Recovers (new {}) {} {} where
  hardState_eq := by
    rw [readHardState, show (new {}).hardStateTable = ∅ from rfl, Std.ExtTreeMap.getElem?_empty]
    rfl
  confState_eq := by
    rw [readConfState, show (new {}).confStateTable = ∅ from rfl, Std.ExtTreeMap.getElem?_empty]
    rfl

theorem Recovers.saveHardState (h : Recovers storage hardState confState) (saved : HardState) :
    Recovers (saveHardState storage saved) saved confState where
  hardState_eq := by
    rw [readHardState, RaftStorage.saveHardState]
    simp only [Table.getElem?_insert_self, deserializeHardState_serializeHardState, Outcome.mapErr_ok]
  confState_eq := h.confState_eq

theorem Recovers.append (h : Recovers storage hardState confState) (entries : List Entry) :
    Recovers (append storage entries) hardState confState := by
  cases entries with
  | nil => exact h
  | cons entry rest => exact ⟨h.hardState_eq, h.confState_eq⟩

theorem Recovers.applySnapshot (prost : ProstCodec Snapshot) (h : Recovers storage hardState confState)
    {snapshot : Snapshot} (hfits : ConfStateFits (.applySnapshot snapshot)) :
    Recovers (applySnapshot prost storage snapshot) hardState (appliedConfState confState (.applySnapshot snapshot)) where
  hardState_eq := by
    rw [readHardState_applySnapshot]
    exact h.hardState_eq
  confState_eq := by
    rw [appliedConfState]
    cases hmetadata : snapshot.metadata with
    | none =>
        rw [RaftStorage.applySnapshot, hmetadata]
        exact h.confState_eq
    | some metadata =>
        rw [readConfState_applySnapshot hmetadata, Option.bind_some]
        cases hconf : metadata.confState with
        | none => exact h.confState_eq
        | some applied =>
            have hencodable : applied.Encodable := hfits applied (by rw [hmetadata, Option.bind_some, hconf]; rfl)
            simp only [deserializeConfState_serializeConfState hencodable, Outcome.mapErr_ok, Option.getD_some]

theorem recovers_exec (prost : ProstCodec Snapshot) (h : Recovers storage hardState confState) {op : Op}
    (hfits : ConfStateFits op) :
    Recovers (exec prost storage op) (savedHardState hardState op) (appliedConfState confState op) := by
  cases op with
  | saveHardState saved => exact h.saveHardState saved
  | append entries => exact h.append entries
  | applySnapshot snapshot => exact h.applySnapshot prost hfits
  | compact compactIndex => exact ⟨h.hardState_eq, h.confState_eq⟩

theorem recovers_final (prost : ProstCodec Snapshot) (h : Recovers storage hardState confState) {ops : List Op}
    (hfits : ∀ op ∈ ops, ConfStateFits op) :
    Recovers (Run.final (exec prost) storage ops) (ops.foldl savedHardState hardState)
      (ops.foldl appliedConfState confState) := by
  induction ops generalizing storage hardState confState with
  | nil => exact h
  | cons op rest ih =>
      have hnext := recovers_exec prost h (hfits op List.mem_cons_self)
      exact ih hnext (fun other hmem => hfits other (List.mem_cons_of_mem _ hmem))

/-- **A restart reads back the last hard state saved and the last conf state applied.** -/
theorem initialState_reopened (prost : ProstCodec Snapshot) (ops : List Op) (hfits : ∀ op ∈ ops, ConfStateFits op) :
    initialState (new (run prost ops).database) = .ok ⟨lastHardState ops, lastConfState ops⟩ := by
  have hreopened : new (run prost ops).database = run prost ops := rfl
  have hrecovers := recovers_final prost recovers_new hfits
  rw [hreopened, initialState, run, hrecovers.hardState_eq, Outcome.ok_bind, hrecovers.confState_eq]
  rfl

theorem initialState_reopened_voters :
    initialState (new (run prostSnapshot [.saveHardState ⟨3, 2, 0⟩, .append [.noop 1 3],
        .applySnapshot ⟨[], some ⟨some { voters := [1, 2, 300], autoLeave := true }, 4, 3⟩⟩, .compact 2,
        .applySnapshot (.bare 6 3)]).database) =
      .ok ⟨⟨3, 2, 0⟩, { voters := [1, 2, 300], autoLeave := true }⟩ := by
  apply initialState_reopened prostSnapshot
  intro op hmem
  simp only [List.mem_cons, List.not_mem_nil, or_false] at hmem
  rcases hmem with rfl | rfl | rfl | rfl | rfl
  · trivial
  · trivial
  · intro confState hconf
    obtain rfl := Option.some.inj hconf
    exact ⟨by decide, by decide, by decide, by decide⟩
  · trivial
  · intro confState hconf
    cases hconf

end RaftStorage

end IrohRaft
