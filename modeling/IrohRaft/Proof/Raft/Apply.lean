import IrohRaft.Proof.Raft.Runs

/-!
# Committed entries reach the state machine once

The manager applies every committed normal entry once and in order in a run in which the Readys that are handled right
after a step bring no normal entry and no snapshot, and in which what `on_ready` reads back from the storage is what the
LightReady brings. A follower that learns of entries together with their commit meets neither.
-/

namespace IrohRaft.RaftManager

open Rust Redb

/-! ### Exactly once -/

def isNormal (entry : Entry) : Bool := entry.kind = .entryNormal

/-- A snapshot that comes with a Ready is installed before the node advances. -/
def InstallsFirst (handled : Handled) : Prop :=
  RaftSnapshotManager.isEmpty handled.ready.snapshot = false → ∀ before after, handled.effects = before ++ .advance :: after →
    .installSnapshot handled.ready.snapshot ∈ before

structure AppliesExactlyOnce (history : List Handled) : Prop where
  once : ∀ entry ∈ handedOut history, entry.kind = .entryNormal → (appliedEntries history).count entry = 1
  inOrder : (appliedEntries history).Pairwise fun first second => first.index < second.index
  installsFirst : ∀ handled ∈ history, InstallsFirst handled

/-! ### When -/

/-- A Ready that is handled right after a step brings nothing for the state machine. -/
structure Round.NothingToApply (round : Round) : Prop where
  snapshot : RaftSnapshotManager.isEmpty round.ready.snapshot = true
  entries : ∀ entry ∈ round.ready.committedEntries ++ round.light.committedEntries, isNormal entry = false

/-- Everything that handling the Ready asks for succeeds. -/
structure Round.Succeeds (codec : ManagerCodec) (database : Redb.Database) (round : Round) : Prop where
  installs : round.Installs codec
  persists : round.Persists codec
  savesCommit : round.SavesCommit codec
  accepts : ∀ entry ∈ round.ready.committedEntries ++ round.readBack codec database, round.Accepts codec entry

/-- What is read back is what the LightReady brings, and nothing fails that a normal entry needs. -/
structure Round.AppliesAll (codec : ManagerCodec) (database : Redb.Database) (round : Round) : Prop where
  readBack : (round.readBack codec database).filter isNormal = round.light.committedEntries.filter isNormal
  succeeds : (∀ entry ∈ round.ready.committedEntries ++ round.light.committedEntries, isNormal entry = false) ∨
    round.Succeeds codec database

/-- A run whose Readys apply what they bring. -/
def AppliesInRun (codec : ManagerCodec) : RaftManager → List Input → Prop :=
  RunMeets codec Round.NothingToApply (Round.AppliesAll codec)

/-! ### One Ready -/

/-- The state machine is given the normal entries that were handed out, and the snapshot comes first. -/
structure Applies (handled : Handled) : Prop where
  entries : handled.effects.filterMap Effect.appliedEntry = handled.handedOut.filter isNormal
  installsFirst : InstallsFirst handled

theorem filterMap_entryEffects (entries : List Entry) :
    (entries.flatMap entryEffects).filterMap Effect.appliedEntry = entries.filter isNormal := by
  induction entries with
  | nil => simp
  | cons entry rest ih =>
      rw [List.flatMap_cons, List.filterMap_append, ih, List.filter_cons, entryEffects, isNormal]
      cases entry.kind <;> simp [Effect.appliedEntry]

theorem filterMap_nil_of_shape {effects : List Effect} {shape : Effect → Prop} (h : ∀ effect ∈ effects, shape effect)
    (hshape : ∀ effect, shape effect → effect.appliedEntry = none) : effects.filterMap Effect.appliedEntry = [] :=
  List.filterMap_eq_nil_iff.mpr fun effect heffect => hshape effect (h effect heffect)

variable {codec : ManagerCodec} {round : Round} {database : Redb.Database} {nodeId : UInt64} {isOpen : Prop}
  {effects : List Effect} {messages : List Message}

theorem filterMap_writes (h : effects ⊆ installEffects round.ready ++ persistEffects round.ready) :
    effects.filterMap Effect.appliedEntry = [] := by
  refine filterMap_nil_of_shape (fun effect heffect => mem_writes (h heffect)) fun effect hshape => ?_
  obtain ⟨_, rfl⟩ | ⟨_, rfl⟩ | ⟨_, rfl⟩ := hshape <;> rfl

theorem filterMap_sends (h : Sends nodeId isOpen messages effects) : effects.filterMap Effect.appliedEntry = [] := by
  refine filterMap_nil_of_shape h.only fun effect hshape => ?_
  obtain ⟨message, rfl⟩ := hshape
  rfl

theorem filterMap_confChanges (entries : List Entry) :
    (entries.flatMap confChangeEffects).filterMap Effect.appliedEntry = [] := by
  refine List.filterMap_eq_nil_iff.mpr fun effect heffect => ?_
  obtain ⟨entry, -, hentry⟩ := List.mem_flatMap.mp heffect
  rw [mem_confChangeEffects hentry]
  rfl

theorem filter_isNormal_eq_nil {entries : List Entry} (h : ∀ entry ∈ entries, isNormal entry = false) :
    entries.filter isNormal = [] :=
  List.filter_eq_nil_iff.mpr fun entry hentry => by simp [h entry hentry]

theorem applies_inline (hround : round.NothingToApply) (h : InlineTrace codec round nodeId isOpen effects) :
    Applies ⟨round.ready, round.light, effects⟩ := by
  have hpersist : (persistEffects round.ready).filterMap Effect.appliedEntry = [] := filterMap_writes (List.subset_append_right _ _)
  have happlied : effects.filterMap Effect.appliedEntry = [] := by
    cases h with
    | writing done hdone hstop => exact filterMap_writes (List.Subset.trans hdone.subset (List.subset_append_right _ _))
    | applying sent persisted done hsent hpersisted =>
        simp [hpersist, filterMap_sends hsent, filterMap_sends hpersisted, filterMap_confChanges]
    | advanced sent persisted hsent hpersisted =>
        simp [hpersist, filterMap_sends hsent, filterMap_sends hpersisted, filterMap_confChanges, Effect.appliedEntry]
  refine ⟨?_, fun hfull => by simp [hround.snapshot] at hfull⟩
  rw [happlied, filter_isNormal_eq_nil fun entry hentry => hround.entries entry (handedOut_subset _ hentry)]

theorem installsFirst_of_not_mem {handled : Handled} (h : Effect.advance ∉ handled.effects) : InstallsFirst handled := by
  intro _ before after heffects
  exact absurd (heffects ▸ List.mem_append_right before List.mem_cons_self) h

theorem applies_ready (hround : round.AppliesAll codec database)
    (h : ReadyTrace codec round nodeId isOpen (round.readBack codec database) effects) :
    Applies ⟨round.ready, round.light, effects⟩ := by
  cases h with
  | writing done hdone hstop =>
      have hnone : Effect.advance ∉ effects := advance_not_mem_writes hdone.subset
      obtain hnothing | hsucceeds := hround.succeeds
      · refine ⟨?_, installsFirst_of_not_mem hnone⟩
        rw [filterMap_writes hdone.subset, filter_isNormal_eq_nil fun entry hentry => hnothing entry (handedOut_subset _ hentry)]
      · exact absurd ⟨hsucceeds.installs, hsucceeds.persists⟩ hstop
  | applying sent done rest hsent hentries hstop =>
      obtain hnothing | hsucceeds := hround.succeeds
      · have hdone : done.filter isNormal = [] := by
          refine filter_isNormal_eq_nil fun entry hentry => hnothing entry (List.mem_append_left _ ?_)
          exact hentries ▸ List.mem_append_left rest hentry
        refine ⟨?_, installsFirst_of_not_mem (advance_not_mem_before hsent done)⟩
        rw [filter_isNormal_eq_nil fun entry hentry => hnothing entry (handedOut_subset _ hentry), List.filterMap_append,
          List.filterMap_append, filterMap_writes (List.Subset.refl _), filterMap_sends hsent, filterMap_entryEffects, hdone]
        rfl
      · have haccepts (entry) (hentry : entry ∈ round.ready.committedEntries) := hsucceeds.accepts entry (List.mem_append_left _ hentry)
        exact absurd ⟨hsucceeds.persists.faultless, haccepts⟩ hstop
  | advanced sent lightSent saved done rest applied hsent hlight hsaved hentries happlied hstop =>
      have hdone : done.filter isNormal = round.light.committedEntries.filter isNormal := by
        obtain hnothing | hsucceeds := hround.succeeds
        · have hlightNone : round.light.committedEntries.filter isNormal = [] :=
            filter_isNormal_eq_nil fun entry hentry => hnothing entry (List.mem_append_right _ hentry)
          have hread := hround.readBack
          rw [hentries, List.filter_append, hlightNone, List.append_eq_nil_iff] at hread
          rw [hread.1, hlightNone]
        · have hrest : rest = [] := by
            by_contra hrest
            refine hstop hrest ⟨hsucceeds.persists.faultless, hsucceeds.savesCommit, fun entry hentry => ?_⟩
            exact hsucceeds.accepts entry (List.mem_append_right _ hentry)
          rw [← hround.readBack, hentries, hrest, List.append_nil]
      have hsavedNone : saved.filterMap Effect.appliedEntry = [] :=
        filterMap_nil_of_shape hsaved fun effect ⟨hardState, heq⟩ => heq ▸ rfl
      have happliedNone : applied.filterMap Effect.appliedEntry = [] :=
        filterMap_nil_of_shape happlied fun effect ⟨index, heq⟩ => heq ▸ rfl
      refine ⟨?_, fun hfull before after heffects => ?_⟩
      · rw [Handled.handedOut, if_pos (by simp), List.filter_append, ← hdone]
        simp [filterMap_writes (List.subset_append_left _ (persistEffects round.ready)),
          filterMap_writes (List.subset_append_right (installEffects round.ready) _), filterMap_sends hsent, filterMap_sends hlight,
          filterMap_entryEffects, hsavedNone, happliedNone, List.filterMap_cons, Effect.appliedEntry]
      · have hsplit : (installEffects round.ready ++ persistEffects round.ready ++ sent ++ round.ready.committedEntries.flatMap entryEffects) ++
            (.advance :: (lightSent ++ saved ++ done.flatMap entryEffects ++ applied)) = before ++ .advance :: after := by
          simpa using heffects
        have hprefix := Handler.prefix_before hsplit (advance_not_mem_before hsent round.ready.committedEntries)
        refine hprefix.subset (List.mem_append_left _ (List.mem_append_left _ (List.mem_append_left _ ?_)))
        simp only [installEffects, hfull]
        simp

/-! ### Runs -/

theorem ensures_applies (codec : ManagerCodec) (nodeId : UInt64) (isOpen : Prop) :
    Ensures codec Round.NothingToApply (Round.AppliesAll codec) nodeId isOpen Applies where
  ofInline _ hround _ h := applies_inline hround h
  ofReady _ _ hround _ h := applies_ready hround h

theorem applied_exactly_once (codec : ManagerCodec) (manager : RaftManager) (inputs : List Input)
    (hcontract : HandsOutOnce (history codec manager inputs)) (hmeets : AppliesInRun codec manager inputs) :
    AppliesExactlyOnce (history codec manager inputs) := by
  have hgood := history_good (ensures_applies codec manager.nodeId (manager.outgoingMessages = none)) hmeets
  have happlied : appliedEntries (history codec manager inputs) = (handedOut (history codec manager inputs)).filter isNormal :=
    flatMap_filterMap_eq fun handled hhandled => (hgood handled hhandled).entries
  refine ⟨fun entry hentry hnormal => ?_, ?_, fun handled hhandled => (hgood handled hhandled).installsFirst⟩
  · rw [happlied]
    exact count_filter_eq_one hcontract hentry (by simpa [isNormal] using hnormal)
  · rw [happlied]
    exact hcontract.filter _

/-- A node that is alone commits the entry of its election as it writes it. -/
def loneLeader : Round where
  ready := { hs := some { term := 1, vote := 1 }, entries := [.noop 1 1] }
  light := { commitIndex := some 1, committedEntries := [.noop 1 1] }
  hardState := { term := 1, vote := 1 }
  committed := 1

theorem applied_exactly_once_alone :
    AppliesExactlyOnce (history .ofStorage (freshManager 1) [.tick (some loneLeader) true none]) := by
  refine applied_exactly_once .ofStorage (freshManager 1) [.tick (some loneLeader) true none] ?_ ⟨fun _ => ⟨?_, ?_⟩, trivial⟩
  · show List.Pairwise _ _
    decide
  · intro round hround
    obtain rfl := Option.some.inj hround
    have hentries : loneLeader.ready.committedEntries ++ loneLeader.readBack .ofStorage {} = [.noop 1 1] := by decide
    refine ⟨by decide, .inr ⟨?_, ⟨by decide, fun _ => ⟨(), rfl⟩, ?_⟩, ?_, ?_⟩⟩
    · exact fun hfull => absurd hfull (by decide)
    · exact fun _ _ _ => ⟨(), rfl⟩
    · exact fun _ _ _ => ⟨(), rfl⟩
    · intro entry hentry hkind
      obtain rfl := List.mem_singleton.mp (hentries ▸ hentry)
      exact absurd hkind (by decide)
  · intro _ _ round hround
    simp at hround

/-- A follower is sent two entries and told that they are committed. Its LightReady brings them, once they are written. -/
def caughtUpFollower : Round where
  ready :=
    { hs := some { term := 1, commit := 2 }
      entries := [.noop 1 1, { entryType := 0, term := 1, index := 2, data := [7], context := [], syncLog := false }]
      persistedMessages := [{ msgType := 4, toId := 1, fromId := 0, term := 1, index := 2 }] }
  light :=
    { committedEntries := [.noop 1 1, { entryType := 0, term := 1, index := 2, data := [7], context := [], syncLog := false }] }
  hardState := { term := 1, commit := 2 }
  committed := 2

/-- The message that brings them. -/
def appendFromLeader : Input :=
  .message 1 { msgType := 3, toId := 2, fromId := 1, term := 1, commit := 2 } (fun _ => .ok ()) (some caughtUpFollower) none

theorem not_applied_exactly_once : ¬ ∀ (codec : ManagerCodec) (manager : RaftManager) (inputs : List Input),
    HandsOutOnce (history codec manager inputs) → AppliesExactlyOnce (history codec manager inputs) := by
  intro h
  have hcontract : HandsOutOnce (history .ofStorage (freshManager 2) [appendFromLeader]) := by
    show List.Pairwise _ _
    decide
  have honce := (h .ofStorage (freshManager 2) [appendFromLeader] hcontract).once (.noop 1 1) (by decide) (by decide)
  exact absurd honce (by decide)

end IrohRaft.RaftManager
