import IrohRaft.Proof.Storage.Refine
import IrohRaft.Proof.Storage.Batch
import IrohRaft.Storage.Eraftpb

/-!
# The term before the log

What was written last at each index is read off the operations alone (`termsWritten`). The term at
`first_index() - 1` is that one as long as nothing is compacted before a snapshot is stored: the
snapshot record is the only place where the term of a removed index is kept.
-/

namespace IrohRaft

open Rust Redb RaftLog

namespace RaftStorage

def recordEntries (terms : Nat → Option UInt64) (entries : List Entry) : Nat → Option UInt64 :=
  entries.foldl (fun terms entry => Function.update terms entry.index.toNat (some entry.term)) terms

/-- An append writes the terms of its entries, a snapshot its own. -/
def record (terms : Nat → Option UInt64) : Op → Nat → Option UInt64
  | .append entries => recordEntries terms entries
  | .applySnapshot snapshot =>
      match snapshot.metadata with
      | some metadata => Function.update terms metadata.index.toNat (some metadata.term)
      | none => terms
  | _ => terms

/-- The term written last at each index, whether or not it is still stored. -/
def termsWritten (ops : List Op) : Nat → Option UInt64 := ops.foldl record fun _ => none

/-- The term the entry before the log has: 0 for index 0. -/
def precedingTerm (ops : List Op) (preceding : UInt64) : Option UInt64 :=
  if preceding = 0 then some 0 else termsWritten ops preceding.toNat

/-- `term(first_index() - 1)` is the term of the entry before the log. -/
def KnowsBoundary (prost : ProstCodec Snapshot) (ops : List Op) : Prop :=
  ∃ first preceding expected, firstIndex prost (run prost ops) = .ok first ∧
    preceding.toNat + 1 = first.toNat ∧ precedingTerm ops preceding = some expected ∧
    term prost (run prost ops) preceding = .ok expected

/-- Nothing is compacted before a snapshot is stored, and the index after a snapshot fits. -/
def KeepsBoundary (prost : ProstCodec Snapshot) (storage : RaftStorage) : Op → Prop
  | .saveHardState _ => True
  | .append _ => True
  | .applySnapshot snapshot => ∀ metadata ∈ snapshot.metadata, metadata.index.toNat + 1 < 2 ^ 64
  | .compact compactIndex => SnapshotStored storage ∨ (firstIndex prost storage).Returns (compactIndex ≤ ·)

instance (prost : ProstCodec Snapshot) (storage : RaftStorage) (op : Op) : Decidable (KeepsBoundary prost storage op) :=
  match op with
  | .saveHardState _ => isTrue trivial
  | .append _ => by
      dsimp only [KeepsBoundary]
      infer_instance
  | .applySnapshot _ => by
      dsimp only [KeepsBoundary]
      infer_instance
  | .compact _ => by
      dsimp only [KeepsBoundary]
      infer_instance

/-- Either the log stands on a snapshot with the term written last at its index, or it starts at 1. -/
def Bounded (log : Log UInt64) (terms : Nat → Option UInt64) : Prop :=
  (∃ index term, log.base = some (index, term) ∧ index + 1 < 2 ^ 64 ∧ terms index = some term) ∨
    (log.base = none ∧ log.IsFirst 1)

theorem recordEntries_of_ne (terms : Nat → Option UInt64) {entries : List Entry} {n : Nat}
    (hne : ∀ entry ∈ entries, entry.index.toNat ≠ n) : recordEntries terms entries n = terms n := by
  induction entries generalizing terms with
  | nil => rfl
  | cons entry rest ih =>
      have hhead := hne entry List.mem_cons_self
      have htail := ih (Function.update terms entry.index.toNat (some entry.term))
        (fun other hmem => hne other (List.mem_cons_of_mem _ hmem))
      rwa [Function.update_of_ne (Ne.symm hhead)] at htail

/-! ### One operation -/

variable {prost : ProstCodec Snapshot} {storage : RaftStorage} {log : Log UInt64} {terms : Nat → Option UInt64}

theorem Bounded.append (h : Bounded log terms) (hshows : Shows prost storage log) {entry : Entry} {rest : List Entry}
    (hcontiguous : Contiguous (entry :: rest)) (hat : AppendsAt prost storage entry) :
    Bounded (log.putAll ((entry :: rest).map item)) (recordEntries terms (entry :: rest)) := by
  obtain ⟨first, hfirst, hge⟩ := Outcome.returns_iff.mp hat.1
  obtain ⟨last, hlast, hle⟩ := Outcome.returns_iff.mp hat.2
  rw [hshows.firstIndex_iff] at hfirst
  rw [hshows.lastIndex_iff] at hlast
  rw [UInt64.le_iff_toNat_le] at hge
  cases h with
  | inl h =>
      obtain ⟨index, term, hbase, hfits, hterm⟩ := h
      refine Or.inl ⟨index, term, (Log.putAll_base _ _).trans hbase, hfits, ?_⟩
      rw [Log.isFirst_of_base hbase] at hfirst
      rw [recordEntries_of_ne, hterm]
      intro other hmem
      have hbounds := (hcontiguous.exists_index_iff _).mp ⟨other, hmem, rfl⟩
      omega
  | inr h =>
      obtain ⟨hbase, hone⟩ := h
      have hstart := hfirst.unique hone
      have hputBase := (Log.putAll_base log ((entry :: rest).map item)).trans hbase
      refine Or.inr ⟨hputBase, (Log.isFirst_of_no_base hputBase).mpr (Or.inl ⟨?_, fun n hn => ?_⟩)⟩
      · rw [holds_putAll_item]
        cases (Log.isFirst_of_no_base hbase).mp hone with
        | inl hleast => exact Or.inr hleast.1
        | inr hempty =>
            -- into an empty log the batch can only start at 1
            have hzero := hlast.eq_zero hbase hempty.1
            exact Or.inl ⟨entry, List.mem_cons_self, by omega⟩
      · cases holds_putAll_item.mp hn with
        | inl hbatch =>
            have hbounds := (hcontiguous.exists_index_iff n).mp hbatch
            omega
        | inr hold => exact hone.le_held hbase hold

theorem Bounded.install (log : Log UInt64) (terms : Nat → Option UInt64) (metadata : SnapshotMetadata)
    (hfits : metadata.index.toNat + 1 < 2 ^ 64) :
    Bounded (log.install metadata.index.toNat metadata.term)
      (Function.update terms metadata.index.toNat (some metadata.term)) :=
  Or.inl ⟨_, _, rfl, hfits, Function.update_self _ _ _⟩

theorem Bounded.compact (h : Bounded log terms) (hshows : Shows prost storage log) {compactIndex : UInt64}
    (hkeeps : SnapshotStored storage ∨ (firstIndex prost storage).Returns (compactIndex ≤ ·)) :
    Bounded (log.compact compactIndex.toNat) terms := by
  cases h with
  | inl h =>
      obtain ⟨index, term, hbase, hfits, hterm⟩ := h
      exact Or.inl ⟨index, term, hbase, hfits, hterm⟩
  | inr h =>
      obtain ⟨hbase, hone⟩ := h
      have hle : compactIndex.toNat ≤ 1 := by
        cases hkeeps with
        | inl hstored => exact absurd hbase ((hshows.snapshotStored_iff).mp hstored)
        | inr hreturns =>
            obtain ⟨first, hle, hfirst⟩ := hshows.firstIndex_returns hone hreturns
            rw [UInt64.le_iff_toNat_le, hfirst] at hle
            exact hle
      refine Or.inr ⟨hbase, ?_⟩
      rw [Log.isFirst_of_no_base hbase] at hone
      rw [Log.isFirst_of_no_base (show (log.compact compactIndex.toNat).base = none from hbase)]
      cases hone with
      | inl hone =>
          obtain ⟨hholds, hleast⟩ := hone
          exact Or.inl ⟨Log.holds_compact.mpr ⟨hle, hholds⟩, fun n hn => hleast n (Log.holds_compact.mp hn).2⟩
      | inr hone =>
          obtain ⟨hnone, _⟩ := hone
          exact Or.inr ⟨fun n hn => hnone n (Log.holds_compact.mp hn).2, rfl⟩

theorem bounded_exec (h : Bounded log terms) (hshows : Shows prost storage log) {op : Op}
    (hlegal : Legal prost storage op) (hkeeps : KeepsBoundary prost storage op) :
    Bounded (logExec log op) (record terms op) := by
  cases op with
  | saveHardState hardState => exact h
  | append batch =>
      obtain ⟨hcontiguous, entry, hhead, hat⟩ := hlegal
      cases batch with
      | nil => cases hhead
      | cons other rest =>
          obtain rfl := Option.some.inj hhead
          exact h.append hshows hcontiguous hat
  | applySnapshot snapshot =>
      cases hmetadata : snapshot.metadata with
      | none => simpa only [logExec, record, hmetadata] using h
      | some metadata =>
          have hinstall := Bounded.install log terms metadata (hkeeps metadata hmetadata)
          simpa only [logExec, record, hmetadata] using hinstall
  | compact compactIndex => exact h.compact hshows hkeeps

/-! ### The boundary, read -/

theorem knowsBoundary_of_bounded {ops : List Op} (hshows : Shows prost (run prost ops) log)
    (h : Bounded log (termsWritten ops)) : KnowsBoundary prost ops := by
  cases h with
  | inl h =>
      obtain ⟨index, term, hbase, hfits, hterm⟩ := h
      have hindex : (UInt64.ofNat index).toNat = index := UInt64.toNat_ofNat_of_lt' (by omega : index < 2 ^ 64)
      have hnext : (UInt64.ofNat (index + 1)).toNat = index + 1 := UInt64.toNat_ofNat_of_lt' hfits
      have hfirst := (hshows.firstIndex_iff).mpr (by rw [Log.isFirst_of_base hbase, hnext])
      have hread := hshows.term_eq (UInt64.ofNat index)
      rw [hindex] at hread
      by_cases hzero : index = 0
      · subst hzero
        exact ⟨_, 0, 0, hfirst, hnext.symm, if_pos rfl, hread⟩
      · have hne : UInt64.ofNat index ≠ 0 := fun heq => hzero (hindex.symm.trans (congrArg UInt64.toNat heq))
        refine ⟨_, UInt64.ofNat index, term, hfirst, by rw [hindex, hnext], ?_, ?_⟩
        · rw [precedingTerm, if_neg hne, hindex, hterm]
        · rw [hread, Log.term, if_neg hzero, hbase]
          simp only [if_true]
  | inr h =>
      obtain ⟨hbase, hone⟩ := h
      exact ⟨1, 0, 0, (hshows.firstIndex_iff).mpr hone, rfl, if_pos rfl, hshows.term_eq 0⟩

/-- **The term before the log is known** after every run that compacts only once a snapshot is stored. -/
theorem run_knowsBoundary (prost : ProstCodec Snapshot) (ops : List Op)
    (h : Run.Follows (exec prost) (fun storage op => Legal prost storage op ∧ KeepsBoundary prost storage op) (new {}) ops) :
    KnowsBoundary prost ops := by
  have hend := h.history (fun done storage => ∃ log, Shows prost storage log ∧ Bounded log (termsWritten done)) ?_ ?_
  · obtain ⟨log, hshows, hbounded⟩ := hend
    exact knowsBoundary_of_bounded hshows hbounded
  · intro done storage op hdone hop
    obtain ⟨log, hshows, hbounded⟩ := hdone
    obtain ⟨hlegal, hkeeps⟩ := hop
    refine ⟨logExec log op, shows_exec hshows op, ?_⟩
    rw [termsWritten, List.foldl_append]
    exact bounded_exec hbounded hshows hlegal hkeeps
  · refine ⟨Log.empty, shows_new, Or.inr ⟨rfl, ?_⟩⟩
    exact Log.Window.of_empty.isFirst

theorem run_knowsBoundary_after_snapshot :
    KnowsBoundary prostSnapshot
      [.append [.noop 1 1, .noop 2 1, .noop 3 2], .applySnapshot (.bare 2 1), .compact 3, .append [.noop 4 2]] :=
  run_knowsBoundary _ _ (by decide +kernel)

/-- Compacting a log that stands on no snapshot loses the term of the last index removed. -/
theorem not_run_knowsBoundary :
    ¬ ∀ (prost : ProstCodec Snapshot) (ops : List Op),
      Run.Follows (exec prost) (fun storage op => Legal prost storage op ∧ WritesLog op) (new {}) ops →
        KnowsBoundary prost ops := by
  intro hknows
  obtain ⟨first, preceding, expected, hfirst, hpreceding, _, hread⟩ := hknows prostSnapshot
    [.append [.noop 1 1, .noop 2 1, .noop 3 1], .compact 2] (by decide +kernel)
  have hfirst' : first = 2 := Outcome.ok.inj (hfirst.symm.trans (by decide +kernel))
  have hpreceding' : preceding = 1 := by
    apply UInt64.toNat_inj.mp
    rw [hfirst'] at hpreceding
    exact Nat.succ.inj hpreceding
  rw [hpreceding'] at hread
  have hmissing := hread.symm.trans (show _ = Outcome.err StorageError.unavailable by decide +kernel)
  cases hmissing

end RaftStorage

end IrohRaft
