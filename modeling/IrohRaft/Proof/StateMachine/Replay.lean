import IrohRaft.Proof.StateMachine.KvCodec

/-!
# Replaying commands

Commands determine the data and the two counters of a store; the clock only enters the time of the last
update. `KvContents` is a store without that time, and a run of commands is a fold over it
(`applyCommands_contents`). Replaying a log, comparing two replicas and catching up from a snapshot are
read off that fold.
-/

namespace IrohRaft

open Rust Bincode

/-- What commands determine of a store. -/
structure KvContents where
  data : HashMap Str Str
  operationCount : UInt64
  version : UInt64

def KvState.contents (state : KvState) : KvContents :=
  ⟨state.data, state.metadata.operationCount, state.metadata.version⟩

/-- What a command makes of the data. -/
def KvCommand.applyTo (data : HashMap Str Str) : KvCommand → HashMap Str Str
  | .set key value => data.insert key value
  | .delete key => data.erase key
  | .clear => ∅

namespace KvContents

/-- This many more operations can be counted. -/
def Fits (contents : KvContents) (count : Nat) : Prop :=
  contents.operationCount.toNat + count < 2 ^ 64 ∧ contents.version.toNat + count < 2 ^ 64

instance (contents : KvContents) (count : Nat) : Decidable (contents.Fits count) :=
  inferInstanceAs (Decidable (_ ∧ _))

def next (contents : KvContents) (command : KvCommand) : KvContents :=
  ⟨command.applyTo contents.data, contents.operationCount + 1, contents.version + 1⟩

/-- One command: a counter that cannot count it panics. -/
def apply (contents : KvContents) (command : KvCommand) : Outcome RaftError KvContents :=
  if contents.Fits 1 then .ok (contents.next command) else .panic

def stateAt (contents : KvContents) (lastUpdated : DateTime) : KvState where
  data := contents.data
  metadata := { operationCount := contents.operationCount, lastUpdated, version := contents.version }

theorem fits_next {contents : KvContents} (command : KvCommand) {count : Nat} (h : contents.Fits 1) :
    (contents.next command).Fits count ↔ contents.Fits (count + 1) := by
  have hcount : (contents.operationCount + 1).toNat = contents.operationCount.toNat + 1 := toNat_add_of_lt h.1
  have hversion : (contents.version + 1).toNat = contents.version.toNat + 1 := toNat_add_of_lt h.2
  rw [Fits, Fits, next, hcount, hversion]
  omega

end KvContents

/-! ### One command -/

namespace KeyValueStore

/-- An update of the metadata counts one operation, or panics. -/
theorem updateMetadata_cases (now : DateTime) (self : KeyValueStore) :
    (self.state.contents.Fits 1 ∧ updateMetadata now self =
      (.ok (), ⟨⟨self.state.data, ⟨self.state.metadata.operationCount + 1, now, self.state.metadata.version + 1⟩⟩⟩)) ∨
    (¬ self.state.contents.Fits 1 ∧ ∃ left, updateMetadata now self = (.panic, left)) := by
  by_cases hcount : self.state.metadata.operationCount.toNat + (1 : UInt64).toNat < 2 ^ 64
  · by_cases hversion : self.state.metadata.version.toNat + (1 : UInt64).toNat < 2 ^ 64
    · refine .inl ⟨⟨hcount, hversion⟩, ?_⟩
      simp only [updateMetadata, u64Add_of_lt hcount, u64Add_of_lt hversion]
    · refine .inr ⟨fun h => hversion h.2, ?_⟩
      simp only [updateMetadata, u64Add_of_lt hcount, u64Add_of_not_lt hversion]
      exact ⟨_, rfl⟩
  · refine .inr ⟨fun h => hcount h.1, self, ?_⟩
    simp only [updateMetadata, u64Add_of_not_lt hcount]

theorem applyCommand_eq (command : KvCommand) (now : DateTime) (self : KeyValueStore) :
    applyCommand command now self =
      (setData (command.applyTo self.state.data) >>= fun _ => updateMetadata now >>= fun _ =>
        pure KvResponse.ok : Action KeyValueStore RaftError KvResponse) self := by
  cases command <;> rfl

/-- What a command can do: it takes effect on the data and counts, or it panics. -/
theorem applyCommand_cases (command : KvCommand) (now : DateTime) (self : KeyValueStore) :
    (self.state.contents.Fits 1 ∧ applyCommand command now self =
      (.ok .ok, ⟨(self.state.contents.next command).stateAt now⟩)) ∨
    (¬ self.state.contents.Fits 1 ∧ ∃ left, applyCommand command now self = (.panic, left)) := by
  have hdata : setData (command.applyTo self.state.data) self =
      (.ok (), ⟨⟨command.applyTo self.state.data, self.state.metadata⟩⟩) := rfl
  rw [applyCommand_eq, Action.bind_of_ok hdata]
  cases updateMetadata_cases now ⟨⟨command.applyTo self.state.data, self.state.metadata⟩⟩ with
  | inl hcounted =>
      obtain ⟨hfits, hupdate⟩ := hcounted
      rw [Action.bind_of_ok hupdate]
      exact .inl ⟨hfits, rfl⟩
  | inr hpanic =>
      obtain ⟨hfits, left, hupdate⟩ := hpanic
      rw [Action.bind_of_panic hupdate]
      exact .inr ⟨hfits, left, rfl⟩

theorem applyCommand_contents (command : KvCommand) (now : DateTime) (self : KeyValueStore) :
    (fun store => store.state.contents) <$> (applyCommand command now).exec self =
      self.state.contents.apply command := by
  cases applyCommand_cases command now self with
  | inl hcounted =>
      rw [Action.exec_of_ok hcounted.2, KvContents.apply, if_pos hcounted.1]
      rfl
  | inr hpanic =>
      obtain ⟨hfits, left, hleft⟩ := hpanic
      rw [Action.exec, hleft, KvContents.apply, if_neg hfits]
      rfl

end KeyValueStore

/-! ### Runs -/

theorem exec_applyCommands_cons {T Command State Response Query QueryResponse : Type}
    (machine : StateMachine T Command State Response Query QueryResponse) (command : Command) (now : DateTime)
    (rest : List (Command × DateTime)) (self : T) :
    (machine.applyCommands ((command, now) :: rest)).exec self =
      (machine.applyCommand command now).exec self >>= (machine.applyCommands rest).exec := by
  show ((machine.applyCommand command now >>= fun _ => pure ()) >>= fun _ => machine.applyCommands rest).exec self = _
  rw [Action.exec_bind_const, Action.exec_bind_const]
  show ((machine.applyCommand command now).exec self >>= pure) >>= _ = _
  rw [bind_pure]

/-- A run of commands is a fold over the contents, whatever the clock shows. -/
theorem applyCommands_contents (serde : Serde KvState) (run : List (KvCommand × DateTime)) (self : KeyValueStore) :
    (fun store => store.state.contents) <$> ((keyValueStore serde).applyCommands run).exec self =
      (run.map Prod.fst).foldlM KvContents.apply self.state.contents := by
  induction run generalizing self with
  | nil => rfl
  | cons timed rest ih =>
      obtain ⟨command, now⟩ := timed
      have hfirst := KeyValueStore.applyCommand_contents command now self
      rw [exec_applyCommands_cons, List.map_cons, List.foldlM_cons, ← hfirst]
      show _ <$> ((KeyValueStore.applyCommand command now).exec self >>= _) = _
      cases (KeyValueStore.applyCommand command now).exec self with
      | ok store => exact ih store
      | err error => rfl
      | panic => rfl

/-- The state a run leaves: the fold over the commands, at the last time that was read. -/
theorem applyCommands_state {serde : Serde KvState} {run : List (KvCommand × DateTime)} {self left : KeyValueStore}
    (h : ((keyValueStore serde).applyCommands run).exec self = .ok left) :
    left.state = ((run.map Prod.fst).foldl KvContents.next self.state.contents).stateAt
      ((run.map Prod.snd).getLast?.getD self.state.metadata.lastUpdated) := by
  induction run generalizing self with
  | nil =>
      cases h
      rfl
  | cons timed rest ih =>
      obtain ⟨command, now⟩ := timed
      rw [exec_applyCommands_cons] at h
      change (KeyValueStore.applyCommand command now).exec self >>= _ = _ at h
      cases KeyValueStore.applyCommand_cases command now self with
      | inl hcounted =>
          rw [Action.exec_of_ok hcounted.2, Outcome.ok_bind] at h
          rw [ih h, List.map_cons, List.map_cons, List.foldl_cons, List.getLast?_cons, Option.getD_some]
          rfl
      | inr hpanic =>
          obtain ⟨_, stuck, hstuck⟩ := hpanic
          rw [Action.exec, hstuck] at h
          cases h

/-! ### Committed entries -/

/-- A committed entry holds this command, or is the no-op of a new leader. -/
def Entry.Carries (entry : Entry) : Option KvCommand → Prop
  | none => entry.data = []
  | some command => entry.data = KvCommand.serde.serialize command

open GenericRaftStateMachine in
/-- Replaying a log as it should go: every entry is answered, the no-ops leave the data alone, and the
commands take effect in order. -/
structure Replayed (serde : Serde KvState) (log : List (Entry × DateTime)) (commands : List (Option KvCommand))
    (store : GenericRaftStateMachine KeyValueStore) : Prop where
  answered : ∀ result ∈ (applyEntries (keyValueStore serde) log store).1, ∃ response, result = .ok response
  noops : ∀ before entry after, log = before ++ entry :: after → entry.1.data = [] →
    (applyEntries (keyValueStore serde) (before ++ [entry]) store).2.inner.state.data =
      (applyEntries (keyValueStore serde) before store).2.inner.state.data
  folded : (applyEntries (keyValueStore serde) log store).2.inner.state.data =
    (commands.filterMap id).foldl KvCommand.applyTo store.inner.state.data

namespace GenericRaftStateMachine

variable {serde : Serde KvState} {entry : Entry} {self : GenericRaftStateMachine KeyValueStore}

/-- The comment says that empty entries are skipped; they are reported as an error. -/
theorem applyEntry_of_empty (now : DateTime) (h : entry.data = []) :
    applyEntry (keyValueStore serde) entry now self = (.err (.invalidInput "entry" "Entry data is empty"), self) := by
  rw [applyEntry, Outcome.rejectIf_of _ h]
  rfl

/-- An entry with a command does what the command does to the store. -/
theorem applyEntry_cases (serde : Serde KvState) (self : GenericRaftStateMachine KeyValueStore) {command : KvCommand}
    (now : DateTime) (h : entry.Carries (some command)) :
    (self.inner.state.contents.Fits 1 ∧ applyEntry (keyValueStore serde) entry now self =
      (.ok .ok, ⟨⟨(self.inner.state.contents.next command).stateAt now⟩⟩)) ∨
    (¬ self.inner.state.contents.Fits 1 ∧ ∃ left, applyEntry (keyValueStore serde) entry now self = (.panic, left)) := by
  have hdata : entry.data = KvCommand.serde.serialize command := h
  have hnonempty : ¬ entry.data = [] := by
    rw [hdata]
    exact command.serialize_ne_nil
  have hcall : applyEntry (keyValueStore serde) entry now self = onInner (KeyValueStore.applyCommand command now) self := by
    rw [applyEntry, Outcome.rejectIf_of_not _ hnonempty, hdata]
    show (Action.lift (deserializeBinary KvCommand.serde (KvCommand.serde.serialize command)) >>= fun command =>
      onInner (KeyValueStore.applyCommand command now)) self = _
    rw [deserializeBinary_serialize command.serde_roundTrips]
    rfl
  rw [hcall, onInner]
  cases KeyValueStore.applyCommand_cases command now self.inner with
  | inl hcounted =>
      rw [hcounted.2]
      exact .inl ⟨hcounted.1, rfl⟩
  | inr hpanic =>
      obtain ⟨hfits, left, hleft⟩ := hpanic
      rw [hleft]
      exact .inr ⟨hfits, _, rfl⟩

/-- Every entry of a log is answered exactly when none is empty and the counters last. -/
theorem applyEntries_answered_iff {log : List (Entry × DateTime)} {commands : List (Option KvCommand)}
    (h : List.Forall₂ (fun timed command => timed.1.Carries command) log commands) :
    (∀ result ∈ (applyEntries (keyValueStore serde) log self).1, ∃ response, result = .ok response) ↔
      (∀ timed ∈ log, timed.1.data ≠ []) ∧ self.inner.state.contents.Fits log.length := by
  induction h generalizing self with
  | nil =>
      have hfits : self.inner.state.contents.Fits 0 :=
        ⟨self.inner.state.contents.operationCount.toNat_lt, self.inner.state.contents.version.toNat_lt⟩
      simp [applyEntries, hfits]
  | @cons timed command log commands hcarries _ ih =>
      obtain ⟨entry, now⟩ := timed
      cases command with
      | none =>
          have hempty : entry.data = [] := hcarries
          simp [applyEntries, applyEntry_of_empty now hempty, hempty]
      | some command =>
          have hnonempty : entry.data ≠ [] := by
            rw [show entry.data = KvCommand.serde.serialize command from hcarries]
            exact command.serialize_ne_nil
          cases applyEntry_cases serde self now hcarries with
          | inl hcounted =>
              obtain ⟨hfits, hstep⟩ := hcounted
              simp only [applyEntries, hstep, List.forall_mem_cons, ih, List.length_cons]
              rw [← KvContents.fits_next command hfits]
              exact ⟨fun hrest => ⟨⟨hnonempty, hrest.2.1⟩, hrest.2.2⟩, fun hall => ⟨⟨_, rfl⟩, hall.1.2, hall.2⟩⟩
          | inr hpanic =>
              obtain ⟨hfits, left, hstep⟩ := hpanic
              simp only [applyEntries, hstep, List.forall_mem_cons, List.length_cons]
              apply Iff.intro
              · intro hanswered
                obtain ⟨response, hresponse⟩ := hanswered.1
                cases hresponse
              · intro hall
                apply absurd _ hfits
                have hlast := hall.2
                simp only [KvContents.Fits] at hlast ⊢
                omega

/-- Without empty entries the data is the fold of the commands. -/
theorem applyEntries_data {log : List (Entry × DateTime)} {commands : List (Option KvCommand)}
    (h : List.Forall₂ (fun timed command => timed.1.Carries command) log commands)
    (hnonempty : ∀ timed ∈ log, timed.1.data ≠ []) (hfits : self.inner.state.contents.Fits log.length) :
    (applyEntries (keyValueStore serde) log self).2.inner.state.data =
      (commands.filterMap id).foldl KvCommand.applyTo self.inner.state.data := by
  induction h generalizing self with
  | nil => rfl
  | @cons timed command log commands hcarries _ ih =>
      obtain ⟨entry, now⟩ := timed
      cases command with
      | none => exact absurd hcarries (hnonempty _ List.mem_cons_self)
      | some command =>
          cases applyEntry_cases serde self now hcarries with
          | inl hcounted =>
              obtain ⟨hone, hstep⟩ := hcounted
              have hlater : ∀ timed ∈ log, timed.1.data ≠ [] :=
                fun timed htimed => hnonempty timed (List.mem_cons_of_mem _ htimed)
              have hrest : ((self.inner.state.contents.next command).stateAt now).contents.Fits log.length :=
                (KvContents.fits_next command hone).mpr hfits
              rw [applyEntries, hstep]
              exact ih hlater hrest
          | inr hpanic =>
              apply absurd _ hpanic.1
              simp only [KvContents.Fits, List.length_cons] at hfits ⊢
              omega

end GenericRaftStateMachine

/-- **Committed-log replay.** It goes as it should exactly when the log holds no empty entry (and the
counters of operations and versions last for its commands). -/
theorem replayed_iff {serde : Serde KvState} {log : List (Entry × DateTime)} {commands : List (Option KvCommand)}
    (store : GenericRaftStateMachine KeyValueStore)
    (h : List.Forall₂ (fun timed command => timed.1.Carries command) log commands) :
    Replayed serde log commands store ↔
      (∀ timed ∈ log, timed.1.data ≠ []) ∧ store.inner.state.contents.Fits log.length := by
  apply Iff.intro
  · intro hreplayed
    exact (GenericRaftStateMachine.applyEntries_answered_iff h).mp hreplayed.answered
  · intro hall
    exact {
      answered := (GenericRaftStateMachine.applyEntries_answered_iff h).mpr hall
      noops := fun before entry after hlog hempty =>
        absurd hempty (hall.1 entry (hlog ▸ List.mem_append_right before List.mem_cons_self))
      folded := GenericRaftStateMachine.applyEntries_data h hall.1 hall.2 }

theorem replayed_set_delete :
    Replayed (KvState.serde .epoch)
      [(⟨0, 1, 1, KvCommand.serde.serialize (.set ⟨"a", by decide⟩ ⟨"1", by decide⟩), [], false⟩, 0),
        (⟨0, 1, 2, KvCommand.serde.serialize (.delete ⟨"a", by decide⟩), [], false⟩, 5)]
      [some (.set ⟨"a", by decide⟩ ⟨"1", by decide⟩), some (.delete ⟨"a", by decide⟩)] ⟨KeyValueStore.new 0⟩ := by
  refine (replayed_iff _ ?_).mpr ⟨by decide, by decide⟩
  exact .cons rfl (.cons rfl .nil)

/-- The entry a new leader commits. -/
theorem not_replayed :
    ¬ ∀ (serde : Serde KvState) (log : List (Entry × DateTime)) (commands : List (Option KvCommand))
      (store : GenericRaftStateMachine KeyValueStore),
      List.Forall₂ (fun timed command => timed.1.Carries command) log commands → Replayed serde log commands store := by
  intro hall
  have hreplayed := hall (KvState.serde .epoch) [(Entry.noop 1 1, 0)] [none] ⟨KeyValueStore.new 0⟩ (.cons rfl .nil)
  obtain ⟨response, hresponse⟩ := hreplayed.answered _ (List.mem_singleton_self _)
  cases hresponse

end IrohRaft
