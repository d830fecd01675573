import IrohRaft.Library.Register
import IrohRaft.Proof.StateMachine.Replay

/-!
# Queries

Every key is a register that `Set`, `Delete` and `Clear` write, and the data of a store is these registers
read key by key. All four queries read the data, so they answer from one map, and that map is said by the
history of commands alone.
-/

namespace IrohRaft

open Rust Bincode Register

/-- A command concerns a key when it decides what is stored under it. -/
def KvCommand.Concerns (command : KvCommand) (key : Str) : Prop :=
  match command with
  | .set other _ => other = key
  | .delete other => other = key
  | .clear => True

/-- What a command leaves under a key it concerns. -/
def KvCommand.leaves (key : Str) : KvCommand → Option (Option Str)
  | .set other value => if other = key then some (some value) else none
  | .delete other => if other = key then some none else none
  | .clear => some none

/-- The last command that concerns the key sets it to this value. -/
def LastSet (commands : List KvCommand) (key value : Str) : Prop :=
  ∃ before after, commands = before ++ .set key value :: after ∧ ∀ command ∈ after, ¬ command.Concerns key

namespace KvCommand

theorem leaves_eq_none_iff {command : KvCommand} {key : Str} : command.leaves key = none ↔ ¬ command.Concerns key := by
  cases command with
  | set other value => simp [leaves, Concerns]
  | delete other => simp [leaves, Concerns]
  | clear => simp [leaves, Concerns]

theorem leaves_eq_some_some_iff {command : KvCommand} {key value : Str} :
    command.leaves key = some (some value) ↔ command = .set key value := by
  cases command with
  | set other stored => simp [leaves]
  | delete other => simp [leaves]
  | clear => simp [leaves]

/-- One command writes each key's register. -/
theorem getElem?_applyTo (data : HashMap Str Str) (command : KvCommand) (key : Str) :
    (command.applyTo data)[key]? = (command.leaves key).getD data[key]? := by
  cases command with
  | set other value =>
      rw [applyTo, leaves, HashMap.getElem?_insert_if]
      split <;> simp
  | delete other =>
      rw [applyTo, leaves, HashMap.getElem?_erase_if]
      split <;> simp
  | clear => simp [applyTo, leaves]

end KvCommand

theorem lastWrite_leaves_iff {commands : List KvCommand} {key value : Str} :
    lastWrite (KvCommand.leaves key) commands = some (some value) ↔ LastSet commands key value := by
  rw [lastWrite_eq_some_iff, LastSet]
  simp only [KvCommand.leaves_eq_some_some_iff, KvCommand.leaves_eq_none_iff]
  apply Iff.intro
  · intro hsplit
    obtain ⟨before, command, after, heq, hset, hquiet⟩ := hsplit
    exact ⟨before, after, by rw [heq, hset], hquiet⟩
  · intro hsplit
    obtain ⟨before, after, heq, hquiet⟩ := hsplit
    exact ⟨before, .set key value, after, heq, rfl, hquiet⟩

/-- What a run of commands leaves under a key of an empty store. -/
theorem getElem?_foldl_next (contents : KvContents) (commands : List KvCommand) (key : Str) :
    (commands.foldl KvContents.next contents).data[key]? =
      (lastWrite (KvCommand.leaves key) commands).getD contents.data[key]? :=
  read_foldl (fun contents : KvContents => contents.data[key]?)
    (fun contents command => KvCommand.getElem?_applyTo contents.data command key) contents commands

/-! ### Counting -/

namespace KvContents

/-- A run is applied exactly when its commands can be counted. -/
theorem foldlM_apply (contents : KvContents) (commands : List KvCommand) :
    commands.foldlM apply contents =
      if contents.Fits commands.length then .ok (commands.foldl next contents) else .panic := by
  induction commands generalizing contents with
  | nil =>
      have hfits : contents.Fits 0 := ⟨contents.operationCount.toNat_lt, contents.version.toNat_lt⟩
      rw [List.foldlM_nil, List.foldl_nil, List.length_nil, if_pos hfits]
      rfl
  | cons command rest ih =>
      rw [List.foldlM_cons, apply]
      by_cases hfits : contents.Fits 1
      · rw [if_pos hfits, Outcome.ok_bind, ih, List.foldl_cons, List.length_cons]
        simp only [fits_next command hfits]
      · have hmore : ¬ contents.Fits (command :: rest).length := by
          intro hall
          apply hfits
          simp only [Fits, List.length_cons] at hall ⊢
          omega
        rw [if_neg hfits, if_neg hmore]
        rfl

theorem operationCount_foldl {contents : KvContents} {commands : List KvCommand} (h : contents.Fits commands.length) :
    (commands.foldl next contents).operationCount.toNat = contents.operationCount.toNat + commands.length := by
  induction commands generalizing contents with
  | nil => simp
  | cons command rest ih =>
      have hone : contents.Fits 1 := by
        simp only [Fits, List.length_cons] at h ⊢
        omega
      have hrest : (contents.next command).Fits rest.length := (fits_next command hone).mpr h
      have hcount : (contents.operationCount + 1).toNat = contents.operationCount.toNat + 1 := toNat_add_of_lt hone.1
      rw [List.foldl_cons, ih hrest, next, hcount, List.length_cons]
      omega

end KvContents

/-- A store applies a run exactly when it can count the commands. -/
theorem applyCommands_ok_iff (serde : Serde KvState) (run : List (KvCommand × DateTime)) (self : KeyValueStore) :
    (∃ left, ((keyValueStore serde).applyCommands run).exec self = .ok left) ↔ self.state.contents.Fits run.length := by
  have hcontents := applyCommands_contents serde run self
  rw [KvContents.foldlM_apply, List.length_map] at hcontents
  cases hrun : ((keyValueStore serde).applyCommands run).exec self with
  | ok left =>
      apply iff_of_true ⟨left, rfl⟩
      by_contra hlong
      rw [hrun, if_neg hlong] at hcontents
      cases hcontents
  | err error =>
      rw [hrun] at hcontents
      split at hcontents
      · cases hcontents
      · cases hcontents
  | panic =>
      refine iff_of_false (by simp) fun hfits => ?_
      rw [hrun, if_pos hfits] at hcontents
      cases hcontents

/-! ### Answers -/

namespace KeyValueStore

/-- Every query is answered from this map. -/
structure AnswersFrom (self : KeyValueStore) (map : Str → Option Str) : Prop where
  get : ∀ key, executeQuery (.get key) self = .ok (.value (map key))
  «exists» : ∀ key, executeQuery (.exists key) self = .ok (.boolean (map key).isSome)
  list : ∀ start, ∃ keys, executeQuery (.list start) self = .ok (.keys keys) ∧ keys.Nodup ∧
    ∀ key, key ∈ keys ↔ (map key).isSome ∧ ∀ text, start = some text → text.asBytes <+: key.asBytes
  size : ∃ keys : List Str, keys.Nodup ∧ (∀ key, key ∈ keys ↔ (map key).isSome) ∧
    executeQuery .size self = .ok (.number keys.length)

theorem nodup_keys (data : HashMap Str Str) : data.keys.Nodup := by
  have hdistinct := data.distinct_keys
  exact hdistinct.imp fun hne heq => hne (Std.compare_eq_iff_eq.mpr heq)

theorem mem_keys_iff {data : HashMap Str Str} {key : Str} : key ∈ data.keys ↔ data[key]?.isSome := by
  rw [Std.ExtTreeMap.mem_keys, Std.ExtTreeMap.mem_iff_isSome_getElem?]

theorem answersFrom (self : KeyValueStore) : self.AnswersFrom fun key => self.state.data[key]? where
  get key := by simp [executeQuery]
  «exists» key := by rw [executeQuery, Std.ExtTreeMap.contains_eq_isSome_getElem?]
  list start := by
    cases start with
    | none =>
        refine ⟨_, by rw [executeQuery], nodup_keys _, fun key => ?_⟩
        simp
    | some text =>
        refine ⟨_, by rw [executeQuery], (nodup_keys _).filter _, fun key => ?_⟩
        simp
  size := by
    refine ⟨self.state.data.keys, nodup_keys _, fun key => mem_keys_iff, ?_⟩
    rw [executeQuery, Std.ExtTreeMap.length_keys]

end KeyValueStore

/-- **Key-value semantics.** A command list is applied to a new store when its commands can be counted, and
then the store answers from the map of the last writes and has counted every command. -/
theorem queries_after_commands (serde : Serde KvState) (created : DateTime) (run : List (KvCommand × DateTime)) :
    ((∃ store, ((keyValueStore serde).applyCommands run).exec (KeyValueStore.new created) = .ok store) ↔
      run.length < 2 ^ 64) ∧
    ∀ store, ((keyValueStore serde).applyCommands run).exec (KeyValueStore.new created) = .ok store →
      ∃ map : Str → Option Str, (∀ key value, map key = some value ↔ LastSet (run.map Prod.fst) key value) ∧
        store.AnswersFrom map ∧ store.state.metadata.operationCount.toNat = run.length := by
  have hfits : (KeyValueStore.new created).state.contents.Fits run.length ↔ run.length < 2 ^ 64 := by
    simp [KvContents.Fits, KeyValueStore.new, KvState.new, KvState.contents]
  refine ⟨(applyCommands_ok_iff serde run _).trans hfits, fun store hrun => ?_⟩
  have hcount := (applyCommands_ok_iff serde run _).mp ⟨store, hrun⟩
  have hleft := applyCommands_state hrun
  refine ⟨fun key => store.state.data[key]?, fun key value => ?_, store.answersFrom, ?_⟩
  · have hdata : store.state.data[key]? = (lastWrite (KvCommand.leaves key) (run.map Prod.fst)).getD none := by
      rw [hleft]
      exact getElem?_foldl_next _ (run.map Prod.fst) key
    show store.state.data[key]? = some value ↔ LastSet (run.map Prod.fst) key value
    rw [hdata, ← lastWrite_leaves_iff]
    cases lastWrite (KvCommand.leaves key) (run.map Prod.fst) with
    | none => simp
    | some left => simp
  · have hlength : (run.map Prod.fst).length = run.length := List.length_map _
    have htotal := KvContents.operationCount_foldl (hlength.symm ▸ hcount)
    rw [hlength] at htotal
    rw [hleft]
    exact htotal.trans (Nat.zero_add _)

end IrohRaft
