import IrohRaft.Proof.StateMachine.Replay

/-!
# Replicas

Two stores that apply the same commands hold the same data and the same counters. They do not hold the
same state: `last_updated` is the local clock at the last command, and it travels in snapshots. What a
snapshot and the commands after it give, up to that time, is what the whole log gives.
-/

namespace IrohRaft

open Rust Bincode

/-! ### Determinism -/

theorem getLast?_eq_iff {α : Type} {items items' : List α} (hlength : items.length = items'.length) (default : α) :
    items.getLast?.getD default = items'.getLast?.getD default ↔ items.getLast? = items'.getLast? := by
  cases items with
  | nil =>
      rw [List.eq_nil_of_length_eq_zero hlength.symm]
      exact iff_of_true rfl rfl
  | cons item rest =>
      cases items' with
      | nil => cases hlength
      | cons item' rest' =>
          rw [List.getLast?_cons, List.getLast?_cons, Option.getD_some, Option.getD_some, Option.some_inj]

/-- **Replica determinism.** Replicas that apply the same commands to equal states end in equal states
exactly when their clocks show the same time at the last command. -/
theorem replicas_agree_iff (serde : Serde KvState) {first second left right : KeyValueStore}
    {run run' : List (KvCommand × DateTime)} (hstart : first.state = second.state)
    (hcommands : run.map Prod.fst = run'.map Prod.fst)
    (hleft : ((keyValueStore serde).applyCommands run).exec first = .ok left)
    (hright : ((keyValueStore serde).applyCommands run').exec second = .ok right) :
    left.state = right.state ↔ (run.map Prod.snd).getLast? = (run'.map Prod.snd).getLast? := by
  have hlength : (run.map Prod.snd).length = (run'.map Prod.snd).length := by
    have hmap := congrArg List.length hcommands
    simpa only [List.length_map] using hmap
  rw [applyCommands_state hleft, applyCommands_state hright, hcommands, hstart, ← getLast?_eq_iff hlength]
  apply Iff.intro
  · intro hstate
    exact congrArg (fun state => state.metadata.lastUpdated) hstate
  · intro htime
    rw [htime]

theorem replicas_agree_iff_clear :
    (KvState.mk ∅ ⟨1, 3, 1⟩ = KvState.mk ∅ ⟨1, 7, 1⟩) ↔
      ([(KvCommand.clear, (3 : DateTime))].map Prod.snd).getLast? = ([(KvCommand.clear, 7)].map Prod.snd).getLast? := by
  have hleft : ((keyValueStore (KvState.serde .epoch)).applyCommands [(.clear, 3)]).exec (.new 0) =
    .ok ⟨⟨∅, ⟨1, 3, 1⟩⟩⟩ := rfl
  have hright : ((keyValueStore (KvState.serde .epoch)).applyCommands [(.clear, 7)]).exec (.new 0) =
    .ok ⟨⟨∅, ⟨1, 7, 1⟩⟩⟩ := rfl
  exact replicas_agree_iff (KvState.serde .epoch) rfl rfl hleft hright

/-- The clocks of two replicas show different times when the same command reaches them. -/
theorem not_replicas_agree :
    ¬ ∀ (serde : Serde KvState) (first second left right : KeyValueStore) (run run' : List (KvCommand × DateTime)),
      first.state = second.state → run.map Prod.fst = run'.map Prod.fst →
      ((keyValueStore serde).applyCommands run).exec first = .ok left →
      ((keyValueStore serde).applyCommands run').exec second = .ok right → left.state = right.state := by
  intro hall
  have hstate := hall (KvState.serde .epoch) (.new 0) (.new 0) ⟨⟨∅, ⟨1, 3, 1⟩⟩⟩ ⟨⟨∅, ⟨1, 7, 1⟩⟩⟩ [(.clear, 3)] [(.clear, 7)]
    rfl rfl rfl rfl
  have htime := congrArg (fun state => state.metadata.lastUpdated) hstate
  revert htime
  decide

/-! ### Snapshots -/

open GenericRaftStateMachine

/-- The wrapper applies commands by applying them to what it wraps. -/
theorem exec_applyCommands_onInner (serde : Serde KvState) (run : List (KvCommand × DateTime))
    (self : GenericRaftStateMachine KeyValueStore) :
    ((stateMachine (keyValueStore serde)).applyCommands run).exec self =
      GenericRaftStateMachine.mk <$> ((keyValueStore serde).applyCommands run).exec self.inner := by
  induction run generalizing self with
  | nil => rfl
  | cons timed rest ih =>
      obtain ⟨command, now⟩ := timed
      rw [exec_applyCommands_cons, exec_applyCommands_cons, map_bind]
      show (onInner (KeyValueStore.applyCommand command now)).exec self >>= _ =
        (KeyValueStore.applyCommand command now).exec self.inner >>= _
      cases KeyValueStore.applyCommand_cases command now self.inner with
      | inl hcounted =>
          have hcall : onInner (KeyValueStore.applyCommand command now) self =
              (.ok .ok, ⟨⟨(self.inner.state.contents.next command).stateAt now⟩⟩) := by
            rw [onInner, hcounted.2]
          rw [Action.exec_of_ok hcall, Action.exec_of_ok hcounted.2]
          exact ih _
      | inr hpanic =>
          obtain ⟨_, stuck, hstuck⟩ := hpanic
          rw [Action.exec, Action.exec, onInner, hstuck]
          rfl

def contentsOf (self : GenericRaftStateMachine KeyValueStore) : KvContents := self.inner.state.contents

theorem wrapped_contents (serde : Serde KvState) (run : List (KvCommand × DateTime))
    (self : GenericRaftStateMachine KeyValueStore) :
    contentsOf <$> ((stateMachine (keyValueStore serde)).applyCommands run).exec self =
      (run.map Prod.fst).foldlM KvContents.apply (contentsOf self) := by
  rw [exec_applyCommands_onInner, Functor.map_map]
  exact applyCommands_contents serde run self.inner

/-- A fresh store applies the commands before the snapshot; the snapshot is restored into the target,
which applies the commands after it. -/
def catchUp (serde : Serde KvState) (created : DateTime) (before after : List (KvCommand × DateTime))
    (target : GenericRaftStateMachine KeyValueStore) : Outcome RaftError (GenericRaftStateMachine KeyValueStore) := do
  let source ← ((stateMachine (keyValueStore serde)).applyCommands before).exec ⟨KeyValueStore.new created⟩
  let snapshot ← createSnapshot (keyValueStore serde) source
  let target ← (restoreFromSnapshot (keyValueStore serde) snapshot).exec target
  ((stateMachine (keyValueStore serde)).applyCommands after).exec target

/-- Restoring leaves nothing of what the target held. -/
theorem exec_restore_createSnapshot {serde : Serde KvState} {source : GenericRaftStateMachine KeyValueStore}
    (target : GenericRaftStateMachine KeyValueStore) (h : serde.RoundTrips source.inner.state) :
    (createSnapshot (keyValueStore serde) source >>= fun snapshot =>
      (restoreFromSnapshot (keyValueStore serde) snapshot).exec target) = .ok source := by
  show (restoreFromSnapshot (keyValueStore serde) (serde.serialize source.inner.state)).exec target = _
  have hdecode : deserializeBinary serde (serde.serialize source.inner.state) = .ok source.inner.state :=
    deserializeBinary_serialize h
  have hrestore : restoreFromSnapshot (keyValueStore serde) (serde.serialize source.inner.state) target = (.ok (), source) := by
    show (Action.lift (deserializeBinary serde (serde.serialize source.inner.state)) >>= fun state =>
      onInner (KeyValueStore.restoreFromSnapshot state)) target = _
    rw [hdecode]
    rfl
  exact Action.exec_of_ok hrestore

/-- **Snapshot and replay agree.** At every split of a log, into any target. -/
theorem snapshot_agrees_with_replay (serde : Serde KvState) (log : List KvCommand) (k : Nat)
    {before after whole : List (KvCommand × DateTime)} (created created' : DateTime)
    (target : GenericRaftStateMachine KeyValueStore) (hbefore : before.map Prod.fst = log.take k)
    (hafter : after.map Prod.fst = log.drop k) (hwhole : whole.map Prod.fst = log)
    (hbincode : ∀ source, ((stateMachine (keyValueStore serde)).applyCommands before).exec ⟨KeyValueStore.new created⟩ =
      .ok source → serde.RoundTrips source.inner.state) :
    contentsOf <$> catchUp serde created before after target =
      contentsOf <$> ((stateMachine (keyValueStore serde)).applyCommands whole).exec ⟨KeyValueStore.new created'⟩ := by
  have hfresh : contentsOf ⟨KeyValueStore.new created⟩ = contentsOf ⟨KeyValueStore.new created'⟩ := rfl
  have hsource := wrapped_contents serde before ⟨KeyValueStore.new created⟩
  rw [wrapped_contents, hwhole, ← hfresh, ← List.take_append_drop k log, List.foldlM_append, ← hbefore, ← hafter, ← hsource]
  rw [catchUp]
  cases hrun : ((stateMachine (keyValueStore serde)).applyCommands before).exec ⟨KeyValueStore.new created⟩ with
  | ok source =>
      have hrestored := exec_restore_createSnapshot target (hbincode source hrun)
      rw [Outcome.ok_bind, ← bind_assoc, hrestored, Outcome.ok_bind, wrapped_contents]
      rfl
  | err error => rfl
  | panic => rfl

/-- A store with other keys catches up with a log of three commands after the first two. -/
theorem snapshot_agrees_with_replay_behind :
    contentsOf <$> catchUp (KvState.serde .epoch) 0 [(.set ⟨"a", by decide⟩ ⟨"1", by decide⟩, 0), (.clear, 0)]
        [(.delete ⟨"a", by decide⟩, 5)] ⟨⟨(∅ : HashMap Str Str).insert ⟨"b", by decide⟩ ⟨"2", by decide⟩, ⟨9, 9, 9⟩⟩⟩ =
      contentsOf <$> ((stateMachine (keyValueStore (KvState.serde .epoch))).applyCommands
        [(.set ⟨"a", by decide⟩ ⟨"1", by decide⟩, 1), (.clear, 2), (.delete ⟨"a", by decide⟩, 3)]).exec
        ⟨KeyValueStore.new 7⟩ := by
  apply snapshot_agrees_with_replay (KvState.serde .epoch)
    [.set ⟨"a", by decide⟩ ⟨"1", by decide⟩, .clear, .delete ⟨"a", by decide⟩] 2 0 7 _ rfl rfl rfl
  intro source hsource
  cases hsource
  exact KvState.serde_roundTrips (by decide) rfl

end IrohRaft
