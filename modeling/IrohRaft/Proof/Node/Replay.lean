import IrohRaft.Proof.Node.Entries

/-!
# What a node's state machine holds

Every Ready takes the state machine a step further: its entries are applied to it, and then its snapshot replaces it.
A run in which the Readys that come with either are handled without a failure is the fold of these steps, and what
fails for the others leaves the state machine alone.
-/

namespace IrohRaft.RaftNode

open Rust Handler

variable {σ : Type} (machine : NodeStateMachine σ)

/-! ### One Ready -/

def takeEntry (state : σ) (entry : Entry) : σ :=
  if entry.data.isEmpty then state
  else
    match ProposalData.decode entry.data with
    | .ok (proposal, _) => (machine.apply entry.index proposal state).2
    | .error _ => state

/-- What a Ready makes of the state machine. -/
def absorb (state : σ) (ready : Ready) : σ :=
  if hasSnapshot ready then (machine.restore ready.snapshot.data (ready.committedEntries.foldl (takeEntry machine) state)).2
  else ready.committedEntries.foldl (takeEntry machine) state

/-- Nothing fails that is done for the state machine. -/
structure Round.Reaches (round : Round) : Prop where
  reads : ∀ entry ∈ round.ready.committedEntries, Reads entry
  entries : round.ready.committedEntries ≠ [] → round.Faultless ∧ round.Installs machine
  snapshot : hasSnapshot round.ready = true → round.Faultless ∧ round.Installs machine

/-- The state machine, and the faults that are still to come. -/
structure Holds (round : Round) (state : σ) (seen : Observed (RaftNode σ)) : Prop where
  faults_mem : ∀ fault ∈ seen.faults, fault ∈ round.faults
  machine_eq : seen.node.stateMachine = state

/-- A storage call has failed, and the state machine is still the same. -/
structure Halted (round : Round) (state : σ) (seen : Observed (RaftNode σ)) : Prop where
  faulty : ¬ round.Faultless
  machine_eq : seen.node.stateMachine = state

variable {machine} {prost : ProstCodec Snapshot} {round : Round} {state : σ} {stop : Observed (RaftNode σ) → Prop}

theorem writeStorage_holds (update : RaftStorage → RaftStorage) :
    Action.Triple (Holds round state) (writeStorage update) (fun _ => Holds round state) (Halted round state) := by
  intro seen hseen
  have hmem := hseen.faults_mem
  cases hfaults : seen.faults with
  | nil =>
      simp only [writeStorage, store, hfaults, Session.result, Session.commit]
      exact ⟨by simp, hseen.machine_eq⟩
  | cons fault rest =>
      rw [hfaults] at hmem
      cases fault with
      | none =>
          simp only [writeStorage, store, hfaults, Session.result, Session.commit]
          exact ⟨fun other hother => hmem other (List.mem_cons_of_mem _ hother), hseen.machine_eq⟩
      | some fault =>
          simp only [writeStorage, store, hfaults]
          exact ⟨fun hfine => by simpa using hfine _ (hmem _ List.mem_cons_self), hseen.machine_eq⟩

theorem record_holds (effect : Effect) :
    Action.Triple (Holds round state) (record effect) (fun _ => Holds round state) stop :=
  Action.Triple.modify fun _ hseen => ⟨hseen.faults_mem, hseen.machine_eq⟩

theorem onNode_holds {update : RaftNode σ → RaftNode σ} {state' : σ}
    (h : ∀ node, node.stateMachine = state → (update node).stateMachine = state') :
    Action.Triple (Holds round state) (onNode update) (fun _ => Holds round state') stop :=
  Action.Triple.modify fun seen hseen => ⟨hseen.faults_mem, h seen.node hseen.machine_eq⟩

theorem sendAll_holds (messages : List Message) :
    Action.Triple (Holds round state) (messages.forM sendMessage) (fun _ => Holds round state) stop :=
  Action.Triple.forM (fun _ => Holds round state) fun _ message _ _ => record_holds (.send message)

theorem answerContext_holds (context : Bytes) (result : Except RaftError Bytes) :
    Action.Triple (Holds round state) (answerContext context result) (fun _ => Holds round state) stop := by
  rw [answerContext]
  split
  · exact Action.Triple.pure fun _ => id
  · exact onNode_holds fun _ => id

theorem applyEntry_holds {entry : Entry} (h : Reads entry) :
    Action.Triple (Holds round state) (applyEntry machine entry) (fun _ => Holds round (takeEntry machine state entry)) stop := by
  rw [applyEntry, takeEntry]
  by_cases hempty : entry.data.isEmpty = true
  · rw [if_pos hempty, if_pos hempty]
    exact Action.Triple.pure fun _ => id
  · obtain hnone | ⟨⟨proposal, rest⟩, hproposal⟩ := h
    · simp [hnone] at hempty
    · simp only [if_neg hempty, hproposal]
      refine Action.Triple.get_bind fun seen hseen => ?_
      rw [hseen.machine_eq]
      refine Action.Triple.bind (onNode_holds ?_) fun _ => (record_holds _).bind fun _ => answerContext_holds _ _
      exact fun _ _ => rfl

theorem applyEntries_holds {entries : List Entry} (h : ∀ entry ∈ entries, Reads entry) :
    Action.Triple (Holds round state) (entries.forM (applyEntry machine))
      (fun _ => Holds round (entries.foldl (takeEntry machine) state)) stop := by
  refine Action.Triple.forM (fun (done : List Entry) => Holds round (done.foldl (takeEntry machine) state))
    fun done entry rest hentries => ?_
  have hentry : Reads entry := h entry (hentries ▸ List.mem_append_right done List.mem_cons_self)
  rw [List.foldl_append]
  exact applyEntry_holds hentry

theorem restore_holds {data : Bytes} (h : (machine.restore data state).1 = .ok ()) :
    Action.Triple (Holds round state) (restore machine data) (fun _ => Holds round (machine.restore data state).2) stop := by
  intro seen hseen
  have hmachine := hseen.machine_eq
  rcases hrestore : machine.restore data state with ⟨error | done, restored⟩
  · simp [hrestore] at h
  · simp only [restore, hmachine, hrestore]
    exact ⟨hseen.faults_mem, rfl⟩

theorem applySnapshot_holds (h : hasSnapshot round.ready = true → round.Faultless ∧ round.Installs machine) :
    Action.Triple (Holds round state) (applySnapshot machine prost round.ready)
      (fun _ => Holds round (if hasSnapshot round.ready then (machine.restore round.ready.snapshot.data state).2 else state))
      stop := by
  rw [applySnapshot]
  by_cases hsnapshot : hasSnapshot round.ready = true
  · obtain ⟨hfaultless, hinstalls⟩ := h hsnapshot
    simp only [if_pos hsnapshot]
    refine (restore_holds (hinstalls hsnapshot state)).bind fun _ => Action.Triple.bind ?_ fun _ => record_holds _
    exact (writeStorage_holds _).stopping fun _ hhalted => absurd hfaultless hhalted.faulty
  · simp only [if_neg hsnapshot]
    exact Action.Triple.pure fun _ => id

/-- What a failing write leaves behind is all there was to absorb. -/
theorem Halted.absorbed {seen : Observed (RaftNode σ)} (hhalted : Halted round state seen) (h : round.Reaches machine) :
    seen.node.stateMachine = absorb machine state round.ready := by
  have hentries : round.ready.committedEntries = [] := by
    by_contra hsome
    exact hhalted.faulty (h.entries hsome).1
  have hsnapshot : ¬ hasSnapshot round.ready = true := fun hsome => hhalted.faulty (h.snapshot hsome).1
  rw [absorb, if_neg hsnapshot, hentries, List.foldl_nil]
  exact hhalted.machine_eq

/-- A Ready is absorbed, also where it comes with nothing for the state machine and a write fails. -/
theorem handleReady_absorbs (h : round.Reaches machine) :
    Action.Triple (fun seen : Observed (RaftNode σ) => seen.node.stateMachine = state) (handleReady machine prost round)
      (fun _ seen => seen.node.stateMachine = absorb machine state round.ready)
      (fun seen => seen.node.stateMachine = absorb machine state round.ready) := by
  have hpre (seen : Observed (RaftNode σ)) (hseen : seen.node.stateMachine = state) :
      Holds round state { seen with faults := round.faults, effects := [] } := ⟨fun _ => id, hseen⟩
  refine handling_about (fun node => node.stateMachine = absorb machine state round.ready) hpre ?_
  have hwrite (update : RaftStorage → RaftStorage) : Action.Triple (Holds round state) (writeStorage update)
      (fun _ => Holds round state) (fun seen => seen.node.stateMachine = absorb machine state round.ready) :=
    (writeStorage_holds update).stopping fun _ hhalted => hhalted.absorbed h
  refine (saveHardState_keeps _ (fun _ => hwrite _) record_holds).bind fun _ =>
    (saveEntries_keeps _ (hwrite _) record_holds).bind fun _ => (sendAll_holds _).bind fun _ =>
      (applyEntries_holds h.reads).bind fun _ => (applySnapshot_holds h.snapshot).bind fun _ => (record_holds _).bind fun _ =>
        (sendAll_holds _).weaken fun _ seen hseen => ?_
  rw [hseen.machine_eq, absorb]

/-! ### Runs -/

/-- The state machine after a run is what it was at the start, with every Ready absorbed. -/
theorem stateMachine_after (node : RaftNode σ) {inputs : List Input}
    (hinputs : ∀ input ∈ inputs, ∀ round ∈ input.next, round.Reaches machine) :
    (after machine prost node inputs).stateMachine =
      (history machine prost node inputs).foldl (fun state handled => absorb machine state handled.ready) node.stateMachine := by
  refine final_keeps (fun seen => seen.node.stateMachine =
    seen.history.foldl (fun state handled => absorb machine state handled.ready) node.stateMachine) node (fun _ _ => id)
    (fun input hinput round hround => ?_) rfl
  refine Action.Triple.of_start fun start hstart => ?_
  have hafter (seen : Observed (RaftNode σ))
      (hseen : (∃ effects, ReadyTrace machine round effects ∧
          seen.history = start.history ++ [⟨round.ready, round.light, effects⟩]) ∧
        seen.node.stateMachine = absorb machine start.node.stateMachine round.ready) :
      seen.node.stateMachine =
        seen.history.foldl (fun state handled => absorb machine state handled.ready) node.stateMachine := by
    obtain ⟨⟨effects, -, hhistory⟩, hmachine⟩ := hseen
    rw [hhistory, List.foldl_append, ← hstart]
    exact hmachine
  refine ((handleReady_spec.and (handleReady_absorbs (hinputs input hinput round hround))).consequence ?_
    (fun _ => hafter) hafter)
  intro seen hseen
  exact ⟨hseen ▸ rfl, hseen ▸ rfl⟩

end IrohRaft.RaftNode
