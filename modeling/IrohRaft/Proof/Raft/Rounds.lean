import IrohRaft.Proof.Raft.Handling
import IrohRaft.Proof.Storage.Membership
import IrohRaft.Raft.Manager

/-!
# What handling a Ready does

The effects of the manager's two ways to handle a Ready, wherever they stop. The writes come first, then the messages,
then the committed entries one by one; after `advance` the first of the two goes on with the messages of the LightReady
and with what it reads back from the storage.
-/

namespace IrohRaft.RaftManager

open Rust Redb Handler

variable (codec : ManagerCodec) (round : Round)

/-! ### The effects of a handling that goes well -/

def installEffects (ready : Ready) : List Effect :=
  if RaftSnapshotManager.isEmpty ready.snapshot then [] else [.installSnapshot ready.snapshot]

def persistEffects (ready : Ready) : List Effect :=
  (if ready.entries.isEmpty then [] else [.append ready.entries]) ++ (ready.hs.map Effect.saveHardState).toList

def entryEffects (entry : Entry) : List Effect :=
  match entry.kind with
  | .entryNormal => [.applyEntry entry]
  | .entryConfChange => [.applyConfChange entry]
  | .entryConfChangeV2 => []

def confChangeEffects (entry : Entry) : List Effect :=
  if entry.kind = .entryConfChange then [.applyConfChange entry] else []

/-- What sending the messages leaves, which is all of them while the channel is open. -/
structure Sends (nodeId : UInt64) (isOpen : Prop) (messages : List Message) (effects : List Effect) : Prop where
  only : ∀ effect ∈ effects, ∃ message, effect = .send message
  complete : isOpen → effects = messages.map fun message => .send (fixFrom nodeId message)

/-! ### Reading these effects -/

theorem mem_writes {ready : Ready} {effect : Effect} (h : effect ∈ installEffects ready ++ persistEffects ready) :
    (∃ snapshot, effect = .installSnapshot snapshot) ∨ (∃ entries, effect = .append entries) ∨
      ∃ hardState, effect = .saveHardState hardState := by
  simp only [installEffects, persistEffects, List.mem_append, Option.mem_toList, Option.map_eq_some_iff] at h
  obtain hinstall | happend | ⟨hs, -, rfl⟩ := h
  · split at hinstall
    · simp at hinstall
    · exact .inl ⟨_, List.mem_singleton.mp hinstall⟩
  · split at happend
    · simp at happend
    · exact .inr (.inl ⟨_, List.mem_singleton.mp happend⟩)
  · exact .inr (.inr ⟨hs, rfl⟩)

theorem mem_entryEffects {entry : Entry} {effect : Effect} (h : effect ∈ entryEffects entry) :
    effect = .applyEntry entry ∨ effect = .applyConfChange entry := by
  rw [entryEffects] at h
  split at h
  · exact .inl (List.mem_singleton.mp h)
  · exact .inr (List.mem_singleton.mp h)
  · simp at h

theorem mem_confChangeEffects {entry : Entry} {effect : Effect} (h : effect ∈ confChangeEffects entry) :
    effect = .applyConfChange entry := by
  rw [confChangeEffects] at h
  split at h
  · exact List.mem_singleton.mp h
  · simp at h

theorem advance_not_mem_writes
    {ready : Ready} {effects : List Effect} (h : effects ⊆ installEffects ready ++ persistEffects ready) :
    Effect.advance ∉ effects := by
  intro hmem
  obtain ⟨_, heq⟩ | ⟨_, heq⟩ | ⟨_, heq⟩ := mem_writes (h hmem) <;> simp at heq

theorem advance_not_mem_applied (entries : List Entry) : Effect.advance ∉ entries.flatMap entryEffects := by
  intro hmem
  obtain ⟨entry, -, hentry⟩ := List.mem_flatMap.mp hmem
  obtain heq | heq := mem_entryEffects hentry <;> simp at heq

/-- What comes before `advance`. -/
theorem advance_not_mem_before {nodeId : UInt64} {isOpen : Prop} {ready : Ready} {sent : List Effect}
    (hsent : Sends nodeId isOpen ready.messages sent) (entries : List Entry) :
    Effect.advance ∉ installEffects ready ++ persistEffects ready ++ sent ++ entries.flatMap entryEffects := by
  intro hmem
  obtain hbefore | happlied := List.mem_append.mp hmem
  · obtain hwrites | hsends := List.mem_append.mp hbefore
    · exact advance_not_mem_writes (List.Subset.refl _) hwrites
    · obtain ⟨message, heq⟩ := hsent.only _ hsends
      simp at heq
  · exact advance_not_mem_applied entries happlied

/-! ### What can go wrong -/

/-- The conf change of an entry can be read, and raft takes it. -/
def Round.Accepts (entry : Entry) : Prop :=
  entry.kind = .entryConfChange →
    ∃ cc confState, codec.mergeConfChange entry.data = .ok cc ∧ round.applyConfChange cc = .ok confState

/-- The storage takes the entries and the hard state of the Ready. -/
structure Round.Persists : Prop where
  faultless : ∀ fault ∈ round.faults, fault = none
  entries : (RedbRaftStorage.appendEntries codec.toRaftStateCodec round.ready.entries).Succeeds
  hardState : ∀ hs ∈ round.ready.hs, (RedbRaftStorage.saveHardState codec.toRaftStateCodec hs).Succeeds

def Round.Installs : Prop :=
  RaftSnapshotManager.isEmpty round.ready.snapshot = false →
    (RaftSnapshotManager.processSnapshotIfPresent codec.toRaftStateCodec round.ready.snapshot).Succeeds

def Round.SavesCommit : Prop :=
  ∀ commit ∈ round.light.commitIndex,
    (RedbRaftStorage.saveHardState codec.toRaftStateCodec { round.hardState with commit }).Succeeds

/-! ### What is read back -/

def installed (ready : Ready) (database : Redb.Database) : Redb.Database :=
  if RaftSnapshotManager.isEmpty ready.snapshot then database
  else (RaftSnapshotManager.processSnapshotIfPresent codec.toRaftStateCodec ready.snapshot).final database

def appended (ready : Ready) (database : Redb.Database) : Redb.Database :=
  if ready.entries.isEmpty then database
  else (RedbRaftStorage.appendEntries codec.toRaftStateCodec ready.entries).final database

/-- The index `process_committed_entries` ends with. -/
def lastIndexOf (entries : List Entry) : UInt64 := (entries.getLast?.map Entry.index).getD 0

def readOr : Outcome StorageError (List Entry) → List Entry
  | .ok entries => entries
  | _ => []

/-- The entries between two positions, where the storage gives them. -/
def readBackFrom (lastAppliedIndex : UInt64) (hadCommitUpdate : Bool) (database : Redb.Database) : List Entry :=
  if hadCommitUpdate && round.committed > currentApplied round lastAppliedIndex then
    match (u64Add (currentApplied round lastAppliedIndex) 1 : Outcome RaftError UInt64),
        (u64Add round.committed 1 : Outcome RaftError UInt64) with
    | .ok start, .ok stop => readOr (RedbRaftStorage.entries codec.toRaftStateCodec database start stop none)
    | _, _ => []
  else []

/-- The entries that `on_ready` reads back after `advance`, when it starts from this database. -/
def Round.readBack (database : Redb.Database) : List Entry :=
  readBackFrom codec round (lastIndexOf round.ready.committedEntries) round.light.commitIndex.isSome
    (appended codec round.ready (installed codec round.ready database))

/-! ### The effects of a handling, wherever it stops -/

inductive ReadyTrace (nodeId : UInt64) (isOpen : Prop) (fetched : List Entry) : List Effect → Prop where
  | writing (done : List Effect) (hdone : done <+: installEffects round.ready ++ persistEffects round.ready)
      (hstop : ¬ (round.Installs codec ∧ round.Persists codec)) : ReadyTrace nodeId isOpen fetched done
  | applying (sent : List Effect) (done rest : List Entry) (hsent : Sends nodeId isOpen round.ready.messages sent)
      (hentries : round.ready.committedEntries = done ++ rest)
      (hstop : ¬ ((∀ fault ∈ round.faults, fault = none) ∧ ∀ entry ∈ round.ready.committedEntries, round.Accepts codec entry)) :
      ReadyTrace nodeId isOpen fetched
        (installEffects round.ready ++ persistEffects round.ready ++ sent ++ done.flatMap entryEffects)
  | advanced (sent lightSent saved : List Effect) (done rest : List Entry) (applied : List Effect)
      (hsent : Sends nodeId isOpen round.ready.messages sent) (hlight : Sends nodeId isOpen round.light.messages lightSent)
      (hsaved : ∀ effect ∈ saved, ∃ hardState, effect = .saveHardState hardState)
      (hentries : fetched = done ++ rest)
      (happlied : ∀ effect ∈ applied, ∃ index, effect = .advanceApplyTo index)
      (hstop : rest ≠ [] → ¬ ((∀ fault ∈ round.faults, fault = none) ∧ round.SavesCommit codec ∧
        ∀ entry ∈ fetched, round.Accepts codec entry)) :
      ReadyTrace nodeId isOpen fetched
        (installEffects round.ready ++ persistEffects round.ready ++ sent ++
          round.ready.committedEntries.flatMap entryEffects ++ [.advance] ++ lightSent ++ saved ++
          done.flatMap entryEffects ++ applied)

inductive InlineTrace (nodeId : UInt64) (isOpen : Prop) : List Effect → Prop where
  | writing (done : List Effect) (hdone : done <+: persistEffects round.ready) (hstop : ¬ round.Persists codec) :
      InlineTrace nodeId isOpen done
  | applying (sent persisted : List Effect) (done : List Entry) (hsent : Sends nodeId isOpen round.ready.messages sent)
      (hpersisted : Sends nodeId isOpen round.ready.persistedMessages persisted) :
      InlineTrace nodeId isOpen (persistEffects round.ready ++ sent ++ persisted ++ done.flatMap confChangeEffects)
  | advanced (sent persisted : List Effect) (hsent : Sends nodeId isOpen round.ready.messages sent)
      (hpersisted : Sends nodeId isOpen round.ready.persistedMessages persisted) :
      InlineTrace nodeId isOpen
        (persistEffects round.ready ++ sent ++ persisted ++ round.ready.committedEntries.flatMap confChangeEffects ++ [.advance])

/-! ### The parts -/

/-- The log of the database. -/
def HasLog (log : RedbRaftStorage) (database : Redb.Database) : Prop := RedbRaftStorage.ofDatabase database = log

/-- What is known of the manager in the course of a handling. -/
structure About (nodeId : UInt64) (isOpen : Prop) (holds : Redb.Database → Prop) (manager : RaftManager) : Prop where
  nodeId_eq : manager.nodeId = nodeId
  channel : isOpen → manager.outgoingMessages = none
  database : holds manager.database

/-- The manager in the midst of a handling. -/
abbrev Doing (faults : List (Option (Nat × RaftError))) (history : List Handled) (nodeId : UInt64) (isOpen : Prop)
    (log : RedbRaftStorage) (effects : List Effect) (seen : Observed RaftManager) : Prop :=
  Tracks faults history (About nodeId isOpen (HasLog log)) effects seen

variable {codec round} {faults : List (Option (Nat × RaftError))} {history : List Handled} {nodeId : UInt64} {isOpen : Prop}
  {holds holds' : Redb.Database → Prop} {effects : List Effect} {stop : Observed RaftManager → Prop}

theorem anyDatabase {seen : Observed RaftManager} (h : Tracks faults history (About nodeId isOpen holds) effects seen) :
    Tracks faults history (About nodeId isOpen fun _ => True) effects seen :=
  { h with about_node := { h.about_node with database := trivial } }

theorem callStorage_spec {α : Type} {session : Session Redb.Database RaftError α}
    (h : ∀ database, holds database → ∀ value, session.result database = .ok value → holds' (session.final database)) :
    Action.Triple (Tracks faults history (About nodeId isOpen holds) effects) (callStorage session)
      (fun _ => Tracks faults history (About nodeId isOpen holds') effects)
      (fun seen => CanFail faults session ∧ Left faults history effects seen) :=
  store_spec fun _ hmanager value hvalue => { hmanager with database := h _ hmanager.database value hvalue }

theorem callStorage_keeps {α : Type} {session : Session Redb.Database RaftError α} (h : session.Keeps holds) :
    Action.Triple (Tracks faults history (About nodeId isOpen holds) effects) (callStorage session)
      (fun _ => Tracks faults history (About nodeId isOpen holds) effects)
      (fun seen => CanFail faults session ∧ Left faults history effects seen) :=
  callStorage_spec fun _ hdatabase _ _ => h.final hdatabase

theorem answerContext_spec (context : Bytes) (result : Except RaftError Unit) :
    Action.Triple (Tracks faults history (About nodeId isOpen holds) effects) (answerContext context result)
      (fun _ => Tracks faults history (About nodeId isOpen holds) effects) stop := by
  rw [answerContext]
  by_cases hcontext : context.isEmpty = true
  · rw [if_pos hcontext]
    exact Action.Triple.pure fun _ => id
  · rw [if_neg hcontext]
    exact onNode_spec fun _ hmanager => ⟨hmanager.nodeId_eq, hmanager.channel, hmanager.database⟩

theorem sendRaftMessage_spec (message : Message) {start : List Effect} {done : List Message} {sent : List Effect}
    (hsent : Sends nodeId isOpen done sent) :
    Action.Triple (Tracks faults history (About nodeId isOpen holds) (start ++ sent)) (sendRaftMessage message)
      (fun _ seen => ∃ sent, Sends nodeId isOpen (done ++ [message]) sent ∧
        Tracks faults history (About nodeId isOpen holds) (start ++ sent) seen) stop := by
  apply Action.Triple.modify
  intro seen h
  have htaken : Sends nodeId isOpen (done ++ [message]) (sent ++ [.send (fixFrom nodeId message)]) := by
    refine ⟨fun effect heffect => ?_, fun hopen => by rw [hsent.complete hopen, List.map_append, List.map_singleton]⟩
    obtain hold | hnew := List.mem_append.mp heffect
    · exact hsent.only effect hold
    · exact ⟨_, List.mem_singleton.mp hnew⟩
  have heffects : seen.effects ++ [.send (fixFrom seen.node.nodeId message)] =
      start ++ (sent ++ [.send (fixFrom nodeId message)]) := by
    rw [h.effects_eq, h.about_node.nodeId_eq, List.append_assoc]
  cases hroom : seen.node.outgoingMessages with
  | none => exact ⟨_, htaken, heffects, h.history_eq, h.faults_mem, h.about_node⟩
  | some room =>
      have hclosed : ¬ isOpen := fun hopen => by simpa [hroom] using h.about_node.channel hopen
      cases room with
      | zero => exact ⟨sent, ⟨hsent.only, fun hopen => absurd hopen hclosed⟩, h⟩
      | succ room =>
          refine ⟨_, htaken, heffects, h.history_eq, h.faults_mem, ?_⟩
          exact ⟨h.about_node.nodeId_eq, fun hopen => absurd hopen hclosed, h.about_node.database⟩

theorem sendAll_spec (messages : List Message) {start : List Effect} :
    Action.Triple (Tracks faults history (About nodeId isOpen holds) start) (messages.forM sendRaftMessage)
      (fun _ seen => ∃ sent, Sends nodeId isOpen messages sent ∧
        Tracks faults history (About nodeId isOpen holds) (start ++ sent) seen) stop := by
  refine Action.Triple.strengthen (Action.Triple.forM (fun done seen => ∃ sent, Sends nodeId isOpen done sent ∧
    Tracks faults history (About nodeId isOpen holds) (start ++ sent) seen) ?_) ?_
  · intro done message rest _
    exact .of_exists fun sent => .of_pre (fun _ h => h.1) fun hsent =>
      (sendRaftMessage_spec message hsent).strengthen fun _ h => h.2
  · intro seen h
    exact ⟨[], ⟨by simp, by simp⟩, by rwa [List.append_nil]⟩

/-! ### The writes -/

theorem saveHardState_keeps_hasLog (hardState : HardState) (log : RedbRaftStorage) :
    (RedbRaftStorage.saveHardState codec.toRaftStateCodec hardState).Keeps (HasLog log) :=
  RedbRaftStorage.saveHardState_keeps hardState fun _ _ _ hstart => hstart

theorem applyConfChange_keeps_hasLog (manager : RaftConfigManager) (cc : ConfChange) (answer : Outcome RaftError ConfState)
    (log : RedbRaftStorage) :
    (manager.applyConfChange cc answer).Keeps (HasLog log) := by
  refine (Session.Keeps.read _).bind fun confState => (Session.Keeps.commit ?_).bind fun _ => ?_
  · intro start next hnext hstart
    obtain rfl := Outcome.ok.inj hnext
    exact hstart
  · by_cases hadds : cc.changeType = ConfChange.addNode
    · rw [if_pos hadds]
      exact Session.Keeps.pure _
    · rw [if_neg hadds]
      exact Session.Keeps.pure _

theorem processSnapshotIfPresent_spec (ready : Ready) (database : Redb.Database) :
    Action.Triple (Tracks faults history (About nodeId isOpen (· = database)) effects) (processSnapshotIfPresent codec ready)
      (fun _ => Tracks faults history (About nodeId isOpen (· = installed codec ready database)) (effects ++ installEffects ready))
      (fun seen => (RaftSnapshotManager.isEmpty ready.snapshot = false ∧
        CanFail faults (RaftSnapshotManager.processSnapshotIfPresent codec.toRaftStateCodec ready.snapshot)) ∧
          Left faults history effects seen) := by
  rw [processSnapshotIfPresent, installEffects, installed]
  by_cases hempty : RaftSnapshotManager.isEmpty ready.snapshot = true
  · simp only [hempty, if_true, List.append_nil]
    exact Action.Triple.pure fun _ => id
  · simp only [if_neg hempty]
    refine Action.Triple.bind (Action.Triple.stopping (callStorage_spec ?_) ?_) fun _ => record_spec _
    · intro start hstart _ _
      rw [hstart]
    · intro seen h
      exact ⟨⟨by simpa using hempty, h.1⟩, h.2⟩

theorem saveEntriesToStorage_spec (ready : Ready) (database : Redb.Database) :
    Action.Triple (Tracks faults history (About nodeId isOpen (· = database)) effects) (saveEntriesToStorage codec ready)
      (fun _ => Tracks faults history (About nodeId isOpen (· = appended codec ready database))
        (effects ++ if ready.entries.isEmpty then [] else [.append ready.entries]))
      (fun seen => CanFail faults (RedbRaftStorage.appendEntries codec.toRaftStateCodec ready.entries) ∧
        Left faults history effects seen) := by
  rw [saveEntriesToStorage, appended]
  by_cases hempty : ready.entries.isEmpty = true
  · simp only [hempty, if_true, List.append_nil]
    exact Action.Triple.pure fun _ => id
  · simp only [if_neg hempty]
    refine (callStorage_spec fun start hstart _ _ => ?_).bind fun _ => record_spec _
    rw [hstart]

theorem saveHardState_spec (hardState : HardState) (log : RedbRaftStorage) :
    Action.Triple (Doing faults history nodeId isOpen log effects)
      (saveHardState codec hardState)
      (fun _ => Tracks faults history (About nodeId isOpen (HasLog log))
        (effects ++ [.saveHardState hardState]))
      (fun seen => CanFail faults (RedbRaftStorage.saveHardState codec.toRaftStateCodec hardState) ∧
        Left faults history effects seen) :=
  (callStorage_keeps (saveHardState_keeps_hasLog hardState log)).bind fun _ => record_spec _

theorem saveHardStateIfChanged_spec (ready : Ready) (database : Redb.Database) :
    Action.Triple (Tracks faults history (About nodeId isOpen (· = database)) effects) (saveHardStateIfChanged codec ready)
      (fun _ => Doing faults history nodeId isOpen (RedbRaftStorage.ofDatabase database)
        (effects ++ (ready.hs.map Effect.saveHardState).toList))
      (fun seen => (∃ hs ∈ ready.hs, CanFail faults (RedbRaftStorage.saveHardState codec.toRaftStateCodec hs)) ∧
        Left faults history effects seen) := by
  have hlog (seen : Observed RaftManager) (h : Tracks faults history (About nodeId isOpen (· = database)) effects seen) :
      Doing faults history nodeId isOpen (RedbRaftStorage.ofDatabase database) effects seen :=
    { h with about_node := { h.about_node with database := by rw [HasLog, h.about_node.database] } }
  rw [saveHardStateIfChanged]
  cases hhs : ready.hs with
  | none =>
      simp only [Option.map_none, Option.toList_none, List.append_nil]
      exact Action.Triple.pure hlog
  | some hs => exact (saveHardState_spec hs _).consequence hlog (fun _ _ => id) fun seen h => ⟨⟨hs, rfl, h.1⟩, h.2⟩

/-! ### The committed entries -/

/-- The conf change of an entry is not taken, or cannot be saved. -/
def Refused (codec : ManagerCodec) (round : Round) (entry : Entry) : Prop :=
  ¬ ((∀ fault ∈ round.faults, fault = none) ∧ round.Accepts codec entry)

theorem processConfChangeEntry_spec (entry : Entry) (hkind : entry.kind = .entryConfChange) (log : RedbRaftStorage) :
    Action.Triple (Doing round.faults history nodeId isOpen log effects)
      (processConfChangeEntry codec round entry)
      (fun _ => Tracks round.faults history (About nodeId isOpen (HasLog log))
        (effects ++ [.applyConfChange entry]))
      (fun seen => Refused codec round entry ∧ Left round.faults history effects seen) := by
  rw [processConfChangeEntry]
  cases hmerge : codec.mergeConfChange entry.data with
  | error e =>
      have hrefused : Refused codec round entry := by
        intro hfine
        obtain ⟨cc, _, hcc, -⟩ := hfine.2 hkind
        simp [hmerge] at hcc
      exact (answerContext_spec _ _).bind fun _ =>
        Action.Triple.lift (by simp) fun _ _ h => ⟨hrefused, Tracks.left h⟩
  | ok cc =>
      refine Action.Triple.get_bind fun seen _ => ?_
      refine Action.Triple.bind (Action.Triple.stopping (callStorage_keeps (applyConfChange_keeps_hasLog _ cc _ log)) ?_)
        fun configManager => Action.Triple.bind (onNode_spec ?_) fun _ => record_spec _
      · intro seen' h
        refine ⟨fun hfine => h.1 ⟨hfine.1, ?_⟩, h.2⟩
        obtain ⟨cc', confState, hcc, hanswer⟩ := hfine.2 hkind
        obtain rfl : cc = cc' := Except.ok.inj (hmerge.symm.trans hcc)
        rw [hanswer]
        exact fun database => (RaftConfigManager.applyConfChange_final _ cc confState database).1
      · intro manager hmanager
        exact ⟨hmanager.nodeId_eq, hmanager.channel, hmanager.database⟩

theorem processEntry_spec (entry : Entry) (log : RedbRaftStorage) :
    Action.Triple (Doing round.faults history nodeId isOpen log effects) (processEntry codec round entry)
      (fun _ => Doing round.faults history nodeId isOpen log (effects ++ entryEffects entry))
      (fun seen => Refused codec round entry ∧ Left round.faults history effects seen) := by
  rw [processEntry, entryEffects]
  cases hkind : entry.kind with
  | entryNormal => exact (record_spec _).bind fun _ => answerContext_spec _ _
  | entryConfChange => exact processConfChangeEntry_spec entry hkind log
  | entryConfChangeV2 =>
      simp only [List.append_nil]
      exact Action.Triple.pure fun _ => id

/-- The loop goes through all the entries, or stops at one whose conf change is refused. -/
theorem processEntries_spec (entries : List Entry) (log : RedbRaftStorage) (effects : List Effect) (last : UInt64) :
    Action.Triple (Doing round.faults history nodeId isOpen log effects) (processEntries codec round last entries)
      (fun value seen => value = (entries.getLast?.map Entry.index).getD last ∧
        Doing round.faults history nodeId isOpen log (effects ++ entries.flatMap entryEffects) seen)
      (fun seen => ∃ done rest, entries = done ++ rest ∧ (∃ entry ∈ rest, Refused codec round entry) ∧
        Left round.faults history (effects ++ done.flatMap entryEffects) seen) := by
  induction entries generalizing effects last with
  | nil =>
      simp only [processEntries, List.flatMap_nil, List.append_nil]
      exact Action.Triple.pure fun _ h => ⟨rfl, h⟩
  | cons entry rest ih =>
      rw [processEntries]
      refine Action.Triple.bind ((processEntry_spec entry log).stopping ?_) fun _ =>
        (ih (effects ++ entryEffects entry) entry.index).consequence (fun _ => id) ?_ ?_
      · intro seen h
        exact ⟨[], entry :: rest, rfl, ⟨entry, List.mem_cons_self, h.1⟩, by simpa using h.2⟩
      · intro value seen h
        refine ⟨?_, by simpa using h.2⟩
        rw [h.1, List.getLast?_cons]
        cases rest.getLast? <;> simp
      · intro seen ⟨done, left, hentries, hrefused, hleft⟩
        exact ⟨entry :: done, left, by rw [hentries, List.cons_append], hrefused, by simpa using hleft⟩

/-! ### After advance -/

theorem entries_congr {database database' : Redb.Database}
    (h : RedbRaftStorage.ofDatabase database = RedbRaftStorage.ofDatabase database') (low high : UInt64)
    (maxSize : Option UInt64) :
    RedbRaftStorage.entries codec.toRaftStateCodec database low high maxSize =
      RedbRaftStorage.entries codec.toRaftStateCodec database' low high maxSize := by
  rw [RedbRaftStorage.entries, h, RedbRaftStorage.entries]

theorem handleNewlyCommittedEntries_spec (lastAppliedIndex : UInt64) (hadCommitUpdate : Bool) (database : Redb.Database) :
    Action.Triple (Doing round.faults history nodeId isOpen (RedbRaftStorage.ofDatabase database) effects)
      (handleNewlyCommittedEntries codec round lastAppliedIndex hadCommitUpdate)
      (fun _ seen => ∃ applied, (∀ effect ∈ applied, ∃ index, effect = .advanceApplyTo index) ∧
        Doing round.faults history nodeId isOpen (RedbRaftStorage.ofDatabase database)
          (effects ++ (readBackFrom codec round lastAppliedIndex hadCommitUpdate database).flatMap entryEffects ++ applied) seen)
      (fun seen => ∃ done rest, readBackFrom codec round lastAppliedIndex hadCommitUpdate database = done ++ rest ∧
        (rest ≠ [] → ∃ entry ∈ rest, Refused codec round entry) ∧
          Left round.faults history (effects ++ done.flatMap entryEffects) seen) := by
  have hnone (hempty : readBackFrom codec round lastAppliedIndex hadCommitUpdate database = []) (seen : Observed RaftManager)
      (h : Doing round.faults history nodeId isOpen (RedbRaftStorage.ofDatabase database) effects seen) :
      ∃ done rest, readBackFrom codec round lastAppliedIndex hadCommitUpdate database = done ++ rest ∧
        (rest ≠ [] → ∃ entry ∈ rest, Refused codec round entry) ∧
          Left round.faults history (effects ++ done.flatMap entryEffects) seen :=
    ⟨[], [], hempty, by simp, by simpa using Tracks.left h⟩
  have hquiet (hempty : readBackFrom codec round lastAppliedIndex hadCommitUpdate database = []) (seen : Observed RaftManager)
      (h : Doing round.faults history nodeId isOpen (RedbRaftStorage.ofDatabase database) effects seen) :
      ∃ applied, (∀ effect ∈ applied, ∃ index, effect = .advanceApplyTo index) ∧
        Doing round.faults history nodeId isOpen (RedbRaftStorage.ofDatabase database)
          (effects ++ (readBackFrom codec round lastAppliedIndex hadCommitUpdate database).flatMap entryEffects ++ applied) seen :=
    ⟨[], by simp, by simpa [hempty] using h⟩
  rw [handleNewlyCommittedEntries]
  split
  · next hreads =>
      refine Action.Triple.lift_bind (fun hfails => hnone ?_) fun start hstart =>
        Action.Triple.lift_bind (fun hfails => hnone ?_) fun stop hstop => Action.Triple.get_bind fun seen hseen => ?_
      · rw [readBackFrom, if_pos hreads]
        split
        · next start stop hstart hstop => exact absurd hstart (hfails start)
        · rfl
      · rw [readBackFrom, if_pos hreads]
        split
        · next start stop hstart hstop => exact absurd hstop (hfails stop)
        · rfl
      have hback : readBackFrom codec round lastAppliedIndex hadCommitUpdate database =
          readOr (RedbRaftStorage.entries codec.toRaftStateCodec seen.node.database start stop none) := by
        rw [readBackFrom, if_pos hreads, hstart, hstop, entries_congr hseen.about_node.database]
      cases hentries : RedbRaftStorage.entries codec.toRaftStateCodec seen.node.database start stop none with
      | ok entries =>
          rw [hentries, readOr] at hback
          rw [hback]
          refine Action.Triple.bind ((processEntries_spec entries _ effects lastAppliedIndex).stopping ?_) fun last => ?_
          · intro seen' ⟨done, rest, hentries', hrefused, hleft⟩
            exact ⟨done, rest, hentries', fun _ => hrefused, hleft⟩
          · split
            · exact Action.Triple.consequence (record_spec (.advanceApplyTo last)) (fun _ h => h.2)
                (fun _ seen' h => ⟨[.advanceApplyTo last], by simp, h⟩) (fun _ => id)
            · exact Action.Triple.pure fun seen' h => ⟨[], by simp, by simpa using h.2⟩
      | err error =>
          rw [hentries] at hback
          exact Action.Triple.pure (hquiet hback)
      | panic =>
          rw [hentries] at hback
          exact Action.Triple.lift (by simp) fun _ => hnone hback
  · next hreads =>
      refine Action.Triple.pure (hquiet ?_)
      rw [readBackFrom, if_neg hreads]

theorem saveCommitIndex_spec (log : RedbRaftStorage) :
    Action.Triple (Doing round.faults history nodeId isOpen log effects) (saveCommitIndex codec round)
      (fun value seen => value = round.light.commitIndex.isSome ∧ ∃ saved, (∀ effect ∈ saved, ∃ hardState, effect = .saveHardState hardState) ∧
        Doing round.faults history nodeId isOpen log (effects ++ saved) seen)
      (fun seen => ¬ ((∀ fault ∈ round.faults, fault = none) ∧ round.SavesCommit codec) ∧ Left round.faults history effects seen) := by
  rw [saveCommitIndex]
  cases hcommit : round.light.commitIndex with
  | none => exact Action.Triple.pure fun seen h => ⟨rfl, [], by simp, by simpa using h⟩
  | some commit =>
      refine Action.Triple.bind (Action.Triple.stopping (saveHardState_spec _ log) ?_) fun _ => Action.Triple.pure ?_
      · intro seen h
        exact ⟨fun hfine => h.1 ⟨hfine.1, hfine.2 commit hcommit⟩, h.2⟩
      · intro seen h
        exact ⟨rfl, _, by simp, h⟩

/-- All but the last step of handling a Ready, from `advance` on. -/
theorem advanceRaftNode_spec (database : Redb.Database) :
    Action.Triple (Doing round.faults history nodeId isOpen (RedbRaftStorage.ofDatabase database) effects)
      (advanceRaftNode codec round (lastIndexOf round.ready.committedEntries))
      (fun _ seen => ∃ lightSent saved applied, Sends nodeId isOpen round.light.messages lightSent ∧
        (∀ effect ∈ saved, ∃ hardState, effect = .saveHardState hardState) ∧
        (∀ effect ∈ applied, ∃ index, effect = .advanceApplyTo index) ∧
        Doing round.faults history nodeId isOpen (RedbRaftStorage.ofDatabase database)
          (effects ++ [.advance] ++ lightSent ++ saved ++
            (readBackFrom codec round (lastIndexOf round.ready.committedEntries) round.light.commitIndex.isSome database).flatMap
              entryEffects ++ applied) seen)
      (fun seen => ∃ lightSent saved done rest, Sends nodeId isOpen round.light.messages lightSent ∧
        (∀ effect ∈ saved, ∃ hardState, effect = .saveHardState hardState) ∧
        readBackFrom codec round (lastIndexOf round.ready.committedEntries) round.light.commitIndex.isSome database = done ++ rest ∧
        (rest ≠ [] → ¬ ((∀ fault ∈ round.faults, fault = none) ∧ round.SavesCommit codec ∧
          ∀ entry ∈ rest, round.Accepts codec entry)) ∧
        Left round.faults history (effects ++ [.advance] ++ lightSent ++ saved ++ done.flatMap entryEffects) seen) := by
  rw [advanceRaftNode]
  refine (record_spec _).bind fun _ => (sendAll_spec _).bind fun _ => .of_exists fun lightSent =>
    .of_pre (fun _ h => h.1) fun hsent => ?_
  refine Action.Triple.bind (((saveCommitIndex_spec (RedbRaftStorage.ofDatabase database)).strengthen fun _ h => h.2).stopping ?_)
    fun hadCommitUpdate => ?_
  · intro seen h
    exact ⟨lightSent, [], [], _, hsent, by simp, rfl, fun _ hfine => h.1 ⟨hfine.1, hfine.2.1⟩, by simpa using h.2⟩
  · refine .of_pre (fun _ h => h.1) fun hhad => ?_
    subst hhad
    refine Action.Triple.strengthen (Action.Triple.of_exists fun saved => .of_pre (fun _ h => h.1) fun hsaved => ?_) fun _ h => h.2
    refine ((handleNewlyCommittedEntries_spec _ _ database).strengthen fun _ h => h.2).consequence (fun _ => id) ?_ ?_
    · intro _ seen ⟨applied, happlied, h⟩
      exact ⟨lightSent, saved, applied, hsent, hsaved, happlied, h⟩
    · intro seen ⟨done, rest, hentries, hrefused, h⟩
      refine ⟨lightSent, saved, done, rest, hsent, hsaved, hentries, fun hrest hfine => ?_, h⟩
      obtain ⟨entry, hentry, hentryRefused⟩ := hrefused hrest
      exact hentryRefused ⟨hfine.1, hfine.2.2 entry hentry⟩

theorem checkAndTriggerLogCompaction_spec :
    Action.Triple (Tracks faults history (About nodeId isOpen holds) effects) (checkAndTriggerLogCompaction codec round)
      (fun _ => Tracks faults history (About nodeId isOpen fun _ => True) effects) (Left faults history effects) := by
  rw [checkAndTriggerLogCompaction]
  refine Action.Triple.get_bind fun seen _ => Action.Triple.lift_bind (fun _ _ => Tracks.left) fun compacted _ => onNode_spec ?_
  exact fun _ hmanager => ⟨hmanager.nodeId_eq, hmanager.channel, trivial⟩

/-! ### A whole handling -/

/-- What a whole handling leaves: one more Ready in the history, with effects that `holds` is about. -/
def Handles (start : Observed RaftManager) (round : Round) (nodeId : UInt64) (isOpen : Prop) (holds : List Effect → Prop)
    (handler : Handler RaftManager Unit) : Prop :=
  Action.Triple (· = start) handler
    (fun _ seen => (∃ effects, holds effects ∧ seen.history = start.history ++ [⟨round.ready, round.light, effects⟩]) ∧
      About nodeId isOpen (fun _ => True) seen.node)
    (fun seen => ∃ effects, holds effects ∧ seen.history = start.history ++ [⟨round.ready, round.light, effects⟩])

variable {start : Observed RaftManager}

theorem handles_of_body
    {body : Handler RaftManager Unit} {traced : List Effect → Prop} (hstart : About nodeId isOpen (fun _ => True) start.node)
    (hbody : Action.Triple (Tracks round.faults start.history (About nodeId isOpen (· = start.node.database)) []) body
      (fun _ seen => ∃ effects, traced effects ∧ Tracks round.faults start.history (About nodeId isOpen fun _ => True) effects seen)
      (fun seen => ∃ effects, traced effects ∧ Left round.faults start.history effects seen)) :
    Handles start round nodeId isOpen traced (handling round.ready round.light round.faults body) := by
  refine (handling_spec _ _ hbody).strengthen fun seen hseen => ?_
  subst hseen
  exact ⟨rfl, { hstart with database := rfl }⟩

theorem handleReady_handles (hstart : About nodeId isOpen (fun _ => True) start.node) :
    Handles start round nodeId isOpen (ReadyTrace codec round nodeId isOpen (round.readBack codec start.node.database))
      (handleReady codec round) := by
  apply handles_of_body hstart
  refine Action.Triple.bind ((processSnapshotIfPresent_spec round.ready _).stopping ?_) fun _ => ?_
  · intro seen ⟨⟨hfull, hfails⟩, h⟩
    refine ⟨[], .writing [] List.nil_prefix fun hfine => hfails ⟨hfine.2.faultless, hfine.1 hfull⟩, h⟩
  refine Action.Triple.bind ((saveEntriesToStorage_spec round.ready _).stopping ?_) fun _ => ?_
  · intro seen ⟨hfails, h⟩
    exact ⟨_, .writing _ (List.prefix_append _ _) fun hfine => hfails ⟨hfine.2.faultless, hfine.2.entries⟩, h⟩
  refine Action.Triple.bind ((saveHardStateIfChanged_spec round.ready _).stopping ?_) fun _ => ?_
  · intro seen ⟨⟨hs, hhs, hfails⟩, h⟩
    refine ⟨_, .writing _ ?_ fun hfine => hfails ⟨hfine.2.faultless, hfine.2.hardState hs hhs⟩, h⟩
    rw [persistEffects, ← List.append_assoc]
    exact List.prefix_append _ _
  refine (sendAll_spec _).bind fun _ => .of_exists fun sent => .of_pre (fun _ h => h.1) fun hsent => ?_
  refine Action.Triple.bind (((processEntries_spec round.ready.committedEntries _ _ 0).strengthen fun _ h => h.2).stopping ?_)
    fun last => .of_pre (fun _ h => h.1) fun hlast => ?_
  · intro seen ⟨done, rest, hentries, ⟨entry, hentry, hrefused⟩, h⟩
    refine ⟨_, .applying sent done rest hsent hentries fun hfine => hrefused ⟨hfine.1, hfine.2 entry ?_⟩, h.of_eq ?_⟩
    · exact hentries ▸ List.mem_append_right done hentry
    · simp [persistEffects]
  subst hlast
  refine Action.Triple.bind (((advanceRaftNode_spec _).strengthen fun _ h => h.2).stopping ?_) fun _ => ?_
  · intro seen ⟨lightSent, saved, done, rest, hlight, hsaved, hentries, hstop, h⟩
    refine ⟨_, .advanced sent lightSent saved done rest [] hsent hlight hsaved hentries (by simp) fun hrest hfine => ?_, h.of_eq ?_⟩
    · refine hstop hrest ⟨hfine.1, hfine.2.1, fun entry hentry => hfine.2.2 entry ?_⟩
      rw [Round.readBack, hentries]
      exact List.mem_append_right done hentry
    · simp [persistEffects]
  · refine .of_exists fun lightSent => .of_exists fun saved => .of_exists fun applied => ?_
    refine .of_pre (fun _ h => h.1) fun hlight => .of_pre (fun _ h => h.2.1) fun hsaved =>
      .of_pre (fun _ h => h.2.2.1) fun happlied => ?_
    have htrace : ReadyTrace codec round nodeId isOpen (round.readBack codec start.node.database) _ :=
      .advanced sent lightSent saved (round.readBack codec start.node.database) [] applied hsent hlight hsaved
        (List.append_nil _).symm happlied (absurd rfl)
    refine (checkAndTriggerLogCompaction_spec.strengthen fun _ h => h.2.2.2).consequence (fun _ => id) ?_ ?_
    · intro _ seen h
      exact ⟨_, htrace, h.of_eq (by simp [persistEffects, Round.readBack])⟩
    · intro seen h
      exact ⟨_, htrace, h.of_eq (by simp [persistEffects, Round.readBack])⟩

theorem confChanges_spec (entries : List Entry) (log : RedbRaftStorage) :
    Action.Triple (Doing round.faults history nodeId isOpen log effects)
      (entries.forM fun entry =>
        if entry.kind = .entryConfChange then processConfChangeEntry codec round entry else return ())
      (fun _ => Doing round.faults history nodeId isOpen log (effects ++ entries.flatMap confChangeEffects))
      (fun seen => ∃ done : List Entry, Left round.faults history (effects ++ done.flatMap confChangeEffects) seen) := by
  refine Action.Triple.strengthen (Action.Triple.forM (fun (done : List Entry) => Doing round.faults history
    nodeId isOpen log (effects ++ done.flatMap confChangeEffects)) fun done entry rest _ => ?_) fun seen h => by simpa using h
  by_cases hkind : entry.kind = .entryConfChange
  · rw [if_pos hkind]
    refine (processConfChangeEntry_spec entry hkind log).consequence (fun _ => id) (fun _ seen h => h.of_eq ?_) fun seen h => ⟨done, h.2⟩
    simp [confChangeEffects, hkind]
  · rw [if_neg hkind]
    refine Action.Triple.pure fun seen h => h.of_eq ?_
    simp [confChangeEffects, hkind]

theorem handleReadyInline_handles (hstart : About nodeId isOpen (fun _ => True) start.node) :
    Handles start round nodeId isOpen (InlineTrace codec round nodeId isOpen) (handleReadyInline codec round) := by
  apply handles_of_body hstart
  refine Action.Triple.bind ((saveEntriesToStorage_spec round.ready _).stopping ?_) fun _ => ?_
  · intro seen ⟨hfails, h⟩
    exact ⟨[], .writing [] List.nil_prefix fun hfine => hfails ⟨hfine.faultless, hfine.entries⟩, h⟩
  refine Action.Triple.bind ((saveHardStateIfChanged_spec round.ready _).stopping ?_) fun _ => ?_
  · intro seen ⟨⟨hs, hhs, hfails⟩, h⟩
    exact ⟨_, .writing _ (List.prefix_append _ _) fun hfine => hfails ⟨hfine.faultless, hfine.hardState hs hhs⟩, h⟩
  refine (sendAll_spec _).bind fun _ => .of_exists fun sent => .of_pre (fun _ h => h.1) fun hsent => ?_
  refine ((sendAll_spec _).strengthen fun _ h => h.2).bind fun _ => .of_exists fun persisted =>
    .of_pre (fun _ h => h.1) fun hpersisted => ?_
  refine Action.Triple.bind (((confChanges_spec _ _).strengthen fun _ h => h.2).stopping ?_) fun _ => (record_spec _).weaken ?_
  · intro seen ⟨done, h⟩
    exact ⟨_, .applying sent persisted done hsent hpersisted, h.of_eq (by simp [persistEffects])⟩
  · intro _ seen h
    exact ⟨_, .advanced sent persisted hsent hpersisted, (anyDatabase h).of_eq (by simp [persistEffects])⟩

end IrohRaft.RaftManager
