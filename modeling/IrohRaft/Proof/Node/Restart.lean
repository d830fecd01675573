import IrohRaft.KeyValueStateMachine
import IrohRaft.Library.Register
import IrohRaft.Proof.Node.Replay
import IrohRaft.Proof.StateMachine.KvCodec
import IrohRaft.Proof.Storage.Recovery

/-!
# Restarting a node

A node's map is in memory, and a start configures the raft crate with the commit index that was stored. Raft then hands
out the committed entries above that index, to a map that is empty: what the entries below it left there is gone. The
map is still that of the whole log once every key of theirs has been written again, or once a snapshot has come.
-/

namespace IrohRaft.RaftNode

open Rust Redb Handler Bincode Register

/-! ### The committed log -/

/-- Every index is there once, in order. -/
def Committed (log : List Entry) : Prop := log.Pairwise fun first second => first.index < second.index

def entriesUpTo (log : List Entry) (last : UInt64) : List Entry := log.filter fun entry => entry.index ≤ last

def entriesBetween (log : List Entry) (first last : UInt64) : List Entry :=
  log.filter fun entry => first < entry.index ∧ entry.index ≤ last

/-- What a normal entry asks of the map. -/
def keyValueOp (entry : Entry) : Option KeyValueOp :=
  if isConfChange entry then none
  else
    match ProposalData.decode entry.data with
    | .ok (.keyValue op, _) => some op
    | _ => none

/-- What an operation leaves under a key that it writes. -/
def opLeaves (key : Str) : KeyValueOp → Option (Option Str)
  | .set other value => if other = key then some (some value) else none
  | .delete other => if other = key then some none else none
  | .get _ | .list _ => none

def applyTo (data : HashMap Str Str) : KeyValueOp → HashMap Str Str
  | .set key value => data.insert key value
  | .delete key => data.erase key
  | .get _ | .list _ => data

def nextData (data : HashMap Str Str) (entry : Entry) : HashMap Str Str := ((keyValueOp entry).map (applyTo data)).getD data

/-- The map that the entries make of an empty one. -/
def replay (entries : List Entry) : HashMap Str Str := entries.foldl nextData ∅

/-! ### What the raft crate hands out -/

/-- The committed entries that come next, or a snapshot of those up to its index. -/
inductive HandsOutNext (log : List Entry) (reached : UInt64) (handled : Handled) (next : UInt64) : Prop where
  | entries (hle : reached ≤ next) (hsnapshot : hasSnapshot handled.ready = false)
      (hentries : handled.handedOut = entriesBetween log reached next)
  | snapshot (metadata : SnapshotMetadata) (hmetadata : handled.ready.snapshot.metadata = some metadata)
      (hsnapshot : hasSnapshot handled.ready = true) (hreached : reached ≤ metadata.index) (hle : metadata.index ≤ next)
      (hnone : handled.ready.committedEntries = []) (hentries : handled.handedOut = entriesBetween log metadata.index next)

/-- The Readys hand out the entries above an index once each, up to another. -/
inductive Redelivers (log : List Entry) : UInt64 → List Handled → UInt64 → Prop where
  | done (reached : UInt64) : Redelivers log reached [] reached
  | next {reached middle last : UInt64} {handled : Handled} {rest : List Handled}
      (hnext : HandsOutNext log reached handled middle) (hrest : Redelivers log middle rest last) : Redelivers log reached (handled :: rest) last

/-! ### When -/

/-- The snapshot reads as the map of the entries that it stands for. -/
def Carries (log : List Entry) (snapshot : Snapshot) : Prop :=
  ∀ metadata ∈ snapshot.metadata, ∃ rest,
    KeyValueStateMachine.decode snapshot.data = .ok (replay (entriesUpTo log metadata.index), rest)

/-- Its entries are taken, and so is its snapshot. -/
structure Round.Rebuilds (log : List Entry) (round : Round) : Prop where
  takesAll : round.TakesAll keyValueStateMachine
  snapshot : hasSnapshot round.ready = true → round.Faultless ∧ Carries log round.ready.snapshot

def SnapshotCame (history : List Handled) : Prop := ∃ handled ∈ history, hasSnapshot handled.ready = true

/-- Every key that the entries up to the commit index leave in the map is written by a later one. -/
def Rewritten (log : List Entry) (commit last : UInt64) : Prop :=
  ∀ key ∈ replay (entriesUpTo log commit), ∃ entry ∈ entriesBetween log commit last, ∃ op,
    keyValueOp entry = some op ∧ opLeaves key op ≠ none

/-! ### The map -/

/-- What an entry leaves under a key that it writes. -/
def entryLeaves (key : Str) (entry : Entry) : Option (Option Str) := (keyValueOp entry).bind (opLeaves key)

theorem getElem?_applyTo (data : HashMap Str Str) (op : KeyValueOp) (key : Str) :
    (applyTo data op)[key]? = (opLeaves key op).getD data[key]? := by
  cases op with
  | set other value =>
      rw [applyTo, opLeaves, HashMap.getElem?_insert_if]
      split <;> simp
  | delete other =>
      rw [applyTo, opLeaves, HashMap.getElem?_erase_if]
      split <;> simp
  | get other => simp [applyTo, opLeaves]
  | list prefixed => simp [applyTo, opLeaves]

theorem getElem?_nextData (key : Str) (data : HashMap Str Str) (entry : Entry) :
    (nextData data entry)[key]? = (entryLeaves key entry).getD data[key]? := by
  rw [nextData, entryLeaves]
  cases keyValueOp entry with
  | none => simp
  | some op => simpa using getElem?_applyTo data op key

/-- What the map held before does not show exactly when each of its keys is written. -/
theorem foldl_nextData_eq_iff {entries : List Entry} {data : HashMap Str Str} :
    entries.foldl nextData ∅ = entries.foldl nextData data ↔ ∀ key ∈ data, ∃ entry ∈ entries, entryLeaves key entry ≠ none := by
  have hmem (key : Str) : (∅ : HashMap Str Str)[key]? ≠ data[key]? ↔ key ∈ data := by
    rw [Std.ExtTreeMap.getElem?_empty, Std.ExtTreeMap.mem_iff_isSome_getElem?]
    cases data[key]? <;> simp
  rw [foldl_eq_foldl_iff (fun _ _ => Std.ExtTreeMap.ext_getElem?) getElem?_nextData]
  simp only [hmem]

theorem entryLeaves_ne_none_iff {key : Str} {entry : Entry} :
    entryLeaves key entry ≠ none ↔ ∃ op, keyValueOp entry = some op ∧ opLeaves key op ≠ none := by
  rw [entryLeaves]
  cases keyValueOp entry with
  | none => simp
  | some op => simp

/-! ### Parts of the log -/

section Log

variable {log : List Entry} {first middle last : UInt64}

/-- Parts of an ordered list of which one comes before the other. -/
theorem filter_append_filter {α : Type} {before : α → α → Prop} {items : List α} {early late : α → Bool}
    (h : items.Pairwise before)
    (hbefore : ∀ item item', before item item' → late item = true → early item' = false)
    (hone : ∀ item, late item = true → early item = false) :
    items.filter early ++ items.filter late = items.filter fun item => early item || late item := by
  induction h with
  | nil => simp
  | @cons item rest hitem hrest ih =>
      cases hlate : late item with
      | false => cases hearly : early item <;> simp [hearly, hlate, ih]
      | true =>
          have hnone : rest.filter early = [] := by
            refine List.filter_eq_nil_iff.mpr fun other hother => ?_
            simp [hbefore item other (hitem other hother) hlate]
          rw [hnone, List.nil_append] at ih
          simp [hone item hlate, hlate, hnone, ih]

theorem entriesBetween_append (hlog : Committed log) (hfirst : first ≤ middle) (hlast : middle ≤ last) :
    entriesBetween log first middle ++ entriesBetween log middle last = entriesBetween log first last := by
  rw [entriesBetween, entriesBetween, filter_append_filter hlog, entriesBetween]
  · refine List.filter_congr fun entry _ => ?_
    grind
  · grind
  · grind

theorem entriesUpTo_append (hlog : Committed log) (hle : middle ≤ last) :
    entriesUpTo log middle ++ entriesBetween log middle last = entriesUpTo log last := by
  rw [entriesUpTo, entriesBetween, filter_append_filter hlog, entriesUpTo]
  · refine List.filter_congr fun entry _ => ?_
    grind
  · grind
  · grind

end Log

/-! ### A life -/

section Life

variable {log : List Entry} {reached next last : UInt64} {handled : Handled} {history : List Handled} {round : Round}

/-- What `Round.Rebuilds` says about the Ready that was handled. -/
structure Rebuilt (log : List Entry) (handled : Handled) : Prop where
  normal : ∀ entry ∈ handled.ready.committedEntries, isConfChange entry = false
  light : ∀ entry ∈ handled.light.committedEntries, hasData entry = false
  snapshot : hasSnapshot handled.ready = true → Carries log handled.ready.snapshot

theorem Round.Rebuilds.rebuilt (h : round.Rebuilds log) (effects : List Effect) :
    Rebuilt log ⟨round.ready, round.light, effects⟩ := by
  refine ⟨fun entry hentry => ?_, fun entry hentry => (h.takesAll.light entry hentry).2, fun hsome => (h.snapshot hsome).2⟩
  obtain hnone | hsucceeds := h.takesAll.ready
  · simp [hnone] at hentry
  · exact (hsucceeds.reads entry hentry).1

theorem restore_of_decode {bytes rest : Bytes} {restored : HashMap Str Str}
    (h : KeyValueStateMachine.decode bytes = .ok (restored, rest)) (data : HashMap Str Str) :
    keyValueStateMachine.restore bytes data = (.ok (), restored) := by
  show KeyValueStateMachine.restore bytes data = _
  rw [KeyValueStateMachine.restore, h]

theorem decode_encode {data : HashMap Str Str} (hsize : data.size < 2 ^ 64) (rest : Bytes) :
    KeyValueStateMachine.decode (KeyValueStateMachine.encode data ++ rest) = .ok (data, rest) := by
  have hlength : data.toList.length < 2 ^ 64 := by rwa [Std.ExtTreeMap.length_toList]
  have hpairs := decodeSeq_append
    (fun pair _ => decodePair_append (decodeString_append pair.1) (decodeString_append pair.2)) hlength
  simp only [KeyValueStateMachine.decode, KeyValueStateMachine.encode, hpairs, ok_bind, pure_eq_ok, KvState.ofList_toList]

/-- A machine that holds the map of the log writes such a snapshot. -/
theorem carries_snapshot {metadata : SnapshotMetadata} {bytes : Bytes}
    (hsize : (replay (entriesUpTo log metadata.index)).size < 2 ^ 64)
    (h : KeyValueStateMachine.snapshot (replay (entriesUpTo log metadata.index)) = .ok bytes) :
    Carries log { data := bytes, metadata := some metadata } := by
  intro other hother
  obtain rfl := Option.some.inj hother
  obtain rfl := Except.ok.inj h
  have hdecode := decode_encode hsize []
  rw [List.append_nil] at hdecode
  exact ⟨[], hdecode⟩

theorem exists_metadata {ready : Ready} (h : hasSnapshot ready = true) : ∃ metadata, ready.snapshot.metadata = some metadata := by
  rw [hasSnapshot] at h
  cases hmetadata : ready.snapshot.metadata with
  | none => simp [hmetadata] at h
  | some metadata => exact ⟨metadata, rfl⟩

theorem Round.Rebuilds.reaches (h : round.Rebuilds log) : round.Reaches keyValueStateMachine := by
  have hsucceeds (hsome : round.ready.committedEntries ≠ []) : round.Succeeds keyValueStateMachine :=
    h.takesAll.ready.resolve_left hsome
  refine ⟨fun entry hentry => ?_, fun hsome => ⟨(hsucceeds hsome).faultless, (hsucceeds hsome).installs⟩, fun hsome => ?_⟩
  · exact ((hsucceeds (List.ne_nil_of_mem hentry)).reads entry hentry).2
  · obtain ⟨hfaultless, hcarries⟩ := h.snapshot hsome
    refine ⟨hfaultless, fun _ data => ?_⟩
    obtain ⟨metadata, hmetadata⟩ := exists_metadata hsome
    obtain ⟨rest, hdecode⟩ := hcarries metadata hmetadata
    rw [restore_of_decode hdecode]

theorem keyValueOp_of_no_data {entry : Entry} (h : hasData entry = false) : keyValueOp entry = none := by
  have hnil : entry.data = [] := by simpa [hasData] using h
  have hdecode : ∃ e, ProposalData.decode [] = .error e := ⟨_, rfl⟩
  obtain ⟨e, he⟩ := hdecode
  rw [keyValueOp, hnil, he]
  simp

theorem foldl_nextData_of_no_data {entries : List Entry} (h : ∀ entry ∈ entries, hasData entry = false) (data : HashMap Str Str) :
    entries.foldl nextData data = data := by
  induction entries with
  | nil => simp
  | cons entry rest ih =>
      have hentry : nextData data entry = data := by
        rw [nextData, keyValueOp_of_no_data (h entry List.mem_cons_self), Option.map_none, Option.getD_none]
      rw [List.foldl_cons, hentry]
      exact ih fun later hlater => h later (List.mem_cons_of_mem _ hlater)

/-- The machine does what the entry asks for. -/
theorem takeEntry_eq_nextData {entry : Entry} (h : isConfChange entry = false) (data : HashMap Str Str) :
    takeEntry keyValueStateMachine data entry = nextData data entry := by
  cases hempty : entry.data.isEmpty with
  | true =>
      have hnone : keyValueOp entry = none := keyValueOp_of_no_data (by simp [hasData, hempty])
      rw [takeEntry, if_pos hempty, nextData, hnone, Option.map_none, Option.getD_none]
  | false =>
      rw [takeEntry, hempty, nextData, keyValueOp, h]
      rcases ProposalData.decode entry.data with e | ⟨op | bytes | content | _, rest⟩
      · simp
      · cases op <;> simp [keyValueStateMachine, KeyValueStateMachine.apply, KeyValueStateMachine.applyOp, applyTo]
      · simp [keyValueStateMachine, KeyValueStateMachine.apply]
      · simp [keyValueStateMachine, KeyValueStateMachine.apply]
      · simp [keyValueStateMachine, KeyValueStateMachine.apply]

theorem foldl_takeEntry {entries : List Entry} (h : ∀ entry ∈ entries, isConfChange entry = false) (data : HashMap Str Str) :
    entries.foldl (takeEntry keyValueStateMachine) data = entries.foldl nextData data :=
  List.foldl_ext _ _ _ fun data entry hentry => takeEntry_eq_nextData (h entry hentry) data

/-- The entries of a LightReady have no data, so it does not matter whether the node came to ask for them. -/
theorem foldl_handedOut (h : Rebuilt log handled) (data : HashMap Str Str) :
    handled.handedOut.foldl nextData data = handled.ready.committedEntries.foldl nextData data := by
  rw [Handled.handedOut, List.foldl_append]
  split
  · exact foldl_nextData_of_no_data h.light _
  · simp

theorem absorb_of_entries (h : Rebuilt log handled) (hsnapshot : hasSnapshot handled.ready = false) (data : HashMap Str Str) :
    absorb keyValueStateMachine data handled.ready = handled.handedOut.foldl nextData data := by
  rw [absorb, hsnapshot, foldl_handedOut h, foldl_takeEntry h.normal]
  simp

theorem absorb_of_snapshot (h : Rebuilt log handled) (hsnapshot : hasSnapshot handled.ready = true) {metadata : SnapshotMetadata}
    (hmetadata : handled.ready.snapshot.metadata = some metadata) (data : HashMap Str Str) :
    absorb keyValueStateMachine data handled.ready = replay (entriesUpTo log metadata.index) := by
  obtain ⟨rest, hdecode⟩ := h.snapshot hsnapshot metadata hmetadata
  rw [absorb, if_pos hsnapshot, restore_of_decode hdecode]

/-- One Ready: the map goes on with the entries that come next, or is that of the whole log so far. -/
theorem absorb_next (hlog : Committed log) (h : HandsOutNext log reached handled next) (hgood : Rebuilt log handled)
    (data : HashMap Str Str) :
    reached ≤ next ∧
      (hasSnapshot handled.ready = true → absorb keyValueStateMachine data handled.ready = replay (entriesUpTo log next)) ∧
      (hasSnapshot handled.ready = false →
        absorb keyValueStateMachine data handled.ready = (entriesBetween log reached next).foldl nextData data) := by
  cases h with
  | entries hle hsnapshot hentries =>
      refine ⟨hle, fun hsome => by simp [hsnapshot] at hsome, fun _ => ?_⟩
      rw [absorb_of_entries hgood hsnapshot, hentries]
  | snapshot metadata hmetadata hsnapshot hreached hle hnone hentries =>
      refine ⟨UInt64.le_trans hreached hle, fun _ => ?_, fun hno => by simp [hsnapshot] at hno⟩
      have hquiet (data : HashMap Str Str) : (entriesBetween log metadata.index next).foldl nextData data = data := by
        rw [← hentries, foldl_handedOut hgood, hnone, List.foldl_nil]
      rw [absorb_of_snapshot hgood hsnapshot hmetadata, ← entriesUpTo_append hlog hle, replay, replay, List.foldl_append, hquiet]

theorem entriesBetween_self (log : List Entry) (index : UInt64) : entriesBetween log index index = [] := by
  refine List.filter_eq_nil_iff.mpr fun entry _ => ?_
  grind

/-- All Readys of a life, by induction on them. -/
theorem foldl_absorb (hlog : Committed log) (h : Redelivers log reached history last)
    (hgood : ∀ handled ∈ history, Rebuilt log handled) (data : HashMap Str Str) :
    reached ≤ last ∧
      (SnapshotCame history → history.foldl (fun data handled => absorb keyValueStateMachine data handled.ready) data =
        replay (entriesUpTo log last)) ∧
      (¬ SnapshotCame history → history.foldl (fun data handled => absorb keyValueStateMachine data handled.ready) data =
        (entriesBetween log reached last).foldl nextData data) := by
  induction h generalizing data with
  | done reached => simp [SnapshotCame, entriesBetween_self]
  | @next reached middle last handled rest hnext hrest ih =>
      obtain ⟨hle, hsome, hnone⟩ := absorb_next hlog hnext (hgood handled List.mem_cons_self) data
      obtain ⟨hle', hsome', hnone'⟩ := ih (fun later hlater => hgood later (List.mem_cons_of_mem _ hlater))
        (absorb keyValueStateMachine data handled.ready)
      have hcame : SnapshotCame (handled :: rest) ↔ hasSnapshot handled.ready = true ∨ SnapshotCame rest := by simp [SnapshotCame]
      refine ⟨UInt64.le_trans hle hle', fun h => ?_, fun h => ?_⟩
      · rw [List.foldl_cons]
        by_cases hlater : SnapshotCame rest
        · exact hsome' hlater
        · rw [hnone' hlater, hsome ((hcame.mp h).resolve_right hlater), ← entriesUpTo_append hlog hle', replay, replay,
            List.foldl_append]
      · obtain ⟨hnow, hlater⟩ := not_or.mp (hcame.not.mp h)
        rw [List.foldl_cons, hnone' hlater, hnone (Bool.eq_false_iff.mpr hnow), ← List.foldl_append,
          entriesBetween_append hlog hle hle']

/-- The map of a node that starts with an empty one. -/
theorem after_eq_replay_iff (hlog : Committed log) {prost : ProstCodec Snapshot} {node : RaftNode (HashMap Str Str)}
    (hempty : node.stateMachine = ∅) {inputs : List Input} {applied : UInt64}
    (hcontract : Redelivers log applied (RaftNode.history keyValueStateMachine prost node inputs) last)
    (hinputs : ∀ input ∈ inputs, ∀ round ∈ input.next, round.Rebuilds log) :
    (after keyValueStateMachine prost node inputs).stateMachine = replay (entriesUpTo log last) ↔
      SnapshotCame (RaftNode.history keyValueStateMachine prost node inputs) ∨ Rewritten log applied last := by
  have hgood : ∀ handled ∈ RaftNode.history keyValueStateMachine prost node inputs, Rebuilt log handled :=
    history_good node (fun _ hround effects _ => hround.rebuilt effects) hinputs
  have hmachine := @stateMachine_after _ keyValueStateMachine prost node inputs fun input hinput round hround =>
    (hinputs input hinput round hround).reaches
  obtain ⟨hle, hsome, hnone⟩ := foldl_absorb hlog hcontract hgood ∅
  rw [hmachine, hempty]
  by_cases hcame : SnapshotCame (RaftNode.history keyValueStateMachine prost node inputs)
  · simp [hsome hcame, hcame]
  · rw [hnone hcame, ← entriesUpTo_append hlog hle, replay, List.foldl_append, foldl_nextData_eq_iff, Rewritten]
    simp only [hcame, false_or, entryLeaves_ne_none_iff, replay]

end Life

theorem history_tick {σ : Type} (machine : NodeStateMachine σ) (prost : ProstCodec Snapshot) (node : RaftNode σ) (round : Round) :
    ∃ effects, RaftNode.history machine prost node [.tick (some round)] = [⟨round.ready, round.light, effects⟩] := by
  have hstart : ({ node } : Observed (RaftNode σ)).history = [] := rfl
  obtain ⟨effects, -, hhistory⟩ := (@handleReady_spec _ machine prost round []).final hstart
  exact ⟨effects, hhistory⟩

/-! ### What lives leave on disk -/

section Lives

variable {σ : Type} {machine : NodeStateMachine σ} {prost : ProstCodec Snapshot} {holds : RaftStorage → Prop}

abbrev Stores (holds : RaftStorage → Prop) (seen : Observed (RaftNode σ)) : Prop := holds seen.node.storage

abbrev KeepsStorage (holds : RaftStorage → Prop) (handler : Handler (RaftNode σ) Unit) : Prop :=
  Action.Triple (Stores holds) handler (fun _ => Stores holds) (Stores holds)

theorem keepsStorage_writeStorage {update : RaftStorage → RaftStorage} (h : ∀ storage, holds storage → holds (update storage)) :
    KeepsStorage holds (writeStorage update : Handler (RaftNode σ) Unit) := by
  have hkeeps : (Session.commit fun storage => .ok (update storage) : Session RaftStorage RaftError Unit).Keeps holds :=
    Session.Keeps.commit fun start next hnext hstart => Outcome.ok.inj hnext ▸ h start hstart
  intro seen hseen
  rcases hfaults : seen.faults with _ | ⟨_ | fault, rest⟩ <;> simp only [writeStorage, store, hfaults]
  · exact hkeeps.final hseen
  · exact hkeeps.final hseen
  · exact hkeeps _ hseen _ (Session.stopped_mem_states _ _)

theorem keepsStorage_record (effect : Effect) : KeepsStorage holds (record effect : Handler (RaftNode σ) Unit) :=
  Action.Triple.modify fun _ => id

theorem keepsStorage_onNode {update : RaftNode σ → RaftNode σ} (h : ∀ node, (update node).storage = node.storage) :
    KeepsStorage holds (onNode update) :=
  Action.Triple.modify fun seen hseen => by simpa only [Stores, h] using hseen

theorem keepsStorage_applyEntry (entry : Entry) : KeepsStorage holds (applyEntry machine entry) := by
  rw [applyEntry]
  split
  · exact Action.Triple.pure fun _ => id
  · split
    · exact Action.Triple.lift (by simp) fun _ _ => id
    · refine Action.Triple.get_bind fun seen _ => Action.Triple.bind (keepsStorage_onNode ?_) fun _ =>
        (keepsStorage_record _).bind fun _ => ?_
      · exact fun _ => rfl
      · rw [answerContext]
        split
        · exact Action.Triple.pure fun _ => id
        · exact keepsStorage_onNode fun _ => rfl

theorem keepsStorage_restore (data : Bytes) : KeepsStorage holds (restore machine data) := by
  intro seen hseen
  rcases hrestore : machine.restore data seen.node.stateMachine with ⟨error | done, restored⟩ <;> simp only [restore, hrestore]
  · exact hseen
  · exact hseen

/-- The storage is changed by its three writes only. -/
theorem keepsStorage_handleReady (hsave : ∀ hardState storage, holds storage → holds (storage.saveHardState hardState))
    (happend : ∀ entries storage, holds storage → holds (storage.append entries))
    (hinstall : ∀ snapshot storage, holds storage → holds (storage.applySnapshot prost snapshot)) (round : Round) :
    KeepsStorage holds (handleReady machine prost round) := by
  have hsaved : KeepsStorage holds (saveHardState round.ready : Handler (RaftNode σ) Unit) :=
    saveHardState_keeps _ (fun _ => keepsStorage_writeStorage (hsave _)) keepsStorage_record
  have happended : KeepsStorage holds (saveEntries round.ready : Handler (RaftNode σ) Unit) :=
    saveEntries_keeps _ (keepsStorage_writeStorage (happend _)) keepsStorage_record
  have hinstalled : KeepsStorage holds (applySnapshot machine prost round.ready) := by
    rw [applySnapshot]
    split
    · exact (keepsStorage_restore _).bind fun _ => (keepsStorage_writeStorage (hinstall _)).bind fun _ => keepsStorage_record _
    · exact Action.Triple.pure fun _ => id
  have hsent (messages : List Message) : KeepsStorage holds (messages.forM sendMessage : Handler (RaftNode σ) Unit) :=
    Action.Triple.forM (fun _ => Stores holds) fun _ _ _ _ => keepsStorage_record _
  have hentries : KeepsStorage holds (round.ready.committedEntries.forM (applyEntry machine)) :=
    Action.Triple.forM (fun _ => Stores holds) fun _ entry _ _ => keepsStorage_applyEntry entry
  have hpre (seen : Observed (RaftNode σ)) (hseen : Stores holds seen) :
      Stores holds { seen with faults := round.faults, effects := [] } := hseen
  exact handling_about (fun node : RaftNode σ => holds node.storage) hpre (hsaved.bind fun _ => happended.bind fun _ =>
    (hsent _).bind fun _ => hentries.bind fun _ => hinstalled.bind fun _ => (keepsStorage_record _).bind fun _ => hsent _)

/-- The hard state can be read. -/
def HardStateReads (storage : RaftStorage) : Prop := ∃ hardState, RaftStorage.readHardState storage = .ok hardState

theorem hardStateReads_after (node : RaftNode σ) (inputs : List Input) (h : HardStateReads node.storage) :
    HardStateReads (after machine prost node inputs).storage := by
  refine final_keeps (Stores HardStateReads) node (fun _ _ => id) (fun _ _ round _ => keepsStorage_handleReady ?_ ?_ ?_ round) h
  · intro hardState storage _
    refine ⟨hardState, ?_⟩
    rw [RaftStorage.readHardState, RaftStorage.saveHardState]
    simp only [Table.getElem?_insert_self, deserializeHardState_serializeHardState, Outcome.mapErr_ok]
  · intro entries storage hreads
    rw [RaftStorage.append]
    split
    · exact hreads
    · exact hreads
  · intro snapshot storage hreads
    rw [HardStateReads, RaftStorage.readHardState_applySnapshot]
    exact hreads

theorem new_eq_ok {setup : Except RaftError Unit} {rawNode : UInt64 → Except String Unit} {database : Database} {state : σ}
    {applied : UInt64} {node : RaftNode σ} (h : new setup rawNode database state = .ok (applied, node)) :
    (RaftStorage.new database).appliedIndex = .ok applied ∧ node = { storage := .new database, stateMachine := state } := by
  cases setup with
  | error e => simp [new] at h
  | ok done =>
      obtain ⟨index, hindex, h⟩ := Outcome.bind_eq_ok.mp h
      cases hcreated : rawNode index with
      | error e => simp [hcreated] at h
      | ok created =>
          simp only [hcreated, Outcome.pure_eq_ok, Outcome.ok.injEq, Prod.mk.injEq] at h
          obtain ⟨rfl, rfl⟩ := h
          exact ⟨hindex, rfl⟩

/-- What is left on disk by the lives of a node, from an empty data directory. -/
def leftBy (prost : ProstCodec Snapshot) (lives : List Life) : Database := Run.final (live keyValueStateMachine prost ∅) {} lives

theorem hardStateReads_leftBy (prost : ProstCodec Snapshot) (lives : List Life) : HardStateReads (.new (leftBy prost lives)) := by
  refine Run.final_invariant (fun database => HardStateReads (.new database)) (fun life _ database hreads => ?_) ?_
  · cases hnew : RaftNode.new life.setup life.rawNode database (∅ : HashMap Str Str) with
    | ok started =>
        obtain ⟨applied, node⟩ := started
        simp only [live, hnew]
        refine hardStateReads_after node life.inputs ?_
        rw [(new_eq_ok hnew).2]
        exact hreads
    | err e => simpa only [live, hnew] using hreads
    | panic => simpa only [live, hnew] using hreads
  · exact ⟨{}, RaftStorage.recovers_new.hardState_eq⟩

/-- **Restart.** After a start and what was handed out since, the map is that of the committed log exactly if a snapshot
came or every key that was left by the entries up to the stored commit index has been written again. -/
theorem map_after_restart_iff (prost : ProstCodec Snapshot) {log : List Entry} (hlog : Committed log) (lives : List Life) :
    ∃ hardState, RaftStorage.readHardState (.new (leftBy prost lives)) = .ok hardState ∧
      ∀ (life : Life) applied node, new life.setup life.rawNode (leftBy prost lives) ∅ = .ok (applied, node) →
        ∀ last, Redelivers log applied (history keyValueStateMachine prost node life.inputs) last →
          (∀ input ∈ life.inputs, ∀ round ∈ input.next, round.Rebuilds log) →
            ((after keyValueStateMachine prost node life.inputs).stateMachine = replay (entriesUpTo log last) ↔
              SnapshotCame (history keyValueStateMachine prost node life.inputs) ∨ Rewritten log hardState.commit last) := by
  obtain ⟨hardState, hstored⟩ := hardStateReads_leftBy prost lives
  refine ⟨hardState, hstored, fun life applied node hnew last hcontract hinputs => ?_⟩
  obtain ⟨happlied, hnode⟩ := new_eq_ok hnew
  have hcommit : applied = hardState.commit :=
    Outcome.ok.inj (happlied.symm.trans (RaftStorage.appliedIndex_of_readHardState hstored))
  rw [← hcommit]
  exact after_eq_replay_iff hlog (by rw [hnode]) hcontract hinputs

end Lives

/-! ### One key -/

theorem decode_keyValue (op : KeyValueOp) : ProposalData.decode (ProposalData.keyValue op).encode = .ok (.keyValue op, []) := by
  have hop (rest : Bytes) : KeyValueOp.decode (op.encode ++ rest) = .ok (op, rest) := by
    have hset : (0 : UInt32).toNat = 0 := by decide
    have hget : (1 : UInt32).toNat = 1 := by decide
    have hdelete : (2 : UInt32).toNat = 2 := by decide
    have hlist : (3 : UInt32).toNat = 3 := by decide
    have hoption (text : Option Str) := decodeOption_append rest text fun inner _ => decodeString_append inner rest
    cases op <;>
      simp only [KeyValueOp.encode, KeyValueOp.decode, List.append_assoc, decodeU32_append, decodeString_append, hoption,
        ok_bind, pure_eq_ok, hset, hget, hdelete, hlist]
  have hkeyValue : (0 : UInt32).toNat = 0 := by decide
  have hrest := hop []
  rw [List.append_nil] at hrest
  simp only [ProposalData.encode, ProposalData.decode, decodeU32_append, ok_bind, hkeyValue, hrest, pure_eq_ok]

def oneKey : Str := ⟨"key", by decide⟩

/-- The proposal to set the key to a text, at an index of the log. -/
def setKey (index : UInt64) (value : Str) : Entry where
  entryType := 0
  term := 1
  index
  data := (ProposalData.keyValue (.set oneKey value)).encode
  context := []
  syncLog := false

def firstValue : Entry := setKey 1 ⟨"first", by decide⟩

def secondValue : Entry := setKey 2 ⟨"second", by decide⟩

theorem keyValueOp_setKey (index : UInt64) (value : Str) : keyValueOp (setKey index value) = some (.set oneKey value) := by
  have hnormal : isConfChange (setKey index value) = false := by simp [isConfChange, Entry.kind, setKey]
  rw [keyValueOp, hnormal, setKey, decode_keyValue]
  simp

theorem mem_replay_setKey {index : UInt64} {value key : Str} : key ∈ replay [setKey index value] ↔ key = oneKey := by
  rw [replay, List.foldl_cons, List.foldl_nil, nextData, keyValueOp_setKey, Option.map_some, Option.getD_some, applyTo,
    Std.ExtTreeMap.mem_insert, Std.LawfulEqCmp.compare_eq_iff_eq]
  simp [eq_comm]

/-- A node that commits and applies the first entry, and stops. -/
def firstLife : Life where
  inputs := [.tick (some {
    ready := { hs := some { term := 1, vote := 1, commit := 1 }, entries := [firstValue], committedEntries := [firstValue] } })]

theorem new_firstLife : ∃ node : RaftNode (HashMap Str Str),
    new (.ok ()) (fun _ => .ok ()) (leftBy prostSnapshot [firstLife]) ∅ = .ok (1, node) ∧ node.stateMachine = ∅ ∧
      RaftStorage.readHardState (.new (leftBy prostSnapshot [firstLife])) = .ok { term := 1, vote := 1, commit := 1 } := by
  have hstored : RaftStorage.readHardState (.new (leftBy prostSnapshot [firstLife])) =
      .ok { term := 1, vote := 1, commit := 1 } := by decide +kernel
  refine ⟨{ storage := .new (leftBy prostSnapshot [firstLife]), stateMachine := ∅ }, ?_, rfl, hstored⟩
  simp only [new, RaftStorage.appliedIndex_of_readHardState hstored, Outcome.ok_bind, Outcome.pure_eq_ok]

/-- The node started again, when the second entry is committed. -/
def secondLife : Life where
  inputs := [.tick (some { ready := { committedEntries := [secondValue] } })]

/-- The second entry writes the one key that the first one left. -/
theorem map_after_restart_second : ∃ node : RaftNode (HashMap Str Str),
    new (.ok ()) (fun _ => .ok ()) (leftBy prostSnapshot [firstLife]) ∅ = .ok (1, node) ∧
      (after keyValueStateMachine prostSnapshot node secondLife.inputs).stateMachine =
        replay (entriesUpTo [firstValue, secondValue] 2) := by
  have hlog : Committed [firstValue, secondValue] := by
    simp [Committed, firstValue, secondValue, setKey]
  obtain ⟨node, hnew, -, hstored⟩ := new_firstLife
  obtain ⟨hardState, hstored', hiff⟩ := map_after_restart_iff prostSnapshot hlog [firstLife]
  obtain rfl : hardState = { term := 1, vote := 1, commit := 1 } := Outcome.ok.inj (hstored'.symm.trans hstored)
  refine ⟨node, hnew, (hiff secondLife 1 node hnew 2 ?_ ?_).mpr (.inr ?_)⟩
  · obtain ⟨effects, hhistory⟩ := history_tick keyValueStateMachine prostSnapshot node
      { ready := { committedEntries := [secondValue] } }
    rw [secondLife, hhistory]
    refine .next (.entries (by decide) (by simp [hasSnapshot]) ?_) (.done 2)
    simp [Handled.handedOut, entriesBetween, firstValue, secondValue, setKey]
  · intro input hinput round hround
    obtain rfl := List.mem_singleton.mp hinput
    obtain rfl := Option.some.inj hround
    refine ⟨⟨.inr ⟨by simp [Round.Faultless], fun hsome => by simp [hasSnapshot] at hsome, fun entry hentry => ?_⟩, by simp⟩,
      fun hsome => by simp [hasSnapshot] at hsome⟩
    obtain rfl := List.mem_singleton.mp hentry
    exact ⟨by simp [isConfChange, Entry.kind, secondValue, setKey], .inr ⟨_, decode_keyValue _⟩⟩
  · intro key hkey
    have hfirst : entriesUpTo [firstValue, secondValue] 1 = [firstValue] := by simp [entriesUpTo, firstValue, secondValue, setKey]
    rw [hfirst, firstValue, mem_replay_setKey] at hkey
    refine ⟨secondValue, by simp [entriesBetween, secondValue, setKey], _, keyValueOp_setKey _ _, ?_⟩
    simp [opLeaves, hkey]

/-- The first entry is committed and applied, the node stops, and it starts with an empty map. -/
theorem not_map_after_restart :
    ¬ ∀ (prost : ProstCodec Snapshot) (log : List Entry), Committed log → ∀ (lives : List Life) (life : Life) applied node,
      new life.setup life.rawNode (leftBy prost lives) ∅ = .ok (applied, node) →
        ∀ last, Redelivers log applied (history keyValueStateMachine prost node life.inputs) last →
          (after keyValueStateMachine prost node life.inputs).stateMachine = replay (entriesUpTo log last) := by
  intro h
  obtain ⟨node, hnew, hempty, -⟩ := new_firstLife
  have hmap := h prostSnapshot [firstValue] (by simp [Committed]) [firstLife] { inputs := [] } 1 node hnew 1 (.done 1)
  have hkey : oneKey ∈ replay (entriesUpTo [firstValue] 1) := by
    have hfirst : entriesUpTo [firstValue] 1 = [firstValue] := by simp [entriesUpTo, firstValue, setKey]
    rw [hfirst, firstValue, mem_replay_setKey]
  rw [← hmap, after, Run.final_nil, hempty] at hkey
  simp at hkey

end IrohRaft.RaftNode
