import IrohRaft.Proof.Node.Cluster

/-!
# The replicated key-value store

What a caller is told by a cluster whose nodes keep the key-value store. What is written under a key is what the last
operation on it in the log has left, and an operation sees all those before it in the log: among them every one whose
caller had its answer before this one was asked.
-/

namespace IrohRaft.RaftNode

open Rust Replication

/-! ### What is written under a key -/

/-- What an entry leaves under a key, if it concerns the key at all. -/
def leaves (key : Str) (entry : Entry) : Option (Option Str) :=
  match ProposalData.decode entry.data with
  | .ok (.keyValue (.set written value), _) => if written = key then some (some value) else none
  | .ok (.keyValue (.delete deleted), _) => if deleted = key then some none else none
  | _ => none

/-- What the last entry that concerns the key has left under it. -/
def written (key : Str) (entries : List Entry) : Option Str := (entries.filterMap (leaves key)).getLast?.join

def Answers (before : List Entry) : KeyValueOp → Except RaftError Bytes → Prop
  | .set _ _, response => response = .ok (KeyValueStateMachine.literal "ok")
  | .get key, response => response = .ok (((written key before).map Str.asBytes).getD [])
  | .delete key, response =>
      response = .ok (KeyValueStateMachine.literal (if (written key before).isSome then "deleted" else "not_found"))
  | .list prefixed, response =>
      ∃ keys : List Str, response = .ok ((KeyValueStateMachine.literal "\n").intercalate (keys.map Str.asBytes)) ∧ keys.Nodup ∧
        ∀ key, key ∈ keys ↔ (written key before).isSome ∧ ∀ start ∈ prefixed, start.asBytes <+: key.asBytes

abbrev store : Replication.Machine (HashMap Str Str) Entry (Except RaftError Bytes) := sequential keyValueStateMachine

theorem written_concat (key : Str) (entries : List Entry) (entry : Entry) :
    written key (entries ++ [entry]) = (leaves key entry).getD (written key entries) := by
  cases hleaves : leaves key entry <;> simp [written, hleaves]

theorem next_leaves (data : HashMap Str Str) (entry : Entry) (key : Str) :
    (store.next data entry)[key]? = (leaves key entry).getD data[key]? := by
  simp only [store, sequential, takeEntry, leaves, keyValueStateMachine, KeyValueStateMachine.apply]
  split_ifs with hempty
  · have hnil : entry.data = [] := List.isEmpty_iff.mp hempty
    rw [hnil]
    rfl
  · cases hdecode : ProposalData.decode entry.data with
    | error _ => rfl
    | ok decoded =>
        obtain ⟨proposal, _⟩ := decoded
        cases proposal with
        | keyValue op =>
            cases op with
            | set changed value =>
                simp only [KeyValueStateMachine.applyOp, HashMap.getElem?_insert_if]
                split_ifs <;> rfl
            | delete deleted =>
                simp only [KeyValueStateMachine.applyOp, HashMap.getElem?_erase_if]
                split_ifs <;> rfl
            | get asked => rfl
            | list prefixed => rfl
        | raw bytes => rfl
        | text content => rfl
        | noop => rfl

/-- The store holds what is written in the log. -/
theorem getElem?_state (key : Str) (entries : List Entry) : (store.state ∅ entries)[key]? = written key entries := by
  induction entries using List.reverseRecOn with
  | nil => simp [Machine.state, written]
  | append_singleton done entry ih => rw [Machine.state_concat, next_leaves, ih, written_concat]

theorem response_eq {entry : Entry} {id : Bytes} {op : KeyValueOp} {state : HashMap Str Str}
    {response : Except RaftError Bytes} (hcarried : CarriedBy (id, .keyValue op) entry)
    (hresponse : store.response state entry = some response) : response = (KeyValueStateMachine.applyOp state op).1 := by
  have hdecode : ProposalData.decode entry.data = .ok (.keyValue op, []) := by rw [hcarried.2, decode_keyValue]
  have hdata : entry.data ≠ [] := by simpa [hasData] using hasData_of_encode hcarried.2
  have hanswer : some (KeyValueStateMachine.applyOp state op).1 = some response := by
    simpa [store, sequential, hdecode, hdata, keyValueStateMachine, KeyValueStateMachine.apply] using hresponse
  exact (Option.some.inj hanswer).symm

theorem mem_list (prefixed : Option Str) (data : HashMap Str Str) (key : Str) :
    key ∈ KeyValueStateMachine.list prefixed data ↔
      data[key]?.isSome ∧ ∀ start ∈ prefixed, start.asBytes <+: key.asBytes := by
  rw [Std.ExtTreeMap.isSome_getElem?_iff_mem]
  cases prefixed <;> simp [KeyValueStateMachine.list]

theorem nodup_list (prefixed : Option Str) (data : HashMap Str Str) : (KeyValueStateMachine.list prefixed data).Nodup := by
  cases prefixed with
  | none => exact Std.ExtTreeMap.nodup_keys
  | some start => exact Std.ExtTreeMap.nodup_keys.filter _

theorem answers_applyOp (before : List Entry) (op : KeyValueOp) :
    Answers before op (KeyValueStateMachine.applyOp (store.state ∅ before) op).1 := by
  cases op with
  | set key value => rfl
  | get key => rw [KeyValueStateMachine.applyOp, getElem?_state, Answers]
  | delete key =>
      rw [KeyValueStateMachine.applyOp, Std.ExtTreeMap.contains_eq_isSome_getElem?, getElem?_state, Answers]
  | list prefixed =>
      refine ⟨KeyValueStateMachine.list prefixed (store.state ∅ before), rfl, nodup_list _ _, fun key => ?_⟩
      rw [mem_list, getElem?_state]

/-! ### The answers of a cluster -/

section Cluster

variable {ι σ : Type} {schedule : List (ι × Input)}

theorem mem_calls_of_mem_events [DecidableEq ι] {machine : NodeStateMachine σ} {prost : ProstCodec Snapshot}
    {nodes : ι → RaftNode σ} {key : Nat} {request : Request}
    (h : .call key request ∈ (Cluster.after machine prost nodes schedule).events) : .call key request ∈ calls schedule := by
  induction schedule using List.reverseRecOn with
  | nil => simp [Cluster.after] at h
  | append_singleton done input ih =>
      rw [Cluster.after_concat, Cluster.step] at h
      rw [calls_concat]
      obtain hdone | hnew := List.mem_append.mp h
      · exact List.mem_append_left _ (ih hdone)
      · obtain hinput | htold := List.mem_append.mp hnew
        · exact List.mem_append_right _ hinput
        · exact absurd htold not_call_mem_toldBetween

/-- Where every proposal has a channel of its own, a channel says which one it is. -/
theorem request_unique (hsenders : (schedule.filterMap fun input => input.2.responseTx).Nodup) {key : Nat}
    {request request' : Request} (h : .call key request ∈ calls schedule) (h' : .call key request' ∈ calls schedule) :
    request = request' := by
  obtain ⟨member, leadership, submit, hmem⟩ := mem_calls.mp h
  obtain ⟨member', leadership', submit', hmem'⟩ := mem_calls.mp h'
  have hsame : (member, Input.propose request.1 key request.2 leadership submit) =
      (member', .propose request'.1 key request'.2 leadership' submit') := by
    by_contra hne
    have hsymm : Std.Symm fun first second : ι × Input =>
        ∀ tx, first.2.responseTx = some tx → ∀ tx', second.2.responseTx = some tx' → tx ≠ tx' :=
      ⟨fun _ _ h tx htx tx' htx' => (h tx' htx' tx htx).symm⟩
    exact (List.pairwise_filterMap.mp hsenders).forall hmem hmem' hne key rfl key rfl rfl
  obtain ⟨-, hinput⟩ := Prod.mk.inj hsame
  obtain ⟨hid, -, hdata, -, -⟩ := Input.propose.inj hinput
  exact Prod.ext hid hdata

end Cluster

/-- Whoever asks the store through the cluster has an answer that shows what the log holds before the place where the
operation is in it; and whatever was answered before the operation was asked has its place before. -/
theorem store_answers {ι : Type} [DecidableEq ι] {prost : ProstCodec Snapshot} {nodes : ι → RaftNode (HashMap Str Str)}
    {log : List Entry} {schedule : List (ι × Input)} (hnodes : ∀ member, StartsWith ∅ (nodes member)) (hids : Numbered schedule)
    (hsenders : (schedule.filterMap fun input => input.2.responseTx).Nodup)
    (hraft : Replicates keyValueStateMachine prost nodes log schedule)
    (hrounds : ∀ input ∈ schedule, ∀ round ∈ input.2.next, round.Serves keyValueStateMachine ∅ log)
    {earlier later : List Seen} {key : Nat} {response : Except RaftError Bytes}
    (htold : (Cluster.after keyValueStateMachine prost nodes schedule).events = earlier ++ .told key response :: later)
    {id : Bytes} {op : KeyValueOp} (hcall : .call key (id, .keyValue op) ∈ earlier) :
    ∃ before entry after, log = before ++ entry :: after ∧ CarriedBy (id, .keyValue op) entry ∧ Answers before op response ∧
      ∀ past other response' since, earlier = past ++ .told other response' :: since →
        .call key (id, .keyValue op) ∈ since →
          ∃ request entry', .call other request ∈ past ∧ CarriedBy request entry' ∧ entry' ∈ before := by
  have hlinear := linearizes_after hnodes hids hraft hrounds
  obtain ⟨request, before, entry, after, hasked, hcarried, hlog, hresponse, -⟩ := hlinear earlier key response later htold
  have hseen {asked : Request} (hmem : .call key asked ∈ earlier) : .call key asked ∈ calls schedule :=
    mem_calls_of_mem_events (htold ▸ List.mem_append_left _ hmem)
  obtain rfl := request_unique hsenders (hseen hasked) (hseen hcall)
  refine ⟨before, entry, after, hlog, hcarried, ?_, ?_⟩
  · rw [response_eq hcarried hresponse]
    exact answers_applyOp before op
  · intro past other response' since hpast hsince
    have hhistory : (Cluster.after keyValueStateMachine prost nodes schedule).events =
        past ++ .told other response' :: (since ++ .told key response :: later) := by
      rw [htold, hpast, List.append_assoc, List.cons_append]
    exact hlinear.entry_before hhistory (List.mem_append_left _ hsince) hlog hcarried

/-- The entry of a node's proposal. -/
def operationEntry (index count : UInt64) (op : KeyValueOp) : Entry where
  entryType := 0
  term := 1
  index
  data := (ProposalData.keyValue op).encode
  context := generateProposalId 1 count
  syncLog := false

def setFirst : KeyValueOp := .set oneKey ⟨"stored", by decide⟩

def roundOf (entry : Entry) : Round where
  ready := { committedEntries := [entry] }

def freshStore : Unit → RaftNode (HashMap Str Str) := fun _ => { storage := .new {}, stateMachine := ∅ }

/-- The only node of a cluster is asked to set a key, and after its answer to read it. -/
def setThenGet : List (Unit × Input) :=
  [((), .propose (generateProposalId 1 0) 0 (.keyValue setFirst) ⟨true, 1⟩ fun _ _ => .ok ()),
    ((), .tick (some (roundOf (operationEntry 1 0 setFirst)))),
    ((), .propose (generateProposalId 1 1) 1 (.keyValue (.get oneKey)) ⟨true, 1⟩ fun _ _ => .ok ()),
    ((), .tick (some (roundOf (operationEntry 2 1 (.get oneKey)))))]

def setThenGetLog : List Entry := [operationEntry 1 0 setFirst, operationEntry 2 1 (.get oneKey)]

def seenBeforeGet : List Seen :=
  [.call 0 (generateProposalId 1 0, .keyValue setFirst), .told 0 (.ok (KeyValueStateMachine.literal "ok")),
    .call 1 (generateProposalId 1 1, .keyValue (.get oneKey))]

theorem events_setThenGet :
    (Cluster.after keyValueStateMachine prostSnapshot freshStore setThenGet).events =
      seenBeforeGet ++ .told 1 (.ok (KeyValueStateMachine.literal "stored")) :: [] := by
  rfl

theorem redelivers_setThenGet (count : Nat) (member : Unit) :
    ∃ last, Redelivers setThenGetLog 0
        ((Cluster.after keyValueStateMachine prostSnapshot freshStore (setThenGet.take count)).members member).history last ∧
      (2 < count ∨ 0 < count ∧ last = 1 ∨ last = 0) := by
  have hfirst (rest : List Handled) (last : UInt64) (hrest : Redelivers setThenGetLog 1 rest last) :
      Redelivers setThenGetLog 0
        (⟨(roundOf (operationEntry 1 0 setFirst)).ready, {}, [.applyEntry (operationEntry 1 0 setFirst), .advance]⟩ :: rest) last :=
    .next (.entries (by decide) (by decide) (by decide)) hrest
  have hsecond : Redelivers setThenGetLog 1
      [⟨(roundOf (operationEntry 2 1 (.get oneKey))).ready, {}, [.applyEntry (operationEntry 2 1 (.get oneKey)), .advance]⟩] 2 :=
    .next (.entries (by decide) (by decide) (by decide)) (.done 2)
  have hall (n : Nat) : setThenGet.take (n + 4) = setThenGet := List.take_of_length_le (by simp [setThenGet])
  match count with
  | 0 | 1 => exact ⟨0, .done 0, .inr (.inr rfl)⟩
  | 2 => exact ⟨1, hfirst [] 1 (.done 1), .inr (.inl ⟨by decide, rfl⟩)⟩
  | 3 => exact ⟨1, hfirst [] 1 (.done 1), .inl (by decide)⟩
  | n + 4 =>
      rw [hall]
      exact ⟨2, hfirst _ 2 hsecond, .inl (by omega)⟩

theorem replicates_setThenGet :
    Replicates keyValueStateMachine prostSnapshot freshStore setThenGetLog setThenGet := by
  refine ⟨by simp [Committed, setThenGetLog, operationEntry], by decide, fun done rest hdone member => ?_⟩
  have htake : done = setThenGet.take done.length := by rw [hdone, List.take_left]
  obtain ⟨last, hlast, hcount⟩ := redelivers_setThenGet done.length member
  rw [← htake] at hlast
  refine ⟨last, hlast, fun entry hentry _ => ?_⟩
  have hset (hlong : 0 < done.length) : .call 0 (generateProposalId 1 0, .keyValue setFirst) ∈ calls done := by
    refine mem_calls.mpr ⟨(), ⟨true, 1⟩, fun _ _ => .ok (), List.mem_of_getElem? (i := 0) ?_⟩
    rw [htake, List.getElem?_take_of_lt hlong]
    rfl
  have hget (hlong : 2 < done.length) : .call 1 (generateProposalId 1 1, .keyValue (.get oneKey)) ∈ calls done := by
    refine mem_calls.mpr ⟨(), ⟨true, 1⟩, fun _ _ => .ok (), List.mem_of_getElem? (i := 2) ?_⟩
    rw [htake, List.getElem?_take_of_lt hlong]
    rfl
  obtain ⟨hmem, hle⟩ := List.mem_filter.mp hentry
  simp only [setThenGetLog, List.mem_cons, List.not_mem_nil, or_false] at hmem
  obtain rfl | rfl := hmem
  · refine ⟨_, 0, hset ?_, rfl, rfl⟩
    obtain hlong | ⟨hlong, -⟩ | rfl := hcount
    · omega
    · exact hlong
    · exact absurd hle (by decide)
  · refine ⟨_, 1, hget ?_, rfl, rfl⟩
    obtain hlong | ⟨-, rfl⟩ | rfl := hcount
    · exact hlong
    · exact absurd hle (by decide)
    · exact absurd hle (by decide)

theorem serves_roundOf (index count : UInt64) (op : KeyValueOp) :
    (roundOf (operationEntry index count op)).Serves keyValueStateMachine ∅ setThenGetLog := by
  refine ⟨⟨fun entry hentry => ?_, fun _ => ⟨by simp [Round.Faultless, roundOf], fun hsome => ?_⟩, ?_⟩, ?_, ?_⟩
  · obtain rfl := List.mem_singleton.mp hentry
    exact .inr ⟨_, decode_keyValue _⟩
  · simp [hasSnapshot, roundOf] at hsome
  · simp [hasSnapshot, roundOf]
  · simp [roundOf]
  · simp [hasSnapshot, roundOf]

theorem store_answers_setThenGet :
    ∃ before entry after, setThenGetLog = before ++ entry :: after ∧
      CarriedBy (generateProposalId 1 1, .keyValue (.get oneKey)) entry ∧
      Answers before (.get oneKey) (.ok (KeyValueStateMachine.literal "stored")) ∧
      ∀ past other response' since, seenBeforeGet = past ++ .told other response' :: since →
        .call 1 (generateProposalId 1 1, .keyValue (.get oneKey)) ∈ since →
          ∃ request entry', .call other request ∈ past ∧ CarriedBy request entry' ∧ entry' ∈ before := by
  refine store_answers (fun _ => ⟨rfl, rfl, rfl⟩) ⟨[(1, 0), (1, 1)], by decide, rfl⟩ (by decide) replicates_setThenGet ?_
    events_setThenGet (by simp [seenBeforeGet])
  intro input hinput round hround
  simp only [setThenGet, List.mem_cons, List.not_mem_nil, or_false] at hinput
  obtain rfl | rfl | rfl | rfl := hinput
  · simp [Input.next] at hround
  · exact Option.some.inj hround ▸ serves_roundOf _ _ _
  · simp [Input.next] at hround
  · exact Option.some.inj hround ▸ serves_roundOf _ _ _

end IrohRaft.RaftNode
