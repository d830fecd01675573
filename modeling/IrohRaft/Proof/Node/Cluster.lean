import IrohRaft.Proof.Node.Answers
import Mathlib.Data.List.Induction
import Mathlib.Data.List.Pairwise

/-!
# What the callers of a cluster are told

Proposals, ticks and messages reach the nodes of a cluster in any order, and each node answers the proposals that it took
itself. Whatever the state machine: what callers are told is what one state machine would tell them, that takes the
proposals one after another in the order of the log.
-/

namespace IrohRaft.RaftNode

open Rust Replication

variable {σ ι : Type}

/-- A proposal, by its id and its data. -/
abbrev Request : Type := Bytes × ProposalData

/-- The entry that the raft crate makes of a proposal. -/
def CarriedBy (request : Request) (entry : Entry) : Prop := entry.context = request.1 ∧ entry.data = request.2.encode

abbrev Seen : Type := Replication.Event Nat Request (Except RaftError Bytes)

/-- The nodes, and what has been seen of them from outside. -/
structure Cluster (ι σ : Type) where
  members : ι → Observed (RaftNode σ)
  events : List Seen := []

def Input.called : Input → List Seen
  | .propose proposalId responseTx data _ _ => [.call responseTx (proposalId, data)]
  | .tick .. | .message .. | .addPeer .. | .removePeer .. => []

/-- The answers that have come in between. -/
def toldBetween (before after : RaftNode σ) : List Seen :=
  (after.answers.drop before.answers.length).map fun answer => .told answer.1 answer.2

/-! ### Proposals -/

def calls (schedule : List (ι × Input)) : List Seen := schedule.flatMap fun input => input.2.called

/-- The senders that are asked with, each under the id of its proposal. -/
def asked (schedule : List (ι × Input)) : List (Bytes × Nat) := schedule.flatMap fun input => input.2.asked

/-- The ids are those that `generate_proposal_id` makes of a node's id and of a number that is counted up. -/
def Numbered (schedule : List (ι × Input)) : Prop :=
  ∃ numbers : List (UInt64 × UInt64), numbers.Nodup ∧
    (schedule.filterMap fun input => input.2.proposalId) = numbers.map fun number => generateProposalId number.1 number.2

/-- Both are not proposals under the same id. -/
def Apart (first second : ι × Input) : Prop := ∀ id, first.2.proposalId = some id → second.2.proposalId ≠ some id

theorem generateProposalId_inj {id other count number : UInt64} :
    generateProposalId id count = generateProposalId other number ↔ id = other ∧ count = number := by
  apply Iff.intro
  · intro h
    have harray : s!"{id}_{count}".toByteArray = s!"{other}_{number}".toByteArray :=
      ByteArray.ext (Array.toList_inj.mp h)
    have hchars := congrArg String.toList (String.toByteArray_inj.mp harray)
    simp only [toString, String.toList_append, Nat.toList_repr, List.append_assoc] at hchars
    obtain ⟨hid, hcount⟩ := (toDigits_append_inj (by decide)).mp hchars
    exact ⟨UInt64.toNat.inj hid, UInt64.toNat.inj (toDigits_inj.mp (by simpa using hcount))⟩
  · intro h
    rw [h.1, h.2]

theorem Numbered.pairwise {schedule : List (ι × Input)} (h : Numbered schedule) : schedule.Pairwise Apart := by
  obtain ⟨numbers, hnodup, hids⟩ := h
  have hdistinct : (schedule.filterMap fun input => input.2.proposalId).Nodup := by
    rw [hids]
    refine hnodup.map fun number number' heq => ?_
    obtain ⟨hid, hcount⟩ := generateProposalId_inj.mp heq
    exact Prod.ext hid hcount
  refine (List.pairwise_filterMap.mp hdistinct).imp fun {first second} hapart id hfirst hsecond => ?_
  exact hapart id hfirst id hsecond rfl

instance : Std.Symm (@Apart ι) := ⟨fun _ _ h id hsecond hfirst => h id hfirst hsecond⟩

theorem eq_of_proposalId {schedule : List (ι × Input)} (h : schedule.Pairwise Apart) {first second : ι × Input}
    (hfirst : first ∈ schedule) (hsecond : second ∈ schedule) {id : Bytes} (hid : first.2.proposalId = some id)
    (hid' : second.2.proposalId = some id) : first = second := by
  by_contra hne
  exact h.forall hfirst hsecond hne id hid hid'

theorem mem_asked {schedule : List (ι × Input)} {id : Bytes} {sender : Nat} :
    (id, sender) ∈ asked schedule ↔
      ∃ member data leadership submit, (member, .propose id sender data leadership submit) ∈ schedule := by
  rw [asked, List.mem_flatMap]
  apply Iff.intro
  · intro h
    obtain ⟨⟨member, input⟩, hinput, hasked⟩ := h
    cases input with
    | propose proposalId responseTx data leadership submit =>
        obtain ⟨rfl, rfl⟩ : id = proposalId ∧ sender = responseTx := by simpa [Input.asked] using hasked
        exact ⟨member, data, leadership, submit, hinput⟩
    | tick next => simp [Input.asked] at hasked
    | message answer next => simp [Input.asked] at hasked
    | addPeer peerId address leadership submit => simp [Input.asked] at hasked
    | removePeer peerId leadership submit => simp [Input.asked] at hasked
  · intro h
    obtain ⟨member, data, leadership, submit, hinput⟩ := h
    exact ⟨_, hinput, List.mem_singleton.mpr rfl⟩

theorem mem_calls {schedule : List (ι × Input)} {key : Nat} {request : Request} :
    .call key request ∈ calls schedule ↔
      ∃ member leadership submit, (member, .propose request.1 key request.2 leadership submit) ∈ schedule := by
  rw [calls, List.mem_flatMap]
  apply Iff.intro
  · intro h
    obtain ⟨⟨member, input⟩, hinput, hcalled⟩ := h
    cases input with
    | propose proposalId responseTx data leadership submit =>
        obtain ⟨rfl, rfl⟩ : key = responseTx ∧ request = (proposalId, data) := by simpa [Input.called] using hcalled
        exact ⟨member, leadership, submit, hinput⟩
    | tick next => simp [Input.called] at hcalled
    | message answer next => simp [Input.called] at hcalled
    | addPeer peerId address leadership submit => simp [Input.called] at hcalled
    | removePeer peerId leadership submit => simp [Input.called] at hcalled
  · intro h
    obtain ⟨member, leadership, submit, hinput⟩ := h
    exact ⟨_, hinput, List.mem_singleton.mpr rfl⟩

theorem not_told_mem_calls {schedule : List (ι × Input)} {key : Nat} {response : Except RaftError Bytes} :
    .told key response ∉ calls schedule := by
  rw [calls, List.mem_flatMap]
  intro h
  obtain ⟨⟨member, input⟩, -, hcalled⟩ := h
  cases input <;> simp [Input.called] at hcalled

theorem not_call_mem_toldBetween {before after : RaftNode σ} {key : Nat} {request : Request} : .call key request ∉ toldBetween before after := by
  rw [toldBetween, List.mem_map]
  simp

theorem calls_concat (done : List (ι × Input)) (input : ι × Input) : calls (done ++ [input]) = calls done ++ input.2.called := by
  rw [calls, List.flatMap_append, List.flatMap_singleton, calls]

theorem asked_concat (done : List (ι × Input)) (input : ι × Input) : asked (done ++ [input]) = asked done ++ input.2.asked := by
  rw [asked, List.flatMap_append, List.flatMap_singleton, asked]

/-! ### One node -/

structure StartsWith (initial : σ) (node : RaftNode σ) : Prop where
  state : node.stateMachine = initial
  pending : node.pendingProposals = ∅
  answers : node.answers = []

section Node

variable {machine : NodeStateMachine σ} {initial : σ} {log : List Entry} {schedule : List (ι × Input)}

theorem hasTakenAll_start {node : RaftNode σ} (hnode : StartsWith initial node) (hfirst : ∀ entry ∈ log, 0 < entry.index) :
    HasTakenAll machine initial log [] { node } := by
  obtain ⟨hstate, hpending, hanswers⟩ := hnode
  intro last hlast
  have hnone : entriesUpTo log last = [] := by
    cases hlast with
    | done =>
        refine List.filter_eq_nil_iff.mpr fun entry hentry => ?_
        simpa using UInt64.ne_of_lt (hfirst entry hentry) |>.symm
  rw [hnone]
  exact ⟨by simp [hstate, Machine.state], by simp [hpending], by simp [hanswers]⟩

theorem entriesUpTo_append_above (h : Committed log) (last : UInt64) :
    entriesUpTo log last ++ log.filter (fun entry => last < entry.index) = log := by
  rw [entriesUpTo, filter_append_filter h]
  · refine List.filter_eq_self.mpr fun entry _ => ?_
    grind
  · grind
  · grind

theorem hasData_of_encode {entry : Entry} {data : ProposalData} (h : entry.data = data.encode) : hasData entry = true := by
  rw [hasData, h]
  cases data <;> simp [ProposalData.encode, ← List.length_eq_zero_iff]

theorem hasData_of_response {entry : Entry} {taken : List Entry} {response : Except RaftError Bytes}
    (h : (entry, response) ∈ (sequential machine).responses initial taken) : hasData entry = true := by
  obtain ⟨before, after, -, hresponse⟩ := Machine.mem_responses.mp h
  by_contra hnone
  have hnil : entry.data = [] := by simpa [hasData] using hnone
  simp [sequential, hnil] at hresponse

/-- An answer is the response to an entry that the node has taken, and that carries the call. -/
theorem response_of_answer (hdistinct : schedule.Pairwise Apart) {seen : Observed (RaftNode σ)}
    (hseen : HasTakenAll machine initial log (asked schedule) seen) {last : UInt64} (hlast : Redelivers log 0 seen.history last)
    (hproposed : ∀ entry ∈ entriesUpTo log last, hasData entry = true →
      ∃ request key, .call key request ∈ calls schedule ∧ CarriedBy request entry)
    {key : Nat} {response : Except RaftError Bytes} (hanswer : (key, response) ∈ seen.node.answers) :
    ∃ request entry, .call key request ∈ calls schedule ∧ CarriedBy request entry ∧
      (entry, response) ∈ (sequential machine).responses initial (entriesUpTo log last) := by
  obtain ⟨entry, hresponse, hasked⟩ := (hseen last hlast).told _ hanswer
  have hentry : entry ∈ entriesUpTo log last := by
    obtain ⟨before, after, hsplit, -⟩ := Machine.mem_responses.mp hresponse
    rw [hsplit]
    exact List.mem_append_right _ List.mem_cons_self
  obtain ⟨request, sender, hcall, hcarried⟩ := hproposed entry hentry (hasData_of_response hresponse)
  obtain ⟨asker, data, leadership, submit, hasker⟩ := mem_asked.mp hasked
  obtain ⟨caller, leadership', submit', hcaller⟩ := mem_calls.mp hcall
  have hsame := eq_of_proposalId hdistinct hasker hcaller rfl (by rw [Input.proposalId, hcarried.1])
  obtain ⟨-, hinput⟩ := Prod.mk.inj hsame
  obtain ⟨-, rfl, -, -, -⟩ := Input.propose.inj hinput
  exact ⟨request, entry, hcall, hcarried, hresponse⟩

end Node

/-! ### Steps -/

section Cluster

variable [DecidableEq ι] {machine : NodeStateMachine σ} {prost : ProstCodec Snapshot} {nodes : ι → RaftNode σ}

/-- One of the nodes handles an input. -/
def Cluster.step (machine : NodeStateMachine σ) (prost : ProstCodec Snapshot) (cluster : Cluster ι σ) (input : ι × Input) :
    Cluster ι σ :=
  let seen := RaftNode.step machine prost (cluster.members input.1) input.2
  { members := Function.update cluster.members input.1 seen
    events := cluster.events ++ (input.2.called ++ toldBetween (cluster.members input.1).node seen.node) }

def Cluster.after (machine : NodeStateMachine σ) (prost : ProstCodec Snapshot) (nodes : ι → RaftNode σ)
    (schedule : List (ι × Input)) : Cluster ι σ :=
  Run.final (Cluster.step machine prost) { members := fun member => { node := nodes member } } schedule

theorem Cluster.after_concat (done : List (ι × Input)) (input : ι × Input) :
    Cluster.after machine prost nodes (done ++ [input]) = (Cluster.after machine prost nodes done).step machine prost input :=
  Run.final_concat _ _ _ _

theorem mem_events_of_mem_calls (schedule : List (ι × Input)) :
    ∀ call ∈ calls schedule, call ∈ (Cluster.after machine prost nodes schedule).events := by
  induction schedule using List.reverseRecOn with
  | nil => simp [calls]
  | append_singleton done input ih =>
      intro call hcall
      rw [Cluster.after_concat, Cluster.step]
      rw [calls_concat] at hcall
      obtain hdone | hinput := List.mem_append.mp hcall
      · exact List.mem_append_left _ (ih call hdone)
      · exact List.mem_append_right _ (List.mem_append_left _ hinput)

/-- A caller is told something while an input is handled: what was called by then has been seen before. -/
theorem exists_input_of_told {schedule : List (ι × Input)} {earlier later : List Seen} {key : Nat}
    {response : Except RaftError Bytes}
    (h : (Cluster.after machine prost nodes schedule).events = earlier ++ .told key response :: later) :
    ∃ done input rest, schedule = done ++ input :: rest ∧ calls (done ++ [input]) ⊆ earlier ∧
      (∀ other request, .call other request ∈ later → .call other request ∈ calls rest) ∧
      (key, response) ∈ ((Cluster.after machine prost nodes (done ++ [input])).members input.1).node.answers := by
  induction schedule using List.reverseRecOn generalizing later with
  | nil => simp [Cluster.after] at h
  | append_singleton done input ih =>
      have hstep := h
      rw [Cluster.after_concat, Cluster.step] at hstep
      obtain ⟨between, hearlier, hnew⟩ | ⟨between, hbefore, rfl⟩ := append_eq_append_cons hstep
      · -- It is one of the answers that this input leads to.
        have hcalled : input.2.called <+: between := by
          refine Handler.prefix_before hnew fun hmem => ?_
          exact not_told_mem_calls (show .told key response ∈ calls [input] by simpa [calls] using hmem)
        obtain ⟨answered, rfl⟩ := hcalled
        rw [List.append_assoc, List.append_cancel_left_eq] at hnew
        refine ⟨done, input, [], rfl, ?_, ?_, ?_⟩
        · intro call hcall
          rw [calls_concat] at hcall
          rw [hearlier]
          obtain hdone | hinput := List.mem_append.mp hcall
          · exact List.mem_append_left _ (mem_events_of_mem_calls done call hdone)
          · exact List.mem_append_right _ (List.mem_append_left _ hinput)
        · intro other request hother
          have hcall : .call other request ∈ answered ++ .told key response :: later :=
            List.mem_append_right _ (List.mem_cons_of_mem _ hother)
          rw [← hnew] at hcall
          exact absurd hcall not_call_mem_toldBetween
        · have htold : .told key response ∈ toldBetween ((Cluster.after machine prost nodes done).members input.1).node
              (RaftNode.step machine prost ((Cluster.after machine prost nodes done).members input.1) input.2).node := by
            rw [hnew]
            exact List.mem_append_right _ List.mem_cons_self
          obtain ⟨answer, hanswer, heq⟩ := List.mem_map.mp htold
          obtain ⟨rfl, rfl⟩ := Replication.Event.told.inj heq
          rw [Cluster.after_concat, Cluster.step]
          simpa using List.mem_of_mem_drop hanswer
      · obtain ⟨before, told, rest, rfl, hcalls, hrest, hanswer⟩ := ih hbefore
        refine ⟨before, told, rest ++ [input], by simp, hcalls, ?_, hanswer⟩
        intro other request hother
        rw [calls_concat]
        obtain hbetween | hnew := List.mem_append.mp hother
        · exact List.mem_append_left _ (hrest other request hbetween)
        · obtain hinput | htold := List.mem_append.mp hnew
          · exact List.mem_append_right _ hinput
          · exact absurd htold not_call_mem_toldBetween

/-! ### One order for all -/

/-- What the raft crate promises of a cluster that starts with an empty log: every node is handed out a part of the log.
No conf change is committed, so that all data in this part comes from proposals that have been made. -/
structure Replicates (machine : NodeStateMachine σ) (prost : ProstCodec Snapshot) (nodes : ι → RaftNode σ) (log : List Entry)
    (schedule : List (ι × Input)) : Prop where
  committed : Committed log
  fromOne : ∀ entry ∈ log, 0 < entry.index
  handsOut : ∀ done rest, schedule = done ++ rest → ∀ member, ∃ last,
    Redelivers log 0 ((Cluster.after machine prost nodes done).members member).history last ∧
      ∀ entry ∈ entriesUpTo log last, hasData entry = true → ∃ request key,
        .call key request ∈ calls done ∧ CarriedBy request entry

variable {initial : σ} {log : List Entry} {schedule : List (ι × Input)}

theorem members_step (member : ι) (cluster : Cluster ι σ) (input : ι × Input) :
    (cluster.step machine prost input).members member =
      if member = input.1 then RaftNode.step machine prost (cluster.members input.1) input.2 else cluster.members member :=
  Function.update_apply _ _ _ _

/-- Every node has taken what it was handed out. -/
theorem members_after (hnodes : ∀ member, StartsWith initial (nodes member)) (hlog : Committed log)
    (hfirst : ∀ entry ∈ log, 0 < entry.index)
    (hrounds : ∀ input ∈ schedule, ∀ round ∈ input.2.next, round.Serves machine initial log) (member : ι) :
    HasTakenAll machine initial log (asked schedule) ((Cluster.after machine prost nodes schedule).members member) := by
  induction schedule using List.reverseRecOn generalizing member with
  | nil => exact hasTakenAll_start (hnodes member) hfirst
  | append_singleton done input ih =>
      have hdone := ih fun other hother => hrounds other (List.mem_append_left _ hother)
      rw [asked_concat, Cluster.after_concat, members_step]
      split
      · exact (hdone input.1).step hlog (hrounds input (List.mem_append_right _ List.mem_cons_self))
      · exact (hdone member).mono _

theorem linearizes_after (hnodes : ∀ member, StartsWith initial (nodes member)) (hids : Numbered schedule)
    (hraft : Replicates machine prost nodes log schedule)
    (hrounds : ∀ input ∈ schedule, ∀ round ∈ input.2.next, round.Serves machine initial log) :
    Linearizes (sequential machine) initial CarriedBy log (Cluster.after machine prost nodes schedule).events := by
  refine linearizes_of_taken fun earlier key response later hevents => ?_
  obtain ⟨done, input, rest, rfl, hearlier, hlater, hanswer⟩ := exists_input_of_told hevents
  have hsplit : done ++ input :: rest = (done ++ [input]) ++ rest := by simp
  obtain ⟨last, hlast, hproposed⟩ := hraft.handsOut (done ++ [input]) rest hsplit input.1
  have hdistinct := hids.pairwise
  rw [hsplit] at hdistinct hrounds
  have hseen := @members_after _ _ _ machine prost _ _ _ _ hnodes hraft.committed hraft.fromOne
    (fun other hother => hrounds other (List.mem_append_left _ hother)) input.1
  obtain ⟨request, entry, hcall, hcarried, hresponse⟩ :=
    response_of_answer (List.pairwise_append.mp hdistinct).1 hseen hlast hproposed hanswer
  refine ⟨entriesUpTo log last, _, request, entry, (entriesUpTo_append_above hraft.committed last).symm, hearlier hcall,
    hcarried, hresponse, ?_⟩
  -- What is called later is under an id that none of the entries has.
  intro other request' hother entry' hentry' hcarried'
  obtain ⟨request'', key'', hcall'', hcarried''⟩ := hproposed entry' hentry' (hasData_of_encode hcarried'.2)
  obtain ⟨caller, leadership, submit, hcaller⟩ := mem_calls.mp hcall''
  obtain ⟨caller', leadership', submit', hcaller'⟩ := mem_calls.mp (hlater other request' hother)
  refine (List.pairwise_append.mp hdistinct).2.2 _ hcaller _ hcaller' request''.1 rfl ?_
  rw [Input.proposalId, ← hcarried'.1, ← hcarried''.1]

/-- **Linearizability.** What callers are told, whichever node they ask, is what one state machine tells them that takes the
proposals in the order of the log; a proposal made after an answer comes later in the log. This holds as long as no conf
change is committed and no LightReady hands out a proposal. -/
theorem cluster_linearizes (machine : NodeStateMachine σ) (prost : ProstCodec Snapshot) (initial : σ) {nodes : ι → RaftNode σ}
    {log : List Entry} {schedule : List (ι × Input)} (hnodes : ∀ member, StartsWith initial (nodes member))
    (hids : Numbered schedule) (hraft : Replicates machine prost nodes log schedule)
    (hrounds : ∀ input ∈ schedule, ∀ round ∈ input.2.next, round.Serves machine initial log) :
    Linearizes (sequential machine) initial CarriedBy log (Cluster.after machine prost nodes schedule).events ∧
      ∀ member, ∃ last, ((Cluster.after machine prost nodes schedule).members member).node.stateMachine =
        (sequential machine).state initial (entriesUpTo log last) := by
  refine ⟨linearizes_after hnodes hids hraft hrounds, fun member => ?_⟩
  obtain ⟨last, hlast, -⟩ := hraft.handsOut schedule [] (List.append_nil _).symm member
  exact ⟨last, (members_after hnodes hraft.committed hraft.fromOne hrounds member last hlast).state⟩

end Cluster

/-- The entry of the first proposal of node 1. -/
def firstEntry : Entry where
  entryType := 0
  term := 1
  index := 1
  data := (ProposalData.raw [7]).encode
  context := generateProposalId 1 0
  syncLog := false

def firstCommitted : Round where
  ready := { committedEntries := [firstEntry] }

/-- The leader of two nodes takes a proposal, and then both are handed out its entry. -/
def firstProposed : List (Bool × Input) :=
  [(true, .propose (generateProposalId 1 0) 0 (.raw [7]) ⟨true, 1⟩ fun _ _ => .ok ()), (true, .tick (some firstCommitted)),
    (false, .tick (some firstCommitted))]

abbrev freshNodes : Bool → RaftNode (List ProposalData) := fun _ => freshNode

theorem redelivers_firstProposed (count : Nat) (member : Bool) :
    ∃ last, Redelivers [firstEntry] 0
        ((Cluster.after recorder prostSnapshot freshNodes (firstProposed.take count)).members member).history last ∧
      (0 < count ∨ last = 0) := by
  have hfirst : Redelivers [firstEntry] 0 [⟨firstCommitted.ready, {}, [.applyEntry firstEntry, .advance]⟩] 1 :=
    .next (.entries (by decide) (by decide) (by decide)) (.done 1)
  have hall (n : Nat) : firstProposed.take (n + 3) = firstProposed := List.take_of_length_le (by simp [firstProposed])
  match count, member with
  | 0, _ => exact ⟨0, .done 0, .inr rfl⟩
  | 1, true | 1, false | 2, false => exact ⟨0, .done 0, .inl (by decide)⟩
  | 2, true => exact ⟨1, hfirst, .inl (by decide)⟩
  | n + 3, true | n + 3, false =>
      rw [hall]
      exact ⟨1, hfirst, .inl (by omega)⟩

theorem cluster_linearizes_first :
    Linearizes (sequential recorder) [] CarriedBy [firstEntry]
        (Cluster.after recorder prostSnapshot freshNodes firstProposed).events ∧
      ∀ member, ∃ last, ((Cluster.after recorder prostSnapshot freshNodes firstProposed).members member).node.stateMachine =
        (sequential recorder).state [] (entriesUpTo [firstEntry] last) := by
  refine cluster_linearizes recorder prostSnapshot [] (fun _ => ⟨rfl, rfl, rfl⟩) ⟨[(1, 0)], by simp, rfl⟩
    ⟨by simp [Committed], by decide, ?_⟩ ?_
  · intro done rest hdone member
    have htake : done = firstProposed.take done.length := by rw [hdone, List.take_left]
    obtain ⟨last, hlast, hcount⟩ := redelivers_firstProposed done.length member
    rw [← htake] at hlast
    refine ⟨last, hlast, fun entry hentry hdata => ⟨(generateProposalId 1 0, .raw [7]), 0, ?_, ?_⟩⟩
    · obtain hsome | rfl := hcount
      · obtain ⟨first, others, rfl⟩ := List.exists_cons_of_length_pos hsome
        obtain ⟨rfl, -⟩ := List.cons.inj hdone
        exact List.mem_append_left _ List.mem_cons_self
      · have hnone : entriesUpTo [firstEntry] 0 = [] := by decide
        simp [hnone] at hentry
    · obtain rfl := List.mem_singleton.mp (List.mem_of_mem_filter hentry)
      exact ⟨rfl, rfl⟩
  · intro input hinput round hround
    have hserves : firstCommitted.Serves recorder [] [firstEntry] := by
      refine ⟨⟨fun entry hentry => ?_, fun _ => ⟨by simp [Round.Faultless, firstCommitted], fun _ _ => rfl⟩, ?_⟩, ?_, ?_⟩
      · obtain rfl := List.mem_singleton.mp hentry
        exact .inr ⟨(.raw [7], []), by decide⟩
      · simp [hasSnapshot, firstCommitted]
      · simp [firstCommitted]
      · simp [hasSnapshot, firstCommitted]
    simp only [firstProposed, List.mem_cons, List.not_mem_nil, or_false] at hinput
    obtain rfl | rfl | rfl := hinput
    · simp [Input.next] at hround
    · exact Option.some.inj hround ▸ hserves
    · exact Option.some.inj hround ▸ hserves

end IrohRaft.RaftNode
