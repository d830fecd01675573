import IrohRaft.Library.Dispatch
import IrohRaft.Raft.OptimizedProcessing
import IrohRaft.Transport.Eraftpb

/-!
# Messages in reused buffers

Each queue is a line of batches within the limit of its class, and a buffer is empty when a message is written to it,
whatever was in it before. So the calls do what a dispatch in batches does, with each message as its own serialization.
-/

namespace IrohRaft.OptimizedRaftProcessor

open Rust Dispatch

variable {serializeMessage : Message → Outcome RaftError Bytes} {serialized : Message → Bytes}

/-! ### Buffers -/

theorem buffer_setBuffer (size : BufferSize) (content : Bytes) (buffers : SerializationBuffer) :
    (buffers.setBuffer size content).buffer size = content := by
  cases size <;> rfl

/-- The buffer that is handed out is empty. -/
theorem getBuffer_eq (sizeHint : Nat) (buffers : SerializationBuffer) :
    ∃ size after, SerializationBuffer.getBuffer sizeHint buffers = (.ok size, after) ∧ after.buffer size = [] := by
  rw [SerializationBuffer.getBuffer]
  split
  · exact ⟨_, _, rfl, buffer_setBuffer _ _ _⟩
  · split
    · exact ⟨_, _, rfl, buffer_setBuffer _ _ _⟩
    · exact ⟨_, _, rfl, buffer_setBuffer _ _ _⟩

/-- Nothing of what was in the buffers is left in what is serialized. -/
theorem serializeMessageOptimized_ok {message : Message} {bytes : Bytes} (h : serializeMessage message = .ok bytes)
    (buffers : SerializationBuffer) :
    ∃ after, serializeMessageOptimized serializeMessage message buffers = (.ok bytes, after) := by
  obtain ⟨size, cleared, hcleared, hempty⟩ := getBuffer_eq (estimateMessageSize message) buffers
  have hlift : (Action.lift (serializeMessage message) : Action SerializationBuffer RaftError Bytes) cleared = (.ok bytes, cleared) := by
    rw [Action.lift, h]
  rw [serializeMessageOptimized, Action.bind_of_ok hcleared, Action.bind_of_ok hlift, SerializationBuffer.extendFromSlice, hempty]
  exact ⟨_, rfl⟩

theorem serializeAll_ok (h : ∀ message, serializeMessage message = .ok (serialized message)) (messages : List Message)
    (buffers : SerializationBuffer) :
    ∃ after, serializeAll serializeMessage messages buffers = (.ok (messages.map serialized), after) := by
  induction messages generalizing buffers with
  | nil => exact ⟨buffers, rfl⟩
  | cons message rest ih =>
      obtain ⟨between, hmessage⟩ := serializeMessageOptimized_ok (h message) buffers
      obtain ⟨after, hrest⟩ := ih between
      refine ⟨after, ?_⟩
      rw [serializeAll, Action.bind_of_ok hmessage, Action.bind_of_ok hrest]
      rfl

/-! ### Queues -/

def classOf (message : Message) : BatchPriority := BatchPriority.fromMessageType message.msgType

def limit : BatchPriority → Nat
  | .election => 32
  | .heartbeat => 64
  | .normal => 16
  | .snapshot => 4

def queue (which : BatchPriority) (processor : OptimizedRaftProcessor) : List (List Message) :=
  match which with
  | .election => processor.electionQueue
  | .heartbeat => processor.heartbeatQueue
  | .normal => processor.normalQueue
  | .snapshot => processor.snapshotQueue

def setQueue (which : BatchPriority) (processor : OptimizedRaftProcessor) (queue : List (List Message)) : OptimizedRaftProcessor :=
  match which with
  | .election => { processor with electionQueue := queue }
  | .heartbeat => { processor with heartbeatQueue := queue }
  | .normal => { processor with normalQueue := queue }
  | .snapshot => { processor with snapshotQueue := queue }

/-- The messages that wait in a class. -/
def waiting (processor : OptimizedRaftProcessor) (which : BatchPriority) : List Message := (processor.queue which).flatten

/-- The queues hold batches within the limits. -/
def Filled (processor : OptimizedRaftProcessor) : Prop := ∀ which, Bounded (limit which) (processor.queue which)

theorem queue_setQueue (which other : BatchPriority) (processor : OptimizedRaftProcessor) (line : List (List Message)) :
    (processor.setQueue which line).queue other = if other = which then line else processor.queue other := by
  cases which <;> cases other <;> rfl

theorem Filled.setQueue {processor : OptimizedRaftProcessor} (h : processor.Filled) {which : BatchPriority}
    {line : List (List Message)} (hline : Bounded (limit which) line) : (processor.setQueue which line).Filled := by
  intro other
  rw [queue_setQueue]
  split
  · next hsame => exact hsame ▸ hline
  · exact h other

theorem waiting_setQueue (which : BatchPriority) (processor : OptimizedRaftProcessor) (line : List (List Message)) :
    (processor.setQueue which line).waiting = Function.update processor.waiting which line.flatten := by
  funext other
  rw [waiting, queue_setQueue]
  by_cases hsame : other = which
  · obtain rfl := hsame
    simp
  · rw [if_neg hsame, Function.update_of_ne hsame, waiting]

/-! ### One message more -/

theorem pushMessage_ok {limit : Nat} (hlimit : 0 < limit) (message : Message) {line : List (List Message)} (h : Bounded limit line) :
    ∃ after, pushMessage limit message line = (.ok (), after) ∧ after.flatten = line.flatten ++ [message] ∧ Bounded limit after := by
  have hopened : Bounded limit (line ++ [[message]]) := by
    refine List.forall_mem_append.mpr ⟨h, ?_⟩
    simpa using Nat.succ_le_of_lt hlimit
  obtain rfl | ⟨front, back, rfl⟩ := List.eq_nil_or_concat' line
  · exact ⟨[[message]], by simp [pushMessage], by simp, hopened⟩
  · by_cases hfull : limit ≤ back.length
    · refine ⟨(front ++ [back]) ++ [[message]], ?_, by simp, hopened⟩
      simp [pushMessage, hfull, List.dropLast_append_of_ne_nil]
    · refine ⟨front ++ [back ++ [message]], by simp [pushMessage, hfull], by simp, ?_⟩
      obtain ⟨hfront, -⟩ := List.forall_mem_append.mp h
      refine List.forall_mem_append.mpr ⟨hfront, ?_⟩
      simpa using Nat.succ_le_of_lt (Nat.lt_of_not_le hfull)

theorem queueMessage_eq (message : Message) :
    queueMessage message = (pushMessage (limit (classOf message)) message).onPart (queue (classOf message)) (setQueue (classOf message)) := by
  rw [queueMessage, classOf]
  cases BatchPriority.fromMessageType message.msgType <;> rfl

/-! ### One batch less -/

/-- A batch makes no difference to the queues. -/
theorem processBatchOwned_ok (h : ∀ message, serializeMessage message = .ok (serialized message)) (messages : List Message)
    (processor : OptimizedRaftProcessor) :
    ∃ after, processBatchOwned serializeMessage messages processor = (.ok (messages.map serialized), after) ∧
      ∀ which, after.queue which = processor.queue which := by
  obtain ⟨buffers, hall⟩ := serializeAll_ok h messages processor.serializationBuffer
  have hpart : ((serializeAll serializeMessage messages).onPart serializationBuffer
      fun processor buffers => { processor with serializationBuffer := buffers }) processor =
      (.ok (messages.map serialized), { processor with serializationBuffer := buffers }) := by
    rw [Action.onPart, hall]
  rw [processBatchOwned, processMessageBatchRef, Action.bind_of_ok hpart]
  refine ⟨_, rfl, fun which => ?_⟩
  cases which <;> rfl

/-- The first class that has a batch, if any has one. -/
theorem processNextBatch_cases (serializeMessage : Message → Outcome RaftError Bytes) (processor : OptimizedRaftProcessor) :
    ((∀ which, processor.queue which = []) ∧ processNextBatch serializeMessage processor = (.ok none, processor)) ∨
    ∃ which batch rest, processor.queue which = batch :: rest ∧ (∀ other < which, processor.queue other = []) ∧
      processNextBatch serializeMessage processor =
        (some <$> processBatchOwned serializeMessage batch) (processor.setQueue which rest) := by
  have hrank {first second : BatchPriority} (h : first < second) : first.rank < second.rank := h
  rw [processNextBatch]
  split
  · next batch rest helection =>
      refine .inr ⟨.election, batch, rest, helection, fun other hother => ?_, rfl⟩
      exact absurd (hrank hother) (Nat.not_lt_zero _)
  · next helection =>
      split
      · next batch rest hheartbeat =>
          refine .inr ⟨.heartbeat, batch, rest, hheartbeat, fun other hother => ?_, rfl⟩
          have hless := hrank hother
          cases other <;> simp_all [BatchPriority.rank, queue]
      · next hheartbeat =>
          split
          · next batch rest hnormal =>
              refine .inr ⟨.normal, batch, rest, hnormal, fun other hother => ?_, rfl⟩
              have hless := hrank hother
              cases other <;> simp_all [BatchPriority.rank, queue]
          · next hnormal =>
              split
              · next batch rest hsnapshot =>
                  refine .inr ⟨.snapshot, batch, rest, hsnapshot, fun other hother => ?_, rfl⟩
                  have hless := hrank hother
                  cases other <;> simp_all [BatchPriority.rank, queue]
              · next hsnapshot =>
                  refine .inl ⟨fun which => ?_, rfl⟩
                  cases which <;> assumption

/-! ### Steps -/

/-- The call that a label is of. -/
def toCall : Label Message BatchPriority → Call
  | .enqueue message => .queueMessage message
  | .idle | .batch _ _ => .processNextBatch

/-- What the call gives back. -/
def toResult (serialized : Message → Bytes) : Label Message BatchPriority → Outcome RaftError (Option (List Bytes))
  | .enqueue _ | .idle => .ok none
  | .batch _ messages => .ok (some (messages.map serialized))

theorem limit_pos (which : BatchPriority) : 0 < limit which := by
  cases which <;> decide

/-- Each call is a step of the dispatch. -/
theorem step_dispatches (h : ∀ message, serializeMessage message = .ok (serialized message)) {processor : OptimizedRaftProcessor}
    (hfilled : processor.Filled) (call : Call) :
    ∃ label, toCall label = call ∧ (step serializeMessage processor call).1 = toResult serialized label ∧
      Dispatch.Step classOf limit processor.waiting label (step serializeMessage processor call).2.waiting ∧
      (step serializeMessage processor call).2.Filled := by
  cases call with
  | queueMessage message =>
      obtain ⟨line, hpushed, hflatten, hbounded⟩ :=
        pushMessage_ok (limit_pos (classOf message)) message (hfilled (classOf message))
      have hstep : step serializeMessage processor (.queueMessage message) = (.ok none, processor.setQueue (classOf message) line) := by
        rw [step, Action.map_apply, queueMessage_eq, Action.onPart, hpushed]
        rfl
      refine ⟨.enqueue message, rfl, by rw [hstep]; rfl, ?_, by rw [hstep]; exact hfilled.setQueue hbounded⟩
      rw [hstep, waiting_setQueue, hflatten]
      exact .enqueue processor.waiting message
  | processNextBatch =>
      obtain ⟨hnone, hidle⟩ | ⟨which, batch, rest, hqueue, hhigher, hnext⟩ := processNextBatch_cases serializeMessage processor
      · have hstep : step serializeMessage processor .processNextBatch = (.ok none, processor) := hidle
        refine ⟨.idle, rfl, by rw [hstep]; rfl, ?_, by rw [hstep]; exact hfilled⟩
        rw [hstep]
        exact .idle processor.waiting fun which => by simp [waiting, hnone which]
      · obtain ⟨after, hbatch, hqueues⟩ := processBatchOwned_ok h batch (processor.setQueue which rest)
        have hstep : step serializeMessage processor .processNextBatch = (.ok (some (batch.map serialized)), after) := by
          rw [step, hnext, Action.map_apply, hbatch]
          rfl
        have hwaiting : after.waiting = (processor.setQueue which rest).waiting := by
          funext other
          rw [waiting, hqueues other, waiting]
        have hbounded : Bounded (limit which) (batch :: rest) := hqueue ▸ hfilled which
        obtain ⟨hsome, hfits⟩ := hbounded batch List.mem_cons_self
        refine ⟨.batch which batch, rfl, by rw [hstep]; rfl, ?_, ?_⟩
        · rw [hstep, hwaiting, waiting_setQueue]
          refine .batch processor.waiting which batch rest.flatten (by simp [waiting, hqueue]) hsome hfits fun other hother => ?_
          simp [waiting, hhigher other hother]
        · rw [hstep]
          exact fun other => hqueues other ▸ hfilled.setQueue hbounded.tail other

/-! ### Runs -/

/-- The calls do what a dispatch in batches does, from empty lines. What has come to a class is what has left it, as its own
serialization, and what waits; and what waits leaves as well, if only enough batches are taken. -/
structure Dispatches (serializeMessage : Message → Outcome RaftError Bytes) (serialized : Message → Bytes) (calls : List Call)
    (labels : List (Label Message BatchPriority)) : Prop where
  called : labels.map toCall = calls
  returned : results serializeMessage new calls = labels.map (toResult serialized)
  trace : Trace classOf limit (fun _ => []) labels (final serializeMessage new calls).waiting
  fifo : ∀ which, enqueued classOf which labels = sent which labels ++ (final serializeMessage new calls).waiting which
  drains : ∃ more, ∀ which, (final serializeMessage new (calls ++ List.replicate more .processNextBatch)).waiting which = []

theorem run_dispatches (h : ∀ message, serializeMessage message = .ok (serialized message)) {processor : OptimizedRaftProcessor}
    (hfilled : processor.Filled) (calls : List Call) :
    ∃ labels, labels.map toCall = calls ∧ results serializeMessage processor calls = labels.map (toResult serialized) ∧
      Trace classOf limit processor.waiting labels (final serializeMessage processor calls).waiting ∧
      (final serializeMessage processor calls).Filled := by
  induction calls generalizing processor with
  | nil => exact ⟨[], rfl, rfl, .nil _, hfilled⟩
  | cons call rest ih =>
      obtain ⟨label, hcall, hresult, hstep, hafter⟩ := step_dispatches h hfilled call
      obtain ⟨labels, hcalls, hresults, htrace, hfinal⟩ := ih hafter
      refine ⟨label :: labels, by rw [List.map_cons, hcall, hcalls], ?_, .cons hstep htrace, hfinal⟩
      rw [results, hresult, hresults, List.map_cons]

instance : Fintype BatchPriority where
  elems := {.election, .heartbeat, .normal, .snapshot}
  complete which := by cases which <;> simp

theorem final_drains (h : ∀ message, serializeMessage message = .ok (serialized message)) {processor : OptimizedRaftProcessor}
    (hfilled : processor.Filled) :
    ∃ more, ∀ which, (final serializeMessage processor (List.replicate more .processNextBatch)).waiting which = [] := by
  -- the load goes down with every batch
  induction hload : load processor.waiting using Nat.strong_induction_on generalizing processor with
  | _ count ih =>
      obtain ⟨label, hcall, -, hstep, hafter⟩ := step_dispatches h hfilled .processNextBatch
      cases label with
      | enqueue message => simp [toCall] at hcall
      | idle => exact ⟨0, hstep.eq_nil_of_idle⟩
      | batch which messages =>
          obtain ⟨more, hmore⟩ := ih _ (hload ▸ hstep.load_lt) hafter rfl
          exact ⟨more + 1, hmore⟩

/-- Every message that is queued leaves once, in the order of its class, in a batch of the first class in which any wait. -/
theorem dispatches (h : ∀ message, serializeMessage message = .ok (serialized message)) (calls : List Call) :
    ∃ labels, Dispatches serializeMessage serialized calls labels := by
  have hempty : new.waiting = fun _ => [] := by
    funext which
    cases which <;> rfl
  have hfilled : new.Filled := by
    intro which
    cases which <;> simp [Bounded, queue, new]
  obtain ⟨labels, hcalls, hresults, htrace, hfinal⟩ := run_dispatches h hfilled calls
  rw [hempty] at htrace
  obtain ⟨more, hmore⟩ := final_drains h hfinal
  refine ⟨labels, hcalls, hresults, htrace, htrace.fifo, more, fun which => ?_⟩
  rw [final, Run.final_append]
  exact hmore which

/-- A heartbeat and a snapshot are queued, and a batch is taken. -/
def twoQueued : List Call :=
  [.queueMessage { msgType := 7, toId := 2, fromId := 1 }, .queueMessage { msgType := 8, toId := 2, fromId := 1 }, .processNextBatch]

theorem dispatches_twoQueued :
    ∃ labels, Dispatches (fun message => .ok message.encode) Message.encode twoQueued labels :=
  dispatches (fun _ => rfl) twoQueued

end IrohRaft.OptimizedRaftProcessor
