import IrohRaft.Library.PriorityQueue
import IrohRaft.Transport.Iroh
import Mathlib.Data.List.Induction

/-!
# The queues stay in order

Inserting in front of the first message of a lower priority puts a message behind all of its own, and
limiting the length cuts the queue off. A round takes messages from the front and gives none back but
the one whose send failed, which it had just taken from there. So every queue is a line in the sense of
the library, whatever fails or expires.
-/

namespace IrohRaft

open Rust Lanes PriorityQueue

namespace BufferedRaftMessage

/-- Messages are ranked by their priority, the most urgent first. -/
def rank (buffered : BufferedRaftMessage) : Nat := buffered.priority.asU8

end BufferedRaftMessage

open BufferedRaftMessage

/-! ### Buffering -/

theorem insertPos_cons (priority : RaftMessagePriority) (first : BufferedRaftMessage) (rest : List BufferedRaftMessage) :
    insertPos priority (first :: rest) = if first.rank ≤ priority.asU8 then insertPos priority rest + 1 else 0 := by
  rw [insertPos, insertPos, List.findIdx?_cons]
  by_cases hle : first.priority.asU8 ≤ priority.asU8
  · have hnot : ¬ priority.asU8 < first.priority.asU8 := Nat.not_lt.mpr hle
    rw [if_pos (show first.rank ≤ priority.asU8 from hle)]
    cases hrest : rest.findIdx? fun m => m.priority.asU8 > priority.asU8 with
    | none => simp [hnot]
    | some position => simp [hnot]
  · have hlt : priority.asU8 < first.priority.asU8 := Nat.not_le.mp hle
    rw [if_neg (show ¬ first.rank ≤ priority.asU8 from hle)]
    simp [hlt]

/-- A message is put behind its own priority. -/
theorem insertIdx_insertPos (buffered : BufferedRaftMessage) (queue : List BufferedRaftMessage) :
    queue.insertIdx (insertPos buffered.priority queue) buffered = place rank buffered queue := by
  induction queue with
  | nil => simp [insertPos, place]
  | cons first rest ih =>
      rw [insertPos_cons, place_cons]
      by_cases hle : first.rank ≤ buffered.priority.asU8
      · rw [if_pos hle, if_pos (show first.rank ≤ buffered.rank from hle), List.insertIdx_succ_cons, ih]
      · rw [if_neg hle, if_neg (show ¬ first.rank ≤ buffered.rank from hle), List.insertIdx_zero]

theorem limitQueue_eq_take (queue : List BufferedRaftMessage) : limitQueue queue = queue.take maxBuffered := by
  induction hlength : queue.length using Nat.strongRecOn generalizing queue with
  | ind length ih =>
      rw [limitQueue]
      split
      · rename_i hlong
        have hshorter : queue.dropLast.length < length := by
          rw [List.length_dropLast]
          omega
        rw [ih _ hshorter _ rfl, List.dropLast_eq_take, List.take_take]
        congr 1
        omega
      · rename_i hshort
        rw [List.take_of_length_le (Nat.not_lt.mp hshort)]

namespace MessageBuffer

variable {buffer : MessageBuffer} {peer : UInt64}

/-- What a new message does to the queue of its peer. -/
theorem queue_bufferMessage_self (toId : UInt64) (message : Message) (priority : RaftMessagePriority) (now : Instant)
    (buffer : MessageBuffer) :
    queue (bufferMessage toId message priority now buffer) toId =
      (place rank { message, priority, timestamp := now } (buffer.queue toId)).take maxBuffered := by
  rw [← insertIdx_insertPos, ← limitQueue_eq_take, queue, bufferMessage, Std.ExtTreeMap.getElem?_insert_self]
  rfl

theorem queue_bufferMessage_of_ne {toId : UInt64} (hne : toId ≠ peer) (message : Message) (priority : RaftMessagePriority)
    (now : Instant) (buffer : MessageBuffer) :
    queue (bufferMessage toId message priority now buffer) peer = buffer.queue peer := by
  rw [queue, bufferMessage, HashMap.getElem?_insert_of_ne hne, queue]

/-! ### Batches -/

/-- A round takes messages from the front, and what it sends is among them. -/
theorem sendMessages_spec (messages : List BufferedRaftMessage) (attempts : Nat → Attempt) (sentCount : Nat) :
    ∃ taken, messages = taken ++ (sendMessages messages attempts sentCount).1 ∧
      (sendMessages messages attempts sentCount).2.Sublist taken := by
  induction messages generalizing attempts sentCount with
  | nil => exact ⟨[], by simp [sendMessages], by simp [sendMessages]⟩
  | cons buffered rest ih =>
      rw [sendMessages]
      split
      · obtain ⟨taken, hrest, hsent⟩ := ih (fun taken => attempts (taken + 1)) sentCount
        exact ⟨buffered :: taken, by rw [List.cons_append, ← hrest], hsent.cons buffered⟩
      · split
        · split
          · exact ⟨[buffered], by simp, List.Sublist.refl _⟩
          · obtain ⟨taken, hrest, hsent⟩ := ih (fun taken => attempts (taken + 1)) (sentCount + 1)
            exact ⟨buffered :: taken, by rw [List.cons_append, ← hrest], hsent.cons_cons buffered⟩
        · exact ⟨[], by simp, List.Sublist.refl _⟩

theorem processPeer_spec (round : PeerRound) (messages : List BufferedRaftMessage) :
    ∃ taken, messages = taken ++ (processPeer round messages).1 ∧ (processPeer round messages).2.Sublist taken := by
  rw [processPeer]
  split
  · exact ⟨[], by simp, List.Sublist.refl _⟩
  · split
    · exact sendMessages_spec messages round.attempts 0
    · exact ⟨[], by simp, List.Sublist.refl _⟩

theorem queue_processMessageBatches (rounds : UInt64 → PeerRound) (buffer : MessageBuffer) (peer : UInt64) :
    queue (processMessageBatches rounds buffer) peer = (processPeer (rounds peer) (buffer.queue peer)).1 := by
  rw [queue, queue, processMessageBatches, Std.ExtTreeMap.getElem?_map]
  cases buffer[peer]? with
  | none => simp [processPeer]
  | some messages => simp

/-! ### Runs -/

theorem sentFrom_concat (buffer : MessageBuffer) (ops : List Op) (op : Op) :
    sentFrom peer buffer (ops ++ [op]) = sentFrom peer buffer ops ++ op.sent peer (Run.final step buffer ops) := by
  induction ops generalizing buffer with
  | nil => simp [sentFrom]
  | cons first rest ih => rw [List.cons_append, sentFrom, sentFrom, ih, Run.final_cons, List.append_assoc]

/-- The queue of a peer with its past. -/
def lineOf (peer : UInt64) (ops : List Op) (buffer : MessageBuffer) : Line BufferedRaftMessage where
  arrived := arrivals peer ops
  queue := buffer.queue peer
  gone := sentTo peer ops

/-- Every operation keeps every queue in order. -/
theorem lineOf_sound_step {ops : List Op} (op : Op) (h : (lineOf peer ops (run ops)).Sound rank maxBuffered) :
    (lineOf peer (ops ++ [op]) (step (run ops) op)).Sound rank maxBuffered := by
  have hsent : sentTo peer (ops ++ [op]) = sentTo peer ops ++ op.sent peer (run ops) := sentFrom_concat ∅ ops op
  rw [lineOf, hsent, arrivals, List.filterMap_append]
  cases op with
  | bufferMessage toId message priority now =>
      by_cases hpeer : toId = peer
      · have harrive := h.arrive { message, priority, timestamp := now }
        simp only [Op.arrival, Op.sent, step, hpeer, List.filterMap_cons, List.filterMap_nil, List.append_nil, if_true,
          queue_bufferMessage_self]
        exact harrive
      · simp only [Op.arrival, Op.sent, step, hpeer, List.filterMap_cons, List.filterMap_nil, List.append_nil, if_false,
          queue_bufferMessage_of_ne hpeer]
        exact h
  | processMessageBatches rounds =>
      obtain ⟨taken, hqueue, hsublist⟩ := processPeer_spec (rounds peer) ((run ops).queue peer)
      have hleave := h.leave hqueue hsublist
      simp only [Op.arrival, Op.sent, step, List.filterMap_cons, List.filterMap_nil, List.append_nil,
        queue_processMessageBatches]
      exact hleave

theorem lineOf_sound (peer : UInt64) (ops : List Op) : (lineOf peer ops (run ops)).Sound rank maxBuffered := by
  induction ops using List.reverseRecOn with
  | nil =>
      have hempty : queue ∅ peer = [] := by simp [queue]
      rw [lineOf, run, Run.final_nil, hempty]
      exact .start
  | append_singleton ops op ih =>
      rw [run, Run.final_concat]
      exact lineOf_sound_step op ih

/-- What becomes of a queue when a message comes: the message is put where it belongs, and if that is one
too many, the last message of the last rank goes. -/
def Overflows (arrived gone queue after : List BufferedRaftMessage) (buffered : BufferedRaftMessage) : Prop :=
  ∃ placed, placed.Perm (buffered :: queue) ∧ Sorted rank placed ∧
    InOrder rank (gone ++ placed) (arrived ++ [buffered]) ∧
    (after = placed ∨ ∃ evicted, placed = after ++ [evicted] ∧ after.length = maxBuffered ∧
      ∀ other ∈ after, other.rank ≤ evicted.rank)

/-- **The message buffer.** In every run, the queue of every peer is sorted by priority, each priority is
sent and queued in the order of arrival, and an overflow drops the newest message of the lowest priority. -/
theorem queues_in_order (peer : UInt64) (ops : List Op) :
    Sorted rank ((run ops).queue peer) ∧
    InOrder rank (sentTo peer ops ++ (run ops).queue peer) (arrivals peer ops) ∧
    ((run ops).queue peer).length ≤ maxBuffered ∧
    ∀ message priority now, Overflows (arrivals peer ops) (sentTo peer ops) ((run ops).queue peer)
      (queue (bufferMessage peer message priority now (run ops)) peer) { message, priority, timestamp := now } := by
  have hsound := lineOf_sound peer ops
  refine ⟨hsound.sorted, hsound.inOrder, hsound.bounded, fun message priority now => ?_⟩
  have hsorted := hsound.sorted.place { message, priority, timestamp := now }
  refine ⟨_, place_perm _ _, hsorted, hsound.inOrder_place _, ?_⟩
  have hlength : (place rank { message, priority, timestamp := now } ((run ops).queue peer)).length ≤ maxBuffered + 1 := by
    rw [length_place]
    exact Nat.succ_le_succ hsound.bounded
  rw [queue_bufferMessage_self]
  exact hsorted.take_cases hlength

end MessageBuffer

end IrohRaft
