import IrohRaft.Library.Lanes

/-!
# Queues in the order of a rank

An item is put behind the items of its own rank and before those of a larger one. As long as items are
put in this way and leave at the ends only, the queue stays sorted, and in each rank the items stand in
the order in which they came.
-/

namespace PriorityQueue

open Lanes

variable {α : Type} (rank : α → Nat)

def Sorted (queue : List α) : Prop := queue.Pairwise fun first second => rank first ≤ rank second

/-- Put an item behind everything of its rank or a smaller one. -/
def place (item : α) (queue : List α) : List α :=
  queue.takeWhile (fun other => rank other ≤ rank item) ++ item :: queue.dropWhile fun other => rank other ≤ rank item

variable {rank}

theorem place_perm (item : α) (queue : List α) : (place rank item queue).Perm (item :: queue) := by
  rw [place]
  refine List.perm_middle.trans (List.Perm.cons item ?_)
  rw [List.takeWhile_append_dropWhile]

theorem length_place (item : α) (queue : List α) : (place rank item queue).length = queue.length + 1 :=
  (place_perm item queue).length_eq

theorem place_cons (item first : α) (rest : List α) :
    place rank item (first :: rest) =
      if rank first ≤ rank item then first :: place rank item rest else item :: first :: rest := by
  rw [place]
  split
  · rename_i hle
    simp [place, hle]
  · rename_i hlt
    simp [hlt]

/-- In a sorted queue, what stands behind the place of an item has a larger rank. -/
theorem Sorted.lt_of_first {first : α} {rest : List α} (h : Sorted rank (first :: rest)) {item : α}
    (hlt : rank item < rank first) : ∀ other ∈ first :: rest, rank item < rank other := by
  intro other hother
  cases List.mem_cons.mp hother with
  | inl hfirst => rwa [hfirst]
  | inr hrest => exact Nat.lt_of_lt_of_le hlt ((List.pairwise_cons.mp h).1 other hrest)

theorem Sorted.place {queue : List α} (h : Sorted rank queue) (item : α) : Sorted rank (place rank item queue) := by
  induction queue with
  | nil => simp [PriorityQueue.place, Sorted]
  | cons first rest ih =>
      rw [place_cons]
      obtain ⟨hfirst, hrest⟩ := List.pairwise_cons.mp h
      split
      · rename_i hle
        refine List.pairwise_cons.mpr ⟨fun other hother => ?_, ih hrest⟩
        cases List.mem_cons.mp ((place_perm item rest).mem_iff.mp hother) with
        | inl hitem => rwa [hitem]
        | inr hold => exact hfirst other hold
      · rename_i hlt
        refine List.pairwise_cons.mpr ⟨fun other hother => ?_, h⟩
        exact Nat.le_of_lt (h.lt_of_first (Nat.not_le.mp hlt) other hother)

theorem Sorted.sublist {queue less : List α} (h : Sorted rank queue) (hless : less.Sublist queue) : Sorted rank less :=
  List.Pairwise.sublist hless h

/-- For its rank, the item comes last. -/
theorem Sorted.inLane_place {queue : List α} (h : Sorted rank queue) (item : α) (which : Nat) :
    inLane rank which (PriorityQueue.place rank item queue) = inLane rank which (queue ++ [item]) := by
  induction queue with
  | nil => simp [PriorityQueue.place]
  | cons first rest ih =>
      rw [place_cons]
      split
      · simp only [inLane, List.filter_cons, List.cons_append] at ih ⊢
        rw [ih (List.pairwise_cons.mp h).2]
      · rename_i hlt
        have hbehind := h.lt_of_first (Nat.not_le.mp hlt)
        have hapart : ∀ other ∈ [item], ∀ held ∈ first :: rest, rank other ≠ rank held := by
          intro other hother held hheld
          rw [List.mem_singleton.mp hother]
          exact Nat.ne_of_lt (hbehind held hheld)
        have hcons : item :: first :: rest = [item] ++ (first :: rest) := rfl
        rw [hcons, inLane_append, inLane_append]
        obtain hnil | hnil := inLane_eq_nil_or which hapart <;> simp only [hnil, List.nil_append, List.append_nil]

/-- The last of a sorted queue has the largest rank. -/
theorem Sorted.le_last {kept : List α} {last : α} (h : Sorted rank (kept ++ [last])) : ∀ other ∈ kept, rank other ≤ rank last := by
  intro other hother
  exact (List.pairwise_append.mp h).2.2 other hother last (List.mem_singleton_self last)

/-- Of a sorted queue that is one too long, the last goes, and nothing that stays has a larger rank. -/
theorem Sorted.take_cases {queue : List α} (h : Sorted rank queue) {capacity : Nat} (hlength : queue.length ≤ capacity + 1) :
    queue.take capacity = queue ∨ ∃ evicted, queue = queue.take capacity ++ [evicted] ∧
      (queue.take capacity).length = capacity ∧ ∀ other ∈ queue.take capacity, rank other ≤ rank evicted := by
  by_cases hfits : queue.length ≤ capacity
  · exact .inl (List.take_of_length_le hfits)
  · have hdrop : (queue.drop capacity).length = 1 := by
      rw [List.length_drop]
      omega
    obtain ⟨evicted, hevicted⟩ := List.length_eq_one_iff.mp hdrop
    have hsplit : queue = queue.take capacity ++ [evicted] := by
      rw [← hevicted, List.take_append_drop]
    refine .inr ⟨evicted, hsplit, List.length_take_of_le (by omega), ?_⟩
    rw [hsplit] at h
    exact h.le_last

/-! ### A queue and its past -/

/-- What came, what is in the queue, and what left it at the front for good. -/
structure Line (α : Type) where
  arrived : List α
  queue : List α
  gone : List α

structure Line.Sound (rank : α → Nat) (capacity : Nat) (line : Line α) : Prop where
  sorted : Sorted rank line.queue
  inOrder : InOrder rank (line.gone ++ line.queue) line.arrived
  bounded : line.queue.length ≤ capacity

variable {capacity : Nat} {line : Line α}

theorem Line.Sound.start : Line.Sound rank capacity ⟨[], [], []⟩ :=
  ⟨List.Pairwise.nil, fun which => by simp, Nat.zero_le _⟩

/-- After the item is put in its place, and before anything is dropped for it. -/
theorem Line.Sound.inOrder_place (h : line.Sound rank capacity) (item : α) :
    InOrder rank (line.gone ++ place rank item line.queue) (line.arrived ++ [item]) := by
  refine (h.inOrder.append [item]).of_inLane fun which => ?_
  simp only [inLane_append, h.sorted.inLane_place, List.append_assoc]
  exact List.Sublist.refl _

/-- An item comes, and what does not fit is dropped from the end. -/
theorem Line.Sound.arrive (h : line.Sound rank capacity) (item : α) :
    Line.Sound rank capacity ⟨line.arrived ++ [item], (place rank item line.queue).take capacity, line.gone⟩ where
  sorted := (h.sorted.place item).sublist (List.take_sublist _ _)
  inOrder := (h.inOrder_place item).of_inLane fun _ =>
    inLane_sublist ((List.take_sublist _ _).append_left _)
  bounded := List.length_take_le _ _

/-- Some items leave at the front, and of these some are gone for good. -/
theorem Line.Sound.leave (h : line.Sound rank capacity) {front back sent : List α} (hqueue : line.queue = front ++ back)
    (hsent : sent.Sublist front) : Line.Sound rank capacity ⟨line.arrived, back, line.gone ++ sent⟩ where
  sorted := h.sorted.sublist (by rw [hqueue]; exact List.sublist_append_right front back)
  inOrder := by
    refine h.inOrder.of_inLane fun _ => inLane_sublist ?_
    rw [hqueue, List.append_assoc]
    exact (hsent.append_right back).append_left _
  bounded := by
    have hbounded := h.bounded
    rw [hqueue, List.length_append] at hbounded
    exact Nat.le_trans (Nat.le_add_left _ _) hbounded

end PriorityQueue
