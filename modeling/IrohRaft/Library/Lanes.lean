import Mathlib.Data.List.Basic
import Mathlib.Data.List.Perm.Basic

/-!
# Items that wait on piles

Every item has a lane. While no lane has items on two piles, it does not matter in which order the piles are taken
away: in each lane the items leave in the order in which they came.
-/

namespace Lanes

variable {α κ : Type}

/-- No lane has items on two piles. -/
def Apart (lane : α → κ) (piles : List (List α)) : Prop :=
  piles.Pairwise fun first second => ∀ item ∈ first, ∀ other ∈ second, lane item ≠ lane other

variable {lane : α → κ} {piles piles' : List (List α)}

theorem Apart.perm (h : Apart lane piles) (hperm : piles.Perm piles') : Apart lane piles' :=
  List.Pairwise.perm h hperm fun hapart item hitem other hother heq => hapart other hother item hitem heq.symm

/-- Piles may lose items. -/
theorem Apart.map {thin : List α → List α} (h : Apart lane piles) (hthin : ∀ pile, (thin pile).Sublist pile) :
    Apart lane (piles.map thin) := by
  refine List.pairwise_map.mpr (h.imp fun {first second} hapart item hitem other hother => ?_)
  exact hapart item ((hthin first).subset hitem) other ((hthin second).subset hother)

variable [DecidableEq κ]

def inLane (lane : α → κ) (which : κ) (items : List α) : List α := items.filter fun item => lane item = which

@[simp] theorem inLane_nil (which : κ) : inLane lane which [] = [] := rfl

@[simp] theorem inLane_append (which : κ) (items more : List α) :
    inLane lane which (items ++ more) = inLane lane which items ++ inLane lane which more :=
  List.filter_append ..

theorem mem_inLane {which : κ} {items : List α} {item : α} : item ∈ inLane lane which items ↔ item ∈ items ∧
    lane item = which := by
  simp [inLane]

theorem inLane_sublist {which : κ} {items more : List α} (h : items.Sublist more) :
    (inLane lane which items).Sublist (inLane lane which more) :=
  h.filter _

theorem inLane_inLane (which other : κ) (items : List α) :
    inLane lane which (inLane lane other items) = if other = which then inLane lane which items else [] := by
  split
  · next hsame =>
      subst hsame
      exact List.filter_eq_self.mpr fun item hitem => by simpa using (mem_inLane.mp hitem).2
  · next hother =>
      refine List.filter_eq_nil_iff.mpr fun item hitem hwhich => hother ?_
      rw [← (mem_inLane.mp hitem).2]
      simpa using hwhich

/-- Of two piles without a common lane, one has nothing in a given lane. -/
theorem inLane_eq_nil_or (which : κ) {first second : List α} (h : ∀ item ∈ first, ∀ other ∈ second, lane item ≠ lane other) :
    inLane lane which first = [] ∨ inLane lane which second = [] := by
  by_contra hboth
  obtain ⟨hfirst, hsecond⟩ := not_or.mp hboth
  obtain ⟨item, hitem⟩ := List.exists_mem_of_ne_nil _ hfirst
  obtain ⟨other, hother⟩ := List.exists_mem_of_ne_nil _ hsecond
  obtain ⟨hitem, hlane⟩ := mem_inLane.mp hitem
  obtain ⟨hother, hlane'⟩ := mem_inLane.mp hother
  exact h item hitem other hother (hlane.trans hlane'.symm)

/-- The piles can be taken in any order. -/
theorem inLane_flatten_perm (which : κ) (h : Apart lane piles) (hperm : piles.Perm piles') :
    inLane lane which piles.flatten = inLane lane which piles'.flatten := by
  induction hperm with
  | nil => rfl
  | cons pile _ ih =>
      rw [List.flatten_cons, List.flatten_cons, inLane_append, inLane_append, ih (List.pairwise_cons.mp h).2]
  | swap first second rest =>
      have hapart := (List.pairwise_cons.mp h).1 first List.mem_cons_self
      obtain hnil | hnil := inLane_eq_nil_or which hapart <;> simp [hnil]
  | trans hfirst hsecond ih ih' => exact (ih h).trans (ih' (h.perm hfirst))

/-- The items that are there are those of all the lanes. -/
theorem perm_of_inLane {items more : List α} (h : ∀ which, inLane lane which items = inLane lane which more) :
    items.Perm more := by
  classical
  refine List.perm_iff_count.mpr fun item => ?_
  have hcount (list : List α) : list.count item = (inLane lane (lane item) list).count item :=
    (List.count_filter (by simp)).symm
  rw [hcount items, hcount more, h]

/-- In every lane the line has items that have arrived, in the order in which they did. -/
def InOrder (lane : α → κ) (line arrived : List α) : Prop :=
  ∀ which, (inLane lane which line).Sublist (inLane lane which arrived)

theorem InOrder.of_inLane {line line' arrived : List α} (h : InOrder lane line arrived)
    (hline : ∀ which, (inLane lane which line').Sublist (inLane lane which line)) : InOrder lane line' arrived :=
  fun which => (hline which).trans (h which)

theorem InOrder.append {line arrived : List α} (h : InOrder lane line arrived) (more : List α) :
    InOrder lane (line ++ more) (arrived ++ more) := by
  intro which
  rw [inLane_append, inLane_append]
  exact (h which).append (List.Sublist.refl _)

/-! ### A flow of items -/

/-- Items arrive, wait to be taken up, lie on piles, and are gone or have failed. -/
structure Flow (α : Type) where
  arrived : List α
  waiting : List α
  piles : List (List α)
  gone : List α
  failed : List α

/-- Every item that arrived is in one place, and no lane is overtaken. -/
structure Flow.Sound (lane : α → κ) (flow : Flow α) : Prop where
  conserved : flow.arrived.Perm (flow.gone ++ flow.piles.flatten ++ flow.waiting ++ flow.failed)
  apart : Apart lane flow.piles
  inOrder : InOrder lane (flow.gone ++ flow.piles.flatten ++ flow.waiting) flow.arrived

variable {flow : Flow α}

theorem Flow.Sound.arrive (h : flow.Sound lane) (item : α) :
    Flow.Sound lane { flow with arrived := flow.arrived ++ [item], waiting := flow.waiting ++ [item] } where
  conserved := by
    have hmore := h.conserved.append_right [item]
    refine hmore.trans ?_
    simp only [List.append_assoc]
    exact ((List.perm_append_comm).append_left _).append_left _ |>.append_left _
  apart := h.apart
  inOrder := by simpa using h.inOrder.append [item]

/-- The piles change, and every lane stays as it is. -/
theorem Flow.Sound.repile (h : flow.Sound lane) (hapart : Apart lane piles)
    (hlane : ∀ which, inLane lane which piles.flatten = inLane lane which flow.piles.flatten) :
    Flow.Sound lane { flow with piles } where
  conserved := h.conserved.trans ((((perm_of_inLane hlane).symm.append_left _).append_right _).append_right _)
  apart := hapart
  inOrder := h.inOrder.of_inLane fun which => by simp [hlane which]

theorem Flow.Sound.perm (h : flow.Sound lane) (hperm : flow.piles.Perm piles) : Flow.Sound lane { flow with piles } :=
  h.repile (h.apart.perm hperm) fun which => (inLane_flatten_perm which h.apart hperm).symm

/-- An item is put on a pile, and no other pile has items of its lane. -/
theorem Flow.Sound.stack {item : α} {rest pile : List α} {others : List (List α)} (h : flow.Sound lane)
    (hwaiting : flow.waiting = item :: rest) (hpiles : flow.piles = pile :: others)
    (hlane : ∀ other ∈ others, ∀ held ∈ other, lane held ≠ lane item) :
    Flow.Sound lane { flow with waiting := rest, piles := (pile ++ [item]) :: others } where
  conserved := by
    refine h.conserved.trans ?_
    rw [hwaiting, hpiles]
    simp only [List.flatten_cons, List.append_assoc, List.cons_append, List.nil_append]
    exact ((List.perm_middle.append_left pile).append_left flow.gone)
  apart := by
    have hapart := h.apart
    rw [hpiles, Apart, List.pairwise_cons] at hapart
    refine List.pairwise_cons.mpr ⟨fun other hother held hheld less hless => ?_, hapart.2⟩
    obtain hold | hnew := List.mem_append.mp hheld
    · exact hapart.1 other hother held hold less hless
    · rw [List.mem_singleton.mp hnew]
      exact (hlane other hother less hless).symm
  inOrder := by
    refine h.inOrder.of_inLane fun which => ?_
    have hswap : inLane lane which ([item] ++ others.flatten) = inLane lane which (others.flatten ++ [item]) := by
      have hnone : inLane lane which [item] = [] ∨ inLane lane which others.flatten = [] := by
        refine inLane_eq_nil_or which fun first hfirst held hheld => ?_
        obtain ⟨other, hother, hmem⟩ := List.mem_flatten.mp hheld
        rw [List.mem_singleton.mp hfirst]
        exact (hlane other hother held hmem).symm
      rw [inLane_append, inLane_append]
      obtain hnil | hnil := hnone <;> simp only [hnil, List.nil_append, List.append_nil]
    rw [hwaiting, hpiles, show item :: rest = [item] ++ rest from rfl]
    simp only [List.flatten_cons, List.append_assoc, inLane_append] at hswap ⊢
    rw [← List.append_assoc (inLane lane which [item]), hswap, List.append_assoc]

/-- Items leave from the front of a pile. -/
theorem Flow.Sound.leave {front back : List α} {others : List (List α)} (h : flow.Sound lane)
    (hpiles : flow.piles = (front ++ back) :: others) :
    Flow.Sound lane { flow with piles := back :: others, gone := flow.gone ++ front } where
  conserved := by
    have hconserved := h.conserved
    rw [hpiles] at hconserved
    simpa using hconserved
  apart := by
    have hapart := h.apart
    rw [hpiles, Apart, List.pairwise_cons] at hapart
    refine List.pairwise_cons.mpr ⟨fun other hother held hheld => ?_, hapart.2⟩
    exact hapart.1 other hother held (List.mem_append_right front hheld)
  inOrder := by
    have hinOrder := h.inOrder
    rw [hpiles] at hinOrder
    simpa using hinOrder

/-- Some items fail. -/
theorem Flow.Sound.fail
    (fails : α → Bool) {steady : List (List α)} (h : flow.Sound lane) (hpiles : flow.piles = steady ++ piles) :
    Flow.Sound lane
      { flow with
        piles := steady ++ piles.map (·.filter fun item => !fails item)
        failed := flow.failed ++ piles.flatten.filter fails } where
  conserved := by
    have hsplit : piles.flatten.Perm (piles.flatten.filter (fun item => !fails item) ++ piles.flatten.filter fails) :=
      (List.filter_append_perm fails piles.flatten).symm.trans List.perm_append_comm
    have hbehind : (piles.flatten ++ (flow.waiting ++ flow.failed)).Perm
        (piles.flatten.filter (fun item => !fails item) ++ (flow.waiting ++ (flow.failed ++ piles.flatten.filter fails))) := by
      refine (hsplit.append_right _).trans ?_
      rw [List.append_assoc, ← List.append_assoc flow.waiting]
      exact List.perm_append_comm.append_left _
    refine h.conserved.trans ?_
    rw [hpiles]
    simp only [List.flatten_append, ← List.filter_flatten, List.append_assoc]
    exact (hbehind.append_left _).append_left _
  apart := by
    have hapart := h.apart
    rw [hpiles, Apart, List.pairwise_append] at hapart
    obtain ⟨hsteady, hpile, hboth⟩ := hapart
    refine List.pairwise_append.mpr ⟨hsteady, Apart.map hpile fun pile => List.filter_sublist, fun pile hmem thin hthin => ?_⟩
    obtain ⟨other, hother, rfl⟩ := List.mem_map.mp hthin
    exact fun item hitem held hheld => hboth pile hmem other hother item hitem held (List.filter_subset_self _ hheld)
  inOrder := by
    refine h.inOrder.of_inLane fun which => inLane_sublist ?_
    rw [hpiles]
    simp only [List.flatten_append, ← List.filter_flatten]
    exact ((List.filter_sublist.append_left _).append_left _).append_right _

/-- An empty pile is no pile. -/
theorem Flow.Sound.clear (h : flow.Sound lane) (hpiles : flow.piles = [] :: piles) : Flow.Sound lane { flow with piles } := by
  have hapart := h.apart
  rw [hpiles] at hapart
  exact h.repile (List.pairwise_cons.mp hapart).2 fun which => by simp [hpiles]

theorem Flow.Sound.room (h : flow.Sound lane) : Flow.Sound lane { flow with piles := [] :: flow.piles } :=
  h.repile (List.pairwise_cons.mpr ⟨by simp, h.apart⟩) fun which => by simp

/-- A pile leaves as a whole. -/
theorem Flow.Sound.leavePile
    {pile : List α} {others : List (List α)} (h : flow.Sound lane) (hpiles : flow.piles = pile :: others) :
    Flow.Sound lane { flow with piles := others, gone := flow.gone ++ pile } := by
  have hemptied : Flow.Sound lane { flow with piles := [] :: others, gone := flow.gone ++ pile } := by
    refine h.leave ?_
    rw [hpiles, List.append_nil]
  exact hemptied.clear rfl

/-- A pile fails as a whole. -/
theorem Flow.Sound.failPile
    {pile : List α} {others : List (List α)} (h : flow.Sound lane) (hpiles : flow.piles = pile :: others) :
    Flow.Sound lane { flow with piles := others, failed := flow.failed ++ pile } := by
  have hlast : Flow.Sound lane { flow with piles := others ++ [pile] } := by
    refine h.perm ?_
    rw [hpiles]
    exact (List.perm_append_singleton pile others).symm
  have hfailed : Flow.Sound lane { flow with piles := others ++ [[]], failed := flow.failed ++ pile } := by
    simpa using hlast.fail (fun _ => true) rfl
  exact (hfailed.perm (List.perm_append_singleton [] others)).clear rfl

end Lanes
