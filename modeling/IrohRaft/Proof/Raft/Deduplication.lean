import IrohRaft.Raft.OptimizedProposals
import Mathlib.Data.List.Induction

/-!
# VM commands that are left out

A command to start or stop a VM is left out if there was one for the VM before, also one of the other kind. So a VM that is
started and then stopped is only started.
-/

namespace IrohRaft

variable {Other InternedString FlatMap SmallVec : Type}

/-! ### What the memory utilities are relied on for -/

namespace MemoryOptimization

/-- The map after these keys were inserted. -/
def inserted (memory : MemoryOptimization Other InternedString FlatMap SmallVec) (keys : List InternedString) : FlatMap :=
  keys.foldl (fun map key => (memory.insert map key).1) memory.default

/-- The vector after these items were pushed. -/
def pushed (memory : MemoryOptimization Other InternedString FlatMap SmallVec) (vec : SmallVec) (items : List (VmProposal Other)) :
    SmallVec :=
  items.foldl memory.push (memory.clear vec)

/-- Names are interned apart, an insertion tells a new key, and a vector has what was pushed since it was cleared. -/
structure Lawful (memory : MemoryOptimization Other InternedString FlatMap SmallVec) : Prop where
  intern_injective : Function.Injective memory.intern
  insert_isNone : ∀ keys key, (memory.insert (memory.inserted keys) key).2.isNone = true ↔ key ∉ keys
  toVec_pushed : ∀ vec items, memory.toVec (memory.pushed vec items) = items

variable {memory : MemoryOptimization Other InternedString FlatMap SmallVec}

theorem insert_inserted (keys : List InternedString) (key : InternedString) :
    (memory.insert (memory.inserted keys) key).1 = memory.inserted (keys ++ [key]) := by
  simp [inserted]

theorem push_pushed (vec : SmallVec) (items : List (VmProposal Other)) (item : VmProposal Other) :
    memory.push (memory.pushed vec items) item = memory.pushed vec (items ++ [item]) := by
  simp [pushed]

end MemoryOptimization

/-! ### Deduplication -/

/-- The VM that a command starts or stops. -/
def VmCommand.vmName : VmCommand Other → Option String
  | .start name | .stop name => some name
  | .other _ => none

/-- The commands that start or stop this VM. -/
def ofVm (name : String) (commands : List (VmCommand Other)) : List (VmCommand Other) :=
  commands.filter fun cmd => cmd.vmName = some name

/-- A command is left out only if it repeats the last one of its VM that was kept before. -/
inductive Thinned : (before commands kept : List (VmCommand Other)) → Prop
  | nil {before : List (VmCommand Other)} : Thinned before [] []
  | keep {before rest kept : List (VmCommand Other)} {cmd : VmCommand Other} :
      Thinned (before ++ [cmd]) rest kept → Thinned before (cmd :: rest) (cmd :: kept)
  | leaveOut {before rest kept : List (VmCommand Other)} {cmd : VmCommand Other} {name : String} :
      (ofVm name before).getLast? = some cmd → Thinned before rest kept → Thinned before (cmd :: rest) kept

/-- Repeated commands are left out, and what comes last for a VM still does. -/
structure Deduplicated (commands kept : List (VmCommand Other)) : Prop where
  thinned : Thinned [] commands kept
  last : ∀ name, (ofVm name kept).getLast? = (ofVm name commands).getLast?

/-- No VM is both started and stopped. -/
def OneWay (commands : List (VmCommand Other)) : Prop := ∀ name, ¬ (.start name ∈ commands ∧ .stop name ∈ commands)

/-- The first command for each VM that was not seen yet, and all that are for none. -/
def firsts (seen : List String) : List (VmCommand Other) → List (VmCommand Other)
  | [] => []
  | cmd :: rest =>
      match cmd.vmName with
      | some name => if name ∈ seen then firsts seen rest else cmd :: firsts (name :: seen) rest
      | none => cmd :: firsts seen rest

/-! ### What is kept -/

section Kept

variable {name : String} {before commands kept rest seen : List (VmCommand Other)}

theorem mem_ofVm {cmd : VmCommand Other} : cmd ∈ ofVm name commands ↔ cmd ∈ commands ∧ cmd.vmName = some name := by
  simp [ofVm]

@[simp] theorem ofVm_nil (name : String) : ofVm name ([] : List (VmCommand Other)) = [] := rfl

theorem ofVm_append (name : String) (first second : List (VmCommand Other)) :
    ofVm name (first ++ second) = ofVm name first ++ ofVm name second := List.filter_append ..

theorem ofVm_cons_of_ne {cmd : VmCommand Other} (h : cmd.vmName ≠ some name) : ofVm name (cmd :: rest) = ofVm name rest := by
  simp [ofVm, h]

theorem ofVm_cons_of_eq {cmd : VmCommand Other} (h : cmd.vmName = some name) :
    ofVm name (cmd :: rest) = cmd :: ofVm name rest := by
  simp [ofVm, h]

/-- The last command for a VM is among what is kept. -/
theorem Thinned.last (h : Thinned before commands kept) (name : String) :
    (ofVm name (before ++ kept)).getLast? = (ofVm name (before ++ commands)).getLast? := by
  induction h with
  | nil => simp
  | keep _ ih => simpa using ih
  | @leaveOut before rest kept cmd other hlast _ ih =>
      rw [ih, ofVm_append, ofVm_append, List.getLast?_append, List.getLast?_append]
      by_cases hname : cmd.vmName = some name
      · have hmem := mem_ofVm.mp (List.mem_of_getLast? hlast)
        obtain rfl : name = other := Option.some.inj (hname.symm.trans hmem.2)
        rw [ofVm_cons_of_eq hname, List.getLast?_cons]
        cases hrest : (ofVm name rest).getLast? with
        | none => simpa using hlast
        | some last => simp
      · rw [ofVm_cons_of_ne hname]

/-- What is left out was kept before. -/
theorem Thinned.mem_of_mem (h : Thinned before commands kept) {cmd : VmCommand Other} (hmem : cmd ∈ commands) :
    cmd ∈ before ++ kept := by
  induction h with
  | nil => simp at hmem
  | keep _ ih =>
      obtain rfl | hrest := List.mem_cons.mp hmem
      · simp
      · simpa using ih hrest
  | leaveOut hlast _ ih =>
      obtain rfl | hrest := List.mem_cons.mp hmem
      · exact List.mem_append_left _ (mem_ofVm.mp (List.mem_of_getLast? hlast)).1
      · exact ih hrest

theorem OneWay.eq_of_vmName (h : OneWay commands) {first second : VmCommand Other} (hfirst : first ∈ ofVm name commands)
    (hsecond : second ∈ ofVm name commands) : first = second := by
  obtain ⟨hfirst, hname⟩ := mem_ofVm.mp hfirst
  obtain ⟨hsecond, hsame⟩ := mem_ofVm.mp hsecond
  have hboth := h name
  cases first <;> cases second <;> simp_all [VmCommand.vmName]

theorem OneWay.subset (h : OneWay commands) (hsubset : kept ⊆ commands) : OneWay kept :=
  fun name hboth => h name ⟨hsubset hboth.1, hsubset hboth.2⟩

end Kept

/-! ### The first command for each VM -/

section Firsts

variable {seen : List String} {commands : List (VmCommand Other)}

/-- Of the commands for a VM only the first is kept, whatever the others are. -/
theorem ofVm_firsts (name : String) (seen : List String) (commands : List (VmCommand Other)) :
    ofVm name (firsts seen commands) = if name ∈ seen then [] else (ofVm name commands).take 1 := by
  induction commands generalizing seen with
  | nil => simp [firsts]
  | cons cmd rest ih =>
      rw [firsts]
      split
      · next other hother =>
          by_cases hname : name = other
          · obtain rfl := hname
            by_cases hseen : name ∈ seen
            · rw [if_pos hseen, if_pos hseen, ih, if_pos hseen]
            · rw [if_neg hseen, if_neg hseen, ofVm_cons_of_eq hother, ofVm_cons_of_eq hother, ih, if_pos List.mem_cons_self]
              simp
          · have hne : cmd.vmName ≠ some name := fun hsame => hname (Option.some.inj (hsame.symm.trans hother))
            rw [ofVm_cons_of_ne hne]
            split
            · exact ih seen
            · rw [ofVm_cons_of_ne hne, ih]
              simp [hname]
      · next hnone =>
          have hne : cmd.vmName ≠ some name := by simp [hnone]
          rw [ofVm_cons_of_ne hne, ofVm_cons_of_ne hne, ih]

theorem thinned_firsts {before : List (VmCommand Other)} (h : OneWay (before ++ commands))
    (hseen : ∀ name, name ∈ seen ↔ ofVm name before ≠ []) : Thinned before commands (firsts seen commands) := by
  induction commands generalizing before seen with
  | nil => exact .nil
  | cons cmd rest ih =>
      have hnext : OneWay ((before ++ [cmd]) ++ rest) := by simpa using h
      rw [firsts]
      split
      · next name hname =>
          split
          · next hold =>
              obtain ⟨last, hlast⟩ := Option.ne_none_iff_exists'.mp (mt List.getLast?_eq_none_iff.mp ((hseen name).mp hold))
              have hlastMem : last ∈ ofVm name (before ++ cmd :: rest) := by
                rw [ofVm_append]
                exact List.mem_append_left _ (List.mem_of_getLast? hlast)
              have hcmdMem : cmd ∈ ofVm name (before ++ cmd :: rest) := mem_ofVm.mpr ⟨by simp, hname⟩
              have hsame : last = cmd := h.eq_of_vmName hlastMem hcmdMem
              have hrest : OneWay (before ++ rest) := h.subset ((List.sublist_cons_self cmd rest).append_left before).subset
              exact .leaveOut (hsame ▸ hlast) (ih hrest hseen)
          · refine .keep (ih hnext fun other => ?_)
            rw [List.mem_cons, hseen, ofVm_append]
            by_cases hother : other = name
            · simp [hother, ofVm_cons_of_eq hname]
            · have hne : cmd.vmName ≠ some other := fun hsame => hother (Option.some.inj (hsame.symm.trans hname))
              simp [hother, ofVm_cons_of_ne hne]
      · next hnone =>
          refine .keep (ih hnext fun other => ?_)
          rw [hseen, ofVm_append, ofVm_cons_of_ne (by simp [hnone])]
          simp

theorem deduplicated_firsts_iff (commands : List (VmCommand Other)) :
    Deduplicated commands (firsts [] commands) ↔ OneWay commands := by
  apply Iff.intro
  · intro h name hboth
    have hkept {cmd : VmCommand Other} (hmem : cmd ∈ commands) (hname : cmd.vmName = some name) :
        cmd ∈ (ofVm name commands).take 1 := by
      have hfirst := mem_ofVm.mpr ⟨h.thinned.mem_of_mem hmem, hname⟩
      rwa [List.nil_append, ofVm_firsts, if_neg (by simp)] at hfirst
    have hstart := hkept hboth.1 (by rfl)
    have hstop := hkept hboth.2 (by rfl)
    cases hcommands : ofVm name commands with
    | nil => simp [hcommands] at hstart
    | cons first rest =>
        simp only [hcommands, List.take_succ_cons, List.take_zero, List.mem_singleton] at hstart hstop
        simp [← hstop] at hstart
  · intro h
    have hthinned : Thinned [] commands (firsts [] commands) := thinned_firsts h (by simp)
    exact ⟨hthinned, by simpa using hthinned.last⟩

end Firsts

/-! ### The processor -/

section Batch

open MemoryOptimization OptimizedProposalProcessor

variable {memory : MemoryOptimization Other InternedString FlatMap SmallVec}

theorem batchVmCommand_of_name {loop : FlatMap × SmallVec} {cmd : VmCommand Other} {name : String}
    (hname : cmd.vmName = some name) :
    batchVmCommand memory loop cmd =
      ((memory.insert loop.1 (memory.intern name)).1,
        if (memory.insert loop.1 (memory.intern name)).2.isNone then memory.push loop.2 (.createVm cmd) else loop.2) := by
  cases cmd with
  | start other | stop other =>
      obtain rfl : other = name := Option.some.inj hname
      simp only [batchVmCommand]
      split <;> rfl
  | other command => simp [VmCommand.vmName] at hname

theorem batchVmCommand_of_none {loop : FlatMap × SmallVec} {cmd : VmCommand Other} (hnone : cmd.vmName = none) :
    batchVmCommand memory loop cmd = (loop.1, memory.push loop.2 (.createVm cmd)) := by
  cases cmd with
  | start other | stop other => simp [VmCommand.vmName] at hnone
  | other command => rfl

/-- The loop pushes the first command for each VM that it has not seen. -/
theorem foldl_batchVmCommand (h : memory.Lawful) (vec : SmallVec) (commands : List (VmCommand Other)) (keys : List InternedString)
    (seen : List String) (hseen : ∀ name, memory.intern name ∈ keys ↔ name ∈ seen) (items : List (VmProposal Other)) :
    (commands.foldl (batchVmCommand memory) (memory.inserted keys, memory.pushed vec items)).2 =
      memory.pushed vec (items ++ (firsts seen commands).map .createVm) := by
  induction commands generalizing keys seen items with
  | nil => simp [firsts]
  | cons cmd rest ih =>
      rw [List.foldl_cons, firsts]
      split
      · next name hname =>
          rw [batchVmCommand_of_name hname, insert_inserted]
          have hnew := h.insert_isNone keys (memory.intern name)
          rw [hseen] at hnew
          by_cases hold : name ∈ seen
          · rw [if_pos hold, if_neg fun hnone => hnew.mp hnone hold]
            refine ih _ seen (fun other => ?_) items
            rw [List.mem_append, List.mem_singleton, hseen, h.intern_injective.eq_iff]
            exact or_iff_left_of_imp fun hsame => hsame ▸ hold
          · rw [if_neg hold, if_pos (hnew.mpr hold), push_pushed]
            rw [ih _ (name :: seen) (fun other => ?_), List.append_assoc]
            · rfl
            · rw [List.mem_append, List.mem_singleton, hseen, h.intern_injective.eq_iff, List.mem_cons, or_comm]
      · next hnone =>
          rw [batchVmCommand_of_none hnone, push_pushed, ih keys seen hseen, List.append_assoc]
          rfl

theorem batchVmCommands_eq (h : memory.Lawful) (commands : List (VmCommand Other)) (processor : OptimizedProposalProcessor SmallVec) :
    (batchVmCommands memory commands processor).1 = (firsts [] commands).map .createVm := by
  have hloop := foldl_batchVmCommand h processor.tempProposals commands [] [] (by simp) []
  rw [List.nil_append] at hloop
  have hitems := h.toVec_pushed processor.tempProposals ((firsts [] commands).map .createVm)
  rw [← hloop] at hitems
  exact hitems

def VmProposal.command : VmProposal Other → VmCommand Other
  | .createVm command => command

/-- Only repeated commands are left out exactly if no VM is both started and stopped. -/
theorem batchVmCommands_deduplicates_iff (h : memory.Lawful) (commands : List (VmCommand Other))
    (processor : OptimizedProposalProcessor SmallVec) :
    Deduplicated commands ((batchVmCommands memory commands processor).1.map VmProposal.command) ↔ OneWay commands := by
  have hcommands : ((firsts [] commands).map VmProposal.createVm).map VmProposal.command = firsts [] commands := by
    rw [List.map_map]
    exact List.map_id _
  rw [batchVmCommands_eq h, hcommands, deduplicated_firsts_iff]

end Batch

/-- Names that are their own interned strings, with lists for the map's keys and for the vector. -/
def listMemory : MemoryOptimization Unit String (List String) (List (VmProposal Unit)) where
  intern := id
  default := []
  insert := fun map key => (map ++ [key], if key ∈ map then some () else none)
  clear := fun _ => []
  push := fun vec item => vec ++ [item]
  toVec := id

theorem inserted_listMemory (keys : List String) : listMemory.inserted keys = keys := by
  induction keys using List.reverseRecOn with
  | nil => rfl
  | append_singleton keys key ih =>
      rw [← MemoryOptimization.insert_inserted, ih]
      rfl

theorem pushed_listMemory (vec items : List (VmProposal Unit)) : listMemory.pushed vec items = items := by
  induction items using List.reverseRecOn with
  | nil => rfl
  | append_singleton items item ih =>
      rw [← MemoryOptimization.push_pushed, ih]
      rfl

theorem listMemory_lawful : listMemory.Lawful where
  intern_injective := Function.injective_id
  insert_isNone := by
    intro keys key
    rw [inserted_listMemory]
    by_cases hkey : key ∈ keys <;> simp [listMemory, hkey]
  toVec_pushed := pushed_listMemory

open OptimizedProposalProcessor

theorem batchVmCommands_deduplicates_repeated :
    Deduplicated [.start "vm1", .start "vm1", .start "vm2"]
      ((batchVmCommands listMemory [.start "vm1", .start "vm1", .start "vm2"] ⟨[]⟩).1.map VmProposal.command) :=
  (batchVmCommands_deduplicates_iff listMemory_lawful _ ⟨[]⟩).mpr fun name hboth => by simp at hboth

/-- A VM that is started and stopped is left running. -/
theorem not_batchVmCommands_deduplicates :
    ¬ ∀ (Other InternedString FlatMap SmallVec : Type) (memory : MemoryOptimization Other InternedString FlatMap SmallVec),
      memory.Lawful → ∀ (commands : List (VmCommand Other)) (processor : OptimizedProposalProcessor SmallVec),
        Deduplicated commands ((batchVmCommands memory commands processor).1.map VmProposal.command) := by
  intro h
  have hlast := (h Unit String _ _ listMemory listMemory_lawful [.start "vm1", .stop "vm1"] ⟨[]⟩).last "vm1"
  exact absurd hlast (by decide)

end IrohRaft
