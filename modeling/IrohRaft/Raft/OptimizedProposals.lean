/-!
# Proposals with fewer allocations

The `OptimizedProposalProcessor` of `raft/optimized_proposals.rs`, as far as it batches VM commands. Interned strings, the
flat map and the small vector are of `memory_optimization`, which is not here, and so is all of a command but its name.
-/

namespace IrohRaft

inductive VmCommand (Other : Type) where
  | start (name : String)
  | stop (name : String)
  | other (command : Other)
  deriving DecidableEq, Repr

/-- The only proposals that are made of VM commands. -/
inductive VmProposal (Other : Type) where
  | createVm (command : VmCommand Other)
  deriving DecidableEq, Repr

variable {Other InternedString FlatMap SmallVec : Type}

/-- What is used of `memory_optimization`. `insert` gives the map and what was under the key before. -/
structure MemoryOptimization (Other InternedString FlatMap SmallVec : Type) where
  intern : String → InternedString
  default : FlatMap
  insert : FlatMap → InternedString → FlatMap × Option Unit
  clear : SmallVec → SmallVec
  push : SmallVec → VmProposal Other → SmallVec
  toVec : SmallVec → List (VmProposal Other)

structure OptimizedProposalProcessor (SmallVec : Type) where
  tempProposals : SmallVec

namespace OptimizedProposalProcessor

variable (memory : MemoryOptimization Other InternedString FlatMap SmallVec)

/-- A turn of the loop over the commands. -/
def batchVmCommand (loop : FlatMap × SmallVec) (cmd : VmCommand Other) : FlatMap × SmallVec :=
  match cmd with
  | .start name | .stop name =>
      let (seenVms, previous) := memory.insert loop.1 (memory.intern name)
      if previous.isNone then (seenVms, memory.push loop.2 (.createVm cmd)) else (seenVms, loop.2)
  | .other _ => (loop.1, memory.push loop.2 (.createVm cmd))

def batchVmCommands (commands : List (VmCommand Other)) (processor : OptimizedProposalProcessor SmallVec) :
    List (VmProposal Other) × OptimizedProposalProcessor SmallVec :=
  let (_, tempProposals) := commands.foldl (batchVmCommand memory) (memory.default, memory.clear processor.tempProposals)
  (memory.toVec tempProposals, { tempProposals })

end OptimizedProposalProcessor

end IrohRaft
