import IrohRaft.ClusterApi

/-!
# The nodes a cluster lists

`remove_node` drops every entry of the node, so a node that was removed is listed only if it was added again.
`add_node` does not look whether the node is listed already: the ids are unique as long as no node is added that
is listed at that time.
-/

namespace IrohRaft.ClusterApi

open Rust
open Management (SystemTime)

namespace ClusterStatus

def ids (status : ClusterStatus) : List UInt64 := status.nodes.map (·.id)

/-- A node is added only when it is not listed. -/
def AddsUnlisted (status : ClusterStatus) : Op → Prop
  | .addNode nodeId _ _ _ => nodeId ∉ status.ids
  | .removeNode _ _ _ => True

def Op.adds (nodeId : UInt64) : Op → Prop
  | .addNode added _ _ _ => added = nodeId
  | .removeNode _ _ _ => False

/-! ### One call -/

@[simp] theorem ids_initial (clusterId : String) (nodeId : UInt64) (bindAddress : SocketAddr) (now : SystemTime) :
    (initial clusterId nodeId bindAddress now).ids = [nodeId] := by
  simp [ids, initial]

@[simp] theorem ids_addNode (nodeId : UInt64) (address : SocketAddr) (operationId : String) (now : SystemTime)
    (status : ClusterStatus) : (step status (.addNode nodeId address operationId now)).ids = status.ids ++ [nodeId] := by
  simp [ids, step, addNode]

@[simp] theorem ids_removeNode (nodeId : UInt64) (operationId : String) (now : SystemTime) (status : ClusterStatus) :
    (step status (.removeNode nodeId operationId now)).ids = status.ids.filter (· ≠ nodeId) := by
  simp [ids, step, removeNode, List.filter_map, Function.comp_def]

theorem nodup_step_iff {status : ClusterStatus} (hnodup : status.ids.Nodup) (op : Op) :
    AddsUnlisted status op ↔ (step status op).ids.Nodup := by
  cases op with
  | addNode nodeId address operationId now =>
      rw [ids_addNode, AddsUnlisted, (List.perm_append_singleton nodeId status.ids).nodup_iff, List.nodup_cons,
        and_iff_left hnodup]
  | removeNode nodeId operationId now =>
      rw [ids_removeNode]
      exact iff_of_true trivial (hnodup.filter _)

/-- Only a call that adds a node lists it. -/
theorem not_mem_step {status : ClusterStatus} {nodeId : UInt64} (hnot : nodeId ∉ status.ids) {op : Op}
    (hop : ¬ op.adds nodeId) : nodeId ∉ (step status op).ids := by
  cases op with
  | addNode added address operationId now =>
      have hne : nodeId ≠ added := fun heq => hop heq.symm
      simp [hnot, hne]
  | removeNode removed operationId now => simp [hnot]

/-! ### Runs -/

/-- No id is listed twice, and a node that was removed is listed only if it was added again later. -/
structure Membership (start : ClusterStatus) (done : List Op) : Prop where
  unique : (Run.final step start done).ids.Nodup
  removed : ∀ before nodeId operationId now after, done = before ++ .removeNode nodeId operationId now :: after →
    nodeId ∈ (Run.final step start done).ids → ∃ op ∈ after, op.adds nodeId

theorem listed_again (start : ClusterStatus) (before : List Op) (nodeId : UInt64) (operationId : String)
    (now : SystemTime) (after : List Op)
    (hlisted : nodeId ∈ (Run.final step start (before ++ .removeNode nodeId operationId now :: after)).ids) :
    ∃ op ∈ after, op.adds nodeId := by
  by_contra hnone
  rw [Run.final_append, Run.final_cons] at hlisted
  have hstays : ∀ op ∈ after, ∀ status : ClusterStatus, nodeId ∉ status.ids → nodeId ∉ (step status op).ids :=
    fun op hop status hnot => not_mem_step hnot fun hadds => hnone ⟨op, hop, hadds⟩
  refine Run.final_invariant (fun status : ClusterStatus => nodeId ∉ status.ids) hstays ?_ hlisted
  simp

/-- The nodes of the cluster are listed as they should be in every state of a run exactly if no node is added that is
listed at that time. -/
theorem membership_iff_addsUnlisted (clusterId : String) (nodeId : UInt64) (bindAddress : SocketAddr) (now : SystemTime)
    (ops : List Op) :
    Run.Follows step AddsUnlisted (initial clusterId nodeId bindAddress now) ops ↔
      ∀ done, done <+: ops → Membership (initial clusterId nodeId bindAddress now) done := by
  have hunique : Run.Follows step AddsUnlisted (initial clusterId nodeId bindAddress now) ops ↔
      ∀ done, done <+: ops → (Run.final step (initial clusterId nodeId bindAddress now) done).ids.Nodup :=
    Run.follows_iff_forall_prefix (fun status : ClusterStatus => status.ids.Nodup)
      (fun _ op hnodup => nodup_step_iff hnodup op) (by simp)
  rw [hunique]
  apply Iff.intro
  · intro hall done hprefix
    refine ⟨hall done hprefix, ?_⟩
    intro before removed operationId time after hdone hlisted
    subst hdone
    exact listed_again _ before removed operationId time after hlisted
  · intro hall done hprefix
    exact (hall done hprefix).unique

def loopback (port : UInt16) : SocketAddr := .v4 ⟨127, 0, 0, 1⟩ port

/-- The local node is listed a second time when it is added. -/
theorem not_membership_local :
    ¬ Membership (initial "cluster" 1 (loopback 8080) Management.unixEpoch)
      [.addNode 1 (loopback 8081) "operation" Management.unixEpoch] := by
  intro hmembership
  have hunique := hmembership.unique
  rw [Run.final_cons, Run.final_nil, ids_addNode, ids_initial] at hunique
  simp at hunique

end ClusterStatus

end IrohRaft.ClusterApi
