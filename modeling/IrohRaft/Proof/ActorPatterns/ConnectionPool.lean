import IrohRaft.ActorPatterns
import IrohRaft.Library.Keyed
import IrohRaft.Library.Run

/-!
# The accounts of the connection pool actor

Every connection that leaves is counted, as removed or as failed. One that takes the place of another is
counted as created, and the one it replaces is not counted at all.
-/

namespace IrohRaft

open Rust

namespace ConnectionPoolActor

variable {τ : Type}

/-- The connections held are those created less those removed and those that failed. -/
def Balanced (actor : ConnectionPoolActor τ) : Prop :=
  actor.metrics.totalCreated.toNat =
    actor.metrics.totalRemoved.toNat + actor.metrics.healthCheckFailures.toNat + actor.connections.size

structure Accounts (actor : ConnectionPoolActor τ) : Prop where
  active : actor.metrics.activeConnections = actor.connections.size
  balanced : actor.Balanced

theorem accounts_new : (new : ConnectionPoolActor τ).Accounts := ⟨by simp [new], by simp [new, Balanced]⟩

/-! ### Commands -/

theorem u64Add_one_eq_ok {count next : UInt64} (h : (u64Add count 1 : Outcome Empty UInt64) = .ok next) :
    next.toNat = count.toNat + 1 := by
  rw [toNat_of_u64Add h, UInt64.toNat_one]

/-- A connection that is added keeps the accounts exactly if the peer had none. -/
theorem accounts_addConnection {actor next : ConnectionPoolActor τ} (haccounts : actor.Accounts) {peerId : UInt64}
    {connection : τ} {now : Instant} (h : actor.handle (.command (.addConnection peerId connection) now) = .ok next) :
    next.Accounts ↔ peerId ∉ actor.connections := by
  have hbalanced := haccounts.balanced
  simp only [handle, handleCommand, Outcome.bind_eq_ok, Outcome.pure_eq_ok, Outcome.ok.injEq] at h
  obtain ⟨added, ⟨totalCreated, hadd, rfl⟩, rfl⟩ := h
  have hnext := u64Add_one_eq_ok hadd
  have hsize := @HashMap.size_insert_if _ _ _ _ actor.connections peerId (connection, now)
  rw [Std.ExtTreeMap.mem_iff_isSome_getElem?]
  cases hpeer : actor.connections[peerId]? with
  | none =>
      refine iff_of_true ⟨rfl, ?_⟩ (by simp)
      simp only [hpeer, Option.isNone_none, if_true] at hsize
      simp only [Balanced] at hbalanced ⊢
      omega
  | some entry =>
      refine iff_of_false ?_ (by simp)
      intro hbroken
      have hcount := hbroken.balanced
      simp only [hpeer, Option.isNone_some, Bool.false_eq_true, if_false] at hsize
      simp only [Balanced] at hbalanced hcount
      omega

theorem accounts_removeConnection {actor next : ConnectionPoolActor τ} (haccounts : actor.Accounts) {peerId : UInt64}
    {now : Instant} (h : actor.handle (.command (.removeConnection peerId) now) = .ok next) : next.Accounts := by
  have hactive := haccounts.active
  have hbalanced := haccounts.balanced
  have hsize := @HashMap.size_erase_add _ _ _ _ actor.connections peerId
  simp only [Balanced] at hbalanced
  cases hpeer : actor.connections[peerId]? with
  | none =>
      simp only [handle, handleCommand, hpeer, Outcome.ok_bind, Outcome.pure_eq_ok, Outcome.ok.injEq, Option.map_none,
        Option.isSome_none, Bool.false_eq_true, if_false] at h hsize
      subst h
      exact ⟨by simp only; omega, by simp only [Balanced]; omega⟩
  | some entry =>
      simp only [handle, handleCommand, hpeer, Outcome.bind_eq_ok, Outcome.pure_eq_ok, Outcome.ok.injEq, Option.map_some,
        Option.isSome_some, if_true] at h hsize
      obtain ⟨removed, ⟨totalRemoved, hremove, rfl⟩, rfl⟩ := h
      have hnext := u64Add_one_eq_ok hremove
      exact ⟨rfl, by simp only [Balanced]; omega⟩

/-! ### The health check -/

/-- A connection that fails is counted once. -/
theorem balanced_dropStale {actor next : ConnectionPoolActor τ} {peerId : UInt64}
    (hbalanced : actor.Balanced) (hheld : peerId ∈ actor.connections) (h : actor.dropStale peerId = .ok next) :
    next.Balanced := by
  simp only [dropStale, Outcome.bind_eq_ok, Outcome.pure_eq_ok, Outcome.ok.injEq] at h
  obtain ⟨failures, hfail, rfl⟩ := h
  have hnext := u64Add_one_eq_ok hfail
  have hsize := @HashMap.size_erase_add _ _ _ _ actor.connections peerId
  rw [if_pos (Std.ExtTreeMap.mem_iff_isSome_getElem?.mp hheld)] at hsize
  simp only [Balanced] at hbalanced ⊢
  omega

/-- So are those of a list of connections that are held, as each is in it once. -/
theorem balanced_foldlM_dropStale {actor next : ConnectionPoolActor τ} {peerIds : List UInt64} (hnodup : peerIds.Nodup)
    (hheld : ∀ peerId ∈ peerIds, peerId ∈ actor.connections) (hbalanced : actor.Balanced)
    (h : peerIds.foldlM dropStale actor = .ok next) : next.Balanced := by
  induction peerIds generalizing actor with
  | nil =>
      obtain rfl : actor = next := by simpa using h
      exact hbalanced
  | cons peerId rest ih =>
      rw [List.foldlM_cons, Outcome.bind_eq_ok] at h
      obtain ⟨dropped, hdrop, hrest⟩ := h
      obtain ⟨hnot, hnodup⟩ := List.nodup_cons.mp hnodup
      obtain ⟨hhere, hlater⟩ := List.forall_mem_cons.mp hheld
      refine ih hnodup ?_ (balanced_dropStale hbalanced hhere hdrop) hrest
      intro other hother
      have hne : peerId ≠ other := fun heq => hnot (heq ▸ hother)
      simp only [dropStale, Outcome.bind_eq_ok, Outcome.pure_eq_ok, Outcome.ok.injEq] at hdrop
      obtain ⟨failures, _, rfl⟩ := hdrop
      simpa [Std.ExtTreeMap.mem_erase, hne] using hlater other hother

theorem accounts_tick {actor next : ConnectionPoolActor τ} (haccounts : actor.Accounts) {now : Instant}
    (h : actor.handle (.tick now) = .ok next) : next.Accounts := by
  simp only [handle, performHealthCheck, Outcome.bind_eq_ok, Outcome.pure_eq_ok, Outcome.ok.injEq] at h
  obtain ⟨checked, hchecked, rfl⟩ := h
  have hbalanced : checked.Balanced := by
    refine balanced_foldlM_dropStale Std.ExtTreeMap.nodup_keys ?_ haccounts.balanced hchecked
    intro peerId hstale
    obtain ⟨entry, hentry, _⟩ := HashMap.mem_keys_filter.mp hstale
    exact Std.ExtTreeMap.mem_iff_isSome_getElem?.mpr (Option.isSome_of_eq_some hentry)
  exact ⟨rfl, hbalanced⟩

/-! ### Runs -/

/-- As long as the actor is there, its accounts are right. -/
def Kept (state : Outcome Empty (ConnectionPoolActor τ)) : Prop := ∀ actor, state = .ok actor → actor.Accounts

/-- No connection is added for a peer that has one, unless the counter of those created cannot take it and the actor
panics. -/
def AddsFirst (state : Outcome Empty (ConnectionPoolActor τ)) : Op τ → Prop
  | .command (.addConnection peerId _) _ =>
      ∀ actor, state = .ok actor → peerId ∈ actor.connections → actor.metrics.totalCreated.toNat + 1 = 2 ^ 64
  | _ => True

theorem kept_addConnection_iff {actor : ConnectionPoolActor τ} (haccounts : actor.Accounts) (peerId : UInt64)
    (connection : τ) (now : Instant) :
    Kept (actor.handle (.command (.addConnection peerId connection) now)) ↔
      (peerId ∈ actor.connections → actor.metrics.totalCreated.toNat + 1 = 2 ^ 64) := by
  by_cases hfits : actor.metrics.totalCreated.toNat + 1 < 2 ^ 64
  · have hadd : (u64Add actor.metrics.totalCreated 1 : Outcome Empty UInt64) = .ok (actor.metrics.totalCreated + 1) :=
      u64Add_of_lt hfits
    have hsome : ∃ next, actor.handle (.command (.addConnection peerId connection) now) = .ok next := by
      simp [handle, handleCommand, hadd]
    obtain ⟨next, hnext⟩ := hsome
    have hadded := accounts_addConnection haccounts hnext
    rw [hnext]
    apply Iff.intro
    · intro hkept hmem
      exact absurd hmem (hadded.mp (hkept next rfl))
    · intro hallowed other hother
      obtain rfl := Outcome.ok.inj hother
      refine hadded.mpr fun hmem => ?_
      have hfull := hallowed hmem
      omega
  · have hadd : (u64Add actor.metrics.totalCreated 1 : Outcome Empty UInt64) = .panic := u64Add_of_not_lt hfits
    have hlt := actor.metrics.totalCreated.toNat_lt
    refine iff_of_true ?_ fun _ => by omega
    intro other hother
    simp [handle, handleCommand, hadd] at hother

theorem kept_step_iff {state : Outcome Empty (ConnectionPoolActor τ)} {op : Op τ} (hkept : Kept state) :
    AddsFirst state op ↔ Kept (step state op) := by
  cases state with
  | ok actor =>
      have haccounts := hkept actor rfl
      cases op with
      | tick now => exact iff_of_true trivial fun next hnext => accounts_tick haccounts hnext
      | command command now =>
          cases command with
          | addConnection peerId connection =>
              rw [step, Outcome.ok_bind, kept_addConnection_iff haccounts]
              simp [AddsFirst]
          | removeConnection peerId => exact iff_of_true trivial fun next hnext => accounts_removeConnection haccounts hnext
          | getConnection peerId =>
              refine iff_of_true trivial fun next hnext => ?_
              obtain rfl : actor = next := by simpa [step, handle, handleCommand] using hnext
              exact haccounts
          | healthCheck =>
              refine iff_of_true trivial fun next hnext => ?_
              obtain rfl : actor = next := by simpa [step, handle, handleCommand] using hnext
              exact haccounts
          | getMetrics =>
              refine iff_of_true trivial fun next hnext => ?_
              simp only [step, handle, handleCommand, Outcome.ok_bind, Outcome.pure_eq_ok, Outcome.ok.injEq] at hnext
              subst hnext
              exact ⟨rfl, haccounts.balanced⟩
  | err error => exact error.elim
  | panic =>
      refine iff_of_true ?_ fun next hnext => nomatch hnext
      cases op with
      | tick now => trivial
      | command command now => cases command <;> simp [AddsFirst]

/-- The accounts are right in every state of a run exactly if no connection is added for a peer that has one. -/
theorem accounts_iff_addsFirst (ops : List (Op τ)) :
    Run.Follows step AddsFirst (.ok new) ops ↔ ∀ done, done <+: ops → Kept (Run.final step (.ok new) done) :=
  Run.follows_iff_forall_prefix Kept (fun _ _ hkept => kept_step_iff hkept)
    (fun _ hnew => Outcome.ok.inj hnew ▸ accounts_new)

/-- A second connection for a peer is counted and takes the place of the first. -/
theorem not_kept_replaced :
    ¬ Kept (Run.final step (.ok (new : ConnectionPoolActor Unit))
      [.command (.addConnection 1 ()) 0, .command (.addConnection 1 ()) 0]) := by
  have hkept : Kept (step (.ok (new : ConnectionPoolActor Unit)) (.command (.addConnection 1 ()) 0)) := by
    rw [step, Outcome.ok_bind, kept_addConnection_iff accounts_new]
    simp [new]
  have hfirst : step (.ok (new : ConnectionPoolActor Unit)) (.command (.addConnection 1 ()) 0) =
      .ok { connections := (∅ : HashMap UInt64 (Unit × Instant)).insert 1 ((), 0)
            metrics :=
              { activeConnections := ((∅ : HashMap UInt64 (Unit × Instant)).insert 1 ((), 0)).size
                totalCreated := 1, totalRemoved := 0, healthCheckFailures := 0 } } := by
    rfl
  rw [hfirst] at hkept
  rw [Run.final_cons, hfirst, Run.final_cons, Run.final_nil, step, Outcome.ok_bind, kept_addConnection_iff (hkept _ rfl)]
  simp

end ConnectionPoolActor

end IrohRaft
