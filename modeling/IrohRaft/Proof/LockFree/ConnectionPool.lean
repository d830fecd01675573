import IrohRaft.Library.Keyed
import IrohRaft.Library.Register
import IrohRaft.Library.Run
import IrohRaft.LockFree

/-!
# The accounts of the connection pool

A key is counted when it is new and when it leaves. The counters wrap around together, so their difference is
the number of keys all the same. A key that is there was inserted, and its time is that of its last insertion.
-/

namespace IrohRaft

open Rust

namespace LockFreeConnectionPool

variable {τ : Type}

/-- The counters stand for so many creations and removals. -/
structure Counted (pool : LockFreeConnectionPool τ) (created removed : Nat) : Prop where
  totalCreated : pool.totalCreated = UInt64.ofNat created
  totalRemoved : pool.totalRemoved = UInt64.ofNat removed
  accounts : created = removed + pool.len

theorem Counted.len_eq {pool : LockFreeConnectionPool τ} {created removed : Nat} (h : pool.Counted created removed) :
    UInt64.ofNat pool.len = pool.totalCreated - pool.totalRemoved := by
  rw [h.totalCreated, h.totalRemoved, h.accounts, UInt64.ofNat_add, UInt64.add_comm, UInt64.add_sub_cancel]

theorem Counted.insert {pool : LockFreeConnectionPool τ} {created removed : Nat} (h : pool.Counted created removed)
    (key : UInt64) (connection : τ) (now : Instant) :
    (pool.insert key connection now).2.Counted (created + if pool.connections[key]?.isNone then 1 else 0) removed := by
  have haccounts := h.accounts
  refine ⟨?_, h.totalRemoved, ?_⟩
  · simp only [LockFreeConnectionPool.insert, h.totalCreated]
    split_ifs <;> simp
  · simp only [LockFreeConnectionPool.insert, len, HashMap.size_insert_if] at haccounts ⊢
    split_ifs <;> omega

theorem Counted.remove {pool : LockFreeConnectionPool τ} {created removed : Nat} (h : pool.Counted created removed)
    (key : UInt64) :
    (pool.remove key).2.Counted created (removed + if pool.connections[key]?.isSome then 1 else 0) := by
  have haccounts := h.accounts
  refine ⟨h.totalCreated, ?_, ?_⟩
  · simp only [LockFreeConnectionPool.remove, h.totalRemoved]
    split_ifs <;> simp
  · have hsize := @HashMap.size_erase_add _ _ _ _ pool.connections key
    simp only [LockFreeConnectionPool.remove, len] at haccounts ⊢
    omega

theorem Counted.cleanupStale {pool : LockFreeConnectionPool τ} {created removed : Nat} (h : pool.Counted created removed)
    (now : Instant) :
    (pool.cleanupStale now).2.Counted created (removed + (pool.cleanupStale now).1.length) := by
  have haccounts := h.accounts
  refine ⟨h.totalCreated, ?_, ?_⟩
  · simp only [LockFreeConnectionPool.cleanupStale, h.totalRemoved]
    split_ifs with hempty
    · simp [List.isEmpty_iff.mp hempty]
    · simp
  · have hsize := @HashMap.size_filter_add_size_filter_not _ _ _ _ pool.connections fun _ entry => pool.isStale now entry.2
    simp only [LockFreeConnectionPool.cleanupStale, len, Std.ExtTreeMap.length_keys] at haccounts ⊢
    omega

/-! ### What a cleanup takes -/

/-- When the key is inserted. -/
def insertedAt (key : UInt64) : Op τ → Option Instant
  | .insert inserted _ now => if inserted = key then some now else none
  | _ => none

/-- A cleanup reports the keys whose entries are stale, each once, and leaves the others. -/
theorem cleanupStale_spec (now : Instant) (pool : LockFreeConnectionPool τ) :
    (pool.cleanupStale now).1.Nodup ∧
    (∀ key, key ∈ (pool.cleanupStale now).1 ↔
      ∃ entry, pool.connections[key]? = some entry ∧ now.durationSince entry.2 > pool.healthCheckTimeout) ∧
    ∀ key, (pool.cleanupStale now).2.connections[key]? =
      if key ∈ (pool.cleanupStale now).1 then none else pool.connections[key]? := by
  have hmem : ∀ key, key ∈ (pool.cleanupStale now).1 ↔
      ∃ entry, pool.connections[key]? = some entry ∧ now.durationSince entry.2 > pool.healthCheckTimeout := by
    intro key
    rw [cleanupStale, HashMap.mem_keys_filter]
    simp [isStale]
  refine ⟨Std.ExtTreeMap.nodup_keys, hmem, ?_⟩
  intro key
  rw [if_congr (hmem key) rfl rfl, cleanupStale, Std.ExtTreeMap.getElem?_filter']
  cases hentry : pool.connections[key]? with
  | none => simp
  | some entry => by_cases hstale : now.durationSince entry.2 > pool.healthCheckTimeout <;> simp [isStale, hstale]

/-! ### What a run leaves -/

/-- The operation leaves a key with what was last inserted under it. -/
def Op.Spares (healthCheckTimeout : Nat) (key : UInt64) (inserted : Instant) : Op τ → Prop
  | .insert other _ _ => other ≠ key
  | .remove other => other ≠ key
  | .cleanupStale now => now.durationSince inserted ≤ healthCheckTimeout

/-- The connection was inserted under the key at this time, and nothing since has taken it or put another there. -/
def Held (healthCheckTimeout : Nat) (ops : List (Op τ)) (key : UInt64) (entry : τ × Instant) : Prop :=
  ∃ before after, ops = before ++ .insert key entry.1 entry.2 :: after ∧ ∀ op ∈ after, op.Spares healthCheckTimeout key entry.2

theorem held_concat {healthCheckTimeout : Nat} {done : List (Op τ)} {op : Op τ} {key : UInt64} {entry : τ × Instant} :
    Held healthCheckTimeout (done ++ [op]) key entry ↔
      op = .insert key entry.1 entry.2 ∨ Held healthCheckTimeout done key entry ∧ op.Spares healthCheckTimeout key entry.2 := by
  apply Iff.intro
  · intro hheld
    obtain ⟨before, after, hops, hspares⟩ := hheld
    cases after using List.reverseRecOn with
    | nil => exact .inl (List.singleton_inj.mp (List.append_inj' hops rfl).2)
    | append_singleton after last _ =>
        rw [← List.cons_append, ← List.append_assoc] at hops
        obtain ⟨hdone, hlast⟩ := List.append_inj' hops rfl
        obtain rfl := List.singleton_inj.mp hlast
        refine .inr ⟨⟨before, after, hdone, fun op hop => hspares op (List.mem_append_left _ hop)⟩, ?_⟩
        exact hspares _ (List.mem_append_right _ List.mem_cons_self)
  · intro hlast
    obtain rfl | ⟨⟨before, after, rfl, hspares⟩, hop⟩ := hlast
    · exact ⟨done, [], rfl, by simp⟩
    · refine ⟨before, after ++ [op], by simp, fun other hother => ?_⟩
      obtain hafter | hlast := List.mem_append.mp hother
      · exact hspares other hafter
      · exact List.mem_singleton.mp hlast ▸ hop

theorem held_step {done : List (Op τ)} {pool : LockFreeConnectionPool τ}
    (h : ∀ key entry, pool.connections[key]? = some entry ↔ Held pool.healthCheckTimeout done key entry) (op : Op τ)
    (key : UInt64) (entry : τ × Instant) :
    (step pool op).connections[key]? = some entry ↔ Held pool.healthCheckTimeout (done ++ [op]) key entry := by
  rw [held_concat, ← h]
  cases op with
  | insert inserted connection now =>
      simp only [step, LockFreeConnectionPool.insert, HashMap.getElem?_insert_if, Op.Spares, Op.insert.injEq]
      by_cases hkey : inserted = key
      · rw [if_pos hkey, Option.some.injEq]
        simp [hkey, Prod.ext_iff]
      · rw [if_neg hkey]
        simp [hkey]
  | remove removed =>
      simp only [step, LockFreeConnectionPool.remove, HashMap.getElem?_erase_if, Op.Spares]
      by_cases hkey : removed = key <;> simp [hkey]
  | cleanupStale now =>
      simp only [step, LockFreeConnectionPool.cleanupStale, Std.ExtTreeMap.getElem?_filter', Op.Spares]
      rw [Option.filter_eq_some_iff]
      simp [isStale]

/-- The time kept with a key is that of its last insertion. -/
theorem Held.insertedAt {healthCheckTimeout : Nat} {ops : List (Op τ)} {key : UInt64} {entry : τ × Instant}
    (h : Held healthCheckTimeout ops key entry) : Register.lastWrite (insertedAt key) ops = some entry.2 := by
  obtain ⟨before, after, hops, hspares⟩ := h
  refine Register.lastWrite_eq_some_iff.mpr ⟨before, _, after, hops, if_pos rfl, fun op hop => ?_⟩
  cases op with
  | insert other connection now => exact if_neg (hspares _ hop)
  | remove other => rfl
  | cleanupStale now => rfl

/-! ### Runs -/

theorem healthCheckTimeout_step (pool : LockFreeConnectionPool τ) (op : Op τ) :
    (step pool op).healthCheckTimeout = pool.healthCheckTimeout := by
  cases op <;> simp [step, insert, remove, cleanupStale]

/-- The counters after a run, and how far the one can be. -/
theorem counted_run (healthCheckTimeout : Nat) (ops : List (Op τ)) :
    ∃ created removed, created ≤ ops.length ∧ (Run.final step (new healthCheckTimeout) ops).Counted created removed := by
  refine Run.final_history
    (fun (done : List (Op τ)) pool => ∃ created removed, created ≤ done.length ∧ Counted pool created removed) ?_
    ⟨0, 0, ?_⟩ ops
  · intro done pool op hpool
    obtain ⟨created, removed, hle, hcounted⟩ := hpool
    rw [List.length_append, List.length_singleton]
    cases op with
    | insert key connection now => exact ⟨_, _, by split_ifs <;> omega, hcounted.insert key connection now⟩
    | remove key => exact ⟨_, _, by omega, hcounted.remove key⟩
    | cleanupStale now => exact ⟨_, _, by omega, hcounted.cleanupStale now⟩
  · exact ⟨Nat.zero_le _, by simp [new], by simp [new], by simp [new, len]⟩

theorem held_run (healthCheckTimeout : Nat) (ops : List (Op τ)) :
    let pool : LockFreeConnectionPool τ := Run.final step (new healthCheckTimeout) ops
    pool.healthCheckTimeout = healthCheckTimeout ∧
      ∀ key entry, pool.connections[key]? = some entry ↔ Held healthCheckTimeout ops key entry := by
  refine Run.final_history (fun done (pool : LockFreeConnectionPool τ) => pool.healthCheckTimeout = healthCheckTimeout ∧
    ∀ key entry, pool.connections[key]? = some entry ↔ Held healthCheckTimeout done key entry) ?_ ⟨rfl, ?_⟩ ops
  · intro done pool op hpool
    obtain ⟨rfl, hheld⟩ := hpool
    exact ⟨healthCheckTimeout_step pool op, held_step hheld op⟩
  · simp [new, Held]

/-- After every run the number of connections is the number of creations less that of removals, exactly and in the
counters' own arithmetic; a key is there if it was inserted and nothing has taken it since; and a cleanup takes the keys whose
last insertion was too long ago, and no others. -/
theorem pool_accounts (healthCheckTimeout : Nat) (ops : List (Op τ)) :
    let pool : LockFreeConnectionPool τ := Run.final step (new healthCheckTimeout) ops
    (∃ created removed, created ≤ ops.length ∧ pool.totalCreated = UInt64.ofNat created ∧
      pool.totalRemoved = UInt64.ofNat removed ∧ created = removed + pool.len) ∧
    UInt64.ofNat pool.len = pool.totalCreated - pool.totalRemoved ∧
    (∀ key entry, pool.connections[key]? = some entry ↔ Held healthCheckTimeout ops key entry) ∧
    ∀ now,
      (pool.cleanupStale now).1.Nodup ∧
      (∀ key, key ∈ (pool.cleanupStale now).1 ↔
        key ∈ pool.connections ∧
          ∃ inserted, Register.lastWrite (insertedAt key) ops = some inserted ∧
            now.durationSince inserted > healthCheckTimeout) ∧
      ∀ key, (pool.cleanupStale now).2.connections[key]? =
        if key ∈ (pool.cleanupStale now).1 then none else pool.connections[key]? := by
  intro pool
  obtain ⟨created, removed, hle, hcounted⟩ := counted_run healthCheckTimeout ops
  obtain ⟨htimeout, hheld⟩ := held_run healthCheckTimeout ops
  refine ⟨⟨created, removed, hle, hcounted.totalCreated, hcounted.totalRemoved, hcounted.accounts⟩, hcounted.len_eq, hheld, ?_⟩
  intro now
  obtain ⟨hnodup, hmem, hrest⟩ := pool.cleanupStale_spec now
  refine ⟨hnodup, ?_, hrest⟩
  intro key
  rw [hmem, htimeout, Std.ExtTreeMap.mem_iff_isSome_getElem?, Option.isSome_iff_exists]
  apply Iff.intro
  · intro hstale
    obtain ⟨entry, hentry, hold⟩ := hstale
    exact ⟨⟨entry, hentry⟩, entry.2, ((hheld key entry).mp hentry).insertedAt, hold⟩
  · intro hold
    obtain ⟨⟨entry, hentry⟩, inserted, hinserted, hstale⟩ := hold
    obtain rfl := Option.some.inj (((hheld key entry).mp hentry).insertedAt.symm.trans hinserted)
    exact ⟨entry, hentry, hstale⟩

end LockFreeConnectionPool

end IrohRaft
