import IrohRaft.TimeoutManager
import Mathlib.Data.ENat.Lattice

/-!
# Retries

How often the operation is called, what comes of it, and how long the pauses are. The retries are counted in a
`u32` that is compared with the limit after the increment, so a limit at the end of the `u32` is never exceeded: the
increment panics.
-/

namespace IrohRaft

open Rust

namespace TimeoutManager

variable {α : Type}

def Invocation.Succeeds : Invocation α → Prop
  | .success _ _ _ => True
  | _ => False

instance (invocation : Invocation α) : Decidable invocation.Succeeds :=
  match invocation with
  | .success _ _ _ => isTrue trivial
  | .failure _ _ => isFalse id
  | .timeout _ => isFalse id

open Classical in
/-- The number of the first invocation that succeeds, counted from one; `⊤` where none does. -/
noncomputable def firstSuccess (invocations : Nat → Invocation α) : ℕ∞ :=
  if h : ∃ n, (invocations n).Succeeds then (Nat.find h + 1 : Nat) else ⊤

theorem firstSuccess_of_succeeds {invocations : Nat → Invocation α} (h : (invocations 0).Succeeds) :
    firstSuccess invocations = 1 := by
  have hfirst : ∃ n, (invocations n).Succeeds := ⟨0, h⟩
  rw [firstSuccess, dif_pos hfirst, (Nat.find_eq_zero hfirst).mpr h]
  simp

theorem firstSuccess_of_fails {invocations : Nat → Invocation α} (h : ¬ (invocations 0).Succeeds) :
    firstSuccess invocations = firstSuccess (fun n => invocations (n + 1)) + 1 := by
  by_cases hlater : ∃ n, (invocations (n + 1)).Succeeds
  · have hany : ∃ n, (invocations n).Succeeds := hlater.imp' (· + 1) fun _ hn => hn
    rw [firstSuccess, firstSuccess, dif_pos hany, dif_pos hlater, Nat.find_comp_succ hany hlater h]
    simp
  · have hnone : ¬ ∃ n, (invocations n).Succeeds := by
      intro hany
      obtain ⟨n, hn⟩ := hany
      cases n with
      | zero => exact h hn
      | succ n => exact hlater ⟨n, hn⟩
    rw [firstSuccess, firstSuccess, dif_neg hnone, dif_neg hlater, top_add]

/-- The manager after the first invocations. -/
def afterInvocations (opType : OperationType) (invocations : Nat → Invocation α) (manager : TimeoutManager) :
    Nat → TimeoutManager
  | 0 => manager
  | n + 1 => ((afterInvocations opType invocations manager n).executeWithTimeout opType (invocations n)).2

/-- What comes of an invocation, numbered from zero. -/
def resultOf (opType : OperationType) (invocations : Nat → Invocation α) (manager : TimeoutManager) (n : Nat) :
    Outcome RaftError α :=
  match ((afterInvocations opType invocations manager n).executeWithTimeout opType (invocations n)).1 with
  | .ok value => .ok value
  | .error error => .err error

theorem afterInvocations_succ (opType : OperationType) (invocations : Nat → Invocation α) (manager : TimeoutManager)
    (n : Nat) :
    afterInvocations opType invocations manager (n + 1) =
      afterInvocations opType (fun n => invocations (n + 1)) (manager.executeWithTimeout opType (invocations 0)).2 n := by
  induction n with
  | zero => rfl
  | succ n ih => rw [afterInvocations, ih, afterInvocations]

theorem resultOf_succ (opType : OperationType) (invocations : Nat → Invocation α) (manager : TimeoutManager) (n : Nat) :
    resultOf opType invocations manager (n + 1) =
      resultOf opType (fun n => invocations (n + 1)) (manager.executeWithTimeout opType (invocations 0)).2 n := by
  rw [resultOf, afterInvocations_succ, resultOf]

/-! ### One turn of the loop -/

section Loop

variable {opType : OperationType} {config : TimeoutConfig} {invocations : Nat → Invocation α} {randoms : Nat → Random}
  {retryCount : UInt32} {delay : Duration} {manager : TimeoutManager}

/-- The next pause. -/
def nextDelay (config : TimeoutConfig) (random : Random) (delay : Duration) : Duration :=
  min (delay * config.backoffMultiplier + calculateJitter delay config.jitterFactor random) config.maxTimeout

theorem executeWithTimeout_of_succeeds (h : (invocations 0).Succeeds) :
    ∃ value,
      manager.executeWithTimeout opType (invocations 0) =
      (.ok value, (manager.executeWithTimeout opType (invocations 0)).2) := by
  cases hinvocation : invocations 0 <;> simp [hinvocation, Invocation.Succeeds] at h
  simp [executeWithTimeout]

theorem executeWithTimeout_of_fails (h : ¬ (invocations 0).Succeeds) :
    ∃ error,
      manager.executeWithTimeout opType (invocations 0) =
      (.error error, (manager.executeWithTimeout opType (invocations 0)).2) := by
  cases hinvocation : invocations 0 <;> simp [hinvocation, Invocation.Succeeds] at h
  · simp [executeWithTimeout]
  · simp [executeWithTimeout]

/-- The loop ends with an invocation that succeeds, or with the one after the last retry. -/
theorem retryLoop_last
    (h : (invocations 0).Succeeds ∨ retryCount.toNat + 1 < 2 ^ 32 ∧ retryCount + 1 > config.maxRetries) :
    retryLoop opType config invocations randoms retryCount delay manager =
      { result := resultOf opType invocations manager 0
        invoked := 1
        slept := []
        manager := (manager.executeWithTimeout opType (invocations 0)).2 } := by
  rw [retryLoop, resultOf, afterInvocations]
  by_cases hsucceeds : (invocations 0).Succeeds
  · obtain ⟨value, hvalue⟩ := @executeWithTimeout_of_succeeds _ opType invocations manager hsucceeds
    rw [hvalue]
  · obtain ⟨error, herror⟩ := @executeWithTimeout_of_fails _ opType invocations manager hsucceeds
    obtain ⟨hfits, hlast⟩ := h.resolve_left hsucceeds
    rw [herror]
    simp only
    rw [dif_pos hfits, if_pos hlast]

theorem retryLoop_overflow (hfails : ¬ (invocations 0).Succeeds) (hover : ¬ retryCount.toNat + 1 < 2 ^ 32) :
    retryLoop opType config invocations randoms retryCount delay manager =
      { result := .panic
        invoked := 1
        slept := []
        manager := (manager.executeWithTimeout opType (invocations 0)).2 } := by
  obtain ⟨error, herror⟩ := @executeWithTimeout_of_fails _ opType invocations manager hfails
  rw [retryLoop, herror]
  simp only
  rw [dif_neg hover]

theorem toNat_succ_of_lt {count limit : UInt32} (h : count < limit) : (count + 1).toNat = count.toNat + 1 := by
  have hlt : count.toNat < limit.toNat := UInt32.lt_iff_toNat_lt.mp h
  have hlimit := limit.toNat_lt
  rw [UInt32.toNat_add, UInt32.toNat_one, Nat.mod_eq_of_lt (by omega)]

/-- Otherwise it goes on, after a pause, as if it began with the next invocation. -/
theorem retryLoop_retry (hfails : ¬ (invocations 0).Succeeds) (hretry : retryCount < config.maxRetries) :
    retryLoop opType config invocations randoms retryCount delay manager =
      let rest := retryLoop opType config (fun n => invocations (n + 1)) (fun n => randoms (n + 1)) (retryCount + 1)
        (nextDelay config (randoms 0) delay) (manager.executeWithTimeout opType (invocations 0)).2
      { rest with
        invoked := rest.invoked + 1
        slept := nextDelay config (randoms 0) delay :: rest.slept } := by
  obtain ⟨error, herror⟩ := @executeWithTimeout_of_fails _ opType invocations manager hfails
  have hcount := toNat_succ_of_lt hretry
  have hlt : retryCount.toNat < config.maxRetries.toNat := UInt32.lt_iff_toNat_lt.mp hretry
  have hfits : retryCount.toNat + 1 < 2 ^ 32 := by
    have hlimit := config.maxRetries.toNat_lt
    omega
  have hlast : ¬ retryCount + 1 > config.maxRetries := by
    rw [gt_iff_lt, UInt32.lt_iff_toNat_lt]
    omega
  rw [retryLoop, herror]
  simp only
  rw [dif_pos hfits, if_neg hlast]
  rfl

/-! ### The whole loop -/

theorem one_le_firstSuccess (invocations : Nat → Invocation α) : 1 ≤ firstSuccess invocations := by
  by_cases h : (invocations 0).Succeeds
  · rw [firstSuccess_of_succeeds h]
  · rw [firstSuccess_of_fails h]
    exact le_add_self

theorem succeeds_of_firstSuccess_le {invocations : Nat → Invocation α} (h : firstSuccess invocations ≤ 1) :
    (invocations 0).Succeeds := by
  by_contra hfails
  rw [firstSuccess_of_fails hfails] at h
  have hlater := one_le_firstSuccess fun n => invocations (n + 1)
  have htwo : (2 : ℕ∞) ≤ 1 := (add_le_add_left hlater 1).trans h
  simp at htwo

theorem min_firstSuccess_one (invocations : Nat → Invocation α) : min (firstSuccess invocations) ((0 : Nat) + 1) = 1 := by
  simpa using one_le_firstSuccess invocations

/-- With the retries counted in full, the loop can only end. -/
theorem retryLoop_of_eq (h : retryCount = config.maxRetries) :
    ∃ result, retryLoop opType config invocations randoms retryCount delay manager =
      { result
        invoked := 1
        slept := []
        manager := (manager.executeWithTimeout opType (invocations 0)).2 } := by
  by_cases hsucceeds : (invocations 0).Succeeds
  · exact ⟨_, retryLoop_last (Or.inl hsucceeds)⟩
  · by_cases hfits : retryCount.toNat + 1 < 2 ^ 32
    · refine ⟨_, retryLoop_last (Or.inr ⟨hfits, ?_⟩)⟩
      rw [gt_iff_lt, UInt32.lt_iff_toNat_lt, UInt32.toNat_add, UInt32.toNat_one, Nat.mod_eq_of_lt hfits, h]
      omega
    · exact ⟨_, retryLoop_overflow hsucceeds hfits⟩

theorem lt_maxRetries {retries : Nat} (h : retryCount.toNat + (retries + 1) = config.maxRetries.toNat) :
    retryCount < config.maxRetries := by
  rw [UInt32.lt_iff_toNat_lt]
  omega

/-- The operation is called until it succeeds, and once more than there are retries left at most. -/
theorem retryLoop_invoked {retries : Nat} (hretries : retryCount.toNat + retries = config.maxRetries.toNat) :
    ((retryLoop opType config invocations randoms retryCount delay manager).invoked : ℕ∞) =
      min (firstSuccess invocations) (retries + 1) := by
  induction retries generalizing invocations randoms retryCount delay manager with
  | zero =>
      obtain ⟨result, hend⟩ := @retryLoop_of_eq α opType config invocations randoms retryCount delay manager
        (UInt32.toNat_inj.mp hretries)
      rw [hend, min_firstSuccess_one]
      simp
  | succ retries ih =>
      by_cases hsucceeds : (invocations 0).Succeeds
      · rw [retryLoop_last (Or.inl hsucceeds), firstSuccess_of_succeeds hsucceeds]
        simp
      · have hlt := lt_maxRetries hretries
        have hcount := toNat_succ_of_lt hlt
        rw [retryLoop_retry hsucceeds hlt, firstSuccess_of_fails hsucceeds]
        simp only [Nat.cast_add, Nat.cast_one]
        rw [ih (by omega), min_add_add_right]

theorem retryLoop_invoked_pos {retries : Nat} (hretries : retryCount.toNat + retries = config.maxRetries.toNat) :
    0 < (retryLoop opType config invocations randoms retryCount delay manager).invoked := by
  have hinvoked : (1 : ℕ∞) ≤ (retryLoop opType config invocations randoms retryCount delay manager).invoked := by
    rw [retryLoop_invoked hretries]
    exact le_min (one_le_firstSuccess invocations) le_add_self
  exact_mod_cast hinvoked

/-- There is a pause before every call but the first; each is as long as the one before, or longer, and none is longer
than the maximum. -/
theorem retryLoop_slept {retries : Nat} (hretries : retryCount.toNat + retries = config.maxRetries.toNat)
    (hmultiplier : 1 ≤ config.backoffMultiplier) (hdelay : delay ≤ config.maxTimeout) :
    let run := retryLoop opType config invocations randoms retryCount delay manager
    run.slept.length + 1 = run.invoked ∧ (delay :: run.slept).Pairwise (· ≤ ·) ∧
      ∀ pause ∈ run.slept, pause ≤ config.maxTimeout := by
  induction retries generalizing invocations randoms retryCount delay manager with
  | zero =>
      obtain ⟨result, hend⟩ := @retryLoop_of_eq α opType config invocations randoms retryCount delay manager
        (UInt32.toNat_inj.mp hretries)
      rw [hend]
      simp
  | succ retries ih =>
      by_cases hsucceeds : (invocations 0).Succeeds
      · rw [retryLoop_last (Or.inl hsucceeds)]
        simp
      · have hlt := lt_maxRetries hretries
        have hcount := toNat_succ_of_lt hlt
        have hcapped : nextDelay config (randoms 0) delay ≤ config.maxTimeout := min_le_right _ _
        have hgrown : delay ≤ nextDelay config (randoms 0) delay :=
          le_min ((le_mul_of_one_le_right zero_le hmultiplier).trans le_self_add) hdelay
        obtain ⟨hlength, hsorted, hmax⟩ := @ih (fun n => invocations (n + 1)) (fun n => randoms (n + 1)) (retryCount + 1)
          (nextDelay config (randoms 0) delay) (manager.executeWithTimeout opType (invocations 0)).2 (by omega) hcapped
        rw [retryLoop_retry hsucceeds hlt]
        refine ⟨congrArg (· + 1) hlength, ?_, List.forall_mem_cons.mpr ⟨hcapped, hmax⟩⟩
        refine List.pairwise_cons.mpr ⟨List.forall_mem_cons.mpr ⟨hgrown, ?_⟩, hsorted⟩
        intro pause hpause
        exact hgrown.trans (List.rel_of_pairwise_cons hsorted hpause)

/-- The loop returns what the last call returned. -/
theorem retryLoop_result {retries : Nat} (hretries : retryCount.toNat + retries = config.maxRetries.toNat)
    (hends : config.maxRetries.toNat + 1 < 2 ^ 32 ∨ firstSuccess invocations ≤ retries + 1) :
    (retryLoop opType config invocations randoms retryCount delay manager).result =
      resultOf opType invocations manager
        ((retryLoop opType config invocations randoms retryCount delay manager).invoked - 1) := by
  induction retries generalizing invocations randoms retryCount delay manager with
  | zero =>
      have hlast : (invocations 0).Succeeds ∨ retryCount.toNat + 1 < 2 ^ 32 ∧ retryCount + 1 > config.maxRetries := by
        obtain hfits | hfirst := hends
        · have hcount : (retryCount + 1).toNat = retryCount.toNat + 1 := by
            rw [UInt32.toNat_add, UInt32.toNat_one, Nat.mod_eq_of_lt (by omega)]
          refine Or.inr ⟨by omega, ?_⟩
          rw [gt_iff_lt, UInt32.lt_iff_toNat_lt]
          omega
        · exact Or.inl (succeeds_of_firstSuccess_le (by simpa using hfirst))
      simp [retryLoop_last hlast]
  | succ retries ih =>
      by_cases hsucceeds : (invocations 0).Succeeds
      · simp [retryLoop_last (Or.inl hsucceeds)]
      · have hlt := lt_maxRetries hretries
        have hcount := toNat_succ_of_lt hlt
        have hrest : config.maxRetries.toNat + 1 < 2 ^ 32 ∨ firstSuccess (fun n => invocations (n + 1)) ≤ retries + 1 := by
          rw [firstSuccess_of_fails hsucceeds] at hends
          simpa using hends
        have hresult := @ih (fun n => invocations (n + 1)) (fun n => randoms (n + 1)) (retryCount + 1)
          (nextDelay config (randoms 0) delay) (manager.executeWithTimeout opType (invocations 0)).2 (by omega) hrest
        obtain ⟨calls, hcalls⟩ := Nat.exists_eq_add_one.mpr (@retryLoop_invoked_pos α opType config
          (fun n => invocations (n + 1)) (fun n => randoms (n + 1)) (retryCount + 1) (nextDelay config (randoms 0) delay)
          (manager.executeWithTimeout opType (invocations 0)).2 retries (by omega))
        rw [hcalls, Nat.add_sub_cancel] at hresult
        rw [retryLoop_retry hsucceeds hlt]
        simp only
        rw [hresult, hcalls, Nat.add_sub_cancel, resultOf_succ]

/-- It panics where no call succeeds and the count of the retries can not exceed the limit. -/
theorem retryLoop_panics {retries : Nat} (hretries : retryCount.toNat + retries = config.maxRetries.toNat)
    (hlimit : ¬ config.maxRetries.toNat + 1 < 2 ^ 32) (hfails : retries + 1 < firstSuccess invocations) :
    (retryLoop opType config invocations randoms retryCount delay manager).result = .panic := by
  induction retries generalizing invocations randoms retryCount delay manager with
  | zero =>
      have hsucceeds : ¬ (invocations 0).Succeeds := by
        intro hsucceeds
        rw [firstSuccess_of_succeeds hsucceeds] at hfails
        simp at hfails
      rw [retryLoop_overflow hsucceeds (by omega)]
  | succ retries ih =>
      have hsucceeds : ¬ (invocations 0).Succeeds := by
        intro hsucceeds
        rw [firstSuccess_of_succeeds hsucceeds] at hfails
        simp at hfails
      have hlt := lt_maxRetries hretries
      have hcount := toNat_succ_of_lt hlt
      rw [retryLoop_retry hsucceeds hlt]
      refine ih (by omega) ?_
      rw [firstSuccess_of_fails hsucceeds] at hfails
      simpa using hfails

end Loop

/-! ### What a call promises -/

/-- What a call of `execute_with_retry` does, by the configuration and by what comes of the invocations. -/
structure RetriesAsConfigured (opType : OperationType) (invocations : Nat → Invocation α) (manager : TimeoutManager)
    (run : Retried α) : Prop where
  invoked : (run.invoked : ℕ∞) = min (firstSuccess invocations) ((manager.configs opType).maxRetries.toNat + 1)
  result : run.result = resultOf opType invocations manager (run.invoked - 1)
  pauses : run.slept.length + 1 = run.invoked
  growing : run.slept.Pairwise (· ≤ ·)
  capped : ∀ pause ∈ run.slept, pause ≤ (manager.configs opType).maxTimeout

theorem resultOf_ne_panic (opType : OperationType) (invocations : Nat → Invocation α) (manager : TimeoutManager) (n : Nat) :
    resultOf opType invocations manager n ≠ .panic := by
  rw [resultOf]
  split <;> simp

variable {opType : OperationType} {invocations : Nat → Invocation α} {randoms : Nat → Random} {manager : TimeoutManager}

theorem zero_toNat_add (retries : Nat) : (0 : UInt32).toNat + retries = retries := by
  rw [UInt32.toNat_zero, Nat.zero_add]

theorem executeWithRetry_panics (hlimit : ¬ (manager.configs opType).maxRetries.toNat + 1 < 2 ^ 32)
    (hfails : 2 ^ 32 < firstSuccess invocations) :
    (manager.executeWithRetry opType invocations randoms).result = .panic := by
  have hmax : (manager.configs opType).maxRetries.toNat + 1 = 2 ^ 32 := by
    have hlt := (manager.configs opType).maxRetries.toNat_lt
    omega
  have hcast : ((manager.configs opType).maxRetries.toNat : ℕ∞) + 1 = 2 ^ 32 := by exact_mod_cast hmax
  rw [executeWithRetry]
  exact retryLoop_panics (zero_toNat_add _) hlimit (by rwa [hcast])

/-- A call does what is promised, unless the limit is the largest there is and as many invocations fail. -/
theorem executeWithRetry_iff (hmultiplier : 1 ≤ (manager.configs opType).backoffMultiplier)
    (hbase : (manager.configs opType).baseTimeout ≤ (manager.configs opType).maxTimeout) :
    RetriesAsConfigured opType invocations manager (manager.executeWithRetry opType invocations randoms) ↔
      (manager.configs opType).maxRetries.toNat + 1 < 2 ^ 32 ∨ firstSuccess invocations ≤ 2 ^ 32 := by
  apply Iff.intro
  · intro hrun
    by_contra hlimit
    obtain ⟨hlimit, hfails⟩ := not_or.mp hlimit
    have hpanic := @executeWithRetry_panics α opType invocations randoms manager hlimit (not_le.mp hfails)
    exact resultOf_ne_panic _ _ _ _ (hrun.result.symm.trans hpanic)
  · intro hends
    have hcount := zero_toNat_add (manager.configs opType).maxRetries.toNat
    have hloop : (manager.configs opType).maxRetries.toNat + 1 < 2 ^ 32 ∨
        firstSuccess invocations ≤ (manager.configs opType).maxRetries.toNat + 1 := by
      by_cases hlimit : (manager.configs opType).maxRetries.toNat + 1 < 2 ^ 32
      · exact Or.inl hlimit
      · have hmax : (manager.configs opType).maxRetries.toNat + 1 = 2 ^ 32 := by
          have hlt := (manager.configs opType).maxRetries.toNat_lt
          omega
        have hcast : ((manager.configs opType).maxRetries.toNat : ℕ∞) + 1 = 2 ^ 32 := by exact_mod_cast hmax
        rw [hcast]
        exact Or.inr (hends.resolve_left hlimit)
    obtain ⟨hpauses, hsorted, hcapped⟩ := @retryLoop_slept α opType (manager.configs opType) invocations randoms 0
      (manager.configs opType).baseTimeout manager _ hcount hmultiplier hbase
    exact ⟨retryLoop_invoked hcount, retryLoop_result hcount hloop, hpauses, (List.pairwise_cons.mp hsorted).2, hcapped⟩

def noJitter : Nat → Random := fun _ => ⟨0, by decide +kernel⟩

/-- The third invocation succeeds. -/
theorem network_retries :
    RetriesAsConfigured .network (fun n => if n < 2 then .failure "reset" 10 else .success n 20 0) (new fun _ => 0)
      ((new fun _ => 0).executeWithRetry .network (fun n => if n < 2 then .failure "reset" 10 else .success n 20 0)
        noJitter) :=
  (executeWithRetry_iff (by decide +kernel) (by decide +kernel)).mpr (Or.inl (by decide))

/-- With the largest limit, and an operation that always times out. -/
theorem retries_panic :
    let config := { TimeoutConfig.default with maxRetries := 4294967295 }
    let manager := (new fun _ => 0).updateConfig .network config
    let invocations : Nat → Invocation Unit := fun _ => .timeout 0
    1 ≤ (manager.configs .network).backoffMultiplier ∧
    (manager.configs .network).baseTimeout ≤ (manager.configs .network).maxTimeout ∧
    ¬ RetriesAsConfigured .network invocations manager (manager.executeWithRetry .network invocations noJitter) := by
  intro config manager invocations
  refine ⟨by decide +kernel, by decide +kernel, ?_⟩
  intro hrun
  have hnever : firstSuccess invocations = ⊤ := by
    rw [firstSuccess, dif_neg]
    simp [invocations, Invocation.Succeeds]
  have hfails : 2 ^ 32 < firstSuccess invocations := by
    rw [hnever]
    exact_mod_cast ENat.natCast_lt_top (2 ^ 32)
  have hpanic := @executeWithRetry_panics Unit .network invocations noJitter manager (by decide +kernel) hfails
  exact resultOf_ne_panic _ _ _ _ (hrun.result.symm.trans hpanic)

end TimeoutManager

end IrohRaft
