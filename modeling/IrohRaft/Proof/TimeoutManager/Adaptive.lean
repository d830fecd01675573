import IrohRaft.Library.Run
import IrohRaft.TimeoutManager
import Mathlib.Tactic.NormNum

/-!
# The adaptive timeout and its limits

An adjustment stores whole milliseconds, so it keeps the lower limit: that is a whole number itself. The upper
one caps the increase and not the decrease, which follows the average duration wherever it is.
-/

namespace IrohRaft

open Rust

namespace TimeoutManager

/-- The limits are whole milliseconds, and in order. -/
structure TimeoutConfig.WellFormed (config : TimeoutConfig) : Prop where
  minWhole : ∃ millis, config.minTimeout = fromMillis millis
  baseWhole : ∃ millis, config.baseTimeout = fromMillis millis
  maxWhole : ∃ millis, config.maxTimeout = fromMillis millis
  minPos : 0 < config.minTimeout
  minLeBase : config.minTimeout ≤ config.baseTimeout
  baseLeMax : config.baseTimeout ≤ config.maxTimeout

theorem OperationType.defaultConfig_wellFormed (opType : OperationType) : opType.defaultConfig.WellFormed := by
  cases opType <;>
    exact ⟨⟨_, rfl⟩, ⟨_, rfl⟩, ⟨_, rfl⟩, by norm_num [defaultConfig, fromMillis], by norm_num [defaultConfig, fromMillis],
      by norm_num [defaultConfig, fromMillis]⟩

def TimeoutConfig.Within (config : TimeoutConfig) (timeout : Duration) : Prop :=
  config.minTimeout ≤ timeout ∧ timeout ≤ config.maxTimeout

/-! ### What is stored -/

theorem asMillis_le (timeout : Duration) : fromMillis (asMillis timeout) ≤ timeout := Nat.floor_le zero_le

theorem toNat_stored {timeout : Duration} (h : timeout < 2 ^ 64) :
    (UInt64.ofNat (asMillis timeout)).toNat = asMillis timeout := by
  have hlt : asMillis timeout < 2 ^ 64 := by
    rw [asMillis, Nat.floor_lt zero_le]
    exact_mod_cast h
  rw [UInt64.toNat_ofNat', Nat.mod_eq_of_lt hlt]

/-- What was stored is read back, rounded down. -/
theorem getCurrentTimeout_withStats {manager : TimeoutManager} {opType : OperationType} {timeout : Duration}
    (hlt : timeout < 2 ^ 64) (hpos : 0 < asMillis timeout) :
    (manager.withStats opType (.recordAdjustment timeout)).getCurrentTimeout opType = fromMillis (asMillis timeout) := by
  have hstored := toNat_stored hlt
  have hne : UInt64.ofNat (asMillis timeout) ≠ 0 := by
    intro hzero
    rw [hzero, UInt64.toNat_zero] at hstored
    omega
  simp only [getCurrentTimeout, withStats, Function.update_self, TimeoutStats.recordAdjustment]
  rw [if_neg hne, hstored]

theorem TimeoutConfig.WellFormed.within_stored {config : TimeoutConfig} (hconfig : config.WellFormed) {timeout : Duration}
    (h : config.Within timeout) : 0 < asMillis timeout ∧ config.Within (fromMillis (asMillis timeout)) := by
  obtain ⟨least, hleast⟩ := hconfig.minWhole
  have hmin : least ≤ asMillis timeout := Nat.le_floor (hleast.symm.le.trans h.1)
  have hpos : 0 < least := by
    have hpos := hconfig.minPos
    rw [hleast] at hpos
    exact Nat.cast_pos.mp hpos
  have hlower : config.minTimeout ≤ fromMillis (asMillis timeout) := by
    rw [hleast]
    exact Nat.cast_le.mpr hmin
  exact ⟨by omega, hlower, (asMillis_le timeout).trans h.2⟩

/-! ### One adjustment -/

/-- Where the timeout is increased, the new one fits into what it is stored as; where it is decreased, three times the
average is at most the upper limit, and the new one fits. -/
structure Adjustable (config : TimeoutConfig) (stats : TimeoutStats) (currentTimeout : Duration) : Prop where
  increase : stats.getTimeoutRate > 1 / 10 → min (currentTimeout * (3 / 2)) config.maxTimeout < 2 ^ 64
  decrease : stats.getTimeoutRate < 1 / 50 → asMillis stats.getAvgDuration > 0 →
    stats.getAvgDuration * 3 ≤ config.maxTimeout ∧
    max (max (stats.getAvgDuration * 3) (currentTimeout * (4 / 5))) config.minTimeout < 2 ^ 64

theorem newTimeout_within {config : TimeoutConfig} {stats : TimeoutStats} {currentTimeout : Duration}
    (hcurrent : config.Within currentTimeout) (hadjustable : Adjustable config stats currentTimeout) :
    newTimeout config stats currentTimeout = currentTimeout ∨
      config.Within (newTimeout config stats currentTimeout) ∧ newTimeout config stats currentTimeout < 2 ^ 64 := by
  have hlimits : config.minTimeout ≤ config.maxTimeout := hcurrent.1.trans hcurrent.2
  rw [newTimeout]
  split_ifs with hhigh hlow
  · refine Or.inr ⟨⟨le_min (hcurrent.1.trans ?_) hlimits, min_le_right _ _⟩, hadjustable.increase hhigh⟩
    exact le_mul_of_one_le_right zero_le (by decide +kernel)
  · obtain ⟨htarget, hfits⟩ := hadjustable.decrease hlow.1 hlow.2
    refine Or.inr ⟨⟨le_max_right _ _, max_le (max_le htarget ?_) hlimits⟩, hfits⟩
    exact (mul_le_of_le_one_right zero_le (by decide +kernel)).trans hcurrent.2
  · exact Or.inl rfl

theorem adjustTimeoutIfNeeded_configs (opType : OperationType) (now : Instant) (manager : TimeoutManager) :
    (manager.adjustTimeoutIfNeeded opType now).configs = manager.configs := by
  simp only [adjustTimeoutIfNeeded]
  split_ifs <;> simp [withStats]

theorem getCurrentTimeout_lastAdjustment (manager : TimeoutManager) (last : OperationType → Instant) (opType : OperationType) :
    getCurrentTimeout { manager with lastAdjustment := last } opType = manager.getCurrentTimeout opType := by
  simp [getCurrentTimeout]

theorem getCurrentTimeout_withStats_of_ne {manager : TimeoutManager} {opType changed : OperationType} (hne : opType ≠ changed)
    (change : TimeoutStats → TimeoutStats) :
    (manager.withStats changed change).getCurrentTimeout opType = manager.getCurrentTimeout opType := by
  simp [getCurrentTimeout, withStats, Function.update_of_ne hne]

/-- Only an adjustment changes the timeout. -/
theorem getCurrentTimeout_withStats_of_eq {manager : TimeoutManager} {changed : OperationType}
    {change : TimeoutStats → TimeoutStats} (hchange : ∀ stats, (change stats).currentTimeoutMs = stats.currentTimeoutMs)
    (opType : OperationType) :
    (manager.withStats changed change).getCurrentTimeout opType = manager.getCurrentTimeout opType := by
  by_cases heq : opType = changed
  · simp [heq, getCurrentTimeout, withStats, hchange]
  · exact getCurrentTimeout_withStats_of_ne heq change

theorem getCurrentTimeout_adjust_of_ne {manager : TimeoutManager} {opType changed : OperationType} (hne : opType ≠ changed)
    (now : Instant) :
    (manager.adjustTimeoutIfNeeded changed now).getCurrentTimeout opType = manager.getCurrentTimeout opType := by
  simp only [adjustTimeoutIfNeeded]
  split_ifs
  · simp only
  · rw [getCurrentTimeout_lastAdjustment, getCurrentTimeout_withStats_of_ne hne]
  · simp only

/-- Whether it is time to adjust the timeout again. -/
def Due (manager : TimeoutManager) (opType : OperationType) (now : Instant) : Prop :=
  adjustmentInterval ≤ now.durationSince (manager.lastAdjustment opType)

/-- The timeout after an adjustment that is due and stores something. -/
theorem getCurrentTimeout_adjust {manager : TimeoutManager} {opType : OperationType} {now : Instant} {timeout : Duration}
    (hdue : manager.Due opType now)
    (htimeout : newTimeout (manager.configs opType) (manager.stats opType) (manager.getCurrentTimeout opType) = timeout)
    (hne : timeout ≠ manager.getCurrentTimeout opType) (hlt : timeout < 2 ^ 64) (hpos : 0 < asMillis timeout) :
    (manager.adjustTimeoutIfNeeded opType now).getCurrentTimeout opType = fromMillis (asMillis timeout) := by
  simp only [adjustTimeoutIfNeeded]
  rw [if_neg (not_lt.mpr hdue), htimeout, if_pos hne, getCurrentTimeout_lastAdjustment]
  exact getCurrentTimeout_withStats hlt hpos

theorem within_adjust {manager : TimeoutManager} {opType : OperationType} {now : Instant}
    (hconfig : (manager.configs opType).WellFormed)
    (hcurrent : (manager.configs opType).Within (manager.getCurrentTimeout opType))
    (hadjustable : manager.Due opType now →
      Adjustable (manager.configs opType) (manager.stats opType) (manager.getCurrentTimeout opType)) :
    (manager.configs opType).Within ((manager.adjustTimeoutIfNeeded opType now).getCurrentTimeout opType) := by
  by_cases hdue : manager.Due opType now
  · by_cases hsame :
        newTimeout (manager.configs opType) (manager.stats opType) (manager.getCurrentTimeout opType) =
          manager.getCurrentTimeout opType
    · rw [adjustTimeoutIfNeeded, if_neg (not_lt.mpr hdue)]
      simpa [hsame] using hcurrent
    · have hnew := (newTimeout_within hcurrent (hadjustable hdue)).resolve_left hsame
      obtain ⟨hpos, hstored⟩ := hconfig.within_stored hnew.1
      rw [getCurrentTimeout_adjust hdue rfl hsame hnew.2 hpos]
      exact hstored
  · rw [adjustTimeoutIfNeeded, if_pos (not_le.mp hdue)]
    exact hcurrent

theorem exists_getAvgDuration (stats : TimeoutStats) : ∃ millis, stats.getAvgDuration = fromMillis millis := by
  rw [TimeoutStats.getAvgDuration]
  split_ifs
  · exact ⟨0, rfl⟩
  · exact ⟨_, rfl⟩

/-- A decrease to three times the average. -/
theorem newTimeout_of_low {config : TimeoutConfig} {stats : TimeoutStats} {currentTimeout : Duration}
    (hcurrent : config.Within currentTimeout) (hlow : stats.getTimeoutRate < 1 / 50)
    (hover : config.maxTimeout < stats.getAvgDuration * 3) :
    newTimeout config stats currentTimeout = stats.getAvgDuration * 3 := by
  obtain ⟨average, haverage⟩ := exists_getAvgDuration stats
  have hhigh : ¬ stats.getTimeoutRate > 1 / 10 := by
    have hle : (1 / 50 : ℚ≥0) ≤ 1 / 10 := by decide +kernel
    exact not_lt.mpr (hlow.le.trans hle)
  have hpos : asMillis stats.getAvgDuration > 0 := by
    rw [haverage, fromMillis] at hover ⊢
    rw [asMillis, Nat.floor_natCast]
    by_contra hzero
    simp [Nat.eq_zero_of_not_pos hzero] at hover
  have hdecreased : currentTimeout * (4 / 5) ≤ stats.getAvgDuration * 3 :=
    (mul_le_of_le_one_right zero_le (by decide +kernel)).trans (hcurrent.2.trans hover.le)
  have hmin : config.minTimeout ≤ stats.getAvgDuration * 3 := (hcurrent.1.trans hcurrent.2).trans hover.le
  rw [newTimeout, if_neg hhigh, if_pos ⟨hlow, hpos⟩, max_eq_left hdecreased, max_eq_left hmin]

/-- A decrease goes over the upper limit where three times the average does. -/
theorem not_within_adjust {manager : TimeoutManager} {opType : OperationType} {now : Instant}
    (hcurrent : (manager.configs opType).Within (manager.getCurrentTimeout opType)) (hdue : manager.Due opType now)
    (hlow : (manager.stats opType).getTimeoutRate < 1 / 50)
    (hover : (manager.configs opType).maxTimeout < (manager.stats opType).getAvgDuration * 3)
    (hfits : (manager.stats opType).getAvgDuration * 3 < 2 ^ 64) :
    ¬ (manager.configs opType).Within ((manager.adjustTimeoutIfNeeded opType now).getCurrentTimeout opType) := by
  have htimeout := newTimeout_of_low hcurrent hlow hover
  obtain ⟨average, haverage⟩ := exists_getAvgDuration (manager.stats opType)
  have hwhole : (manager.stats opType).getAvgDuration * 3 = fromMillis (average * 3) := by
    rw [haverage, fromMillis, fromMillis, Nat.cast_mul, Nat.cast_ofNat]
  have hstored : asMillis (fromMillis (average * 3)) = average * 3 := Nat.floor_natCast _
  rw [hwhole] at hover hfits htimeout
  have hpos : 0 < asMillis (fromMillis (average * 3)) := by
    by_contra hzero
    rw [hstored] at hzero
    simp [Nat.eq_zero_of_not_pos hzero, fromMillis] at hover
  have hne : fromMillis (average * 3) ≠ manager.getCurrentTimeout opType := (hcurrent.2.trans_lt hover).ne'
  rw [getCurrentTimeout_adjust hdue htimeout hne hfits hpos, hstored]
  intro hwithin
  exact absurd hwithin.2 (not_le.mpr hover)

/-! ### Runs -/

/-- The configurations given after `new` and before the first operation. -/
def configure (updates : List (OperationType × TimeoutConfig)) (manager : TimeoutManager) : TimeoutManager :=
  updates.foldl (fun manager update => manager.updateConfig update.1 update.2) manager

theorem configure_stats (updates : List (OperationType × TimeoutConfig)) (manager : TimeoutManager) :
    (configure updates manager).stats = manager.stats := by
  induction updates generalizing manager with
  | nil => rfl
  | cons update rest ih => exact ih _

theorem getCurrentTimeout_configure (updates : List (OperationType × TimeoutConfig)) (now : OperationType → Instant)
    (opType : OperationType) :
    (configure updates (new now)).getCurrentTimeout opType = ((configure updates (new now)).configs opType).baseTimeout := by
  rw [getCurrentTimeout, configure_stats]
  exact if_pos rfl

/-- An adjustment of this timeout is one that keeps to the limits. -/
def Op.KeepsLimits (opType : OperationType) (manager : TimeoutManager) : Op → Prop
  | .adjust changed now =>
      changed = opType → manager.Due opType now →
        Adjustable (manager.configs opType) (manager.stats opType) (manager.getCurrentTimeout opType)
  | _ => True

theorem step_configs (manager : TimeoutManager) (op : Op) : (step manager op).configs = manager.configs := by
  cases op with
  | recordSuccess opType duration => simp [step, withStats]
  | recordTimeout opType => simp [step, withStats]
  | adjust opType now => exact adjustTimeoutIfNeeded_configs opType now manager

theorem within_step {manager : TimeoutManager} {opType : OperationType} {op : Op}
    (hconfig : (manager.configs opType).WellFormed)
    (hcurrent : (manager.configs opType).Within (manager.getCurrentTimeout opType)) (hkeeps : op.KeepsLimits opType manager) :
    (manager.configs opType).Within ((step manager op).getCurrentTimeout opType) := by
  cases op with
  | recordSuccess changed duration =>
      rw [step, getCurrentTimeout_withStats_of_eq (fun stats => by simp [TimeoutStats.recordSuccess])]
      exact hcurrent
  | recordTimeout changed =>
      rw [step, getCurrentTimeout_withStats_of_eq (fun stats => by simp [TimeoutStats.recordTimeout])]
      exact hcurrent
  | adjust changed now =>
      by_cases heq : changed = opType
      · subst heq
        exact within_adjust hconfig hcurrent (hkeeps rfl)
      · rw [step, getCurrentTimeout_adjust_of_ne (Ne.symm heq)]
        exact hcurrent

/-- The operations a call of `execute_with_timeout` performs. -/
def Invocation.ops {α : Type} (opType : OperationType) (enableAdaptive : Bool) : Invocation α → List Op
  | .success _ duration now => .recordSuccess opType duration :: if enableAdaptive then [.adjust opType now] else []
  | .failure _ duration => [.recordSuccess opType duration]
  | .timeout now => .recordTimeout opType :: if enableAdaptive then [.adjust opType now] else []

theorem executeWithTimeout_manager {α : Type} (opType : OperationType) (invocation : Invocation α) (manager : TimeoutManager) :
    (manager.executeWithTimeout opType invocation).2 =
      Run.final step manager (invocation.ops opType (manager.configs opType).enableAdaptive) := by
  cases hadaptive : (manager.configs opType).enableAdaptive <;> cases invocation <;>
    simp [executeWithTimeout, Invocation.ops, adjustIfAdaptive, withStats, step, hadaptive]

/-- From `new` on, with any configurations, the timeout stays within its limits in every run whose adjustments keep to
them. -/
theorem currentTimeout_within {updates : List (OperationType × TimeoutConfig)} {now : OperationType → Instant}
    {opType : OperationType} {ops : List Op} (hconfig : ((configure updates (new now)).configs opType).WellFormed)
    (hkeeps : Run.Follows step (Op.KeepsLimits opType) (configure updates (new now)) ops) :
    ((configure updates (new now)).configs opType).Within
      ((Run.final step (configure updates (new now)) ops).getCurrentTimeout opType) := by
  have hinvariant := hkeeps.invariant
    (fun manager => manager.configs = (configure updates (new now)).configs ∧
      (manager.configs opType).Within (manager.getCurrentTimeout opType)) ?_ ?_
  · exact hinvariant.1 ▸ hinvariant.2
  · intro manager op hholds hallowed
    have hstep := within_step (hholds.1 ▸ hconfig) hholds.2 hallowed
    rw [step_configs]
    exact ⟨hholds.1, hstep⟩
  · rw [getCurrentTimeout_configure]
    exact ⟨rfl, hconfig.minLeBase, hconfig.baseLeMax⟩

theorem raftMessage_within :
    ((configure [] (new fun _ => 0)).configs .raftMessage).Within
      ((Run.final step (configure [] (new fun _ => 0))
        [.recordSuccess .raftMessage 200, .adjust .raftMessage 30000000000]).getCurrentTimeout .raftMessage) := by
  refine currentTimeout_within (OperationType.defaultConfig_wellFormed .raftMessage) ⟨trivial, ?_, trivial⟩
  intro _ _
  exact ⟨by decide +kernel, by decide +kernel⟩

/-- One success of 800 milliseconds under a limit of 1500 raises the timeout to 2400. -/
theorem currentTimeout_over_limit :
    let config := { TimeoutConfig.default with maxTimeout := fromMillis 1500 }
    let start := configure [(.storage, config)] (new fun _ => 0)
    (start.configs .storage).WellFormed ∧
    ¬ (start.configs .storage).Within
      ((Run.final step start
        [.recordSuccess .storage (fromMillis 800), .adjust .storage 30000000000]).getCurrentTimeout .storage) := by
  intro config start
  refine ⟨⟨⟨100, rfl⟩, ⟨1000, rfl⟩, ⟨1500, rfl⟩, by decide +kernel, by decide +kernel, by decide +kernel⟩, ?_⟩
  rw [Run.final_cons, Run.final_cons, Run.final_nil, ← step_configs start (.recordSuccess .storage (fromMillis 800))]
  generalize hsuccess : step start (.recordSuccess .storage (fromMillis 800)) = succeeded
  rw [step]
  apply not_within_adjust <;> subst hsuccess
  · exact ⟨by decide +kernel, by decide +kernel⟩
  · rw [Due]
    decide +kernel
  · decide +kernel
  · decide +kernel
  · decide +kernel

end TimeoutManager

end IrohRaft
