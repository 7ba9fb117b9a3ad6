import Mspsql.Agent.SqlDirectives

/-!
# Limits in the units that PostgreSQL and pgBackRest read

A specification has its timeouts in nanoseconds, its limit of temporary files in bytes and the
retention of its backups as a duration, all of 64 bits; the scripts and the configuration have
milliseconds, kilobytes and days.
-/

namespace Mspsql

def day : Duration := 86400 * second

/-- The retention that `backupCoordinatorConfig` writes. -/
def retentionDays (retention : Duration) : Int :=
  if 0 < retention then (wrap64 (retention + day - 1)).tdiv day else 7

def RoleQuotas.timeouts (quotas : RoleQuotas) : List Duration :=
  quotas.statementTimeout.toList ++ quotas.lockTimeout.toList ++
    quotas.idleInTransactionSessionTimeout.toList

/-- What is positive is rendered as the least number of units that covers it, and a timeout at
least as a positive one: PostgreSQL takes zero for no limit. -/
structure Conservative (quotas : RoleQuotas) (retention : Duration) : Prop where
  timeouts : ∀ timeout ∈ quotas.timeouts, 0 < timeout → 0 < milliseconds timeout
  tempFileLimit : ∀ limit ∈ quotas.tempFileLimit, 0 < limit →
    IsLeast {count : Int | limit ≤ 1024 * count} (kilobytes limit)
  retention : 0 < retention →
    IsLeast {count : Int | retention ≤ day * count} (retentionDays retention)

theorem wrap64_of_lt {value : Int} (h0 : 0 ≤ value) (h : value < 2 ^ 63) :
    wrap64 value = value := by
  rw [wrap64, Int.bmod_eq_of_le] <;> omega

theorem wrap64_of_ge {value : Int} (h0 : 2 ^ 63 ≤ value) (h : value < 2 ^ 64) :
    wrap64 value = value - 2 ^ 64 := by
  rw [wrap64, Int.bmod_def]
  omega

/-- A value is rounded up to a unit unless the sum overflows. -/
theorem roundedUp_iff {unit value : Int} (hunit : 0 < unit) (hsmall : unit < 2 ^ 63)
    (hvalue : 0 < value) (hrange : value < 2 ^ 63) :
    IsLeast {count : Int | value ≤ unit * count} ((wrap64 (value + (unit - 1))).tdiv unit) ↔
      value ≤ 2 ^ 63 - unit := by
  constructor
  · intro h
    by_contra hlarge
    rw [wrap64_of_ge (by omega) (by omega)] at h
    have hneg : (value + (unit - 1) - 2 ^ 64).tdiv unit ≤ 0 := by
      have := Int.tdiv_nonneg (a := -(value + (unit - 1) - 2 ^ 64)) (b := unit)
        (by omega) (by omega)
      rw [Int.neg_tdiv] at this
      omega
    have hcovered : value ≤ unit * _ := h.1
    have := Int.mul_nonpos_of_nonneg_of_nonpos hunit.le hneg
    omega
  · intro hsum
    rw [wrap64_of_lt (by omega) (by omega), Int.tdiv_eq_ediv_of_nonneg (by omega)]
    refine ⟨?_, fun count hcount => ?_⟩
    · have := Int.lt_ediv_add_one_mul_self (value + (unit - 1)) hunit
      rw [Int.add_mul, Int.mul_comm] at this
      show value ≤ _
      omega
    · have hcount' : value ≤ unit * count := hcount
      refine Int.lt_add_one_iff.mp ((Int.ediv_lt_iff_lt_mul hunit).mpr ?_)
      rw [Int.add_mul, Int.mul_comm]
      omega

theorem milliseconds_pos_iff {duration : Duration} (h : 0 < duration) :
    0 < milliseconds duration ↔ 1000000 ≤ duration := by
  have hdiv : milliseconds duration = duration / 1000000 := Int.tdiv_eq_ediv_of_nonneg h.le
  unfold Duration at *
  omega

theorem kilobytes_iff {limit : Int} (h : 0 < limit) (hrange : limit < 2 ^ 63) :
    IsLeast {count : Int | limit ≤ 1024 * count} (kilobytes limit) ↔ limit ≤ 2 ^ 63 - 1024 :=
  roundedUp_iff (by decide) (by decide) h hrange

theorem retentionDays_iff {retention : Duration} (h : 0 < retention) (hrange : retention < 2 ^ 63) :
    IsLeast {count : Int | retention ≤ day * count} (retentionDays retention) ↔
      retention ≤ 2 ^ 63 - day := by
  rw [retentionDays, if_pos h, Int.add_sub_assoc]
  exact roundedUp_iff (by decide) (by decide) h hrange

/-- What is rendered covers what is specified exactly if no positive timeout is below a
millisecond and neither sum overflows. -/
theorem conservative_iff (quotas : RoleQuotas) {retention : Duration}
    (hlimit : ∀ limit ∈ quotas.tempFileLimit, limit < 2 ^ 63) (hretention : retention < 2 ^ 63) :
    Conservative quotas retention ↔ (∀ timeout ∈ quotas.timeouts, 0 < timeout → 1000000 ≤ timeout) ∧
      (∀ limit ∈ quotas.tempFileLimit, 0 < limit → limit ≤ 2 ^ 63 - 1024) ∧
      (0 < retention → retention ≤ 2 ^ 63 - day) := by
  constructor
  · intro h
    refine ⟨fun timeout hmem hpos => ?_, fun limit hmem hpos => ?_, fun hpos => ?_⟩
    · exact (milliseconds_pos_iff hpos).mp (h.timeouts timeout hmem hpos)
    · exact (kilobytes_iff hpos (hlimit limit hmem)).mp (h.tempFileLimit limit hmem hpos)
    · exact (retentionDays_iff hpos hretention).mp (h.retention hpos)
  · rintro ⟨htimeouts, hsum, hdays⟩
    refine ⟨fun timeout hmem hpos => ?_, fun limit hmem hpos => ?_, fun hpos => ?_⟩
    · exact (milliseconds_pos_iff hpos).mpr (htimeouts timeout hmem hpos)
    · exact (kilobytes_iff hpos (hlimit limit hmem)).mpr (hsum limit hmem hpos)
    · exact (retentionDays_iff hpos hretention).mpr (hdays hpos)

theorem conservative_week : kilobytes 5000 = 5 ∧
      Conservative { statementTimeout := some (30 * second), tempFileLimit := some 5000 }
        (7 * day) := by
  refine ⟨by decide, (conservative_iff _ ?_ (by decide)).mpr ?_⟩
  · decide
  · refine ⟨by decide, ?_, by decide⟩
    decide

/-- A lock timeout of half a millisecond is rendered as none. -/
theorem submillisecond_unlimited : appendQuotas "ROLE \"app\"" { lockTimeout := some 500000 } =
      [.statement "ALTER ROLE \"app\" SET lock_timeout = '0ms'"] ∧
    ¬ Conservative { lockTimeout := some 500000 } 0 := by
  refine ⟨by decide, fun h => ?_⟩
  exact absurd (h.timeouts 500000 (by decide) (by decide)) (by decide)

end Mspsql
