import VmFleet.Source.Deadlines
import VmFleet.Proof.Pass
import VmFleet.Proof.ConfigText

/-!
# Where the arithmetic is exact

No check in `validate` bounds a time or an amount of memory, so the products, the sums of a reading of the
clock and a timeout, and the cast of the headroom are exact up to the limits of their types and not beyond.
`WithinLimits` is what that comes to for one config, reading of the clock and reading of the memory.
-/

namespace VmFleet

theorem mul_toNat_eq_iff {a b : UInt64} :
    (a * b).toNat = a.toNat * b.toNat ↔ a.toNat * b.toNat < 2 ^ 64 := by
  rw [UInt64.toNat_mul]
  exact ⟨fun h => h ▸ Nat.mod_lt _ (by decide), Nat.mod_eq_of_lt⟩

theorem addDuration_isSome_iff {now : Instant} {duration : Nat} :
    (addDuration now duration).isSome = true ↔ now + duration < 2 ^ 63 * 1000000000 := by
  rw [addDuration]
  by_cases h : now + duration < 2 ^ 63 * 1000000000
  · rw [if_pos h, Option.isSome_some]
    exact ⟨fun _ => h, fun _ => rfl⟩
  · rw [if_neg h, Option.isSome_none]
    exact ⟨fun hsome => absurd hsome (by simp), fun hlt => absurd hlt h⟩

/-- A deadline for a product of seconds is right exactly when it can be represented without wrapping. -/
theorem exact_deadline_iff (a b : UInt64) (now : Instant) :
    ((a * b).toNat = a.toNat * b.toNat ∧ (addDuration now (fromSecs (a * b))).isSome = true) ↔
      now + a.toNat * b.toNat * 1000000000 < 2 ^ 63 * 1000000000 := by
  rw [addDuration_isSome_iff, fromSecs]
  refine ⟨fun h => ?_, fun h => ?_⟩
  · rw [← h.1]
    exact h.2
  · have hlt : a.toNat * b.toNat < 2 ^ 64 := by
      have hproduct : a.toNat * b.toNat * 1000000000 < 2 ^ 63 * 1000000000 :=
        (Nat.le_add_left _ _).trans_lt h
      omega
    have hexact := mul_toNat_eq_iff.mpr hlt
    rw [hexact]
    exact ⟨rfl, h⟩

theorem headroomVms_exact_iff {avail minAvail reserve : UInt64} :
    (headroomVms avail minAvail reserve).toNat = (avail.toNat - minAvail.toNat) / max reserve.toNat 1 ↔
      avail.toNat - minAvail.toNat < 2 ^ 32 * max reserve.toNat 1 := by
  rw [headroomVms_toNat, ← Nat.div_lt_iff_lt_mul (by omega)]
  exact ⟨fun h => h ▸ Nat.mod_lt _ (by decide), Nat.mod_eq_of_lt⟩

/-- Below a reading whose headroom is exact, less memory gives no more headroom. -/
theorem headroomVms_le_of_le {avail lower minAvail reserve : UInt64}
    (hexact : (headroomVms avail minAvail reserve).toNat =
      (avail.toNat - minAvail.toNat) / max reserve.toNat 1) (hle : lower ≤ avail) :
    headroomVms lower minAvail reserve ≤ headroomVms avail minAvail reserve := by
  rw [UInt32.le_iff_toNat_le, hexact]
  refine (headroomVms_toNat_le lower minAvail reserve).trans (Nat.div_le_div_right ?_)
  exact Nat.sub_le_sub_right (UInt64.le_iff_toNat_le.mp hle) _

/-- The arithmetic on times and memory gives what it gives on numbers without bounds. -/
structure ExactArithmetic (cfg : Config) (now : Instant) (meminfo : Option String) : Prop where
  lockWait : (lockWait cfg.admission).toNat = max cfg.admission.lockWaitSeconds.toNat 1 * 20
  interval : updateInterval cfg = max cfg.supervisor.updateCheckIntervalHours.toNat 1 * 3600 * 1000000000
  acquire : (acquireDeadline cfg.admission now).isSome = true
  waitCloudInit : (waitCloudInitDeadline cfg.worker now).isSome = true
  waitRegistration : (waitRegistrationDeadline cfg.worker now).isSome = true
  config : (configDeadline cfg.worker now).isSome = true
  headroom : (headroomVms (memAvailableMib meminfo) cfg.admission.minAvailMib
      cfg.supervisor.busyReserveMib).toNat =
    ((memAvailableMib meminfo).toNat - cfg.admission.minAvailMib.toNat) /
      max cfg.supervisor.busyReserveMib.toNat 1
  rises : ∀ lower ≤ memAvailableMib meminfo,
    headroomVms lower cfg.admission.minAvailMib cfg.supervisor.busyReserveMib ≤
      headroomVms (memAvailableMib meminfo) cfg.admission.minAvailMib cfg.supervisor.busyReserveMib

/-- The waits end before second `2 ^ 63` of the clock, the interval is below `2 ^ 64` seconds, and there is
memory for less than `2 ^ 32` VMs. -/
structure WithinLimits (cfg : Config) (now : Instant) (meminfo : Option String) : Prop where
  lockWait : now + max cfg.admission.lockWaitSeconds.toNat 1 * 20 * 1000000000 < 2 ^ 63 * 1000000000
  interval : max cfg.supervisor.updateCheckIntervalHours.toNat 1 * 3600 < 2 ^ 64
  cloudInit : now + cfg.worker.cloudInitTimeoutSeconds.toNat * 1000000000 < 2 ^ 63 * 1000000000
  registration : now + cfg.worker.registrationTimeoutSeconds.toNat * 1000000000 < 2 ^ 63 * 1000000000
  config : now + cfg.worker.configTimeoutSeconds.toNat * 1000000000 < 2 ^ 63 * 1000000000
  memory : (memAvailableMib meminfo).toNat - cfg.admission.minAvailMib.toNat <
    2 ^ 32 * max cfg.supervisor.busyReserveMib.toNat 1

theorem updateInterval_exact_iff {cfg : Config} :
    updateInterval cfg = max cfg.supervisor.updateCheckIntervalHours.toNat 1 * 3600 * 1000000000 ↔
      max cfg.supervisor.updateCheckIntervalHours.toNat 1 * 3600 < 2 ^ 64 := by
  have hproduct := mul_toNat_eq_iff (a := max cfg.supervisor.updateCheckIntervalHours 1) (b := 3600)
  rw [toNat_max_one, show (3600 : UInt64).toNat = 3600 from rfl] at hproduct
  rw [updateInterval, fromSecs, Nat.mul_left_inj (by decide)]
  exact hproduct

theorem lockWait_exact_iff {cfg : Admission} {now : Instant} :
    ((lockWait cfg).toNat = max cfg.lockWaitSeconds.toNat 1 * 20 ∧
      (acquireDeadline cfg now).isSome = true) ↔
      now + max cfg.lockWaitSeconds.toNat 1 * 20 * 1000000000 < 2 ^ 63 * 1000000000 := by
  have hdeadline := exact_deadline_iff (max cfg.lockWaitSeconds 1) 20 now
  rw [toNat_max_one, show (20 : UInt64).toNat = 20 from rfl] at hdeadline
  exact hdeadline

/-- **Exactly within these limits is the arithmetic exact.** -/
theorem exactArithmetic_iff (cfg : Config) (now : Instant) (meminfo : Option String) :
    ExactArithmetic cfg now meminfo ↔ WithinLimits cfg now meminfo := by
  refine ⟨fun h => ?_, fun h => ?_⟩
  · exact {
      lockWait := lockWait_exact_iff.mp ⟨h.lockWait, h.acquire⟩
      interval := updateInterval_exact_iff.mp h.interval
      cloudInit := addDuration_isSome_iff.mp h.waitCloudInit
      registration := addDuration_isSome_iff.mp h.waitRegistration
      config := addDuration_isSome_iff.mp h.config
      memory := headroomVms_exact_iff.mp h.headroom }
  · have hlock := lockWait_exact_iff.mpr h.lockWait
    have hheadroom := headroomVms_exact_iff.mpr h.memory
    exact {
      lockWait := hlock.1
      interval := updateInterval_exact_iff.mpr h.interval
      acquire := hlock.2
      waitCloudInit := addDuration_isSome_iff.mpr h.cloudInit
      waitRegistration := addDuration_isSome_iff.mpr h.registration
      config := addDuration_isSome_iff.mpr h.config
      headroom := hheadroom
      rises := fun _ hle => headroomVms_le_of_le hheadroom hle }

/-- Twenty times this many seconds are four more than a `u64` holds. -/
def longWaitToml : Toml F64 :=
  .table [
    ("github", .table [("repo", .text "acme/app"), ("token_file", .text "/etc/vmfleet/token")]),
    ("admission", .table [("lock_wait_seconds", .integer 922337203685477581)]),
    ("base", .array [.table [("image", .text "24.04")]]),
    ("pool", .array [.table [
      ("name", .text "ci"), ("labels", .array [.text "linux"]), ("cpus", .integer 2), ("memory", .text "4G"),
      ("min_warm", .integer 2), ("max", .integer 4), ("slot_base", .integer 100)]])]

def longWaitConfig : Config :=
  { configWith [smallPool] with admission := { lockWaitSeconds := 922337203685477581 } }

/-- The lock is given up after four seconds. -/
theorem longWait_wraps :
    Config.fromToml longWaitToml = some longWaitConfig ∧ longWaitConfig.validate = .ok () ∧
      lockWait longWaitConfig.admission = 4 ∧
      ¬ ExactArithmetic longWaitConfig 0 (some "MemAvailable:   13480960 kB\n") := by
  have hwait : lockWait longWaitConfig.admission = 4 := by decide
  refine ⟨by decide +kernel, by decide, hwait, fun h => ?_⟩
  have hexact := h.lockWait
  rw [hwait] at hexact
  exact absurd hexact (by decide)

end VmFleet
