import VmFleet.Source.Supervisor

/-!
# Deadlines and memory readings

How long `admission.rs`, `worker.rs` and `cmd.rs` wait, and what `resources.rs` makes of `/proc/meminfo`.
A product of two `u64` wraps as it does in the release profile.
-/

namespace VmFleet

/-- `Instant + Duration`. It panics where the seconds do not fit in an `i64`. -/
def addDuration (now : Instant) (duration : Nat) : Option Instant :=
  if now + duration < 2 ^ 63 * 1000000000 then some (now + duration) else none

/-- How many seconds `Gate::acquire` waits for the lock. -/
def lockWait (cfg : Admission) : UInt64 := max cfg.lockWaitSeconds 1 * 20

def acquireDeadline (cfg : Admission) (now : Instant) : Option Instant :=
  addDuration now (fromSecs (lockWait cfg))

def waitCloudInitDeadline (cfg : Worker) (now : Instant) : Option Instant :=
  addDuration now (fromSecs cfg.cloudInitTimeoutSeconds)

def waitRegistrationDeadline (cfg : Worker) (now : Instant) : Option Instant :=
  addDuration now (fromSecs cfg.registrationTimeoutSeconds)

/-- The deadline of `SystemRunner::run` for a command that may take `config_timeout_seconds`. -/
def configDeadline (cfg : Worker) (now : Instant) : Option Instant :=
  addDuration now (fromSecs cfg.configTimeoutSeconds)

def parseMemAvailableKib (meminfo : String) : Option Nat := do
  let rest ← (Text.lines meminfo).findSome? (Text.stripPrefix · "MemAvailable:")
  Text.parseU64 (← Text.firstWord rest)

/-- Available memory where `/proc/meminfo` holds `meminfo`, if it can be read. -/
def memAvailableMib (meminfo : Option String) : UInt64 :=
  match meminfo.bind parseMemAvailableKib with
  | some kib => UInt64.ofNat (kib / 1024)
  | none => 0

end VmFleet
