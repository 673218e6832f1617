import VmFleet.Library.Text

/-!
# Names

`naming.rs` and `slot_from_unit` of `supervisor.rs`: the names of the VMs and units the fleet
creates, and how a slot number is read back from them.
-/

namespace VmFleet

def vmPrefix : String := "vmfleet-"

def workerUnitGlob : String := "vmfleet-worker-*.service"

def supervisorUnit : String := "vmfleet-supervisor.service"

def gcService : String := "vmfleet-gc.service"

def gcTimer : String := "vmfleet-gc.timer"

/-- `vmfleet-<pool>-`, the text before the slot number in a VM name. -/
def vmHead (pool : String) : String := vmPrefix ++ pool ++ "-"

/-- VM instance name: `vmfleet-<pool>-<slot>-<ts>-<pid>`. -/
def vmName (pool : String) (slot : Nat) (ts : UInt64) (pid : UInt32) : String :=
  vmPrefix ++ pool ++ "-" ++ toString slot ++ "-" ++ toString ts.toNat ++ "-" ++ toString pid.toNat

def slotVmPrefix (pool : String) (slot : Nat) : String :=
  vmPrefix ++ pool ++ "-" ++ toString slot ++ "-"

def workerUnit (slot : Nat) : String := "vmfleet-worker-" ++ toString slot ++ ".service"

def slotOfVm (pool vm : String) : Option Nat := do
  let rest ← Text.stripPrefix vm (vmHead pool)
  Text.parseU32 (Text.firstField '-' rest)

def slotFromUnit (unit : String) : Option Nat := do
  let rest ← Text.stripPrefix unit "vmfleet-worker-"
  let slot ← Text.stripSuffix rest ".service"
  Text.parseU32 slot

end VmFleet
