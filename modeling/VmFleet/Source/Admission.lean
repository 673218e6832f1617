import VmFleet.Source.Config

/-!
# The admission gate

The decision of `admission.rs` on one reading of the host's resources.
-/

namespace VmFleet

/-- One reading of `/proc/meminfo`, `/proc/pressure/memory` and the vault file system. -/
structure Resources where
  availMib : UInt64
  psi : F64
  /-- `disk_free_gib`, an error when `statvfs` fails. -/
  disk : Except String UInt64

/-- The free disk space, taken as unlimited when it cannot be read. -/
def Resources.diskGib (r : Resources) : UInt64 :=
  match r.disk with
  | .ok free => free
  | .error _ => 0xffffffffffffffff

inductive Block where
  | lowMem (avail : UInt64)
  | highPsi (psi : F64)
  | lowDisk (free : UInt64)
  deriving DecidableEq

def decideBlock (availMib : UInt64) (psi : F64) (diskGib : UInt64) (cfg : Admission) : Option Block :=
  if availMib < cfg.minAvailMib then some (.lowMem availMib)
  else if psi.ge cfg.psiMax then some (.highPsi psi)
  else if diskGib < cfg.minDiskGib then some (.lowDisk diskGib)
  else none

def gateBlocked (cfg : Admission) (r : Resources) : Option Block :=
  decideBlock r.availMib r.psi r.diskGib cfg

end VmFleet
