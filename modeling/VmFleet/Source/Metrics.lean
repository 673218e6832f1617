import VmFleet.Library.Publication
import VmFleet.Source.SelfUpdate
import VmFleet.Source.Supervisor

/-!
# What the supervisor publishes

`write_status` and `write_metrics` of `supervisor.rs`: the text of each file, its name in the state
directory and the name it is drafted under. How an `f64` prints and the JSON of a report are inputs.
-/

namespace VmFleet

def statusFile : String := "status.json"

def metricsFile : String := "vmfleet.prom"

def publishedFiles : Publication.Layout String where
  final := [statusFile, metricsFile]
  temp n := withExtension n "tmp"
  temp_not_final := by decide +kernel

/-- `bool as u8`. -/
def bit (b : Bool) : String := if b then "1" else "0"

def poolMetrics (p : PoolReport) : String :=
  "vmfleet_pool_idle\x7bpool=\"" ++ p.name ++ "\"\x7d " ++ toString p.idle ++ "\n" ++
  "vmfleet_pool_busy\x7bpool=\"" ++ p.name ++ "\"\x7d " ++ toString p.busy ++ "\n" ++
  "vmfleet_pool_queued\x7bpool=\"" ++ p.name ++ "\"\x7d " ++ toString p.queued ++ "\n" ++
  "vmfleet_pool_present\x7bpool=\"" ++ p.name ++ "\"\x7d " ++ toString p.present ++ "\n" ++
  "vmfleet_pool_desired\x7bpool=\"" ++ p.name ++ "\"\x7d " ++ toString p.desired ++ "\n"

/-- The text that `write_metrics` builds. -/
def metricsText (showF64 : F64 → String) (r : Report) : String :=
  "vmfleet_mem_available_mib " ++ toString r.memAvailMib ++ "\n" ++
  "vmfleet_memory_psi_some_avg10 " ++ showF64 r.psi ++ "\n" ++
  "vmfleet_disk_free_gib " ++ toString r.diskFreeGib ++ "\n" ++
  "vmfleet_headroom_vms " ++ toString r.headroomVms ++ "\n" ++
  "vmfleet_blocked " ++ bit r.blocked.isSome ++ "\n" ++
  "vmfleet_update_available\x7bcurrent=\"" ++ currentVersion ++ "\",latest=\"" ++
    r.latestVersion.getD currentVersion ++ "\"\x7d " ++ bit r.updateAvailable ++ "\n" ++
  String.join (r.pools.map poolMetrics)

/-- What a pass has to publish, in order. A report that has no JSON leaves `status.json` as it is. -/
def publications (json : Report → Option String) (showF64 : F64 → String) (r : Report) :
    List (String × String) :=
  (json r).toList.map (statusFile, ·) ++ [(metricsFile, metricsText showF64 r)]

end VmFleet
