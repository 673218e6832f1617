import VmFleet.Source.Naming
import VmFleet.Source.Command
import VmFleet.Source.GitHub

/-!
# The leftover sweep of a worker

`sweep_leftovers` and `reap` of `worker.rs`: before a worker clones its VM, it purges what an earlier
worker of its slot has left, found through the slot's state file and through the list of VMs.
-/

namespace VmFleet

structure SweepRead where
  /-- The text of the slot's state file, if it can be read. -/
  stateFile : Option String
  vmList : Answer
  /-- What `list_runners` returns when a VM is reaped. -/
  runners : String → Except String (List Runner)
  deletions : String → Answer × Answer

/-- What is done to one VM: the runner records deleted, and the commands of the purge. -/
structure Reap where
  name : String
  deletedRunners : List UInt64
  commands : List Command

def reap (read : SweepRead) (name : String) : Reap where
  name := name
  deletedRunners := match read.runners name with
    | .ok runners => (runners.filter (·.name == name)).map (·.id)
    | .error _ => []
  commands := (Multipass.purge name (read.deletions name).1 (read.deletions name).2).1

def stateFileVm (own pre : String) (stateFile : Option String) : List String :=
  match stateFile with
  | some text =>
    let old := Text.trim text
    if old ≠ "" ∧ old ≠ own ∧ Text.startsWith old pre = true then [old] else []
  | none => []

/-- The VMs in the list. A list that cannot be read counts as empty. -/
def listedVms (own pre : String) (vmList : Answer) : List String :=
  match Multipass.listPrefixed pre vmList with
  | .ok vms => (vms.map (·.1)).filter (· ≠ own)
  | .error _ => []

/-- `sweep_leftovers` of the worker whose VM is to be called `own`. -/
def sweepLeftovers (own pool : String) (slot : Nat) (read : SweepRead) : List Reap :=
  (stateFileVm own (slotVmPrefix pool slot) read.stateFile ++
    listedVms own (slotVmPrefix pool slot) read.vmList).map (reap read)

end VmFleet
