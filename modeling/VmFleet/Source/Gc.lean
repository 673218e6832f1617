import VmFleet.Source.Supervisor

/-!
# `vmfleet gc`

`gc` of `commands.rs`: purge the VMs without an active worker unit for their slot, then delete the
records of offline runners. It runs with a config that has been loaded, and reads the active units
before it lists the VMs.
-/

namespace VmFleet

structure GcRead where
  activeUnits : Answer
  vmList : Answer
  deletions : String → Answer × Answer
  token : Except String String
  runners : Except String (List Runner)

structure GcRun where
  purged : List String
  commands : List Command
  deletedRunners : List UInt64
  /-- The two counts of the closing message. -/
  result : Except String (Nat × Nat)

def isBase (cfg : Config) (name : String) : Bool := cfg.bases.any (·.name == name)

/-- The slot of a VM: what the first pool that can read one from the name reads. -/
def gcSlot (cfg : Config) (name : String) : Option Nat :=
  cfg.pools.findSome? fun p => slotOfVm p.name name

/-- A VM whose name no pool can read counts as an orphan. -/
def gcOrphan (cfg : Config) (active : List Nat) (name : String) : Bool :=
  match gcSlot cfg name with
  | some slot => slot ∉ active
  | none => true

/-- The names of the VMs that are purged, in the order they are listed. -/
def gcPurges (cfg : Config) (active : List Nat) (vms : List (String × VmState)) : List String :=
  (vms.filter fun vm => !isBase cfg vm.1 && gcOrphan cfg active vm.1).map (·.1)

def gcRunners (runners : List Runner) : List UInt64 :=
  (runners.filter fun r => Text.startsWith r.name vmPrefix && !r.online).map (·.id)

def gc (cfg : Config) (read : GcRead) : GcRun :=
  let queries := [Systemd.listActiveCommand workerUnitGlob, Multipass.listCommand]
  match Multipass.listPrefixed vmPrefix read.vmList with
  | .error e => ⟨[], queries, [], .error e⟩
  | .ok vms =>
    let purged := gcPurges cfg (activeSlotsOf read.activeUnits) vms
    let commands := queries ++ purged.flatMap fun name =>
      (Multipass.purge name (read.deletions name).1 (read.deletions name).2).1
    match read.token with
    | .error e => ⟨purged, commands, [], .error e⟩
    | .ok _ =>
      let deleted := match cfg.github.scopePath, read.runners with
        | .ok _, .ok runners => gcRunners runners
        | _, _ => []
      ⟨purged, commands, deleted, .ok (purged.length, deleted.length)⟩

end VmFleet
