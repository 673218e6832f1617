import VmFleet.Source.Site

/-!
# Building bases and uninstalling

`build_one_base` and `uninstall` of `commands.rs`, beside the fleet of `Fleet.lean`. `uninstall` stops what
launches workers, then the units that are active, then purges the VMs it lists. Its own commands succeed
here; a unit that `stop` has come back from has no process any more. Bases are built before.
-/

namespace VmFleet

inductive UninstallPhase where
  | notYet
  /-- Supervisor and timer are stopped and disabled. -/
  | disabled
  /-- The active units are listed. These are still to be stopped. -/
  | stopping (todo : List Nat)
  /-- The VMs are listed. These are still to be purged. -/
  | purging (todo : List String)
  | complete
  deriving DecidableEq

/-- Whether the VMs are listed. -/
def UninstallPhase.late : UninstallPhase → Bool
  | .purging _ | .complete => true
  | _ => false

/-- The VMs `uninstall` purges: bases only with `purge_all`. -/
def uninstallPurges (cfg : Option Config) (purgeAll : Bool) (vms : List (String × VmState)) :
    List String :=
  ((vms.filter fun vm => Text.startsWith vm.1 vmPrefix).map (·.1)).filter fun name =>
    !(cfg.any (isBase · name) && !purgeAll)

structure Installation where
  fleet : Fleet
  phase : UninstallPhase
  deriving DecidableEq

inductive InstallationEvent where
  | fleet (e : FleetEvent)
  /-- `build-base --force` purges a base that exists. -/
  | purgeBase (b : Base)
  | launchBase (b : Base)
  | stopBase (b : Base)
  | disable
  | listUnits
  | unitStopped
  | listVms
  | purge

namespace Installation

def rest (vms : List (String × VmState)) : Installation := ⟨Fleet.rest vms, .notYet⟩

def setVms (s : Installation) (vms : List (String × VmState)) : Installation :=
  { s with fleet := { s.fleet with vms := vms } }

def step (cfg : Config) (purgeAll : Bool) (s : Installation) : InstallationEvent → Option Installation
  | .fleet e =>
    if e.launches ∧ s.phase ≠ .notYet then none
    else (s.fleet.step cfg e).map fun fleet => { s with fleet := fleet }
  | .purgeBase b =>
    if b ∈ cfg.bases ∧ s.phase = .notYet then some (s.setVms (purgeVm true s.fleet.vms b.name)) else none
  | .launchBase b =>
    if b ∈ cfg.bases ∧ s.phase = .notYet ∧ b.name ∉ s.fleet.vms.map (·.1) then
      some { s with fleet := { s.fleet with
        vms := s.fleet.vms ++ [(b.name, .running)]
        usedNames := b.name :: s.fleet.usedNames } }
    else none
  | .stopBase b =>
    if b ∈ cfg.bases ∧ s.phase = .notYet then
      some (s.setVms (s.fleet.vms.map fun vm => if vm.1 = b.name then (vm.1, .stopped) else vm))
    else none
  | .disable => if s.phase = .notYet then some { s with phase := .disabled } else none
  | .listUnits =>
    if s.phase = .disabled then some { s with phase := .stopping s.fleet.activeSlots } else none
  | .unitStopped =>
    match s.phase with
    | .stopping (slot :: todo) =>
      if s.fleet.worker slot = none then some { s with phase := .stopping todo } else none
    | _ => none
  | .listVms =>
    match s.phase with
    | .stopping [] => some { s with phase := .purging (uninstallPurges (some cfg) purgeAll s.fleet.vms) }
    | _ => none
  | .purge =>
    match s.phase with
    | .purging (name :: todo) =>
      some { s.setVms (purgeVm true s.fleet.vms name) with phase := .purging todo }
    | .purging [] => some { s with phase := .complete }
    | _ => none

end Installation

end VmFleet
