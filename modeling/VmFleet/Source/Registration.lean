import VmFleet.Source.Fleet

/-!
# Runner records over time

The records GitHub keeps of the runners, beside the fleet of `Fleet.lean`: a started worker registers its
runner, `run.sh` connects, GitHub shows the runner as it sees it, and the record goes with the job. `gc`
goes on to the records when it is done with the VMs.
-/

namespace VmFleet

inductive GcRecords where
  /-- `gc` does not run, or it is still at the VMs. -/
  | waiting
  | due
  /-- The runners are listed. These records are still to be deleted. -/
  | deleting (todo : List UInt64)
  deriving DecidableEq

structure Registration where
  fleet : Fleet
  runners : List Runner
  /-- The ids GitHub has given out. It gives none twice. -/
  usedIds : List UInt64
  /-- The VMs in which `run.sh` runs. -/
  runSh : List String
  gcRecords : GcRecords

inductive RegistrationEvent where
  | fleet (e : FleetEvent)
  /-- `generate_jitconfig`, or `config.sh` without JIT: a record that no runner has connected for. -/
  | register (slot : Nat) (id : UInt64) (labels : List Label)
  | spawnRunSh (slot : Nat)
  | runShEnds (name : String)
  /-- GitHub shows a runner as this from now on. -/
  | shown (name status : String) (busy : Bool)
  /-- GitHub removes the record of an ephemeral runner that has done its job. -/
  | jobDone (name : String)
  /-- A worker deletes the records of its own VM in `cleanup`, or of a VM of its slot in `reap`. -/
  | deregister (slot : Nat) (name : String)
  /-- Someone else registers a runner. -/
  | foreign (r : Runner)
  | gcListRunners (ok : Bool)
  | gcDelete (ok : Bool)

def FleetEvent.startsGc : FleetEvent → Bool
  | .gcQuery => true
  | _ => false

namespace Registration

/-- No worker runs and no record exists. -/
def rest (vms : List (String × VmState)) : Registration := ⟨Fleet.rest vms, [], [], [], .waiting⟩

def removeRecords (s : Registration) (name : String) : List Runner :=
  s.runners.filter (·.name ≠ name)

def showRunner (s : Registration) (name status : String) (busy : Bool) : List Runner :=
  s.runners.map fun r => if r.name = name then { r with status := status, busy := busy } else r

def step (cfg : Config) (s : Registration) : RegistrationEvent → Option Registration
  | .fleet e =>
    if e.startsGc ∧ s.gcRecords ≠ .waiting then none
    else (s.fleet.step cfg e).map fun fleet => { s with
      fleet := fleet
      gcRecords := if s.fleet.gc ≠ .idle ∧ fleet.gc = .idle then .due else s.gcRecords }
  | .register slot id labels => do
    let w ← s.fleet.worker slot
    if w.stage = .started ∧ id ∉ s.usedIds ∧ ∀ r ∈ s.runners, r.name ≠ w.vm then
      some { s with
        runners := s.runners ++ [{ id := id, name := w.vm, status := "offline", labels := labels }]
        usedIds := id :: s.usedIds }
    else none
  | .spawnRunSh slot => do
    let w ← s.fleet.worker slot
    if ∃ r ∈ s.runners, r.name = w.vm then some { s with runSh := w.vm :: s.runSh } else none
  | .runShEnds name => some { s with runSh := s.runSh.filter (· ≠ name) }
  | .shown name status busy =>
    if status = "online" → name ∈ s.runSh then some { s with runners := s.showRunner name status busy }
    else none
  | .jobDone name =>
    if name ∈ s.runSh then
      some { s with runners := s.removeRecords name, runSh := s.runSh.filter (· ≠ name) }
    else none
  | .deregister slot name => do
    let w ← s.fleet.worker slot
    if name = w.vm ∨ Text.startsWith name (slotVmPrefix w.pool w.slot) then
      some { s with runners := s.removeRecords name }
    else none
  | .foreign r =>
    if r.id ∉ s.usedIds ∧ (∀ r' ∈ s.runners, r'.name ≠ r.name) ∧ ∀ w ∈ s.fleet.workers, w.vm ≠ r.name then
      some { s with
        fleet := { s.fleet with usedNames := r.name :: s.fleet.usedNames }
        runners := s.runners ++ [r]
        usedIds := r.id :: s.usedIds }
    else none
  | .gcListRunners ok =>
    match s.gcRecords with
    | .due => some { s with gcRecords := .deleting (if ok then gcRunners s.runners else []) }
    | _ => none
  | .gcDelete ok =>
    match s.gcRecords with
    | .deleting (id :: todo) => some { s with
        runners := if ok then s.runners.filter (·.id ≠ id) else s.runners
        gcRecords := .deleting todo }
    | .deleting [] => some { s with gcRecords := .waiting }
    | _ => none

/-- The record the next step of `gc` deletes. -/
def nextDeletion (s : Registration) : Option UInt64 :=
  match s.gcRecords with
  | .deleting (id :: _) => some id
  | _ => none

end Registration

end VmFleet
