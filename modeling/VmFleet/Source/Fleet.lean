import VmFleet.Source.Gc
import VmFleet.Source.Sweep

/-!
# The fleet over time

The supervisor, the workers and a run of `gc` take their steps in any order. A step of a worker is one
of the calls with which `lifecycle` and `cleanup` of `worker.rs` read or change the VMs, a step of `gc`
is one of its two queries or one purge. Queries succeed and return the state they are made in; a purge
may fail.
-/

namespace VmFleet

/-! ### Workers -/

inductive WorkerStage where
  | launched
  | stateFileSwept
  /-- The VMs are listed. These are still to be reaped. -/
  | sweeping (leftovers : List String)
  | swept
  | cloned
  | started
  deriving DecidableEq

def WorkerStage.created : WorkerStage → Bool
  | .cloned | .started => true
  | _ => false

/-- A worker process, which runs as long as the unit of its slot is loaded. -/
structure WorkerProc where
  pool : String
  slot : Nat
  vm : String
  stage : WorkerStage
  /-- Whether the unit is active. It is not once it is being stopped. -/
  active : Bool
  deriving DecidableEq

inductive WorkerEvent where
  | sweepStateFile (text : Option String) (ok : Bool)
  | sweepList
  | sweepNext (ok : Bool)
  | clone
  | start
  /-- Cleanup runs, on either thread. The main thread may go on until the process ends. -/
  | cleanup (ok : Bool)
  /-- The unit is told to stop. -/
  | stop
  deriving DecidableEq

/-- The VMs after a purge that has succeeded or failed. -/
def purgeVm (ok : Bool) (vms : List (String × VmState)) (name : String) : List (String × VmState) :=
  if ok then vms.filter (·.1 ≠ name) else vms

/-- The names `sweep_leftovers` finds in the list of VMs. -/
def leftovers (own pre : String) (vms : List (String × VmState)) : List String :=
  ((vms.filter fun vm => Text.startsWith vm.1 pre).map (·.1)).filter (· ≠ own)

def WorkerProc.step (w : WorkerProc) (vms : List (String × VmState)) :
    WorkerEvent → Option (WorkerProc × List (String × VmState))
  | .sweepStateFile text ok =>
    match w.stage with
    | .launched => some ({ w with stage := .stateFileSwept },
        (stateFileVm w.vm (slotVmPrefix w.pool w.slot) text).foldl (purgeVm ok) vms)
    | _ => none
  | .sweepList =>
    match w.stage with
    | .stateFileSwept =>
      some ({ w with stage := .sweeping (leftovers w.vm (slotVmPrefix w.pool w.slot) vms) }, vms)
    | _ => none
  | .sweepNext ok =>
    match w.stage with
    | .sweeping (name :: rest) => some ({ w with stage := .sweeping rest }, purgeVm ok vms name)
    | .sweeping [] => some ({ w with stage := .swept }, vms)
    | _ => none
  | .clone =>
    match w.stage with
    | .swept => some ({ w with stage := .cloned }, vms ++ [(w.vm, .stopped)])
    | _ => none
  | .start =>
    match w.stage with
    | .cloned => some ({ w with stage := .started },
        vms.map fun vm => if vm.1 = w.vm then (vm.1, .running) else vm)
    | _ => none
  | .cleanup ok => some (w, if w.stage.created then purgeVm ok vms w.vm else vms)
  | .stop => some ({ w with active := false }, vms)

/-! ### The fleet -/

inductive GcPhase where
  | idle
  | queried (active : List Nat)
  /-- The VMs are listed. These orphans are still to be purged. -/
  | purging (todo : List String)
  deriving DecidableEq

def gcTodo (cfg : Config) (active : List Nat) (vms : List (String × VmState)) : List String :=
  gcPurges cfg active (vms.filter fun vm => Text.startsWith vm.1 vmPrefix)

structure Fleet where
  workers : List WorkerProc
  vms : List (String × VmState)
  /-- The names VMs have had so far. A name holds the second and the process id of the worker, so
  that no other worker has it. -/
  usedNames : List String
  gc : GcPhase
  deriving DecidableEq

inductive FleetEvent where
  | launch (pool : Pool) (slot : Nat) (ts : UInt64) (pid : UInt32)
  | worker (slot : Nat) (e : WorkerEvent)
  /-- A worker's process ends, at any stage, and its unit is gone. -/
  | exit (slot : Nat)
  | gcQuery
  | gcList
  | gcPurge (ok : Bool)

namespace Fleet

/-- No worker runs. -/
def rest (vms : List (String × VmState)) : Fleet := ⟨[], vms, vms.map (·.1), .idle⟩

def activeSlots (s : Fleet) : List Nat := (s.workers.filter (·.active)).map (·.slot)

def worker (s : Fleet) (slot : Nat) : Option WorkerProc := s.workers.find? (·.slot = slot)

def put (s : Fleet) (w : WorkerProc) (vms : List (String × VmState)) : Fleet :=
  { s with workers := s.workers.map fun v => if v.slot = w.slot then w else v, vms := vms }

def step (cfg : Config) (s : Fleet) : FleetEvent → Option Fleet
  | .launch pool slot ts pid =>
    let vm := vmName pool.name slot ts pid
    if pool ∈ cfg.pools ∧ slot ∈ pool.slots ∧ s.worker slot = none ∧ vm ∉ s.usedNames then
      some { s with
        workers := ⟨pool.name, slot, vm, .launched, true⟩ :: s.workers
        usedNames := vm :: s.usedNames }
    else none
  | .worker slot e => do
    let w ← s.worker slot
    let (w, vms) ← w.step s.vms e
    return s.put w vms
  | .exit slot => some { s with workers := s.workers.filter (·.slot ≠ slot) }
  | .gcQuery =>
    match s.gc with
    | .idle => some { s with gc := .queried s.activeSlots }
    | _ => none
  | .gcList =>
    match s.gc with
    | .queried active => some { s with gc := .purging (gcTodo cfg active s.vms) }
    | _ => none
  | .gcPurge ok =>
    match s.gc with
    | .purging (name :: todo) => some { s with vms := purgeVm ok s.vms name, gc := .purging todo }
    | .purging [] => some { s with gc := .idle }
    | _ => none

/-- The VM the next step of `gc` purges. -/
def nextPurge (s : Fleet) : Option String :=
  match s.gc with
  | .purging (name :: _) => some name
  | _ => none

end Fleet

end VmFleet
