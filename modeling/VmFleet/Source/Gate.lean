import VmFleet.Source.WorkerThreads
import VmFleet.Source.Admission

/-!
# Workers at the admission gate

`Gate::acquire` of `admission.rs` and the part of `lifecycle` that holds its guard, for any number of
worker processes. `flock` lets one process hold the lock file and lets go of it when the guard is dropped
or the process ends.
-/

namespace VmFleet

inductive GateStage where
  | away
  /-- The lock file is open. -/
  | opened
  /-- The lock is held, the host is under pressure or not probed yet. -/
  | waiting
  | granted
  | dropped
  deriving DecidableEq

/-- A worker process. -/
structure Contender where
  threads : WorkerThreads
  cfg : Admission
  stage : GateStage

/-- The calls of `lifecycle` between `acquire` and the drop of its guard. -/
def Call.guarded : Call → Bool
  | .cloneFrom | .storeCreated | .setCpus | .setMemory | .start | .settle => true
  | _ => false

def Call.launchesVm : Call → Bool
  | .cloneFrom | .start => true
  | _ => false

/-- What the host gets to see of a worker. -/
inductive Deed where
  /-- A reading on which the gate is granted. -/
  | clear (id : Nat)
  | did (id : Nat) (c : Call)
  deriving DecidableEq

inductive GateEvent where
  | launch (id : Nat) (useJit swap : Bool) (cfg : Admission)
  | openLock (id : Nat)
  | tryLock (id : Nat)
  | probe (id : Nat) (r : Resources)
  | thread (id : Nat) (e : ThreadEvent)
  | drop (id : Nat)
  /-- SIGKILL. -/
  | kill (id : Nat)

namespace Contender

def alive (c : Contender) : Bool := c.threads.exitCode.isNone

def atAcquire (c : Contender) : Bool := c.threads.todo.head? == some .acquire

/-- Past the part that holds the guard, at its end or by an error. -/
def pastGuard (c : Contender) : Bool := !c.atAcquire && !c.threads.todo.head?.any Call.guarded

/-- `acquire` returns with the guard when it is granted, and with an error only before it has the lock.
The guard is dropped before anything that comes after it in `lifecycle`. -/
def allows (c : Contender) : ThreadEvent → Bool
  | .call ok =>
    if c.atAcquire then
      if ok then c.stage == .granted else c.stage == .away || c.stage == .opened
    else !(c.pastGuard && c.stage == .granted)
  | .cleanup .main => c.stage != .granted
  | _ => true

def deeds (c : Contender) (id : Nat) : ThreadEvent → List Deed
  | .call true => c.threads.todo.head?.toList.map (.did id)
  | _ => []

end Contender

structure Gate where
  workers : Nat → Option Contender
  /-- The holder of the lock file. -/
  lock : Option Nat
  history : List Deed

namespace Gate

def init : Gate := ⟨fun _ => none, none, []⟩

def put (s : Gate) (id : Nat) (c : Contender) : Gate :=
  { s with workers := fun i => if i = id then some c else s.workers i }

def living (s : Gate) (id : Nat) : Option Contender := (s.workers id).filter (·.alive)

/-- The lock after a process has let go of it, if it held it. -/
def released (s : Gate) (id : Nat) : Option Nat := if s.lock = some id then none else s.lock

def step (s : Gate) : GateEvent → Option Gate
  | .launch id useJit swap cfg =>
    if (s.workers id).isNone then some (s.put id ⟨WorkerThreads.init useJit swap, cfg, .away⟩) else none
  | .openLock id => do
    let c ← s.living id
    if c.atAcquire ∧ c.stage = .away then some (s.put id { c with stage := .opened }) else none
  | .tryLock id => do
    let c ← s.living id
    if c.atAcquire ∧ c.stage = .opened then
      match s.lock with
      | none => some { s.put id { c with stage := .waiting } with lock := some id }
      | some _ => some s
    else none
  | .probe id r => do
    let c ← s.living id
    if c.stage = .waiting then
      match gateBlocked c.cfg r with
      | none => some { s.put id { c with stage := .granted } with history := s.history ++ [.clear id] }
      | some _ => some s
    else none
  | .thread id e => do
    let c ← s.living id
    if c.allows e then
      let threads ← c.threads.step e
      return { s.put id { c with threads := threads } with
        lock := if threads.exitCode.isSome then s.released id else s.lock
        history := s.history ++ c.deeds id e }
    else none
  | .drop id => do
    let c ← s.living id
    if c.pastGuard ∧ c.stage = .granted then
      some { s.put id { c with stage := .dropped } with lock := s.released id }
    else none
  | .kill id => do
    let c ← s.living id
    return { s.put id { c with threads := { c.threads with exitCode := some 137 } } with
      lock := s.released id }

/-- Between the grant of the gate and its release. -/
def Admitted (s : Gate) (id : Nat) : Prop :=
  ∃ c, s.living id = some c ∧ c.stage = .granted

end Gate

end VmFleet
