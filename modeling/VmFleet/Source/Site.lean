import VmFleet.Source.Fleet
import VmFleet.Source.Supervisor

/-!
# Supervisor and workers on one host

What the passes of the supervisor launch becomes a unit, unless systemd has one of that name, and the unit
a worker process of `Fleet.lean`. List, clone and purge commands succeed here.
-/

namespace VmFleet

def Action.launched : Action → Option Nat
  | .launch slot => some slot
  | .stop _ => none

def PoolPass.launched (pp : PoolPass) : List Nat := pp.report.actions.filterMap Action.launched

/-- The units a pass has systemd start, with the pool that is passed to the worker. -/
def Pass.launched (pass : Pass) (cfg : Config) : List (Pool × Nat) :=
  (cfg.pools.zip pass.pools).flatMap fun e => e.2.launched.map fun slot => (e.1, slot)

structure Site where
  fleet : Fleet
  sup : SupState
  /-- The units whose process has not begun yet. -/
  queued : List (Pool × Nat)

inductive SiteEvent where
  | pass (exe cfgPath : String) (snap : Snapshot)
  /-- The process of a unit begins, in this second and with this process id. -/
  | begins (slot : Nat) (ts : UInt64) (pid : UInt32)
  /-- A unit is gone before its process has begun. -/
  | lost (slot : Nat)
  /-- Anything else: steps of workers and of `gc`, the end of a worker. -/
  | fleet (e : FleetEvent)

/-- Whether the command behind a step, if there is one, succeeds. -/
def WorkerEvent.succeeds : WorkerEvent → Bool
  | .sweepStateFile _ ok | .sweepNext ok | .cleanup ok => ok
  | _ => true

def FleetEvent.succeeds : FleetEvent → Bool
  | .worker _ e => e.succeeds
  | .gcPurge ok => ok
  | _ => true

def FleetEvent.launches : FleetEvent → Bool
  | .launch _ _ _ _ => true
  | _ => false

namespace Site

/-- No unit is loaded. -/
def rest (vms : List (String × VmState)) (sup : SupState) : Site := ⟨Fleet.rest vms, sup, []⟩

def loaded (s : Site) (slot : Nat) : Bool :=
  (s.fleet.worker slot).isSome || s.queued.any (·.2 == slot)

/-- `systemd-run` with the unit name of the slot. -/
def accept (s : Site) (unit : Pool × Nat) : Site :=
  if s.loaded unit.2 then s else { s with queued := unit :: s.queued }

def step (cfg : Config) (s : Site) : SiteEvent → Option Site
  | .pass exe cfgPath snap =>
    match reconcile cfg ⟨exe, cfgPath, false⟩ snap s.sup with
    | .ok pass => some ((pass.launched cfg).foldl accept { s with sup := pass.state })
    | .error _ => some s
  | .begins slot ts pid => do
    let unit ← s.queued.find? (·.2 = slot)
    let fleet ← s.fleet.step cfg (.launch unit.1 slot ts pid)
    return { s with fleet := fleet, queued := s.queued.filter (·.2 ≠ slot) }
  | .lost slot => some { s with queued := s.queued.filter (·.2 ≠ slot) }
  | .fleet e =>
    if e.launches || !e.succeeds then none
    else (s.fleet.step cfg e).map fun fleet => { s with fleet := fleet }

end Site

end VmFleet
