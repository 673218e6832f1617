import VmFleet.Library.Utf8
import VmFleet.Source.Metrics

/-!
# Supervisor processes

`run` and `acquire_singleton` of `supervisor.rs`, with the writing of `write_status` and `write_metrics`, for
any number of processes on one state directory and any number of readers of it. `flock` lets one process
hold `supervisor.lock`, and lets go of it when the process ends. A process may be killed at any point. A
pass decides in one step; what it has decided on is done command by command.
-/

namespace VmFleet

inductive SupervisorPhase where
  /-- Before `acquire_singleton`. -/
  | starting
  /-- Past `acquire_singleton`, or past the place of it in a dry run, and before the loop. -/
  | settingUp
  /-- At the head of the loop. -/
  | ready
  | acting (commands : List Command) (report : Report)
  /-- The files still to be written. -/
  | publishing (report : Report) (files : List (String × String))
  | writing (report : Report) (draft : Publication.Draft String UInt8) (files : List (String × String))
  /-- `run` has returned. -/
  | returned (ok : Bool)
  | killed

structure SupervisorProcess where
  cfg : Config
  inv : Invocation
  once : Bool
  phase : SupervisorPhase := .starting
  state : SupState := {}

inductive ProcessEvent where
  | acquire
  /-- An error before the loop: no lock file, no token, no client, or no path of the executable. -/
  | setUpFails
  | setUp
  | reconcile (snap : Snapshot)
  | command
  | commandsDone
  /-- The temporary file is opened, which may fail. -/
  | create (ok : Bool)
  | write (k : Nat)
  | writeFails
  | rename (ok : Bool)
  | endTurn
  | kill

inductive SupervisorEvent where
  | spawn (cfg : Config) (inv : Invocation) (once : Bool)
  | process (i : Nat) (e : ProcessEvent)
  | reader (e : Publication.ReaderEvent String)

structure SupervisorHost where
  store : Directory.Store String UInt8
  processes : List SupervisorProcess := []
  /-- The process that holds `supervisor.lock`. -/
  lock : Option Nat := none
  /-- The commands that were issued, each with the process that did. -/
  issued : List (Nat × Command) := []
  readers : List (Publication.Reader UInt8) := []

namespace SupervisorProcess

def ended (p : SupervisorProcess) : Bool :=
  match p.phase with
  | .returned _ | .killed => true
  | _ => false

/-- Past `acquire_singleton` and not at its end. -/
def running (p : SupervisorProcess) : Bool :=
  match p.phase with
  | .starting | .returned _ | .killed => false
  | _ => true

def draft (p : SupervisorProcess) : Option (Publication.Draft String UInt8) :=
  match p.phase with
  | .writing _ draft _ => some draft
  | _ => none

/-- The turn of the loop that ends with this pass. -/
def afterReconcile (p : SupervisorProcess) (snap : Snapshot) : SupervisorProcess :=
  match reconcile p.cfg p.inv snap p.state with
  | .ok pass => { p with phase := .acting pass.commands pass.report, state := pass.state }
  | .error _ => { p with phase := if p.once then .returned false else .ready }

/-- A dry run prints the report and fails if it cannot. -/
def afterTurn (json : Report → Option String) (p : SupervisorProcess) (report : Report) : SupervisorProcess :=
  if p.inv.dryRun ∧ (json report).isNone then { p with phase := .returned false }
  else { p with phase := if p.once then .returned true else .ready }

end SupervisorProcess

namespace SupervisorHost

variable (json : Report → Option String) (showF64 : F64 → String)

/-- A process as it is after a step. Its lock is free if it has ended. -/
def put (s : SupervisorHost) (i : Nat) (p : SupervisorProcess) : SupervisorHost :=
  { s with
    processes := s.processes.set i p
    lock := if p.ended ∧ s.lock = some i then none else s.lock }

/-- A dry run skips the guard. -/
def acquireSingleton (s : SupervisorHost) (i : Nat) (p : SupervisorProcess) : SupervisorHost :=
  if p.inv.dryRun then s.put i { p with phase := .settingUp }
  else if s.lock = none then { s.put i { p with phase := .settingUp } with lock := some i }
  else s.put i { p with phase := .returned false }

def processStep (s : SupervisorHost) (i : Nat) (p : SupervisorProcess) (e : ProcessEvent) :
    Option SupervisorHost :=
  match e, p.phase with
  | .acquire, .starting => some (s.acquireSingleton i p)
  | .setUpFails, .starting | .setUpFails, .settingUp => some (s.put i { p with phase := .returned false })
  | .setUp, .settingUp => some (s.put i { p with phase := .ready })
  | .reconcile snap, .ready => some (s.put i (p.afterReconcile snap))
  | .command, .acting (c :: cs) report =>
    some { s.put i { p with phase := .acting cs report } with issued := s.issued ++ [(i, c)] }
  | .commandsDone, .acting [] report =>
    let files := if p.inv.dryRun then [] else publications json showF64 report
    some (s.put i { p with phase := .publishing report files })
  | .create true, .publishing report ((name, text) :: files) =>
    let opened := s.store.create (publishedFiles.temp name)
    let draft := { name := name, file := opened.1, text := Utf8.encode text.toList }
    some { s.put i { p with phase := .writing report draft files } with store := opened.2 }
  | .create false, .publishing report (_ :: files) =>
    some (s.put i { p with phase := .publishing report files })
  | .write k, .writing report d files =>
    if 0 < k ∧ d.written + k ≤ d.text.length then
      some { s.put i { p with phase := .writing report { d with written := d.written + k } files } with
        store := s.store.append d.file ((d.text.drop d.written).take k) }
    else none
  | .writeFails, .writing report _ files => some (s.put i { p with phase := .publishing report files })
  | .rename true, .writing report d files =>
    if d.written = d.text.length then
      (s.store.rename (publishedFiles.temp d.name) d.name).map fun store =>
        { s.put i { p with phase := .publishing report files } with store := store }
    else none
  | .rename false, .writing report d files =>
    if d.written = d.text.length then some (s.put i { p with phase := .publishing report files }) else none
  | .endTurn, .publishing report [] => some (s.put i (p.afterTurn json report))
  | .kill, _ => if p.ended then none else some (s.put i { p with phase := .killed })
  | _, _ => none

def step (s : SupervisorHost) : SupervisorEvent → Option SupervisorHost
  | .spawn cfg inv once =>
    some { s with processes := s.processes ++ [{ cfg := cfg, inv := inv, once := once }] }
  | .process i e =>
    match s.processes[i]? with
    | some p => processStep json showF64 s i p e
    | none => none
  | .reader e =>
    (Publication.readerStep publishedFiles s.store s.readers e).map fun readers =>
      { s with readers := readers }

end SupervisorHost

end VmFleet
