import VmFleet.Source.Supervisor

/-!
# The job queue

`queued_labels` of `github.rs`, and what it reads: the jobs GitHub has, which are queued, picked up and
finished while the supervisor goes through its cycles. A cycle sees the runner records as they are; of
the queue it sees the runs and jobs the answers hold, and it looks only when its counter says so.
-/

namespace VmFleet

/-! ### `queued_labels` -/

/-- A job in the answer for one workflow run. -/
structure Job where
  status : String := ""
  labels : List String := []
  deriving DecidableEq

/-- `*out.entry(l).or_insert(0) += 1`. -/
def bump (out : String → Option UInt32) (l : String) : String → Option UInt32 :=
  fun k => if k = l then some ((out k).getD 0 + 1) else out k

def countJob (out : String → Option UInt32) (job : Job) : String → Option UInt32 :=
  if job.status = "queued" then job.labels.foldl bump out else out

def countRun (jobs : UInt64 → Except String (List Job)) (out : String → Option UInt32) (run : UInt64) :
    String → Option UInt32 :=
  match jobs run with
  | .ok js => js.foldl countJob out
  | .error _ => out

def queuedLabels (isRepo : Bool) (runs : Except String (List UInt64))
    (jobs : UInt64 → Except String (List Job)) : String → Option UInt32 :=
  if isRepo then
    match runs with
    | .ok runs => runs.foldl (countRun jobs) fun _ => none
    | .error _ => fun _ => none
  else fun _ => none

/-! ### Jobs and runners at GitHub -/

/-- A job that has not finished. -/
structure HubJob where
  id : Nat
  run : UInt64
  labels : List String
  /-- The runner that has picked it up. -/
  runner : Option String
  deriving DecidableEq

def HubJob.queued (j : HubJob) : Bool := j.runner.isNone

def HubJob.listing (j : HubJob) : Job := ⟨if j.queued then "queued" else "in_progress", j.labels⟩

structure Hub where
  jobs : List HubJob
  records : List Runner

inductive HubEvent where
  | queue (id : Nat) (run : UInt64) (labels : List String)
  | pickUp (id : Nat) (runner : String)
  /-- The job ends, or is cancelled. -/
  | finish (id : Nat)
  | register (record : Runner)
  | setStatus (name status : String)
  | remove (name : String)

namespace Hub

def busyOn (h : Hub) (name : String) : Bool := h.jobs.any fun j => j.runner == some name

/-- The runner list. A runner is busy while a job runs on it. -/
def runners (h : Hub) : List Runner := h.records.map fun r => { r with busy := h.busyOn r.name }

/-- A runner takes one job at a time, and no two records have the same name. -/
def step (h : Hub) : HubEvent → Option Hub
  | .queue id run labels =>
    if h.jobs.all (·.id ≠ id) then some { h with jobs := ⟨id, run, labels, none⟩ :: h.jobs } else none
  | .pickUp id name =>
    if h.busyOn name then none
    else some { h with
      jobs := h.jobs.map fun j => if j.id = id ∧ j.queued then { j with runner := some name } else j }
  | .finish id => some { h with jobs := h.jobs.filter (·.id ≠ id) }
  | .register record =>
    if h.records.all (·.name ≠ record.name) then some { h with records := record :: h.records } else none
  | .setStatus name status =>
    some { h with records := h.records.map fun r => if r.name = name then { r with status := status } else r }
  | .remove name => some { h with records := h.records.filter (·.name ≠ name) }

end Hub

/-! ### Cycles beside them -/

/-- What a cycle gets to see of the hub, and the rest of what it reads. `runs` are the runs listed, and
`shown` the jobs in the answer for a run. -/
structure Reading where
  rest : Snapshot
  listed : Except String Unit
  runs : Except String (List UInt64)
  shown : UInt64 → Except String (List Nat)

/-- The jobs of a run that an answer shows. -/
def Hub.jobsOf (h : Hub) (run : UInt64) (ids : List Nat) : List HubJob :=
  h.jobs.filter fun j => j.run = run ∧ j.id ∈ ids

def Reading.snapshot (cfg : Config) (read : Reading) (h : Hub) : Snapshot :=
  { read.rest with
    runners := read.listed.map fun _ => h.runners
    queuedLabels := queuedLabels cfg.github.repo.isSome (read.runs.map List.dedup) fun run =>
      (read.shown run).map fun ids => (h.jobsOf run ids).map HubJob.listing }

structure ControlPlane where
  hub : Hub
  sup : SupState
  /-- The jobs that were queued when a cycle last scanned the queue. -/
  scanned : List HubJob
  /-- How many cycles have passed since. -/
  age : Nat

inductive ControlEvent where
  | hub (e : HubEvent)
  | cycle (read : Reading)

/-- `state.cycle.is_multiple_of(every)`. -/
def scansQueue (cfg : Config) (state : SupState) : Prop :=
  state.cycle % (max cfg.supervisor.queuedPollEvery 1).toUInt64 = 0

instance (cfg : Config) (state : SupState) : Decidable (scansQueue cfg state) :=
  inferInstanceAs (Decidable (_ = _))

namespace ControlPlane

def init : ControlPlane := ⟨⟨[], []⟩, {}, [], 0⟩

def step (cfg : Config) (inv : Invocation) (s : ControlPlane) : ControlEvent → Option ControlPlane
  | .hub e => (s.hub.step e).map fun hub => { s with hub := hub }
  | .cycle read =>
    match reconcile cfg inv (read.snapshot cfg s.hub) s.sup with
    | .ok pass => some { s with
        sup := pass.state
        scanned := if scansQueue cfg s.sup then s.hub.jobs.filter HubJob.queued else s.scanned
        age := if scansQueue cfg s.sup then 0 else s.age + 1 }
    | .error _ => some s

end ControlPlane

end VmFleet
