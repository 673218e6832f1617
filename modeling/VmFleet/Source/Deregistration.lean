import VmFleet.Library.Requests
import VmFleet.Source.Gc
import VmFleet.Source.Sweep

/-!
# Deleting runner records

`delete_runner` and `delete_runners_by_prefix` of `github.rs` with all who delete records: `uninstall`, `gc`,
and a worker in `cleanup` and in `reap`. They list the runners, page after page, and delete those they pick,
one after another, with up to three attempts for each. Meanwhile GitHub adds and removes records, and a
request may be lost, be late, or be served without the client hearing of it. GitHub is taken to answer 404
only when there is no such record. The pauses between attempts are left out.
-/

namespace VmFleet

/-! ### GitHub -/

structure RunnerServer where
  records : List Runner
  /-- The ids given out so far. None is given twice. -/
  usedIds : List UInt64
  deriving DecidableEq

/-- What becomes of the records without the client. -/
inductive RecordEvent where
  | register (r : Runner)
  | remove (id : UInt64)
  /-- A runner is shown as this from now on. -/
  | shown (id : UInt64) (status : String) (busy : Bool)
  deriving DecidableEq

namespace RunnerServer

def delete (id : UInt64) (s : RunnerServer) : RunnerServer :=
  { s with records := s.records.filter (·.id ≠ id) }

def own : RecordEvent → RunnerServer → Option RunnerServer
  | .register r, s =>
    if r.id ∈ s.usedIds then none else some ⟨s.records ++ [r], r.id :: s.usedIds⟩
  | .remove id, s => some (s.delete id)
  | .shown id status busy, s => some { s with
      records := s.records.map fun r => if r.id = id then { r with status := status, busy := busy } else r }

end RunnerServer

/-! ### The client -/

inductive Deleter where
  /-- `delete_runners_by_prefix` with `VM_PREFIX`. -/
  | uninstall
  | gc
  /-- `cleanup` of the worker of this VM, or `reap` of it. -/
  | worker (vmName : String)
  deriving DecidableEq

namespace Deleter

def picks : Deleter → Runner → Bool
  | .uninstall, r => Text.startsWith r.name vmPrefix
  | .gc, r => Text.startsWith r.name vmPrefix && !r.online
  | .worker vmName, r => r.name == vmName

/-- `RETRIES`, and whether an error of `delete_runner` is ignored. -/
def policy : Deleter → Requests.Policy
  | .uninstall => ⟨3, false⟩
  | .gc | .worker _ => ⟨3, true⟩

end Deleter

structure Deregistration where
  /-- The runners on the pages so far. -/
  listed : List Runner
  listing : Bool
  link : Requests.State RunnerServer UInt64
  deriving DecidableEq

inductive DeregistrationEvent where
  /-- A page of the list of runners. What the answer leaves out the next pages may have. -/
  | page (runners : List Runner)
  | lastPage
  | link (e : Requests.Event RecordEvent)
  deriving DecidableEq

namespace Deregistration

def server : Requests.Server RunnerServer UInt64 RecordEvent := ⟨RunnerServer.delete, RunnerServer.own⟩

def init (s : RunnerServer) : Deregistration := ⟨[], true, Requests.start s []⟩

def picked (d : Deleter) (s : Deregistration) : List Runner := s.listed.filter d.picks

def step (d : Deleter) (s : Deregistration) : DeregistrationEvent → Option Deregistration
  | .page runners =>
    if s.listing = true ∧ ∀ r ∈ runners, r ∈ s.link.server.records then
      some { s with listed := s.listed ++ runners }
    else none
  | .lastPage =>
    if s.listing = true then
      some { s with
        listing := false
        link := Requests.start s.link.server ((s.picked d).map (·.id)) }
    else none
  | .link e => (Requests.step server d.policy s.link e).map fun link => { s with link := link }

/-- What `delete_runners_by_prefix` returns, or the id of the runner in its error, once it is done. The others
count the outcomes, or nothing. -/
def result (s : Deregistration) : Option (Except UInt64 Nat) :=
  if s.listing = true ∨ s.link.todo ≠ [] then none
  else match s.link.outcomes.find? fun o => !o.2 with
    | some o => some (.error o.1)
    | none => some (.ok s.link.outcomes.length)

end Deregistration

end VmFleet
