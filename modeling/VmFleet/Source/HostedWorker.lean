import VmFleet.Source.WorkerThreads

/-!
# What a worker leaves behind

The two threads of a worker process beside the two things that outlive it: the VM and the runner record
of its name. All calls of a cleanup succeed here; those of `lifecycle` may fail as before. One that has
failed, because it timed out for instance, may still be carried out.
-/

namespace VmFleet

/-- The calls that make a runner record. -/
def Call.registers : Call → Bool
  | .configSh | .jitconfig => true
  | _ => false

/-- The calls on the VM, which fail when there is none. -/
def Call.onVm : Call → Bool
  | .setCpus | .setMemory | .start | .waitCloudInit | .configSh => true
  | _ => false

/-- The calls that make something which outlives the process. -/
def Call.makes (c : Call) : Bool := c == .cloneFrom || c.registers

structure HostedWorker where
  threads : WorkerThreads
  /-- Whether a VM of the worker's name exists. -/
  vm : Bool
  /-- Whether a runner record of the worker's name exists. -/
  record : Bool
  /-- The calls that have failed here and that multipass or GitHub may still carry out. -/
  late : List Call

inductive HostedEvent where
  | thread (e : ThreadEvent)
  /-- A call that has failed is carried out after all. -/
  | late (c : Call)
  /-- GitHub removes the record of an ephemeral runner that has done its job. -/
  | jobDone
  deriving DecidableEq

namespace HostedWorker

def init (useJit swap : Bool) : HostedWorker := ⟨WorkerThreads.init useJit swap, false, false, []⟩

/-- The call `lifecycle` makes next, if the event is that it succeeds. -/
def succeeds (s : HostedWorker) : ThreadEvent → Option Call
  | .call true => s.threads.todo.head?
  | _ => none

/-- The call that fails, if the event is that. -/
def givesUp (s : HostedWorker) : ThreadEvent → Option Call
  | .call false => s.threads.todo.head?
  | _ => none

/-- Where the thread is in the cleanup, if the event is its next step there. -/
def cleansUp (s : HostedWorker) : ThreadEvent → Option ThreadPc
  | .cleanup t => some (s.threads.pc t)
  | _ => none

def vmAfter (s : HostedWorker) (e : ThreadEvent) : Bool :=
  if s.succeeds e = some .cloneFrom then true
  else if s.cleansUp e = some .purge ∧ s.threads.created then false
  else s.vm

def recordAfter (s : HostedWorker) (e : ThreadEvent) : Bool :=
  if (s.succeeds e).any Call.registers then true
  else if s.cleansUp e = some .deregister then false
  else s.record

def lateAfter (s : HostedWorker) (e : ThreadEvent) : List Call :=
  ((s.givesUp e).filter Call.makes).toList ++ s.late

def step (s : HostedWorker) : HostedEvent → Option HostedWorker
  | .thread e =>
    if (s.succeeds e).any Call.onVm && !s.vm then none
    else (s.threads.step e).map fun threads => ⟨threads, s.vmAfter e, s.recordAfter e, s.lateAfter e⟩
  | .late c =>
    if c ∈ s.late ∧ (c.onVm = true → s.vm = true) then
      some { s with
        vm := s.vm || c == .cloneFrom
        record := s.record || c.registers
        late := s.late.erase c }
    else none
  | .jobDone => some { s with record := false }

end HostedWorker

end VmFleet
