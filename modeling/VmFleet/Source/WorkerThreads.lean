import Mathlib.Data.List.Basic

/-!
# The threads of a worker process

`run`, `lifecycle` and `Ctx::cleanup` of `worker.rs`. The main thread goes through the calls of
`lifecycle` and then runs the cleanup in the drop of its guard; the signal thread runs the same cleanup
when a signal arrives and then ends the process. They share the flags `cleaned` and `created` and the
mutex around `run_child`, and either may take the next step at any time.
-/

namespace VmFleet

/-! ### The main thread -/

inductive Call where
  | available
  | baseExists
  | reachable
  | sweepLeftovers
  | writeState
  | registrationToken
  | acquire
  | cloneFrom
  | storeCreated
  | setCpus
  | setMemory
  | start
  | settle
  | waitCloudInit
  | setupSwap
  | configSh
  | jitconfig
  | spawnRunSh
  | storeChild
  | waitRegistration
  | healthMonitor
  deriving DecidableEq

/-- The calls that depend on the config: a registration token is asked for and `config.sh` run only
without a JIT config. -/
def Call.needed (useJit swap : Bool) : Call → Bool
  | .registrationToken | .configSh => !useJit
  | .jitconfig => useJit
  | .setupSwap => swap
  | _ => true

def lifecycle (useJit swap : Bool) : List Call :=
  [.available, .baseExists, .reachable, .sweepLeftovers, .writeState, .registrationToken, .acquire,
    .cloneFrom, .storeCreated, .setCpus, .setMemory, .start, .settle, .waitCloudInit, .setupSwap, .configSh,
    .jitconfig, .spawnRunSh, .storeChild, .waitRegistration, .healthMonitor].filter (·.needed useJit swap)

/-- Whether `lifecycle` returns with an error when the call fails. -/
def Call.mayFail : Call → Bool
  | .sweepLeftovers | .writeState | .storeCreated | .settle | .setupSwap | .storeChild
  | .healthMonitor => false
  | _ => true

/-- The loops on `child_alive`. -/
def Call.polls : Call → Bool
  | .waitRegistration | .healthMonitor => true
  | _ => false

/-! ### The state -/

inductive ThreadId where
  | main
  | signal
  deriving DecidableEq

def ThreadId.other : ThreadId → ThreadId
  | .main => .signal
  | .signal => .main

/-- Where a thread is in `cleanup`: before it, about to take a step, or back from it. With `killChild` it
holds the lock and the child. -/
inductive ThreadPc where
  | away
  | swap
  | takeChild
  | killChild
  | deregister
  | purge
  | removeState
  | finished
  deriving DecidableEq

/-- The steps of a cleanup. -/
inductive CleanupStep where
  /-- Take the child of `run.sh` out of `run_child` and kill it, if there is one. -/
  | killChild
  | deregister
  /-- Purge the VM if `created` is set. -/
  | purge
  | removeState
  deriving DecidableEq

inductive Signal where
  | int
  | term
  deriving DecidableEq

/-- The shared state of the two threads, and how far they are. `todo` is what is left of `lifecycle`;
`cloned` and `running` say that the clone has succeeded and that the process of `run.sh` runs. -/
structure WorkerThreads where
  todo : List Call
  /-- In a loop on `child_alive`, what it has returned. -/
  polled : Option Bool
  failed : Bool
  main : ThreadPc
  signal : ThreadPc
  sig : Option Signal
  cleaned : Bool
  created : Bool
  runChild : Bool
  /-- Who holds the lock of `run_child` over more than one step. -/
  lock : Option ThreadId
  cloned : Bool
  running : Bool
  attempted : List CleanupStep
  /-- The first step found no child although `run.sh` was running. -/
  childMissed : Bool
  /-- The purge was skipped although the clone had succeeded. -/
  vmMissed : Bool
  exitCode : Option Nat

inductive ThreadEvent where
  | call (ok : Bool)
  | childAlive
  | pollAgain
  | childExits
  | deliver (sig : Signal)
  | cleanup (t : ThreadId)
  /-- The main thread returns from `main`, or the signal thread calls `exit`. -/
  | exit (t : ThreadId)
  deriving DecidableEq

namespace WorkerThreads

def init (useJit swap : Bool) : WorkerThreads where
  todo := lifecycle useJit swap
  polled := none
  failed := false
  main := .away
  signal := .away
  sig := none
  cleaned := false
  created := false
  runChild := false
  lock := none
  cloned := false
  running := false
  attempted := []
  childMissed := false
  vmMissed := false
  exitCode := none

def pc (s : WorkerThreads) : ThreadId → ThreadPc
  | .main => s.main
  | .signal => s.signal

def setPc (s : WorkerThreads) (t : ThreadId) (pc : ThreadPc) : WorkerThreads :=
  match t with
  | .main => { s with main := pc }
  | .signal => { s with signal := pc }

/-! ### The steps -/

/-- Whether a call can return so. `storeChild` waits for the lock, and a loop decides on what
`child_alive` has returned. -/
def returns (s : WorkerThreads) (c : Call) (ok : Bool) : Bool :=
  match c with
  | .storeChild => ok && s.lock.isNone
  | .waitRegistration => s.polled == some true || (s.polled == some false && !ok)
  | .healthMonitor => ok && s.polled.isSome
  | c => ok || c.mayFail

def afterCall (s : WorkerThreads) : Call → WorkerThreads
  | .cloneFrom => { s with cloned := true }
  | .storeCreated => { s with created := true }
  | .spawnRunSh => { s with running := true }
  | .storeChild => { s with runChild := true }
  | _ => s

/-- `lifecycle` goes on with the rest, or returns, and the drop of the guard calls `cleanup`. -/
def proceed (s : WorkerThreads) (rest : List Call) : WorkerThreads :=
  { s with todo := rest, polled := none, main := if rest = [] then .swap else s.main }

def record (s : WorkerThreads) (t : ThreadId) (step : CleanupStep) (next : ThreadPc) : WorkerThreads :=
  { s with attempted := s.attempted ++ [step] }.setPc t next

def cleanupStep (s : WorkerThreads) (t : ThreadId) : Option WorkerThreads :=
  match s.pc t with
  | .away | .finished => none
  | .swap =>
    if s.cleaned then some (s.setPc t .finished)
    else some ({ s with cleaned := true }.setPc t .takeChild)
  | .takeChild =>
    if s.lock.isSome then none
    else if s.runChild then some ({ s with runChild := false, lock := some t }.setPc t .killChild)
    else some ({ s with childMissed := s.childMissed || s.running }.record t .killChild .deregister)
  | .killChild => some ({ s with running := false, lock := none }.record t .killChild .deregister)
  | .deregister => some (s.record t .deregister .purge)
  | .purge =>
    some ({ s with vmMissed := s.vmMissed || (s.cloned && !s.created) }.record t .purge .removeState)
  | .removeState => some (s.record t .removeState .finished)

def exitWith (s : WorkerThreads) : ThreadId → Nat
  | .main => if s.failed then 1 else 0
  | .signal => if s.sig = some .int then 130 else 143

def liveStep (s : WorkerThreads) : ThreadEvent → Option WorkerThreads
  | .call ok =>
    match s.todo with
    | [] => none
    | c :: rest =>
      if s.returns c ok then
        if ok then some ((s.afterCall c).proceed rest)
        else some ({ s with failed := true }.proceed [])
      else none
  | .childAlive =>
    match s.todo with
    | [] => none
    | c :: _ =>
      if c.polls ∧ s.polled = none ∧ s.lock = none then
        some { s with polled := some (s.runChild && s.running) }
      else none
  | .pollAgain => if s.polled = some true then some { s with polled := none } else none
  | .childExits => if s.running then some { s with running := false } else none
  | .deliver sig =>
    if s.signal = .away then some { s with signal := .swap, sig := some sig } else none
  | .cleanup t => s.cleanupStep t
  | .exit t =>
    if s.pc t = .finished then some { s with exitCode := some (s.exitWith t) } else none

def step (s : WorkerThreads) (e : ThreadEvent) : Option WorkerThreads :=
  if s.exitCode = none then s.liveStep e else none

end WorkerThreads

end VmFleet
