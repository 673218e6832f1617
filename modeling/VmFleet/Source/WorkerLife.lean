import VmFleet.Source.Supervisor
import VmFleet.Source.Sweep

/-!
# The life of a worker

`lifecycle` of `worker.rs` with the functions it calls, and the cleanup after it, in a process that gets
no signal. What each command and each request comes to is an input. So is what a loop sees round by round,
up to the round it is in; a loop that has seen no reason to end goes on waiting. No VM has the worker's
name before it clones one.
-/

namespace VmFleet

/-! ### Config and commands -/

/-- `base_for`, none where it would index an empty list: a validated config has a base. -/
def Config.baseFor (cfg : Config) (pool : Pool) : Option Base :=
  match pool.base with
  | some n => (cfg.bases.find? (·.name == n)).or cfg.bases.head?
  | none => cfg.bases.head?

def GitHub.runnerUrl (gh : GitHub) : Except String String :=
  match gh.repo, gh.org with
  | some r, none => .ok ("https://github.com/" ++ r)
  | none, some o => .ok ("https://github.com/" ++ o)
  | _, _ => gh.scopePath

def Pool.labelsCsv (p : Pool) : String := ",".intercalate p.labels

namespace Multipass

def versionCommand : Command := ⟨"multipass", ["version"], 10⟩

def infoCommand (name : String) : Command := ⟨"multipass", ["info", name], 20⟩

def cloneCommand (base name : String) : Command := ⟨"multipass", ["clone", base, "--name", name], 180⟩

def setCommand (key value : String) : Command := ⟨"multipass", ["set", key ++ "=" ++ value], 30⟩

def setCpusCommand (vm : String) (cpus : UInt32) : Command :=
  setCommand ("local." ++ vm ++ ".cpus") (toString cpus.toNat)

def setMemoryCommand (vm mem : String) : Command := setCommand ("local." ++ vm ++ ".memory") mem

def startCommand (name : String) : Command := ⟨"multipass", ["start", name], 180⟩

def execArgs (name script : String) : List String := ["exec", name, "--", "bash", "-lc", script]

def execCommand (name script : String) (timeout : UInt64) : Command :=
  ⟨"multipass", execArgs name script, timeout.toNat⟩

end Multipass

/-- Whether a command has returned with exit status 0. -/
def exitsZero : Answer → Bool
  | .ok o => o.ok
  | .error _ => false

/-! ### What a worker gets to see -/

/-- A round of `wait_cloud_init`. -/
structure CloudInitRound where
  answer : Answer
  /-- The deadline has passed after it. -/
  late : Bool

/-- A round of `wait_registration`. -/
structure RegistrationRound where
  childRuns : Bool
  listed : Except String (List Runner)
  late : Bool

/-- A round of `health_monitor`. -/
structure HealthRound where
  childRuns : Bool
  listed : Except String (List Runner)
  /-- When the runner is found unhealthy, and when that is compared with the grace. -/
  found : Instant
  compared : Instant

structure LifeOutcomes where
  version : Answer
  info : Answer
  reachable : Except String Unit
  sweep : SweepRead
  stateWritten : Bool
  registrationToken : Except String String
  /-- What `acquire` returns with, if it does. -/
  acquired : Option (Except String Unit)
  clone : Answer
  /-- The VM exists when `lifecycle` returns, if the clone has been asked for: the daemon may have made it
  whatever the client came back with. -/
  cloned : Bool
  setCpus : Answer
  setMemory : Answer
  start : Answer
  cloudInit : List CloudInitRound
  setupSwap : Answer
  configSh : Answer
  jitconfig : Except String String
  spawned : Except String Unit
  registration : List RegistrationRound
  health : List HealthRound
  /-- `list_runners` in the cleanup. -/
  listed : Except String (List Runner)
  /-- The two deletions of the purge. -/
  purge : Answer × Answer

/-! ### What it does -/

inductive RunnerState where
  | online
  | offline
  | absent
  | unknown
  deriving DecidableEq

def runnerState (own : String) (listed : Except String (List Runner)) : RunnerState :=
  match listed with
  | .error _ => .unknown
  | .ok rs =>
    match rs.find? (·.name == own) with
    | none => .absent
    | some r => if r.online then .online else .offline

/-- Why `lifecycle` has not come to its end: it has failed, or it is still waiting. -/
inductive Stop where
  | failed (message : String)
  | waiting
  deriving DecidableEq

structure LifeState where
  /-- The commands, but for those of the sweep that are in `reaped`. -/
  issued : List Command := []
  /-- The VMs reaped in the sweep. -/
  reaped : List Reap := []
  stateFile : Option String := none
  /-- Whether a VM of the worker's name exists, as far as this worker is concerned. -/
  vm : Bool := false
  created : Bool := false
  runChild : Bool := false

abbrev Life := ExceptT Stop (StateM LifeState)

namespace WorkerLife

def orFail {α : Type} : Except String α → Life α
  | .ok a => return a
  | .error e => throw (.failed e)

def context {α : Type} (message : String) (x : Except String α) : Except String α :=
  x.mapError fun _ => message

def issue (c : Command) : Life Unit := modify fun s => { s with issued := s.issued ++ [c] }

/-- `cmd::checked`. -/
def runChecked (c : Command) (answer : Answer) : Life String := do
  issue c
  orFail (checked c answer)

/-- `available` and `exists`. -/
def succeeds (c : Command) (answer : Answer) : Life Bool := do
  issue c
  return exitsZero answer

/-- The call must succeed, or `lifecycle` ends with this message. -/
def ensure (c : Command) (answer : Answer) (message : String) : Life Unit := do
  if ← succeeds c answer then return else throw (.failed message)

def cloneFrom (base own : String) (out : LifeOutcomes) : Life Unit := do
  modify fun s => { s with vm := out.cloned }
  discard (runChecked (Multipass.cloneCommand base own) out.clone)

def waitCloudInit (vm : String) (timeout : UInt64) : List CloudInitRound → Life Unit
  | [] => throw .waiting
  | round :: rest => do
    if ← succeeds (Multipass.execCommand vm "cloud-init status --wait" (min timeout 120)) round.answer then
      return
    else if round.late then throw (.failed ("VM did not become ready: " ++ vm))
    else waitCloudInit vm timeout rest

def swapScript (size : String) : String :=
  "set -euo pipefail; f=/swapfile; " ++
    "if swapon --show=NAME --noheadings | grep -qx \"$f\"; then exit 0; fi; " ++
    "sudo swapoff \"$f\" 2>/dev/null || true; sudo rm -f \"$f\"; " ++
    "sudo fallocate -l " ++ size ++ " \"$f\"; sudo chmod 600 \"$f\"; sudo mkswap \"$f\" >/dev/null; " ++
    "sudo swapon \"$f\"; " ++ "grep -qE '^/swapfile ' /etc/fstab || " ++
    "echo '/swapfile none swap sw 0 0' | sudo tee -a /etc/fstab >/dev/null"

/-- Its answer is ignored. -/
def setupSwap (vm size : String) (timeout : UInt64) : Life Unit :=
  issue (Multipass.execCommand vm (swapScript size) timeout)

def configScript (url token own labels : String) : String :=
  "set -euo pipefail; cd ~/actions-runner; ./config.sh --unattended --url '" ++ url ++ "' --token '" ++
    token ++ "' --name '" ++ own ++ "' --labels '" ++ labels ++ "' --ephemeral --replace"

def runConfigSh (cfg : Config) (pool : Pool) (own token : String) (answer : Answer) : Life Unit := do
  let url ← orFail cfg.github.runnerUrl
  issue (Multipass.execCommand own (configScript url token own pool.labelsCsv)
    cfg.worker.configTimeoutSeconds)
  let o ← orFail answer
  if o.ok then return else throw (.failed ("config.sh failed: " ++ Text.trim o.stderr))

/-- `child_alive`: there is a child, and `try_wait` finds that it runs. -/
def childAlive (childRuns : Bool) : Life Bool := do
  return (← get).runChild && childRuns

def waitRegistration (own : String) (timeout : UInt64) : List RegistrationRound → Life Unit
  | [] => throw .waiting
  | round :: rest => do
    if ← childAlive round.childRuns then
      if runnerState own round.listed = .online ∨ runnerState own round.listed = .offline then return
      else if round.late then
        throw (.failed ("runner did not register within " ++ toString timeout.toNat ++ "s: " ++ own))
      else waitRegistration own timeout rest
    else throw (.failed ("run.sh exited before registration: " ++ own))

/-- Since when the runner is unhealthy, after a round. -/
def unhealthyAfter (own : String) (since : Option Instant) (round : HealthRound) : Option Instant :=
  match runnerState own round.listed with
  | .online => none
  | .unknown => since
  | .absent | .offline => some (since.getD round.found)

/-- Whether a round finds the runner unhealthy for the whole grace. -/
def recycles (own : String) (grace : UInt64) (since : Option Instant) (round : HealthRound) : Bool :=
  match runnerState own round.listed with
  | .online | .unknown => false
  | .absent | .offline => decide (fromSecs grace ≤ round.compared - since.getD round.found)

def healthMonitor (own : String) (grace : UInt64) : Option Instant → List HealthRound → Life Unit
  | _, [] => throw .waiting
  | since, round :: rest => do
    if ← childAlive round.childRuns then
      if recycles own grace since round then return
      else healthMonitor own grace (unhealthyAfter own since round) rest
    else return

/-! ### `lifecycle` -/

def chooseBase (cfg : Config) (pool : Pool) : Life Base :=
  match cfg.baseFor pool with
  | some base => return base
  | none => throw (.failed "index out of bounds: the len is 0 but the index is 0")

/-- `sweep_leftovers`, and the write of the state file. -/
def sweepAndMark (pool : Pool) (slot : Nat) (own : String) (out : LifeOutcomes) : Life Unit :=
  modify fun s => { s with
    issued := s.issued ++ [Multipass.listCommand]
    reaped := sweepLeftovers own pool.name slot out.sweep
    stateFile := if out.stateWritten then some (own ++ "\n") else out.sweep.stateFile }

/-- Only the flow without JIT needs the token. -/
def registrationToken (cfg : Config) (out : LifeOutcomes) : Life (Option String) :=
  if cfg.supervisor.useJit then return none
  else do
    let token ← orFail (context "registration token" out.registrationToken)
    return some token

def acquire (out : LifeOutcomes) : Life Unit :=
  match out.acquired with
  | some granted => orFail granted
  | none => throw .waiting

/-- Up to the grant of the gate. -/
def prepare (cfg : Config) (pool : Pool) (slot : Nat) (own : String) (out : LifeOutcomes) :
    Life (Base × Option String) := do
  ensure Multipass.versionCommand out.version "multipass daemon not available"
  let base ← chooseBase cfg pool
  ensure (Multipass.infoCommand base.name) out.info
    ("base VM does not exist: " ++ base.name ++ " (run `vmfleet build-base`)")
  orFail (context "GitHub not reachable" out.reachable)
  sweepAndMark pool slot own out
  let token ← registrationToken cfg out
  acquire out
  return (base, token)

def swapIfSet (cfg : Config) (pool : Pool) (own : String) : Life Unit :=
  match pool.swap with
  | some size => setupSwap own size cfg.worker.configTimeoutSeconds
  | none => return

def configureIfToken (cfg : Config) (pool : Pool) (own : String) (token : Option String)
    (out : LifeOutcomes) : Life Unit :=
  match token with
  | some token => runConfigSh cfg pool own token out.configSh
  | none => return

def runCommand (cfg : Config) (out : LifeOutcomes) : Life String :=
  if cfg.supervisor.useJit then do
    let jit ← orFail (context "generate-jitconfig" out.jitconfig)
    return "cd ~/actions-runner && ./run.sh --jitconfig '" ++ jit ++ "'"
  else return "cd ~/actions-runner && ./run.sh"

/-- From the flag on. The gate is released once the VM has settled. -/
def serve (cfg : Config) (pool : Pool) (own : String) (token : Option String) (out : LifeOutcomes) :
    Life Unit := do
  modify fun s => { s with created := true }
  discard (runChecked (Multipass.setCpusCommand own pool.cpus) out.setCpus)
  discard (runChecked (Multipass.setMemoryCommand own pool.memory) out.setMemory)
  discard (runChecked (Multipass.startCommand own) out.start)
  waitCloudInit own cfg.worker.cloudInitTimeoutSeconds out.cloudInit
  swapIfSet cfg pool own
  configureIfToken cfg pool own token out
  let runCmd ← runCommand cfg out
  -- spawned, and without a timeout
  issue ⟨"multipass", Multipass.execArgs own runCmd, 0⟩
  orFail (context "spawning run.sh" out.spawned)
  modify fun s => { s with runChild := true }
  waitRegistration own cfg.worker.registrationTimeoutSeconds out.registration
  healthMonitor own cfg.worker.offlineGraceSeconds none out.health

/-- `lifecycle` of the worker whose VM is to be called `own`. -/
def lifecycle (cfg : Config) (pool : Pool) (slot : Nat) (own : String) (out : LifeOutcomes) :
    Life Unit := do
  let ready ← prepare cfg pool slot own out
  cloneFrom ready.1.name own out
  serve cfg pool own ready.2 out

/-! ### `cleanup` -/

structure Cleanup where
  childKilled : Bool
  deletedRunners : List UInt64
  commands : List Command

/-- The first cleanup, which finds `cleaned` unset. -/
def cleanup (own : String) (out : LifeOutcomes) (s : LifeState) : Cleanup where
  childKilled := s.runChild
  deletedRunners := match out.listed with
    | .ok rs => (rs.filter (·.name == own)).map (·.id)
    | .error _ => []
  commands := if s.created then (Multipass.purge own out.purge.1 out.purge.2).1 else []

/-- How the process ends, what `lifecycle` has left, and what the cleanup has done. -/
structure Ended where
  result : Except String Unit
  left : LifeState
  cleanup : Cleanup

/-- `lifecycle`, and the cleanup in the drop of the guard when it has returned. -/
def run (cfg : Config) (pool : Pool) (slot : Nat) (own : String) (out : LifeOutcomes) : Option Ended :=
  match StateT.run (ExceptT.run (lifecycle cfg pool slot own out)) { stateFile := out.sweep.stateFile } with
  | (.ok (), s) => some ⟨.ok (), s, WorkerLife.cleanup own out s⟩
  | (.error (.failed e), s) => some ⟨.error e, s, WorkerLife.cleanup own out s⟩
  | (.error .waiting, _) => none

end WorkerLife

end VmFleet
