import VmFleet.Source.WorkerLife
import Mathlib.Logic.Function.Basic

/-!
# Building the base VMs

`build_base` and `build_one_base` of `commands.rs`. What each command comes to is an input, and so is what
the daemon makes of it: a client that fails or runs into its timeout need not have stopped it. Nobody else
makes or removes a base VM meanwhile. What is printed is left out.
-/

namespace VmFleet

/-! ### Config file -/

/-- What the path of the config file leads to. -/
inductive ConfigText where
  | unreadable
  | unparseable
  | tables (parsed : Config)

/-- `Config::load`. -/
def Config.loadFile (home path : String) : ConfigText → Except String Config
  | .unreadable => .error ("reading config " ++ path)
  | .unparseable => .error ("parsing config " ++ path)
  | .tables parsed => Config.load home parsed

/-! ### Commands -/

namespace Multipass

def stopCommand (name : String) : Command := ⟨"multipass", ["stop", name], 120⟩

def transferCommand (source vm remote : String) : Command :=
  ⟨"multipass", ["transfer", source, vm ++ ":" ++ remote], 120⟩

def launchCommand (image name : String) (cpus : UInt32) (memory disk : String) : Command :=
  ⟨"multipass", ["launch", image, "--name", name, "--cpus", toString cpus.toNat, "--memory", memory,
    "--disk", disk], 900⟩

end Multipass

/-! ### What a build gets to see -/

structure ScriptOutcomes where
  /-- The script exists on the host. -/
  found : Bool
  transfer : Answer
  exec : Answer
  /-- The script completes with exit status 0 although the client does not say so. -/
  completesAnyway : Bool

/-- Whether the script completes in the VM with exit status 0, once it has been run. -/
def ScriptOutcomes.completes (o : ScriptOutcomes) : Bool := exitsZero o.exec || o.completesAnyway

structure BaseOutcomes where
  /-- `info` on a VM that exists. -/
  info : Answer
  /-- The two deletions of the purge. -/
  purge : Answer × Answer
  /-- The VM is gone although the purge fails. -/
  purgedAnyway : Bool
  /-- `launch` with a name that is free. -/
  launch : Answer
  /-- The VM is made although the launch fails. -/
  launchedAnyway : Bool
  /-- What `launch` complains of a name that is taken. -/
  taken : String
  /-- By the number of the script. -/
  script : Nat → ScriptOutcomes

/-- Whether `launch` makes a VM of a name that is free. -/
def BaseOutcomes.makes (out : BaseOutcomes) : Bool := exitsZero out.launch || out.launchedAnyway

/-- Whether a purge ends with success. -/
def BaseOutcomes.purgeSucceeds (out : BaseOutcomes) (name : String) : Bool :=
  (Multipass.purge name out.purge.1 out.purge.2).2.isOk

/-! ### What it does -/

structure BaseVm where
  /-- A build has launched it. -/
  launched : Bool
  /-- The scripts that have completed in it with exit status 0. -/
  completed : List String
  deriving DecidableEq

structure BuildState where
  vms : String → Option BaseVm
  /-- The commands, each with the base it is for. -/
  issued : List (String × Command) := []

abbrev Build := ExceptT String (StateM BuildState)

def BuildState.setVm (s : BuildState) (name : String) (vm : Option BaseVm) : BuildState :=
  { s with vms := Function.update s.vms name vm }

namespace BuildBase

def issue (name : String) (cs : List Command) : Build Unit :=
  modify fun s => { s with issued := s.issued ++ cs.map (name, ·) }

/-- `cmd::checked`, its output not used. -/
def runChecked (name : String) (c : Command) (answer : Answer) : Build Unit := do
  issue name [c]
  discard (ofExcept (checked c answer))

/-- `exists`: a VM that is not there has no info. -/
def existsVm (name : String) (out : BaseOutcomes) : Build Bool := do
  issue name [Multipass.infoCommand name]
  return ((← get).vms name).isSome && exitsZero out.info

def purge (name : String) (out : BaseOutcomes) : Build Unit := do
  issue name (Multipass.purge name out.purge.1 out.purge.2).1
  modify fun s => if out.purgeSucceeds name || out.purgedAnyway then s.setVm name none else s
  ofExcept (Multipass.purge name out.purge.1 out.purge.2).2

def launch (base : Base) (out : BaseOutcomes) : Build Unit := do
  let command := Multipass.launchCommand base.image base.name base.cpus base.memory base.disk
  if ((← get).vms base.name).isSome then runChecked base.name command (.ok ⟨2, "", out.taken⟩)
  else do
    modify fun s => if out.makes then s.setVm base.name (some ⟨true, []⟩) else s
    runChecked base.name command out.launch

/-- The script has been run in the VM. -/
def recordScript (name script : String) (o : ScriptOutcomes) : Build Unit :=
  modify fun s => if o.completes then
    s.setVm name ((s.vms name).map fun vm => { vm with completed := vm.completed ++ [script] })
  else s

def remotePath (i : Nat) : String := "/tmp/vmfleet-provision-" ++ toString i ++ ".sh"

def provisionScript (base : Base) (i : Nat) : String :=
  "chmod +x " ++ remotePath i ++ " && RUNNER_VERSION='" ++ base.runnerVersion ++ "' sudo -E bash " ++
    remotePath i

/-- The loop over the setup scripts, from script `i` on. -/
def provision (base : Base) (dir : String) (out : BaseOutcomes) : Nat → List String → Build Unit
  | _, [] => return
  | i, script :: rest => do
    let source := joinPath dir script
    if (out.script i).found then do
      runChecked base.name (Multipass.transferCommand source base.name (remotePath i)) (out.script i).transfer
      issue base.name [Multipass.execCommand base.name (provisionScript base i) 1800]
      recordScript base.name script (out.script i)
      let o ← ofExcept (out.script i).exec
      if o.ok then provision base dir out (i + 1) rest
      else throw ("provision script " ++ script ++ " failed: " ++ Text.trim o.stderr)
    else throw ("setup script not found: " ++ source)

/-- `build_one_base` up to the launch. -/
def makeRoom (base : Base) (force : Bool) (out : BaseOutcomes) : Build Unit := do
  if ← existsVm base.name out then
    if force then purge base.name out
    else throw ("base VM `" ++ base.name ++ "` already exists; pass --force to rebuild")
  else return

/-- The wait for cloud-init, the stop and the list at the end may answer as they like. -/
def buildOneBase (base : Base) (dir : String) (force : Bool) (out : BaseOutcomes) : Build Unit := do
  makeRoom base force out
  launch base out
  issue base.name [Multipass.execCommand base.name "cloud-init status --wait" 300]
  provision base dir out 0 base.setupScripts
  issue base.name [Multipass.stopCommand base.name, Multipass.listCommand]

/-- The loop of `build_base`. The outcomes are those of the base with the name. -/
def buildBases (dir : String) (force : Bool) (outs : String → BaseOutcomes) : List Base → Build Unit
  | [] => return
  | base :: rest => do
    buildOneBase base dir force (outs base.name)
    buildBases dir force outs rest

end BuildBase

/-- One run of `build-base`. -/
structure BuildRun where
  force : Bool
  outs : String → BaseOutcomes

/-- `build_base`, where `dir` is the parent of the config file's path. -/
def buildBase (home path : String) (dir : Option String) (file : ConfigText) (run : BuildRun) :
    Build Unit := do
  let cfg ← ofExcept (Config.loadFile home path file)
  BuildBase.buildBases (dir.getD ".") run.force run.outs cfg.bases

end VmFleet
