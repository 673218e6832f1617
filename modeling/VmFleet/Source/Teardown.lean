import VmFleet.Source.BuildBase
import VmFleet.Source.Listing
import VmFleet.Source.Uninstall

/-!
# One run of `uninstall`

`uninstall` of `commands.rs` with `Config::token` and `delete_runners_by_prefix`: what it does, step by step,
up to its end or to the error that ends it. What it reads and what its commands come to are inputs. Of the
requests only which ones there are is kept, and what is printed is left out.
-/

namespace VmFleet

/-- `Config::token`, given the environment and what the token file holds, if it can be read. -/
def Config.token (cfg : Config) (env file : Option String) : Except String String :=
  match env.bind fun t => if Text.trim t = "" then none else some (Text.trim t) with
  | some t => .ok t
  | none =>
    match file with
    | some t => .ok (Text.trim t)
    | none => .error ("reading token_file " ++ cfg.github.tokenFile)

structure UninstallOpts where
  purgeAll : Bool
  yes : Bool

structure UninstallPaths where
  home : String
  configFile : String
  systemdUserDir : String
  stateDir : String

/-- What `uninstall` gets to see. -/
structure TeardownOutcomes where
  /-- The prompt. -/
  confirmed : Except String Bool
  activeUnits : Answer
  config : ConfigText
  envToken : Option String
  tokenFile : Option String
  runners : Except String (List Runner)
  deleteRunner : UInt64 → Except String Unit
  vms : Answer
  /-- The two deletions of the purge of a VM. -/
  purge : String → Answer × Answer

inductive TeardownStep where
  | run (c : Command)
  | listRunners (c : Client)
  | deleteRunner (c : Client) (id : UInt64)
  | removeFile (path : String)
  | removeDirAll (path : String)

/-- The state is what has been done. -/
abbrev Teardown := ExceptT String (StateM (List TeardownStep))

namespace Teardown

variable (opts : UninstallOpts) (paths : UninstallPaths) (out : TeardownOutcomes)

/-- Steps whose failure is ignored. -/
def perform (steps : List TeardownStep) : Teardown Unit := modify (· ++ steps)

def confirm : Teardown Bool := if opts.yes then return true else ofExcept out.confirmed

def stopUnits : Teardown Unit := do
  perform [.run (Systemd.disableNow supervisorUnit), .run (Systemd.disableNow gcTimer)]
  perform ([supervisorUnit, gcTimer, gcService].map fun u => .removeFile (joinPath paths.systemdUserDir u))
  perform [.run (Systemd.listActiveCommand workerUnitGlob)]
  perform (((Systemd.listActive out.activeUnits).toOption.getD []).flatMap fun unit =>
    (Systemd.stop unit).map .run)
  perform [.run Systemd.daemonReload]

/-- The loop of `delete_runners_by_prefix`. -/
def deleteRunners (c : Client) : List Runner → Teardown Unit
  | [] => return
  | r :: rest => do
    perform [.deleteRunner c r.id]
    ofExcept (out.deleteRunner r.id)
    deleteRunners c rest

def deleteRunnersByPrefix (c : Client) (start : String) : Teardown Unit := do
  perform [.listRunners c]
  let runners ← ofExcept out.runners
  deleteRunners out c (runners.filter fun r => Text.startsWith r.name start)

/-- An error of the deletions is a warning. -/
def deregister (cfg : Config) : Teardown Unit := do
  let token ← ofExcept (cfg.token out.envToken out.tokenFile)
  match Client.new cfg.github token with
  | .ok c => tryCatch (deleteRunnersByPrefix out c vmPrefix) fun _ => return
  | .error _ => return

def purgeVms (cfg : Option Config) : Teardown Unit := do
  perform [.run Multipass.listCommand]
  let vms ← ofExcept (Multipass.list out.vms)
  perform ((uninstallPurges cfg opts.purgeAll vms).flatMap fun name =>
    (Multipass.purge name (out.purge name).1 (out.purge name).2).1.map .run)

def removeFiles (cfg : Option Config) : Teardown Unit :=
  if opts.purgeAll then
    perform ((cfg.map fun cfg => TeardownStep.removeFile cfg.github.tokenFile).toList ++
      [.removeDirAll paths.stateDir, .removeFile paths.configFile])
  else return

/-- `Config::load(..).ok()`. -/
def loaded : Option Config := (Config.loadFile paths.home paths.configFile out.config).toOption

def deregisterLoaded : Option Config → Teardown Unit
  | some cfg => deregister out cfg
  | none => return

def uninstall : Teardown Unit := do
  if ← confirm opts out then do
    stopUnits paths out
    deregisterLoaded out (loaded paths out)
    purgeVms opts out (loaded paths out)
    removeFiles opts paths (loaded paths out)
  else return

/-- What has been done when it ends. -/
def steps : List TeardownStep := (StateT.run (ExceptT.run (uninstall opts paths out)) []).2

end Teardown

end VmFleet
