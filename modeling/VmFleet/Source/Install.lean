import VmFleet.Source.ConfigWrite
import VmFleet.Source.Teardown
import Mathlib.Logic.Function.Basic

/-!
# Installing the fleet

`install` of `commands.rs` with `prompt_config`, `write_config` and the units it writes, and `migrate` of
`config.rs`. What is asked, what the commands answer and how far a write comes are inputs; the files of the
host are the state. Directories hold nothing of their own, so creating one can only fail. What is printed is
left out.
-/

namespace VmFleet

/-! ### Files -/

abbrev Files := String → Option (List UInt8)

def textBytes (text : String) : List UInt8 := Utf8.encode text.toList

/-- How `std::fs::write` ends: done, or with an error that leaves the file as it was or with a part of what
was to be written. -/
inductive WriteOutcome where
  | done
  | notOpened (e : String)
  | torn (n : Nat) (e : String)
  deriving DecidableEq

namespace WriteOutcome

def result : WriteOutcome → Except String Unit
  | .done => .ok ()
  | .notOpened e | .torn _ e => .error e

def write (o : WriteOutcome) (path : String) (content : List UInt8) (files : Files) : Files :=
  match o with
  | .done => Function.update files path (some content)
  | .notOpened _ => files
  | .torn n _ => Function.update files path (some (content.take n))

end WriteOutcome

/-- What `Config::load` finds at the path. -/
def Files.config (crate : TomlCrate) (files : Files) (path : String) : ConfigText :=
  match (files path).bind fromUtf8 with
  | some text => crate.read text
  | none => .unreadable

/-! ### Migration -/

/-- `config::CURRENT_VERSION`. -/
def Config.currentVersion : UInt32 := 1

/-- The migrated config, and whether it has changed. -/
def Config.migrate (cfg : Config) : Config × Bool :=
  if cfg.version < Config.currentVersion then ({ cfg with version := Config.currentVersion }, true)
  else (cfg, false)

/-! ### Commands -/

namespace Systemd

def enableNow (unit : String) : Command := ⟨"systemctl", ["--user", "enable", "--now", unit], 30⟩

def restart (unit : String) : Command := ⟨"systemctl", ["--user", "restart", unit], 30⟩

def showLinger (user : String) : Command :=
  ⟨"loginctl", ["show-user", user, "--property=Linger", "--value"], 10⟩

/-- `linger_enabled` looks at stdout alone. -/
def lingerEnabled (answer : Answer) : Bool :=
  match answer with
  | .ok o => Text.trim o.stdout == "yes"
  | .error _ => false

def ensureLinger (user : String) : Command := ⟨"loginctl", ["enable-linger", user], 15⟩

end Systemd

/-! ### What an installation gets to see -/

structure InstallOpts where
  nonInteractive : Bool := false
  dryRun : Bool := false
  upgrade : Bool := false
  deriving DecidableEq

structure InstallPaths where
  home : String
  user : String
  configFile : String
  /-- `abs` of the config file. -/
  absConfigFile : String
  systemdUserDir : String

def InstallPaths.unit (paths : InstallPaths) (name : String) : String := joinPath paths.systemdUserDir name

/-- The answers in the order they are asked for. -/
structure PromptAnswers where
  scope : Except String String
  tokenFile : Except String String
  /-- Asked for where the token file does not exist. -/
  token : Except String String
  vault : Except String String
  useJit : Except String Bool
  smallMax : Except String UInt32
  smallWarm : Except String UInt32
  smallLabel : Except String String
  baseImage : Except String String

structure InstallOutcomes where
  version : Answer
  prompts : PromptAnswers
  createTokenDir : Except String Unit
  writeToken : WriteOutcome
  createConfigDir : Except String Unit
  writeConfig : WriteOutcome
  linger : Answer
  enableLinger : Answer
  currentExe : Except String String
  createUnitDir : Except String Unit
  writeUnit : WriteOutcome
  /-- `install_gc_timer` creates the directory once more. -/
  createTimerDir : Except String Unit
  writeService : WriteOutcome
  writeTimer : WriteOutcome
  reload : Answer
  enableSupervisor : Answer
  enableTimer : Answer
  restart : Answer

/-! ### What it does -/

structure InstallHost where
  files : Files
  issued : List Command := []

abbrev Install := ExceptT String (StateM InstallHost)

namespace Install

def issue (c : Command) : Install Unit := modify fun s => { s with issued := s.issued ++ [c] }

/-- `cmd::checked`, its output not used. -/
def runChecked (c : Command) (answer : Answer) : Install Unit := do
  issue c
  discard (ofExcept (checked c answer))

def writeFile (path content : String) (o : WriteOutcome) : Install Unit := do
  modify fun s => { s with files := o.write path (textBytes content) s.files }
  ofExcept o.result

variable (crate : TomlCrate) (opts : InstallOpts) (paths : InstallPaths) (out : InstallOutcomes)

def writeConfig (cfg : Config) : Install Unit := do
  ofExcept out.createConfigDir
  match cfg.toToml with
  | some t =>
    tryCatch (writeFile paths.configFile (crate.render t) out.writeConfig)
      fun _ => throw ("writing " ++ paths.configFile)
  | none => throw "out-of-range value for u64 type"

/-- The repository or the organisation meant. -/
def scopeOf (scope : String) : Option String × Option String :=
  match Text.stripPrefix scope "@" with
  | some org => (none, some org)
  | none => (some scope, none)

def promptedConfig (scope tokenFile vault : String) (useJit : Bool) (smallMax smallWarm : UInt32)
    (smallLabel baseImage : String) : Config where
  version := Config.currentVersion
  github := { repo := (scopeOf scope).1, org := (scopeOf scope).2, tokenFile := tokenFile }
  storage := { vaultPath := vault }
  bases := [{ image := baseImage }]
  pools := [{
    name := "small"
    labels := [smallLabel]
    cpus := 4
    memory := "4GiB"
    swap := some "8G"
    minWarm := smallWarm
    max := smallMax
    slotBase := 101 }]
  supervisor := { useJit := useJit }

/-- The token is stored where the path was given, without expanding it. -/
def storeToken (tokenFile : String) : Install Unit := do
  if ((← get).files tokenFile).isSome then return
  else do
    let token ← ofExcept out.prompts.token
    ofExcept out.createTokenDir
    writeFile tokenFile (Text.trim token) out.writeToken

def promptConfig : Install Config := do
  let scope ← ofExcept out.prompts.scope
  let tokenFile ← ofExcept out.prompts.tokenFile
  storeToken out tokenFile
  let vault ← ofExcept out.prompts.vault
  let useJit ← ofExcept out.prompts.useJit
  let smallMax ← ofExcept out.prompts.smallMax
  let smallWarm ← ofExcept out.prompts.smallWarm
  let smallLabel ← ofExcept out.prompts.smallLabel
  let baseImage ← ofExcept out.prompts.baseImage
  let cfg := promptedConfig scope tokenFile vault useJit smallMax smallWarm smallLabel baseImage
  ofExcept cfg.validate
  return cfg

/-- With an existing config file. -/
def upgradeConfig (cfg : Config) : Install Config :=
  if opts.upgrade then
    if cfg.migrate.2 = true ∧ ¬ opts.dryRun then do
      writeConfig crate paths out cfg.migrate.1
      return cfg.migrate.1
    else return cfg.migrate.1
  else return cfg

/-- Without one. -/
def newConfig : Install Config := do
  let cfg ← promptConfig out
  if opts.dryRun then
    match cfg.toToml with
    | some _ => return cfg
    | none => throw "out-of-range value for u64 type"
  else do
    writeConfig crate paths out cfg
    return cfg

def obtainConfig : Install Config := do
  let files := (← get).files
  if (files paths.configFile).isSome then do
    let cfg ← ofExcept (Config.loadFile paths.home paths.configFile (files.config crate paths.configFile))
    upgradeConfig crate opts paths out cfg
  else if opts.nonInteractive then
    throw ("no config at " ++ paths.configFile ++ " and --non-interactive set; provide --config")
  else newConfig crate opts paths out

def enableLinger : Install Unit := do
  if opts.dryRun then return
  else do
    issue (Systemd.showLinger paths.user)
    if Systemd.lingerEnabled out.linger then return
    else runChecked (Systemd.ensureLinger paths.user) out.enableLinger

def supervisorUnitContents (exe : String) : String :=
  "[Unit]\nDescription=vmfleet autoscaling runner supervisor\nAfter=default.target\n\n[Service]\n" ++
    "Type=simple\nExecStart=\"" ++ exe ++ "\" --config \"" ++ paths.absConfigFile ++ "\" supervisor\n" ++
    "Restart=always\nRestartSec=10\nKillMode=process\n\n[Install]\nWantedBy=default.target\n"

def gcServiceContents (exe : String) : String :=
  "[Unit]\nDescription=vmfleet orphan GC\n\n[Service]\nType=oneshot\nExecStart=\"" ++ exe ++
    "\" --config \"" ++ paths.absConfigFile ++ "\" prune\n"

def gcTimerContents : String :=
  "[Unit]\nDescription=vmfleet orphan GC timer\n\n[Timer]\nOnCalendar=hourly\nPersistent=true\n\n" ++
    "[Install]\nWantedBy=timers.target\n"

def installGcTimer (exe : String) : Install Unit := do
  ofExcept out.createTimerDir
  writeFile (paths.unit gcService) (gcServiceContents paths exe) out.writeService
  writeFile (paths.unit gcTimer) gcTimerContents out.writeTimer

def installUnits (exe : String) : Install Unit := do
  ofExcept out.createUnitDir
  writeFile (paths.unit supervisorUnit) (supervisorUnitContents paths exe) out.writeUnit
  installGcTimer paths out exe
  runChecked Systemd.daemonReload out.reload
  runChecked (Systemd.enableNow supervisorUnit) out.enableSupervisor
  runChecked (Systemd.enableNow gcTimer) out.enableTimer
  if opts.upgrade then runChecked (Systemd.restart supervisorUnit) out.restart else return

/-- The answers only decide what is printed. -/
def noteBases (cfg : Config) : Install Unit :=
  modify fun s => { s with issued := s.issued ++ cfg.bases.map fun b => Multipass.infoCommand b.name }

def install : Install Unit := do
  issue Multipass.versionCommand
  if exitsZero out.version then do
    let cfg ← obtainConfig crate opts paths out
    enableLinger opts paths out
    let exe ← ofExcept out.currentExe
    if opts.dryRun then noteBases cfg
    else do
      installUnits opts paths out exe
      noteBases cfg
  else throw "multipass not available — install it first (snap install multipass)"

end Install

end VmFleet
