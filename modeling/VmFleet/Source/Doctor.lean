import VmFleet.Source.Admission
import VmFleet.Source.Install

/-!
# The doctor

`doctor` of `commands.rs` with `check_token` of `github.rs`. What the host, its commands and GitHub answer is
an input. A line is printed for each check, and what fails is counted.
-/

namespace VmFleet

structure DoctorHost where
  home : String
  configFile : String
  configExists : Bool
  config : ConfigText
  user : String
  multipass : Answer
  availMib : UInt64
  /-- How the reading of the memory pressure prints. -/
  psi : String
  linger : Answer
  disk : String → Except String UInt64
  /-- `multipass info` of a VM. -/
  info : String → Answer
  envToken : Option String
  tokenFile : String → Option String
  /-- `list_runners` of a client. -/
  runners : Client → Except String (List Runner)
  /-- The permission bits of a file. -/
  mode : String → Option Nat

structure DoctorState where
  lines : List String := []
  fails : Nat := 0
  issued : List Command := []

abbrev Doctor := ExceptT String (StateM DoctorState)

namespace Doctor

def printLine (line : String) : Doctor Unit := modify fun s => { s with lines := s.lines ++ [line] }

def check (name : String) (ok : Bool) (detail : String) : Doctor Unit :=
  modify fun s => { s with
    lines := s.lines ++ ["[" ++ (if ok then "PASS" else "FAIL") ++ "] " ++ name ++ ": " ++ detail]
    fails := if ok then s.fails else s.fails + 1 }

def issue (c : Command) : Doctor Unit := modify fun s => { s with issued := s.issued ++ [c] }

variable (host : DoctorHost)

/-- `check_token`. -/
def checkToken (gh : GitHub) (token : String) : Except String Unit := do
  let c ← Client.new gh token
  match host.runners c with
  | .error e => throw ("token/scope check failed: " ++ e)
  | .ok _ => if token.utf8ByteSize < 8 then throw "token looks too short" else return

def checkMultipass : Doctor Unit := do
  issue Multipass.versionCommand
  check "multipass" (exitsZero host.multipass) "daemon reachable"

def checkConfig : Doctor (Option Config) := do
  if host.configExists then
    match Config.loadFile host.home host.configFile host.config with
    | .ok cfg =>
      check "config" true (host.configFile ++ " valid")
      return some cfg
    | .error e =>
      check "config" false e
      return none
  else
    check "config" false ("missing: " ++ host.configFile ++ " (run `vmfleet install`)")
    return none

def checkMemory : Doctor Unit :=
  check "memory" true
    ("MemAvailable " ++ toString host.availMib.toNat ++ " MiB, PSI some avg10 " ++ host.psi ++ "%")

def checkLinger : Doctor Unit := do
  issue (Systemd.showLinger host.user)
  check "linger" (Systemd.lingerEnabled host.linger) ("user " ++ host.user)

/-- The free space counts as none where it cannot be read. -/
def freeGib (path : String) : UInt64 := ((host.disk path).toOption).getD 0

def checkDisk (cfg : Config) : Doctor Unit :=
  check "disk" (decide (cfg.admission.minDiskGib ≤ freeGib host cfg.storage.vaultPath))
    (toString (freeGib host cfg.storage.vaultPath).toNat ++ " GiB free at " ++ cfg.storage.vaultPath)

def checkBaseVms : List Base → Doctor Unit
  | [] => return
  | b :: rest => do
    issue (Multipass.infoCommand b.name)
    check ("base VM " ++ b.name) (exitsZero (host.info b.name)) b.name
    checkBaseVms rest

/-- `token` of the config, and `check_token` of it. -/
def tokenVerdict (cfg : Config) : Except String Unit := do
  let token ← cfg.token host.envToken (host.tokenFile cfg.github.tokenFile)
  checkToken host cfg.github token

def checkGitHub (cfg : Config) : Doctor Unit := do
  match tokenVerdict host cfg with
  | .ok _ =>
    let scope ← ofExcept cfg.github.scopePath
    check "github token" true ("scope " ++ scope)
  | .error e => check "github token" false e

/-- A warning, which counts as no failure. -/
def warnMode (cfg : Config) : Doctor Unit :=
  match host.mode cfg.github.tokenFile with
  | some mode =>
    if mode % 64 ≠ 0 then
      printLine ("[WARN] token perms: " ++ String.ofList (Nat.toDigits 8 (mode % 512)) ++ " on " ++
        cfg.github.tokenFile ++ " (recommend 0600)")
    else return
  | none => return

def checkConfigured (cfg : Config) : Doctor Unit := do
  checkDisk host cfg
  checkBaseVms host cfg.bases
  checkGitHub host cfg
  warnMode host cfg

def checkIfConfigured : Option Config → Doctor Unit
  | some cfg => checkConfigured host cfg
  | none => return

def verdict : Doctor Unit := do
  let s ← get
  if s.fails > 0 then throw ("doctor: " ++ toString s.fails ++ " check(s) failed")
  else printLine "doctor: all checks passed"

/-- `doctor` of `commands.rs`. -/
def doctor : Doctor Unit := do
  checkMultipass host
  let cfg ← checkConfig host
  checkMemory host
  checkLinger host
  checkIfConfigured host cfg
  verdict

end Doctor

end VmFleet
