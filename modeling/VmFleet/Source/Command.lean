import VmFleet.Source.Naming

/-!
# External commands

`cmd.rs` with its two wrappers, `systemd.rs` and `multipass.rs`. A command is its argument vector. What
it answers is an input of the model: the runner either fails (it could not be spawned, or ran into its
timeout) or returns the exit status and the two output streams. The wrappers are split accordingly into
the commands they issue and what they make of an answer.
-/

namespace VmFleet

structure CmdOut where
  status : Int
  stdout : String
  stderr : String
  deriving DecidableEq

def CmdOut.ok (o : CmdOut) : Bool := o.status == 0

/-- What `Runner::run` returns. -/
abbrev Answer := Except String CmdOut

structure Command where
  program : String
  args : List String
  timeout : Nat
  deriving DecidableEq

/-- `cmd::checked`: an answer with a non-zero status is an error, else the result is stdout. -/
def checked (c : Command) (answer : Answer) : Except String String := do
  let o ← answer
  if o.ok then return o.stdout
  throw ("`" ++ c.program ++ " " ++ " ".intercalate c.args ++ "` exited " ++ toString o.status ++ ": " ++
    Text.trim o.stderr)

/-! ### systemd -/

namespace Systemd

def listUnits (pattern state : String) : Command :=
  ⟨"systemctl", ["--user", "list-units", pattern, "--no-legend", "--plain", "--state=" ++ state], 15⟩

def listActiveCommand (pattern : String) : Command := listUnits pattern "active,activating"

def listFailedCommand (pattern : String) : Command := listUnits pattern "failed"

/-- The first word of each line, where it is the name of a service. -/
def serviceNames (stdout : String) : List String :=
  ((Text.lines stdout).filterMap Text.firstWord).filter (Text.endsWith · ".service")

/-- `list_active` looks at stdout alone, whatever the exit status. -/
def listActive (answer : Answer) : Except String (List String) :=
  answer.map fun o => serviceNames o.stdout

def listFailed (answer : Answer) : List String :=
  match answer with
  | .ok o => serviceNames o.stdout
  | .error _ => []

def resetFailed (unit : String) : Command :=
  ⟨"systemctl", ["--user", "reset-failed", unit], 10⟩

def systemdRun (unit : String) (setenvs : List (String × String)) (program : String)
    (progArgs : List String) : Command :=
  ⟨"systemd-run",
    ["--user", "--unit=" ++ unit, "--quiet", "--collect", "-p", "KillMode=control-group", "-p",
      "TimeoutStopSec=120"] ++ (setenvs.map fun kv => "--setenv=" ++ kv.1 ++ "=" ++ kv.2) ++
      [program] ++ progArgs, 30⟩

/-- The commands of `run_transient`. Its result is that of the second. -/
def runTransient (unit : String) (setenvs : List (String × String)) (program : String)
    (progArgs : List String) : List Command :=
  [resetFailed unit, systemdRun unit setenvs program progArgs]

def stopUnit (unit : String) : Command := ⟨"systemctl", ["--user", "stop", unit], 75⟩

/-- The commands of `stop`. Their answers are ignored. -/
def stop (unit : String) : List Command := [stopUnit unit, resetFailed unit]

def disableNow (unit : String) : Command := ⟨"systemctl", ["--user", "disable", "--now", unit], 30⟩

def daemonReload : Command := ⟨"systemctl", ["--user", "daemon-reload"], 20⟩

end Systemd

/-! ### multipass -/

inductive VmState where
  | running
  | stopped
  | starting
  | suspended
  | unknown (text : String)
  deriving DecidableEq

def VmState.parse (s : String) : VmState :=
  match Text.trim s with
  | "Running" => .running
  | "Stopped" => .stopped
  | "Starting" => .starting
  | "Suspended" => .suspended
  | other => .unknown other

namespace Multipass

def listCommand : Command := ⟨"multipass", ["list", "--format", "csv"], 30⟩

/-- One row of the table: its first two columns, unless the name is empty. -/
def parseRow (line : String) : Option (String × VmState) :=
  let columns := (Text.fields ',' line).map fun cs => Text.trim (String.ofList cs)
  let name := columns.head?.getD ""
  if name = "" then none else some (name, VmState.parse ((columns.drop 1).head?.getD ""))

/-- `parse_list_csv`: the first line is the header, blank lines are skipped. -/
def parseListCsv (csv : String) : List (String × VmState) :=
  (((Text.lines csv).drop 1).filter fun line => Text.trim line ≠ "").filterMap parseRow

def list (answer : Answer) : Except String (List (String × VmState)) :=
  (checked listCommand answer).map parseListCsv

def listPrefixed (pre : String) (answer : Answer) : Except String (List (String × VmState)) :=
  (list answer).map fun vms => vms.filter fun vm => Text.startsWith vm.1 pre

def stopCancelCommand (name : String) : Command := ⟨"multipass", ["stop", name, "--cancel"], 60⟩

def stopForceCommand (name : String) : Command := ⟨"multipass", ["stop", "--force", name], 60⟩

def deleteCommand (name : String) : Command := ⟨"multipass", ["delete", name, "--purge"], 90⟩

/-- The commands of `purge` and its result, given the answers to its two deletions. The stops before
them are issued whatever they answer. -/
def purge (name : String) (first retry : Answer) : List Command × Except String Unit :=
  let start := [stopCancelCommand name, stopForceCommand name, deleteCommand name]
  match first with
  | .error e => (start, .error e)
  | .ok o =>
    if o.ok then (start, .ok ())
    else
      (start ++ [stopForceCommand name, deleteCommand name],
        match retry with
        | .error e => .error e
        | .ok o2 =>
          if o2.ok then .ok () else .error ("failed to purge " ++ name ++ ": " ++ Text.trim o2.stderr))

end Multipass

end VmFleet
