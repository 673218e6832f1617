import VmFleet.Source.WorkerLife

/-!
# How a runner gets its labels

The two ways in which `lifecycle` registers a runner: the request that `generate_jitconfig` of `github.rs`
sends, and the arguments that `config.sh` is meant to get from the script run in the VM. What the shell makes
of that script is not in this repository.
-/

namespace VmFleet

/-- The body of the request for a just-in-time configuration. -/
structure JitRequest where
  name : String
  runnerGroupId : UInt64
  labels : List String
  workFolder : String
  deriving DecidableEq

def generateJitconfig (gh : GitHub) (name : String) (labels : List String) : JitRequest :=
  ⟨name, gh.runnerGroupId, labels, "_work"⟩

/-- The arguments in the script of `lifecycle` with these values. -/
def configShArgs (url token own labels : String) : List String :=
  ["--unattended", "--url", url, "--token", token, "--name", own, "--labels", labels, "--ephemeral",
    "--replace"]

/-- The labels `config.sh` gives a runner besides its own defaults. -/
def splitLabels (labels : String) : List String := (Text.fields ',' labels).map String.ofList

end VmFleet
