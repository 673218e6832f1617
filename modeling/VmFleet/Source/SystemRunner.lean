import VmFleet.Source.Command
import VmFleet.Library.Pipe
import VmFleet.Library.Utf8

/-!
# Running a command

`SystemRunner::run` of `cmd.rs` and the process it starts. The process writes to the pipes of its two
streams in whatever order and exits. With a timeout, nothing is read before a poll finds that the process
has exited; without one, `wait_with_output` reads from the start. Times are nanoseconds since the process
was started.
-/

namespace VmFleet

inductive Stream where
  | stdout
  | stderr
  deriving DecidableEq

structure Child where
  script : Pipe.Script Stream UInt8
  /-- The exit code, unless a signal ends the process. -/
  code : Option Int

/-- The clock is read before the loop, and at each poll that has asked for the exit and found none. -/
structure PollClock where
  started : Nat
  /-- When the `k`-th poll calls `try_wait`. -/
  asked : Nat → Nat
  /-- What it then reads from the clock. -/
  read : Nat → Nat
  started_le : started ≤ asked 0
  asked_le : ∀ k, asked k ≤ read k
  slept : ∀ k, read k + 100000000 ≤ asked (k + 1)

/-- The loop from the `k`-th poll on, for a process that exits at the time `exit` or never: whether it
sees the exit before it gives up. -/
def PollClock.seesExit (clock : PollClock) (exit : Option Nat) (deadline k : Nat) : Bool :=
  if exit.any (· ≤ clock.asked k) then true
  else if deadline ≤ clock.read k then false
  else clock.seesExit exit deadline (k + 1)
termination_by deadline - clock.read k
decreasing_by
  have hslept := clock.slept k
  have hasked := clock.asked_le (k + 1)
  omega

namespace SystemRunner

/-- `Duration::from_secs(secs)`. -/
def seconds (secs : Nat) : Nat := secs * 1000000000

def timedOut (program : String) (secs : Nat) : String :=
  "`" ++ program ++ "` timed out after " ++ toString secs ++ "s"

def output (child : Child) (contents : Stream → List UInt8) : CmdOut where
  status := child.code.getD (-1)
  stdout := Utf8.fromUtf8Lossy (contents .stdout)
  stderr := Utf8.fromUtf8Lossy (contents .stderr)

/-- What `wait_with_output` has collected when the process has exited. -/
def collected : Option (Nat × Pipe.Pipes Stream UInt8) → Stream → List UInt8
  | some (_, pipes) => pipes.contents
  | none => fun _ => []

def run (capacity : Nat) (clock : PollClock) (program : String) (spawned : Except String Child)
    (timeout : Option Nat) : Answer :=
  match spawned with
  | .error e => .error ("spawn " ++ program ++ ": " ++ e)
  | .ok child =>
    match timeout with
    | some secs =>
      let unread := child.script.run capacity .absent
      if clock.seesExit (unread.map (·.1)) (clock.started + seconds secs) 0 then
        .ok (output child (collected unread))
      else .error (timedOut program secs)
    | none => .ok (output child (collected (child.script.run capacity .continual)))

/-- What a pipe holds on Linux. -/
def pipeCapacity : Nat := 65536

/-- The answers that a command can have. -/
def Answers (c : Command) (answer : Answer) : Prop :=
  ∃ clock spawned, answer = run pipeCapacity clock c.program spawned (some c.timeout)

end SystemRunner

end VmFleet
