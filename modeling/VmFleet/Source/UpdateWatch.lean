import VmFleet.Source.Supervisor

/-!
# Background update checks

The cycles of a supervisor beside the threads that `maybe_update_check` spawns. A thread sends what
`latest_version` returns over a channel of its own and ends, or it dies without sending. `update_rx` is
only ever set to the receiver of the check that is being started, so where it is set it is the newest
check's.
-/

namespace VmFleet

/-- Where the thread of a check is, and what is in its channel. -/
inductive CheckStage where
  | running
  /-- The thread has ended, and its result waits in the channel. -/
  | sent (result : Option String)
  /-- The thread has ended, and nothing is left in the channel. -/
  | ended
  deriving DecidableEq

structure UpdateCheck where
  startedAt : Instant
  stage : CheckStage := .running
  /-- The results that were received from its channel. -/
  received : List (Option String) := []
  deriving DecidableEq

namespace UpdateCheck

def tryRecv (c : UpdateCheck) : TryRecv :=
  match c.stage with
  | .running => .empty
  | .sent result => .received result
  | .ended => .disconnected

/-- The check after `tryRecv`, which takes a result out of the channel. -/
def polled (c : UpdateCheck) : UpdateCheck :=
  match c.stage with
  | .sent result => { c with stage := .ended, received := c.received ++ [result] }
  | .running | .ended => c

end UpdateCheck

structure Watch where
  sup : SupState
  /-- The last reading of the clock. -/
  now : Instant
  /-- The checks started so far, the newest first. -/
  checks : List UpdateCheck

inductive WatchEvent where
  | cycle (snap : Snapshot)
  /-- The thread of a check sends its result: a version, or nothing where the request failed. -/
  | finish (i : Nat) (result : Option String)
  | die (i : Nat)

/-- Whether the cycle comes to `maybe_update_check`. -/
def checksForUpdates (cfg : Config) (inv : Invocation) (snap : Snapshot) : Bool :=
  cfg.supervisor.updateCheck && !inv.dryRun && snap.runners.isOk

namespace Watch

def init : Watch := ⟨{}, 0, []⟩

/-- What the receiver finds, if there is one. -/
def tryRecv (w : Watch) : TryRecv :=
  match w.checks with
  | [] => .disconnected
  | newest :: _ => newest.tryRecv

/-- The checks after the first step of `maybe_update_check`. -/
def polledChecks (w : Watch) : List UpdateCheck :=
  match w.sup.updateRx, w.checks with
  | true, newest :: older => newest.polled :: older
  | _, checks => checks

/-- The readings of the clock do not go back, and a channel that is read is that of the newest check. -/
def Reads (w : Watch) (snap : Snapshot) : Prop :=
  w.now ≤ snap.clock .updateElapsed ∧ snap.clock .updateElapsed ≤ snap.clock .updateStarted ∧
    (w.sup.updateRx = true → snap.updateChannel = w.tryRecv)

instance Reads.decidable (w : Watch) (snap : Snapshot) : Decidable (w.Reads snap) :=
  inferInstanceAs (Decidable (_ ∧ _ ∧ (_ → _)))

def cycle (cfg : Config) (inv : Invocation) (w : Watch) (snap : Snapshot) : Option Watch :=
  if checksForUpdates cfg inv snap then
    if w.Reads snap then
      some {
        sup := cycleState cfg inv w.sup snap
        now := snap.clock .updateStarted
        checks :=
          if (maybeUpdateCheck cfg snap w.sup).2 then { startedAt := snap.clock .updateStarted } :: w.polledChecks
          else w.polledChecks }
    else none
  else some { w with sup := cycleState cfg inv w.sup snap }

/-- The thread of the `i`-th check ends. -/
def endThread (w : Watch) (i : Nat) (stage : CheckStage) : Option Watch :=
  match w.checks[i]? with
  | some c =>
    if c.stage = .running then some { w with checks := w.checks.set i { c with stage := stage } } else none
  | none => none

def step (cfg : Config) (inv : Invocation) (w : Watch) : WatchEvent → Option Watch
  | .cycle snap => w.cycle cfg inv snap
  | .finish i result => w.endThread i (.sent result)
  | .die i => w.endThread i .ended

end Watch

end VmFleet
