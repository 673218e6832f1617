import VmFleet.Source.Command
import VmFleet.Source.GitHub
import VmFleet.Source.Admission
import VmFleet.Source.Version

/-!
# The supervisor

`supervisor.rs`: one `reconcile` pass as a function of the configuration, the state carried between
passes and what the pass reads. Everything a pass reads is in a `Snapshot`: the answers of GitHub,
systemd and the host, the readings of the clock, and the answer to each launch. Everything it does is in
the `Pass` it returns: the report, the next state, the commands issued in order and the files written.

Counts are `u32` and wrap where the source adds them without saturation. A `HashSet` of slots is a list
without duplicates, a `HashMap` the function that looks a key up.
-/

namespace VmFleet

/-- A reading of the monotonic clock, in nanoseconds. -/
abbrev Instant := Nat

/-- `Duration::from_secs`. -/
def fromSecs (s : UInt64) : Nat := s.toNat * 1000000000

def saturatingAdd (a b : UInt32) : UInt32 :=
  if a.toNat + b.toNat < 2 ^ 32 then a + b else 0xffffffff

def saturatingSub (a b : UInt32) : UInt32 := if b ≤ a then a - b else 0

/-- Desired worker count for a pool. The last step is `clamp`, which panics when `minWarm > max`; no
validated pool has such limits. -/
def desired (busy queued minWarm max : UInt32) : UInt32 :=
  let want := saturatingAdd (saturatingAdd busy queued) minWarm
  if want < minWarm then minWarm else if want > max then max else want

/-- Memory headroom as a count of additional busy VMs. The cast to `u32` truncates. -/
def headroomVms (availMib minAvailMib busyReserveMib : UInt64) : UInt32 :=
  let free := if minAvailMib ≤ availMib then availMib - minAvailMib else 0
  (free / max busyReserveMib 1).toUInt32

/-! ### What a pass reads, keeps and returns -/

/-- The places where a pass reads the monotonic clock. -/
inductive ClockUse where
  | inserted (runner : String)
  | sortKey (pool runner : String)
  | elapsed (pool runner : String)
  | updateElapsed
  | updateStarted
  deriving DecidableEq

/-- What `try_recv` finds in the channel of a background update check. -/
inductive TryRecv where
  | received (result : Option String)
  | empty
  | disconnected
  deriving DecidableEq

structure Snapshot where
  runners : Except String (List Runner)
  failedUnits : Answer
  queuedLabels : String → Option UInt32
  activeUnits : Answer
  resources : Resources
  /-- The gate takes readings of its own. -/
  gateResources : Resources
  /-- The answer of `systemd-run` to the launch of a slot of a pool. -/
  systemdRun : String → Nat → Answer
  clock : ClockUse → Instant
  updateChannel : TryRecv
  wallClock : UInt64

structure Invocation where
  exe : String
  cfgPath : String
  dryRun : Bool
  deriving DecidableEq

structure SupState where
  idleSince : String → Option Instant := fun _ => none
  cycle : UInt64 := 0
  cachedQueued : String → Option UInt32 := fun _ => none
  lastUpdateCheck : Option Instant := none
  latestVersion : Option String := none
  /-- Whether a background update check is in flight. -/
  updateRx : Bool := false

inductive Action where
  | launch (slot : Nat)
  | stop (slot : Nat)
  deriving DecidableEq

instance : ToString Action where
  toString
    | .launch slot => s!"launch:{slot}"
    | .stop slot => s!"stop:{slot}"

structure PoolReport where
  name : String
  idle : UInt32
  busy : UInt32
  queued : UInt32
  activeUnits : UInt32
  pending : UInt32
  present : UInt32
  desired : UInt32
  deficit : Int
  actions : List Action
  deriving DecidableEq

structure Report where
  ts : UInt64
  version : String
  memAvailMib : UInt64
  psi : F64
  diskFreeGib : UInt64
  blocked : Option Block
  headroomVms : UInt32
  pools : List PoolReport
  updateAvailable : Bool
  latestVersion : Option String
  deriving DecidableEq

/-- What a pass does for one pool: its entry in the report, and the commands it issues. -/
structure PoolPass where
  report : PoolReport
  commands : List Command
  deriving DecidableEq

structure Pass where
  report : Report
  state : SupState
  pools : List PoolPass
  commands : List Command
  filesWritten : List String

/-! ### The counts of one pool -/

namespace Pool

variable (p : Pool) (runners : List Runner) (activeSlots : List Nat) (queued : String → Option UInt32)

def mine : List Runner := runners.filter fun r => p.labels.any r.hasLabel

def idleRunners : List Runner := (p.mine runners).filter fun r => r.online && !r.busy

def busyRunners : List Runner := (p.mine runners).filter fun r => r.online && r.busy

def idle : UInt32 := UInt32.ofNat (p.idleRunners runners).length

def busy : UInt32 := UInt32.ofNat (p.busyRunners runners).length

def active : List Nat := activeSlots.filter (· ∈ p.slots)

/-- The slots the pool's online runners decode to. -/
def onlineSlots : List Nat :=
  (((p.mine runners).filter (·.online)).filterMap fun r => slotOfVm p.name r.name).dedup

/-- The active slots without an online runner. -/
def pendingSlots : List Nat := (p.active activeSlots).filter (· ∉ p.onlineSlots runners)

def pending : UInt32 := UInt32.ofNat (p.pendingSlots runners activeSlots).length

/-- `idle + busy + pending` in `u32`. -/
def present : UInt32 := p.idle runners + p.busy runners + p.pending runners activeSlots

/-- The largest queue length over the pool's labels. -/
def queuedDemand : UInt32 := (p.labels.map fun l => (queued l).getD 0).max?.getD 0

def want : UInt32 := desired (p.busy runners) (p.queuedDemand queued) p.minWarm p.max

def deficit : Int :=
  (p.want runners queued).toNat - (p.present runners activeSlots).toNat

def freeSlots : List Nat := (p.slots.filter (· ∉ p.active activeSlots)).insertionSort (· ≤ ·)

end Pool

/-! ### Launching -/

/-- The counters the pools share: `launched_this_cycle` and `headroom`. -/
structure Budget where
  launched : UInt32
  headroom : UInt32
  deriving DecidableEq

def Budget.spend (b : Budget) : Budget := ⟨b.launched + 1, saturatingSub b.headroom 1⟩

/-- What a loop over slots has done. -/
structure Acted where
  budget : Budget
  actions : List Action
  commands : List Command
  deriving DecidableEq

def launchCommands (inv : Invocation) (p : Pool) (slot : Nat) : List Command :=
  Systemd.runTransient (workerUnit slot) [] inv.exe
    ["--config", inv.cfgPath, "worker", p.name, toString slot]

def launchOk (inv : Invocation) (snap : Snapshot) (p : Pool) (slot : Nat) : Bool :=
  match checked (Systemd.systemdRun (workerUnit slot) [] inv.exe
      ["--config", inv.cfgPath, "worker", p.name, toString slot]) (snap.systemdRun p.name slot) with
  | .ok _ => true
  | .error _ => false

def launchSlots (inv : Invocation) (snap : Snapshot) (p : Pool) : List Nat → Budget → Acted
  | [], b => ⟨b, [], []⟩
  | slot :: rest, b =>
    if inv.dryRun then
      let next := launchSlots inv snap p rest b.spend
      { next with actions := .launch slot :: next.actions }
    else if launchOk inv snap p slot then
      let next := launchSlots inv snap p rest b.spend
      { next with
        actions := .launch slot :: next.actions
        commands := launchCommands inv p slot ++ next.commands }
    else
      let next := launchSlots inv snap p rest b
      { next with commands := launchCommands inv p slot ++ next.commands }

/-- How many slots a pool with a positive deficit may launch into. -/
def launchable (cfg : Config) (b : Budget) (deficit : Int) : UInt32 :=
  min (min deficit.toNat.toUInt32 (saturatingSub cfg.supervisor.maxLaunchPerPoll b.launched))
    b.headroom

/-! ### Scaling down -/

/-- `elapsed() >= idle_timeout` on the entry of a runner. -/
def longIdle (cfg : Config) (snap : Snapshot) (idleSince : String → Option Instant) (p : Pool)
    (r : Runner) : Bool :=
  match idleSince r.name with
  | some since =>
    fromSecs cfg.supervisor.idleTimeoutSeconds ≤ snap.clock (.elapsed p.name r.name) - since
  | none => false

def idleKey (snap : Snapshot) (idleSince : String → Option Instant) (p : Pool) (r : Runner) : Instant :=
  (idleSince r.name).getD (snap.clock (.sortKey p.name r.name))

/-- The idle runners that decode to an active slot of the pool, oldest first. -/
def stopCandidates (snap : Snapshot) (idleSince : String → Option Instant) (p : Pool)
    (runners : List Runner) (activeSlots : List Nat) : List (Runner × Nat) :=
  let decoded := (p.idleRunners runners).filterMap fun r =>
    (slotOfVm p.name r.name).map fun slot => (r, slot)
  (decoded.filter fun c => c.2 ∈ p.active activeSlots).insertionSort fun a b =>
    idleKey snap idleSince p a.1 ≤ idleKey snap idleSince p b.1

/-- The loop over the candidates, `excess` of which may be stopped. -/
def stopSlots (inv : Invocation) (isLongIdle : Runner → Bool) :
    List (Runner × Nat) → UInt32 → List Action × List Command
  | [], _ => ([], [])
  | (r, slot) :: rest, excess =>
    if excess = 0 then ([], [])
    else if isLongIdle r then
      let next := stopSlots inv isLongIdle rest (excess - 1)
      (.stop slot :: next.1,
        if inv.dryRun then next.2 else Systemd.stop (workerUnit slot) ++ next.2)
    else stopSlots inv isLongIdle rest excess

/-! ### One pool, and all of them -/

/-- What a pass has read and computed before it turns to the pools. -/
structure PoolInput where
  runners : List Runner
  activeSlots : List Nat
  queued : String → Option UInt32
  idleSince : String → Option Instant
  blocked : Option Block

def actOn (cfg : Config) (inv : Invocation) (snap : Snapshot) (inp : PoolInput) (p : Pool)
    (b : Budget) : Acted :=
  let deficit := p.deficit inp.runners inp.activeSlots inp.queued
  if 0 < deficit ∧ inp.blocked = none then
    launchSlots inv snap p
      ((p.freeSlots inp.activeSlots).take (launchable cfg b deficit).toNat) b
  else if deficit < 0 then
    let stopped := stopSlots inv (longIdle cfg snap inp.idleSince p)
      (stopCandidates snap inp.idleSince p inp.runners inp.activeSlots) (-deficit).toNat.toUInt32
    ⟨b, stopped.1, stopped.2⟩
  else ⟨b, [], []⟩

def poolReport (inp : PoolInput) (p : Pool) (actions : List Action) : PoolReport where
  name := p.name
  idle := p.idle inp.runners
  busy := p.busy inp.runners
  queued := p.queuedDemand inp.queued
  activeUnits := UInt32.ofNat (p.active inp.activeSlots).length
  pending := p.pending inp.runners inp.activeSlots
  present := p.present inp.runners inp.activeSlots
  desired := p.want inp.runners inp.queued
  deficit := p.deficit inp.runners inp.activeSlots inp.queued
  actions := actions

def poolLoop (cfg : Config) (inv : Invocation) (snap : Snapshot) (inp : PoolInput) :
    List Pool → Budget → List PoolPass
  | [], _ => []
  | p :: ps, b =>
    let acted := actOn cfg inv snap inp p b
    ⟨poolReport inp p acted.actions, acted.commands⟩ :: poolLoop cfg inv snap inp ps acted.budget

/-! ### The passive update check -/

/-- The first step of `maybe_update_check`: take the result of a finished check. -/
def applyUpdateResult (snap : Snapshot) (state : SupState) : SupState :=
  if state.updateRx then
    match snap.updateChannel with
    | .received (some latest) =>
      { state with
        latestVersion := if updateAvailable latest then some latest else none
        updateRx := false }
    | .received none | .disconnected => { state with updateRx := false }
    | .empty => state
  else state

/-- The interval between two checks. The product is computed in `u64`. -/
def updateInterval (cfg : Config) : Nat :=
  fromSecs (max cfg.supervisor.updateCheckIntervalHours 1 * 3600)

def updateDue (cfg : Config) (snap : Snapshot) (state : SupState) : Bool :=
  match state.lastUpdateCheck with
  | some t => updateInterval cfg ≤ snap.clock .updateElapsed - t
  | none => true

/-- The state after it, and whether it has spawned a thread. -/
def maybeUpdateCheck (cfg : Config) (snap : Snapshot) (state : SupState) : SupState × Bool :=
  let state := applyUpdateResult snap state
  if !state.updateRx && updateDue cfg snap state then
    ({ state with lastUpdateCheck := some (snap.clock .updateStarted), updateRx := true }, true)
  else (state, false)

/-! ### The pass -/

def nowIdle (runners : List Runner) : List String :=
  (runners.filter fun r => r.online && !r.busy).map (·.name)

/-- `idle_since` after the refresh: entries of runners that are not idle now are dropped, runners
that have none get one. -/
def refreshIdleSince (snap : Snapshot) (runners : List Runner) (idleSince : String → Option Instant) :
    String → Option Instant :=
  fun name =>
    if name ∈ nowIdle runners then some ((idleSince name).getD (snap.clock (.inserted name))) else none

/-- The queue counts a pass uses, and whether they are fetched anew. -/
def refreshQueued (cfg : Config) (snap : Snapshot) (state : SupState) : String → Option UInt32 :=
  if state.cycle % (max cfg.supervisor.queuedPollEvery 1).toUInt64 = 0 then snap.queuedLabels
  else state.cachedQueued

/-- `active_slots`. A query that could not be answered counts as one without units. -/
def activeSlotsOf (answer : Answer) : List Nat :=
  match Systemd.listActive answer with
  | .ok units => (units.filterMap slotFromUnit).dedup
  | .error _ => []

def poolInput (cfg : Config) (snap : Snapshot) (state : SupState) (runners : List Runner) : PoolInput where
  runners := runners
  activeSlots := activeSlotsOf snap.activeUnits
  queued := refreshQueued cfg snap state
  idleSince := refreshIdleSince snap runners state.idleSince
  blocked := gateBlocked cfg.admission snap.gateResources

def startBudget (cfg : Config) (snap : Snapshot) : Budget where
  launched := 0
  headroom := headroomVms snap.resources.availMib cfg.admission.minAvailMib cfg.supervisor.busyReserveMib

/-- The commands before the pool loop: clearing failed units, and the query for active ones. -/
def queryCommands (inv : Invocation) (snap : Snapshot) : List Command :=
  (if inv.dryRun then []
    else Systemd.listFailedCommand workerUnitGlob ::
      (Systemd.listFailed snap.failedUnits).map Systemd.resetFailed) ++
    [Systemd.listActiveCommand workerUnitGlob]

def reconcile (cfg : Config) (inv : Invocation) (snap : Snapshot) (state : SupState) :
    Except String Pass := do
  let runners ← snap.runners
  let inp := poolInput cfg snap state runners
  let pools := poolLoop cfg inv snap inp cfg.pools (startBudget cfg snap)
  let refreshed := { state with
    idleSince := inp.idleSince
    cycle := state.cycle + 1
    cachedQueued := inp.queued }
  let state :=
    if cfg.supervisor.updateCheck && !inv.dryRun then (maybeUpdateCheck cfg snap refreshed).1 else refreshed
  return {
    report := {
      ts := snap.wallClock
      version := currentVersion
      memAvailMib := snap.resources.availMib
      psi := snap.resources.psi
      diskFreeGib := snap.resources.diskGib
      blocked := inp.blocked
      headroomVms := (startBudget cfg snap).headroom
      pools := pools.map (·.report)
      updateAvailable := state.latestVersion.isSome
      latestVersion := state.latestVersion }
    state := state
    pools := pools
    commands := queryCommands inv snap ++ pools.flatMap (·.commands)
    filesWritten := if inv.dryRun then [] else ["status.json", "vmfleet.prom"] }

/-! ### The loop -/

/-- What one turn of the loop in `run` leaves of the state. A pass that fails does so before it changes
anything. -/
def cycleState (cfg : Config) (inv : Invocation) (state : SupState) (snap : Snapshot) : SupState :=
  match reconcile cfg inv snap state with
  | .ok pass => pass.state
  | .error _ => state

def runState (cfg : Config) (inv : Invocation) (snaps : List Snapshot) : SupState :=
  snaps.foldl (cycleState cfg inv) {}

end VmFleet
