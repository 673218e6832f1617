import VmFleet.Proof.IdleStreak
import VmFleet.Library.Selection

/-!
# The longest idle are stopped

The candidates are sorted before those that have not been idle long enough are passed over. What is
stopped is the same as if these had been left out and the rest taken in the order of `idle_since`.
-/

namespace VmFleet

/-- The runners a scale-down may stop, with their slots and in the order of the list: online, idle, on an
active slot of the pool, and idle for the idle timeout. -/
def stoppable (cfg : Config) (snap : Snapshot) (idleSince : String → Option Instant) (p : Pool)
    (runners : List Runner) (activeSlots : List Nat) : List (Runner × Nat) :=
  ((p.idleRunners runners).filterMap fun r => (slotOfVm p.name r.name).map fun slot => (r, slot)).filter
    fun c => decide (c.2 ∈ p.active activeSlots) && longIdle cfg snap idleSince p c.1

def sinceOf (idleSince : String → Option Instant) (c : Runner × Nat) : Instant :=
  (idleSince c.1.name).getD 0

/-- The `k` runners that have been idle longest, each with its place among the stoppable ones. -/
def longestIdle (cfg : Config) (snap : Snapshot) (idleSince : String → Option Instant) (p : Pool)
    (runners : List Runner) (activeSlots : List Nat) (k : Nat) : List ((Runner × Nat) × Nat) :=
  Selection.firsts (sinceOf idleSince) k (stoppable cfg snap idleSince p runners activeSlots)

section

variable {cfg : Config} {inv : Invocation} {snap : Snapshot} {state : SupState} {runners : List Runner}
  {pass : Pass} {p : Pool} {pp : PoolPass} {b : Budget} {inp : PoolInput}
  {idleSince : String → Option Instant} {activeSlots : List Nat}

/-- The fallback of the sort key is for runners without an entry, and none of these is long idle. -/
theorem idleKey_eq_sinceOf {c : Runner × Nat}
    (hc : c ∈ stoppable cfg snap idleSince p runners activeSlots) :
    idleKey snap idleSince p c.1 = sinceOf idleSince c := by
  have hlong := (List.mem_filter.mp hc).2
  rw [Bool.and_eq_true] at hlong
  obtain ⟨since, hsince, _⟩ := longIdle_eq_true hlong.2
  rw [idleKey, sinceOf, hsince]
  rfl

theorem stopped_stopCandidates (k : Nat) :
    stopped (longIdle cfg snap idleSince p) (stopCandidates snap idleSince p runners activeSlots) k =
      ((stoppable cfg snap idleSince p runners activeSlots).insertionSort fun a b =>
        sinceOf idleSince a ≤ sinceOf idleSince b).take k := by
  have hcommute : ∀ cs : List (Runner × Nat), (cs.insertionSort fun a b =>
      idleKey snap idleSince p a.1 ≤ idleKey snap idleSince p b.1).filter
        (fun c => longIdle cfg snap idleSince p c.1) =
      (cs.filter fun c => longIdle cfg snap idleSince p c.1).insertionSort fun a b =>
        idleKey snap idleSince p a.1 ≤ idleKey snap idleSince p b.1 := by
    intro cs
    have : Std.Total fun a b : Runner × Nat =>
        idleKey snap idleSince p a.1 ≤ idleKey snap idleSince p b.1 := ⟨fun a b => Nat.le_total _ _⟩
    have : IsTrans (Runner × Nat) fun a b =>
        idleKey snap idleSince p a.1 ≤ idleKey snap idleSince p b.1 := ⟨fun a b c => Nat.le_trans⟩
    exact Selection.filter_insertionSort _ _ cs
  have hkeys := List.map_insertionSort
    (fun a b : Runner × Nat => idleKey snap idleSince p a.1 ≤ idleKey snap idleSince p b.1)
    (fun a b => sinceOf idleSince a ≤ sinceOf idleSince b) id
    (stoppable cfg snap idleSince p runners activeSlots) fun a ha b hb => by
      rw [idleKey_eq_sinceOf ha, idleKey_eq_sinceOf hb]
      rfl
  rw [List.map_id, List.map_id] at hkeys
  rw [stopped, stopCandidates, hcommute, List.filter_filter, ← hkeys, stoppable]
  congr 3
  funext c
  exact Bool.and_comm _ _

variable (cfg snap p inp) in
/-- **What a scale-down stops.** -/
theorem slotsToStop_perm :
    (slotsToStop cfg snap inp p).Perm
      ((longestIdle cfg snap inp.idleSince p inp.runners inp.activeSlots
        (-p.deficit inp.runners inp.activeSlots inp.queued).toNat).map fun e => e.1.2) := by
  rw [slotsToStop, stopped_stopCandidates, longestIdle]
  have hperm := (Selection.take_insertionSort_perm (sinceOf inp.idleSince)
    (-p.deficit inp.runners inp.activeSlots inp.queued).toNat
    (stoppable cfg snap inp.idleSince p inp.runners inp.activeSlots)).map fun c => c.2
  rw [List.map_map] at hperm
  exact hperm

/-- **The longest idle are stopped, and nothing is launched.** -/
theorem stops_longest_idle (hrunners : snap.runners = .ok runners)
    (hpass : reconcile cfg inv snap state = .ok pass) (hpp : (p, pp) ∈ cfg.pools.zip pass.pools)
    (hdeficit : pp.report.deficit < 0) :
    pp.attempted = [] ∧
      pp.report.actions.Perm ((longestIdle cfg snap pass.state.idleSince p runners
        (activeSlotsOf snap.activeUnits) (-pp.report.deficit).toNat).map fun e => .stop e.1.2) ∧
      pp.stopped.Perm (if inv.dryRun then [] else (longestIdle cfg snap pass.state.idleSince p runners
        (activeSlotsOf snap.activeUnits) (-pp.report.deficit).toNat).map fun e => e.1.2) ∧
      (longestIdle cfg snap pass.state.idleSince p runners (activeSlotsOf snap.activeUnits)
        (-pp.report.deficit).toNat).length =
          min (-pp.report.deficit).toNat (stoppable cfg snap pass.state.idleSince p runners
            (activeSlotsOf snap.activeUnits)).length := by
  have hspec := reconciled_of_ok hrunners hpass
  rw [hspec.pools] at hpp
  obtain ⟨_, _, _, rfl⟩ := mem_zip_poolLoop hpp
  have hnegative : p.deficit runners (activeSlotsOf snap.activeUnits) (refreshQueued cfg snap state) ≤ 0 :=
    Int.le_of_lt hdeficit
  have htry : ∀ b, slotsToTry cfg (poolInput cfg snap state runners) p b = [] :=
    fun b => slotsToTry_eq_nil_of_deficit_le hnegative
  have hstop := slotsToStop_perm cfg snap p (poolInput cfg snap state runners)
  rw [hspec.idleSince]
  refine ⟨?_, ?_, ?_, Selection.length_firsts _ _ _⟩
  · rw [attempted_passOf, htry, ite_self]
  · rw [passOf, actOn_eq, slotsCounted, htry]
    have hactions := hstop.map Action.stop
    rw [List.map_map] at hactions
    exact hactions
  · rw [stopped_passOf]
    cases inv.dryRun with
    | true => exact List.Perm.nil
    | false => exact hstop

end

/-- A pool that keeps one idle worker. -/
def warmPool : Pool := { smallPool with minWarm := 1 }

def secondWorker : Runner :=
  { idleWorker with id := 2, name := vmName "ci" 101 1700000100 4343 }

/-- The second worker has been idle longer than the first. -/
def idleState : SupState :=
  { idleSince := fun name => if name = secondWorker.name then some 5 else some 10 }

def twoIdleSnapshot : Snapshot :=
  { roomySnapshot [idleWorker, secondWorker] [100, 101] with clock := fun _ => 900000000010 }

theorem poolInput_twoIdle (cfg : Config) : poolInput cfg twoIdleSnapshot idleState [idleWorker, secondWorker] =
    { poolInput cfg twoIdleSnapshot idleState [idleWorker, secondWorker] with activeSlots := [100, 101] } :=
  poolInput_of_unitTable rfl (by decide) (by decide)

theorem actions_warmPool :
    (passOf (configWith [warmPool]) daemonCall twoIdleSnapshot
      (poolInput (configWith [warmPool]) twoIdleSnapshot idleState [idleWorker, secondWorker]) warmPool
      (startBudget (configWith [warmPool]) twoIdleSnapshot)).report.actions = [.stop 101] := by
  rw [poolInput_twoIdle]
  decide +kernel

theorem stops_longest_idle_second :
    ∃ (pass : Pass) (pp : PoolPass),
      reconcile (configWith [warmPool]) daemonCall twoIdleSnapshot idleState = .ok pass ∧
      pp.report.actions.Perm ((longestIdle (configWith [warmPool]) twoIdleSnapshot pass.state.idleSince warmPool
        [idleWorker, secondWorker] (activeSlotsOf twoIdleSnapshot.activeUnits)
        (-pp.report.deficit).toNat).map fun e => .stop e.1.2) ∧
      pp.report.actions = [.stop 101] := by
  obtain ⟨pass, hpass⟩ : ∃ pass, reconcile (configWith [warmPool]) daemonCall twoIdleSnapshot idleState =
      .ok pass := reconcile_ok rfl
  have hpp := mem_zip_configWith rfl hpass
  have hdeficit : (passOf (configWith [warmPool]) daemonCall twoIdleSnapshot
      (poolInput (configWith [warmPool]) twoIdleSnapshot idleState [idleWorker, secondWorker]) warmPool
      (startBudget (configWith [warmPool]) twoIdleSnapshot)).report.deficit < 0 := by
    rw [poolInput_twoIdle]
    decide +kernel
  exact ⟨pass, _, hpass, (stops_longest_idle rfl hpass hpp hdeficit).2.1, actions_warmPool⟩

end VmFleet
