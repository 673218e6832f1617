import VmFleet.Proof.LaunchSafety
import VmFleet.Library.Streak
import Mathlib.Data.List.Pairwise

/-!
# Only long idle workers are stopped

`idle_since` is a streak table whose rounds are the cycles that could read the runner records: a cycle
that could not leaves it alone. So the entry of a runner is the reading of the clock in the cycle its
current idle streak began in, whatever happened in between, and a worker is stopped only when that is
the idle timeout ago.
-/

namespace VmFleet

/-- The runner of that name is listed, online and not busy, and no other record has its name. -/
structure IdleIn (name : String) (runners : List Runner) : Prop where
  listed : ∃ r ∈ runners, r.name = name
  idle : ∀ r ∈ runners, r.name = name → r.online = true ∧ r.busy = false

/-- The clock readings of a run never go back. -/
structure ClockOrdered (snaps : List Snapshot) : Prop where
  across : snaps.Pairwise fun a b => ∀ u v, a.clock u ≤ b.clock v
  within : ∀ s ∈ snaps, ∀ name pool runner, s.clock (.inserted name) ≤ s.clock (.elapsed pool runner)

/-- No two records of a list have the same name. -/
def UniqueNames (snap : Snapshot) : Prop :=
  ∀ runners, snap.runners = .ok runners → (runners.map (·.name)).Nodup

/-- A runner of the pool that decodes to the slot and has been idle for the idle timeout, over the cycles
`snaps` and the last one `snap`. -/
structure LongIdleRunner (cfg : Config) (snaps : List Snapshot) (snap : Snapshot) (p : Pool) (slot : Nat)
    (r : Runner) : Prop where
  listed : ∃ runners, snap.runners = .ok runners ∧ r ∈ p.mine runners
  online : r.online = true
  notBusy : r.busy = false
  decodes : slotOfVm p.name r.name = some slot
  since : ∃ pre start post runners, snaps ++ [snap] = pre ++ start :: post ∧
    start.runners = .ok runners ∧
    start.clock (.inserted r.name) + fromSecs cfg.supervisor.idleTimeoutSeconds ≤
      snap.clock (.elapsed p.name r.name) ∧
    ∀ s ∈ start :: post, ∀ runners, s.runners = .ok runners → IdleIn r.name runners

def Action.isStop : Action → Bool
  | .launch _ => false
  | .stop _ => true

/-! ### `idle_since` is a streak table -/

def roundOf (snap : Snapshot) : Option (Streak.Round String Instant) :=
  match snap.runners with
  | .ok runners => some ⟨nowIdle runners, fun name => snap.clock (.inserted name)⟩
  | .error _ => none

section

variable {cfg : Config} {inv : Invocation} {snaps : List Snapshot} {snap : Snapshot}

theorem roundOf_of_ok {runners : List Runner} (h : snap.runners = .ok runners) :
    roundOf snap = some ⟨nowIdle runners, fun name => snap.clock (.inserted name)⟩ := by
  rw [roundOf, h]

theorem roundOf_eq_some {round : Streak.Round String Instant} (h : roundOf snap = some round) :
    ∃ runners, snap.runners = .ok runners ∧
      round = ⟨nowIdle runners, fun name => snap.clock (.inserted name)⟩ := by
  rw [roundOf] at h
  split at h
  · next runners hrunners => exact ⟨runners, hrunners, (Option.some.inj h).symm⟩
  · cases h

theorem cycleState_idleSince (state : SupState) :
    (cycleState cfg inv state snap).idleSince =
      match roundOf snap with
      | some round => Streak.refresh state.idleSince round
      | none => state.idleSince := by
  cases hrunners : snap.runners with
  | ok runners =>
      obtain ⟨pass, hpass⟩ : ∃ pass, reconcile cfg inv snap state = .ok pass := reconcile_ok hrunners
      rw [cycleState, hpass, roundOf_of_ok hrunners]
      exact (reconciled_of_ok hrunners hpass).idleSince
  | error message =>
      rw [cycleState, reconcile_error hrunners, roundOf, hrunners]

theorem runState_idleSince :
    (runState cfg inv snaps).idleSince = Streak.table (snaps.filterMap roundOf) := by
  induction snaps using List.reverseRecOn with
  | nil => rfl
  | append_singleton snaps snap ih =>
      rw [runState, List.foldl_append, List.filterMap_append]
      show (cycleState cfg inv (runState cfg inv snaps) snap).idleSince = _
      rw [cycleState_idleSince, ih]
      cases hround : roundOf snap with
      | none => rw [List.filterMap_cons_none hround, List.filterMap_nil, List.append_nil]
      | some round =>
          rw [List.filterMap_cons_some hround, List.filterMap_nil, Streak.table_append_singleton]

theorem refreshIdleSince_runState {runners : List Runner} (hrunners : snap.runners = .ok runners) :
    refreshIdleSince snap runners (runState cfg inv snaps).idleSince =
      Streak.table ((snaps ++ [snap]).filterMap roundOf) := by
  rw [List.filterMap_append, List.filterMap_cons_some (roundOf_of_ok hrunners), List.filterMap_nil,
    Streak.table_append_singleton, runState_idleSince]
  rfl

/-- What an entry of the table says about the cycles. -/
theorem exists_start_of_entry {all : List Snapshot} {name : String} {since : Instant}
    (hunique : ∀ s ∈ all, UniqueNames s)
    (hentry : Streak.table (all.filterMap roundOf) name = some since) :
    ∃ pre start post runners, all = pre ++ start :: post ∧ start.runners = .ok runners ∧
      since = start.clock (.inserted name) ∧
      ∀ s ∈ start :: post, ∀ runners, s.runners = .ok runners → IdleIn name runners := by
  obtain ⟨roundsBefore, round, roundsAfter, hrounds, hstamp, hseen⟩ := Streak.exists_of_table_eq_some hentry
  obtain ⟨before, rest, rfl, hbefore, hrest⟩ := List.filterMap_eq_append_iff.mp hrounds
  obtain ⟨skipped, start, post, rfl, hskipped, hstart, hpost⟩ := List.filterMap_eq_cons_iff.mp hrest
  obtain ⟨runners, hrunners, hround⟩ := roundOf_eq_some hstart
  refine ⟨before ++ skipped, start, post, runners, (List.append_assoc _ _ _).symm, hrunners, ?_, ?_⟩
  · rw [hstamp, hround]
  · intro s hs runners hread
    have hmem : (⟨nowIdle runners, fun name => s.clock (.inserted name)⟩ : Streak.Round String Instant) ∈
        round :: roundsAfter := by
      rw [← hpost, ← List.filterMap_cons_some hstart]
      exact List.mem_filterMap.mpr ⟨s, hs, roundOf_of_ok hread⟩
    have hidle : name ∈ nowIdle runners := hseen _ hmem
    obtain ⟨r, hr, hname⟩ := List.mem_map.mp hidle
    obtain ⟨hlisted, hflags⟩ := List.mem_filter.mp hr
    refine ⟨⟨r, hlisted, hname⟩, fun r' hr' hname' => ?_⟩
    have hmemAll : s ∈ before ++ (skipped ++ start :: post) :=
      List.mem_append_right _ (List.mem_append_right _ hs)
    have hsame : r' = r :=
      List.inj_on_of_nodup_map (hunique s hmemAll runners hread) hr' hlisted (hname'.trans hname.symm)
    rw [hsame]
    simpa using hflags

/-! ### Stops -/

theorem mem_slotsToStop_iff {inp : PoolInput} {p : Pool} {slot : Nat}
    (h : slot ∈ slotsToStop cfg snap inp p) :
    ∃ r ∈ p.idleRunners inp.runners, slotOfVm p.name r.name = some slot ∧
      longIdle cfg snap inp.idleSince p r = true := by
  obtain ⟨c, hc, rfl⟩ := List.mem_map.mp h
  obtain ⟨hcandidate, hlong⟩ := List.mem_filter.mp (List.mem_of_mem_take hc)
  rw [stopCandidates, (List.perm_insertionSort _ _).mem_iff, List.mem_filter, List.mem_filterMap]
    at hcandidate
  obtain ⟨⟨r, hr, hdecode⟩, _⟩ := hcandidate
  obtain ⟨slot, hslot, rfl⟩ := Option.map_eq_some_iff.mp hdecode
  exact ⟨r, hr, hslot, hlong⟩

theorem longIdle_eq_true {idleSince : String → Option Instant} {p : Pool} {r : Runner}
    (h : longIdle cfg snap idleSince p r = true) :
    ∃ since, idleSince r.name = some since ∧
      fromSecs cfg.supervisor.idleTimeoutSeconds ≤ snap.clock (.elapsed p.name r.name) - since := by
  rw [longIdle] at h
  split at h
  · next since hsince => exact ⟨since, hsince, of_decide_eq_true h⟩
  · cases h

theorem mem_stops_passOf {inp : PoolInput} {p : Pool} {b : Budget} {slot : Nat} :
    Action.stop slot ∈ (passOf cfg inv snap inp p b).report.actions ↔
      slot ∈ slotsToStop cfg snap inp p := by
  show Action.stop slot ∈ (actOn cfg inv snap inp p b).actions ↔ _
  rw [actOn_eq]
  simp

theorem length_stops_passOf {inp : PoolInput} {p : Pool} {b : Budget} :
    ((passOf cfg inv snap inp p b).report.actions.filter Action.isStop).length =
      (slotsToStop cfg snap inp p).length := by
  have hlaunches : ∀ slots : List Nat, (slots.map Action.launch).filter Action.isStop = [] := by
    intro slots
    rw [List.filter_eq_nil_iff]
    intro a ha
    obtain ⟨slot, _, rfl⟩ := List.mem_map.mp ha
    exact Bool.false_ne_true
  have hstops : ∀ slots : List Nat, (slots.map Action.stop).filter Action.isStop =
      slots.map Action.stop := by
    intro slots
    rw [List.filter_eq_self]
    intro a ha
    obtain ⟨slot, _, rfl⟩ := List.mem_map.mp ha
    rfl
  show ((actOn cfg inv snap inp p b).actions.filter Action.isStop).length = _
  rw [actOn_eq, List.filter_append, hlaunches, hstops, List.nil_append, List.length_map]

theorem length_slotsToStop_le {inp : PoolInput} {p : Pool} :
    (slotsToStop cfg snap inp p).length ≤ (-p.deficit inp.runners inp.activeSlots inp.queued).toNat := by
  rw [slotsToStop, List.length_map, stopped, List.length_take]
  exact Nat.min_le_left _ _

theorem clock_le_of_ordered {pre post : List Snapshot} {start : Snapshot} {name pool runner : String}
    (hclock : ClockOrdered (snaps ++ [snap])) (hsplit : snaps ++ [snap] = pre ++ start :: post) :
    start.clock (.inserted name) ≤ snap.clock (.elapsed pool runner) := by
  have hsorted := hclock.across
  have hwithin := hclock.within snap (List.mem_append_right _ List.mem_cons_self) name pool runner
  have hlast : (start :: post).getLast? = some snap := by
    have hboth := congrArg List.getLast? hsplit
    rw [List.getLast?_append, List.getLast?_append] at hboth
    simpa using hboth.symm
  rw [hsplit, List.pairwise_append] at hsorted
  cases post with
  | nil =>
      cases hlast
      exact hwithin
  | cons s post =>
      have hmem : snap ∈ s :: post := by
        rw [List.getLast?_cons_cons] at hlast
        exact List.mem_of_getLast? hlast
      exact (List.pairwise_cons.mp hsorted.2.1).1 snap hmem _ _

/-- **Only long idle workers are stopped, and no more than there are too many.** -/
theorem stop_only_long_idle {pass : Pass} {p : Pool} {pp : PoolPass} {slot : Nat}
    (hclock : ClockOrdered (snaps ++ [snap])) (hunique : ∀ s ∈ snaps ++ [snap], UniqueNames s)
    (hpass : reconcile cfg inv snap (runState cfg inv snaps) = .ok pass)
    (hpp : (p, pp) ∈ cfg.pools.zip pass.pools) (hstop : Action.stop slot ∈ pp.report.actions) :
    (∃ r, LongIdleRunner cfg snaps snap p slot r) ∧
      ((pp.report.actions.filter Action.isStop).length : Int) ≤
        pp.report.present.toNat - pp.report.desired.toNat := by
  obtain ⟨runners, hrunners, hspec⟩ := reconcile_spec hpass
  rw [hspec.pools] at hpp
  obtain ⟨_, _, _, rfl⟩ := mem_zip_poolLoop hpp
  rw [mem_stops_passOf] at hstop
  refine ⟨?_, ?_⟩
  · obtain ⟨r, hr, hdecode, hlong⟩ := mem_slotsToStop_iff hstop
    obtain ⟨hmine, hflags⟩ := List.mem_filter.mp hr
    have hidle : r.online = true ∧ r.busy = false := by simpa using hflags
    obtain ⟨since, hentry, helapsed⟩ := longIdle_eq_true hlong
    have htable : Streak.table ((snaps ++ [snap]).filterMap roundOf) r.name = some since := by
      rw [← refreshIdleSince_runState hrunners]
      exact hentry
    obtain ⟨pre, start, post, runners', hsplit, hstart, hsince, hall⟩ :=
      exists_start_of_entry hunique htable
    refine ⟨r, ⟨runners, hrunners, hmine⟩, hidle.1, hidle.2, hdecode, pre, start, post, runners', hsplit,
      hstart, ?_, hall⟩
    have hle : start.clock (.inserted r.name) ≤ snap.clock (.elapsed p.name r.name) :=
      clock_le_of_ordered hclock hsplit
    rw [hsince] at helapsed
    exact Nat.add_le_of_le_sub' hle helapsed
  · rw [length_stops_passOf]
    have hsome : 0 < (slotsToStop cfg snap (poolInput cfg snap (runState cfg inv snaps) runners) p).length :=
      List.length_pos_of_mem hstop
    have hle : (slotsToStop cfg snap (poolInput cfg snap (runState cfg inv snaps) runners) p).length ≤
        (-p.deficit runners (activeSlotsOf snap.activeUnits)
          (refreshQueued cfg snap (runState cfg inv snaps))).toNat := length_slotsToStop_le
    rw [Pool.deficit] at hle
    show _ ≤ ((p.present runners (activeSlotsOf snap.activeUnits)).toNat : Int) -
      (p.want runners (refreshQueued cfg snap (runState cfg inv snaps))).toNat
    omega

end

def coldPool : Pool := { smallPool with minWarm := 0 }

/-- The one worker of the pool, online and idle. -/
def idleWorker : Runner :=
  { id := 1, name := vmName "ci" 100 1700000000 4242, status := "online", labels := [⟨"linux"⟩] }

def idleSnapshot (t : Instant) : Snapshot :=
  { roomySnapshot [idleWorker] [100] with clock := fun _ => t }

theorem stop_after_idle_timeout :
    ∃ r, LongIdleRunner (configWith [coldPool]) [idleSnapshot 5, idleSnapshot 15]
      (idleSnapshot 900000000005) coldPool 100 r := by
  obtain ⟨pass, hpass⟩ : ∃ pass, reconcile (configWith [coldPool]) daemonCall (idleSnapshot 900000000005)
      (runState (configWith [coldPool]) daemonCall [idleSnapshot 5, idleSnapshot 15]) = .ok pass :=
    reconcile_ok rfl
  have hpools := (reconciled_of_ok rfl hpass).pools
  have hclock : ClockOrdered ([idleSnapshot 5, idleSnapshot 15] ++ [idleSnapshot 900000000005]) := by
    refine ⟨?_, fun s hs _ _ _ => ?_⟩
    · have hsorted : [5, 15, 900000000005].Pairwise (· ≤ ·) := by decide
      exact (List.pairwise_map (f := idleSnapshot) (l := [5, 15, 900000000005])).mpr
        (hsorted.imp fun h _ _ => h)
    · simp only [List.cons_append, List.nil_append, List.mem_cons, List.not_mem_nil, or_false] at hs
      rcases hs with rfl | rfl | rfl <;> exact le_rfl
  have hunique : ∀ s ∈ [idleSnapshot 5, idleSnapshot 15] ++ [idleSnapshot 900000000005],
      UniqueNames s := by
    intro s hs runners hrunners
    simp only [List.cons_append, List.nil_append, List.mem_cons, List.not_mem_nil, or_false] at hs
    rcases hs with rfl | rfl | rfl <;> cases hrunners <;> exact List.nodup_singleton _
  have hpp : (coldPool, passOf (configWith [coldPool]) daemonCall (idleSnapshot 900000000005)
      (poolInput (configWith [coldPool]) (idleSnapshot 900000000005)
        (runState (configWith [coldPool]) daemonCall [idleSnapshot 5, idleSnapshot 15]) [idleWorker])
      coldPool (startBudget (configWith [coldPool]) (idleSnapshot 900000000005))) ∈
      (configWith [coldPool]).pools.zip pass.pools := by
    rw [hpools]
    exact List.mem_cons_self
  have hstop : Action.stop 100 ∈ (passOf (configWith [coldPool]) daemonCall (idleSnapshot 900000000005)
      (poolInput (configWith [coldPool]) (idleSnapshot 900000000005)
        (runState (configWith [coldPool]) daemonCall [idleSnapshot 5, idleSnapshot 15]) [idleWorker])
      coldPool (startBudget (configWith [coldPool]) (idleSnapshot 900000000005))).report.actions := by
    decide
  exact (stop_only_long_idle hclock hunique hpass hpp hstop).1

end VmFleet
