import VmFleet.Proof.LongestIdle

/-!
# Records that share a slot

A scale-down picks runner records and stops the units of their slots. An old record whose deletion has
failed decodes to the slot of the worker that came after it, so a record that is idle may name a slot
where a job runs, and two records may name one slot. `stops_kill_no_job_iff` says when none of this
happens.
-/

namespace VmFleet

def Action.stopped : Action → Option Nat
  | .launch _ => none
  | .stop slot => some slot

/-- The stops decided for a pool name distinct slots, and none to which a busy runner decodes. -/
structure KillsNoJob (p : Pool) (runners : List Runner) (pp : PoolPass) : Prop where
  distinct : (pp.report.actions.filterMap Action.stopped).Nodup
  spares : ∀ slot ∈ pp.report.actions.filterMap Action.stopped, ∀ r ∈ p.busyRunners runners,
    slotOfVm p.name r.name ≠ some slot

/-- None of the `k` longest idle shares its slot with a busy runner of the pool, or with a runner that
comes before it among the stoppable ones. -/
structure SlotsApart (cfg : Config) (snap : Snapshot) (idleSince : String → Option Instant) (p : Pool)
    (runners : List Runner) (activeSlots : List Nat) (k : Nat) : Prop where
  fromBusy : ∀ e ∈ longestIdle cfg snap idleSince p runners activeSlots k,
    ∀ r ∈ p.busyRunners runners, slotOfVm p.name r.name ≠ some e.1.2
  fromEarlier : ∀ e ∈ longestIdle cfg snap idleSince p runners activeSlots k,
    ∀ e' ∈ (stoppable cfg snap idleSince p runners activeSlots).zipIdx,
      Selection.before (sinceOf idleSince) e' e = true → e'.1.2 ≠ e.1.2

section

variable {cfg : Config} {inv : Invocation} {snap : Snapshot} {state : SupState} {runners : List Runner}
  {pass : Pass} {p : Pool} {pp : PoolPass} {b : Budget} {inp : PoolInput}

theorem filterMap_stopped_passOf :
    (passOf cfg inv snap inp p b).report.actions.filterMap Action.stopped = slotsToStop cfg snap inp p := by
  have hlaunches : ∀ slots : List Nat, (slots.map Action.launch).filterMap Action.stopped = [] := by
    intro slots
    rw [List.filterMap_map]
    exact List.filterMap_eq_nil_iff.mpr fun _ _ => rfl
  have hstops : ∀ slots : List Nat, (slots.map Action.stop).filterMap Action.stopped = slots := by
    intro slots
    rw [List.filterMap_map]
    exact List.filterMap_some
  rw [passOf, actOn_eq]
  show (_ ++ _ : List Action).filterMap Action.stopped = _
  rw [List.filterMap_append, hlaunches, hstops, List.nil_append]

/-- **When the stops kill no job.** -/
theorem stops_kill_no_job_iff (hrunners : snap.runners = .ok runners)
    (hpass : reconcile cfg inv snap state = .ok pass) (hpp : (p, pp) ∈ cfg.pools.zip pass.pools) :
    KillsNoJob p runners pp ↔
      SlotsApart cfg snap (refreshIdleSince snap runners state.idleSince) p runners
        (activeSlotsOf snap.activeUnits)
        (-p.deficit runners (activeSlotsOf snap.activeUnits) (refreshQueued cfg snap state)).toNat := by
  have hspec := reconciled_of_ok hrunners hpass
  rw [hspec.pools] at hpp
  obtain ⟨_, _, _, rfl⟩ := mem_zip_poolLoop hpp
  have hperm := slotsToStop_perm cfg snap p (poolInput cfg snap state runners)
  have hdistinct := hperm.nodup_iff.trans (Selection.nodup_map_firsts_iff fun c : Runner × Nat => c.2)
  refine ⟨fun h => ⟨fun e he r hr => ?_, ?_⟩, fun h => ⟨?_, fun slot hslot r hr => ?_⟩⟩
  · have hspares := h.spares
    rw [filterMap_stopped_passOf] at hspares
    exact hspares e.1.2 (hperm.mem_iff.mpr (List.mem_map_of_mem he)) r hr
  · have hnodup := h.distinct
    rw [filterMap_stopped_passOf] at hnodup
    exact hdistinct.mp hnodup
  · rw [filterMap_stopped_passOf]
    exact hdistinct.mpr h.fromEarlier
  · rw [filterMap_stopped_passOf] at hslot
    obtain ⟨e, he, rfl⟩ := List.mem_map.mp (hperm.mem_iff.mp hslot)
    exact h.fromBusy e he r hr

end

/-- The worker on the slot of the idle record: it runs a job. -/
def busyWorker : Runner :=
  { idleWorker with id := 3, name := vmName "ci" 100 1700000900 4444, busy := true }

/-- An idle record on slot 100, there for an hour, and the busy worker that came after it. -/
def staleSnapshot : Snapshot :=
  { roomySnapshot [idleWorker, busyWorker] [100] with clock := fun _ => 3600000000005 }

def hourIdle : SupState := { idleSince := fun _ => some 5 }

theorem stops_kill_no_job_distinct :
    ∃ (pass : Pass) (pp : PoolPass),
      reconcile (configWith [coldPool]) daemonCall twoIdleSnapshot idleState = .ok pass ∧
      pp.report.actions = [.stop 101, .stop 100] ∧ KillsNoJob coldPool [idleWorker, secondWorker] pp := by
  obtain ⟨pass, hpass⟩ : ∃ pass, reconcile (configWith [coldPool]) daemonCall twoIdleSnapshot idleState =
      .ok pass := reconcile_ok rfl
  have hactive : activeSlotsOf twoIdleSnapshot.activeUnits = [100, 101] :=
    activeSlotsOf_unitTable (by decide) (by decide) 0 ""
  refine ⟨pass, _, hpass, ?_, (stops_kill_no_job_iff rfl hpass (mem_zip_configWith rfl hpass)).mpr ?_⟩
  · rw [poolInput_twoIdle]
    decide +kernel
  · rw [hactive]
    exact ⟨by decide +kernel, by decide +kernel⟩

/-- One worker too many is counted, the idle record is picked, and the unit stopped is that of the busy
worker. -/
theorem stop_kills_job :
    (configWith [coldPool]).validate = .ok () ∧
      ∃ (pass : Pass) (pp : PoolPass),
        reconcile (configWith [coldPool]) daemonCall staleSnapshot hourIdle = .ok pass ∧
        (coldPool, pp) ∈ (configWith [coldPool]).pools.zip pass.pools ∧
        pp.report.actions = [.stop 100] ∧
        busyWorker ∈ coldPool.busyRunners [idleWorker, busyWorker] ∧
        slotOfVm coldPool.name busyWorker.name = some 100 ∧
        ¬ KillsNoJob coldPool [idleWorker, busyWorker] pp := by
  obtain ⟨pass, hpass⟩ : ∃ pass, reconcile (configWith [coldPool]) daemonCall staleSnapshot hourIdle =
      .ok pass := reconcile_ok rfl
  have hinput : poolInput (configWith [coldPool]) staleSnapshot hourIdle [idleWorker, busyWorker] =
      { poolInput (configWith [coldPool]) staleSnapshot hourIdle [idleWorker, busyWorker] with
        activeSlots := [100] } := poolInput_of_unitTable rfl (by decide) (by decide)
  have hactions : (passOf (configWith [coldPool]) daemonCall staleSnapshot
      (poolInput (configWith [coldPool]) staleSnapshot hourIdle [idleWorker, busyWorker]) coldPool
      (startBudget (configWith [coldPool]) staleSnapshot)).report.actions = [.stop 100] := by
    rw [hinput]
    decide +kernel
  have hbusy : busyWorker ∈ coldPool.busyRunners [idleWorker, busyWorker] := by decide +kernel
  have hslot : slotOfVm coldPool.name busyWorker.name = some 100 := slotOfVm_vmName (by decide)
  refine ⟨by decide, pass, _, hpass, mem_zip_configWith rfl hpass, hactions, hbusy, hslot, fun hkills => ?_⟩
  exact hkills.spares 100 (by rw [hactions]; exact List.mem_cons_self) busyWorker hbusy hslot

end VmFleet
