import VmFleet.Proof.SharedSlots

/-!
# What a scale-down leaves of the warm pool

A pool has too many workers by a count that takes in the pending ones, which have not registered, and what
is stopped for it are ready ones. So with workers pending a scale-down may take idle runners that
`min_warm` asks for. `keeps_warm_iff` says when enough of them stay.
-/

namespace VmFleet

/-- No stop decided for the pool names the slot the runner decodes to. -/
def unstopped (p : Pool) (pp : PoolPass) (r : Runner) : Bool :=
  (slotOfVm p.name r.name).all fun slot => slot ∉ pp.report.actions.filterMap Action.stopped

/-- `min(idle, min_warm, max - busy)`. -/
def warmTarget (p : Pool) (runners : List Runner) : Nat :=
  min (p.idleRunners runners).length (min p.minWarm.toNat (p.max.toNat - (p.busyRunners runners).length))

def KeepsWarm (p : Pool) (runners : List Runner) (pp : PoolPass) : Prop :=
  warmTarget p runners ≤ ((p.idleRunners runners).filter (unstopped p pp)).length

/-- The idle runners that decode to one of the slots. -/
def idleOn (p : Pool) (runners : List Runner) (slots : List Nat) : List Runner :=
  (p.idleRunners runners).filter fun r => (slotOfVm p.name r.name).any (· ∈ slots)

/-- How many idle runners share a slot with one of the `k` longest idle beyond these themselves. -/
def doubles (cfg : Config) (snap : Snapshot) (idleSince : String → Option Instant) (p : Pool)
    (runners : List Runner) (activeSlots : List Nat) (k : Nat) : Nat :=
  (idleOn p runners ((longestIdle cfg snap idleSince p runners activeSlots k).map fun e => e.1.2)).length -
    (longestIdle cfg snap idleSince p runners activeSlots k).length

section

variable {cfg : Config} {inv : Invocation} {snap : Snapshot} {state : SupState} {runners : List Runner}
  {pass : Pass} {p : Pool} {pp : PoolPass} {b : Budget} {inp : PoolInput}
  {idleSince : String → Option Instant} {activeSlots : List Nat} {k : Nat}

/-- The records of the stoppable runners on some slots are among the idle runners there. -/
theorem length_stoppable_le_idleOn (slots : List Nat) :
    ((stoppable cfg snap idleSince p runners activeSlots).filter fun c => decide (c.2 ∈ slots)).length ≤
      (idleOn p runners slots).length := by
  have hdecoded : (((p.idleRunners runners).filterMap fun r =>
      (slotOfVm p.name r.name).map fun slot => (r, slot)).filter fun c => decide (c.2 ∈ slots)).length =
      (idleOn p runners slots).length := by
    rw [idleOn]
    induction p.idleRunners runners with
    | nil => rfl
    | cons r rest ih =>
        cases hslot : slotOfVm p.name r.name with
        | none => simp only [List.filterMap_cons, List.filter_cons, hslot, Option.map_none, Option.any_none,
            Bool.false_eq_true, if_false, ih]
        | some slot =>
            simp only [List.filterMap_cons, List.filter_cons, hslot, Option.map_some, Option.any_some]
            split
            · rw [List.length_cons, List.length_cons, ih]
            · exact ih
  rw [← hdecoded, stoppable]
  exact (List.filter_sublist.filter _).length_le

theorem length_longestIdle_le_idleOn :
    (longestIdle cfg snap idleSince p runners activeSlots k).length ≤
      (idleOn p runners ((longestIdle cfg snap idleSince p runners activeSlots k).map fun e => e.1.2)).length := by
  have hrecords : ((stoppable cfg snap idleSince p runners activeSlots).filter fun c =>
      decide (c.2 ∈ (longestIdle cfg snap idleSince p runners activeSlots k).map fun e => e.1.2)).length ≤ _ :=
    length_stoppable_le_idleOn _
  have hsublist : ((longestIdle cfg snap idleSince p runners activeSlots k).map Prod.fst).Sublist
      (stoppable cfg snap idleSince p runners activeSlots) := by
    have hzip := (List.filter_sublist (l := (stoppable cfg snap idleSince p runners activeSlots).zipIdx)
      (p := fun e => decide (Selection.rank (sinceOf idleSince)
        (stoppable cfg snap idleSince p runners activeSlots) e < k))).map Prod.fst
    rw [List.zipIdx_map_fst] at hzip
    exact hzip
  have hkept : ((longestIdle cfg snap idleSince p runners activeSlots k).map Prod.fst).filter
      (fun c => decide (c.2 ∈ (longestIdle cfg snap idleSince p runners activeSlots k).map fun e => e.1.2)) =
      (longestIdle cfg snap idleSince p runners activeSlots k).map Prod.fst := by
    rw [List.filter_eq_self]
    intro c hc
    obtain ⟨e, he, rfl⟩ := List.mem_map.mp hc
    exact decide_eq_true (List.mem_map_of_mem he)
  have hle := (hsublist.filter fun c => decide (c.2 ∈
    (longestIdle cfg snap idleSince p runners activeSlots k).map fun e => e.1.2)).length_le
  rw [hkept, List.length_map] at hle
  exact hle.trans hrecords

/-- Every idle runner is unstopped, or on one of the slots that are stopped. -/
theorem length_unstopped_add (hpp : (pp.report.actions.filterMap Action.stopped).Perm
      ((longestIdle cfg snap idleSince p runners activeSlots k).map fun e => e.1.2)) :
    ((p.idleRunners runners).filter (unstopped p pp)).length +
      (idleOn p runners ((longestIdle cfg snap idleSince p runners activeSlots k).map
        fun e => e.1.2)).length = (p.idleRunners runners).length := by
  have hcomplement : idleOn p runners ((longestIdle cfg snap idleSince p runners activeSlots k).map
      fun e => e.1.2) = (p.idleRunners runners).filter fun r => !unstopped p pp r := by
    apply List.filter_congr
    intro r _
    rw [unstopped]
    cases slotOfVm p.name r.name with
    | none => rfl
    | some slot =>
        simp only [Option.any_some, Option.all_some, decide_not, Bool.not_not, decide_eq_decide]
        exact hpp.mem_iff.symm
  rw [hcomplement, ← List.length_eq_length_filter_add]

theorem warmTarget_le : warmTarget p runners ≤ (p.idleRunners runners).length := Nat.min_le_left _ _

theorem keepsWarm_iff_of_stops {present want : Nat} (hk : k = present - want)
    (hstops : (pp.report.actions.filterMap Action.stopped).Perm
      ((longestIdle cfg snap idleSince p runners activeSlots k).map fun e => e.1.2)) :
    KeepsWarm p runners pp ↔
      present + doubles cfg snap idleSince p runners activeSlots k + warmTarget p runners ≤
          want + (p.idleRunners runners).length ∨
        (stoppable cfg snap idleSince p runners activeSlots).length +
            doubles cfg snap idleSince p runners activeSlots k + warmTarget p runners ≤
          (p.idleRunners runners).length := by
  have hsplit := length_unstopped_add hstops
  have hle : (longestIdle cfg snap idleSince p runners activeSlots k).length ≤
      (idleOn p runners ((longestIdle cfg snap idleSince p runners activeSlots k).map
        fun e => e.1.2)).length := length_longestIdle_le_idleOn
  have hlength : (longestIdle cfg snap idleSince p runners activeSlots k).length =
      min k (stoppable cfg snap idleSince p runners activeSlots).length := Selection.length_firsts _ _ _
  have hwarm : warmTarget p runners ≤ (p.idleRunners runners).length := warmTarget_le
  rw [KeepsWarm, doubles]
  by_cases hzero : k = 0
  · -- nothing is stopped, and nothing shares a slot with it
    have hnone : longestIdle cfg snap idleSince p runners activeSlots k = [] := by
      rw [← List.length_eq_zero_iff, hlength, hzero, Nat.zero_min]
    have hidleOn : (idleOn p runners ((longestIdle cfg snap idleSince p runners activeSlots k).map
        fun e => e.1.2)).length = 0 := by
      rw [hnone, idleOn, List.length_eq_zero_iff, List.filter_eq_nil_iff]
      intro r _
      cases slotOfVm p.name r.name <;> simp
    omega
  · omega

/-- **When a scale-down keeps the warm pool ready.** -/
theorem keeps_warm_iff (hrunners : snap.runners = .ok runners)
    (hpass : reconcile cfg inv snap state = .ok pass) (hpp : (p, pp) ∈ cfg.pools.zip pass.pools) :
    KeepsWarm p runners pp ↔
      p.headcount runners (activeSlotsOf snap.activeUnits) % 2 ^ 32 +
          doubles cfg snap (refreshIdleSince snap runners state.idleSince) p runners
            (activeSlotsOf snap.activeUnits)
            (-p.deficit runners (activeSlotsOf snap.activeUnits) (refreshQueued cfg snap state)).toNat +
          warmTarget p runners ≤
        (p.want runners (refreshQueued cfg snap state)).toNat + (p.idleRunners runners).length ∨
      (stoppable cfg snap (refreshIdleSince snap runners state.idleSince) p runners
            (activeSlotsOf snap.activeUnits)).length +
          doubles cfg snap (refreshIdleSince snap runners state.idleSince) p runners
            (activeSlotsOf snap.activeUnits)
            (-p.deficit runners (activeSlotsOf snap.activeUnits) (refreshQueued cfg snap state)).toNat +
          warmTarget p runners ≤
        (p.idleRunners runners).length := by
  have hspec := reconciled_of_ok hrunners hpass
  rw [hspec.pools] at hpp
  obtain ⟨pre, _, _, rfl⟩ := mem_zip_poolLoop hpp
  apply keepsWarm_iff_of_stops
  · rw [Pool.deficit, Pool.present_toNat]
    omega
  · rw [filterMap_stopped_passOf]
    exact slotsToStop_perm cfg snap p (poolInput cfg snap state runners)

end

/-- Two workers are ready and two have just been launched. -/
def pendingSnapshot : Snapshot :=
  { roomySnapshot [idleWorker, secondWorker] [100, 101, 102, 103] with clock := fun _ => 900000000010 }

theorem keeps_warm_one :
    ∃ (pass : Pass) (pp : PoolPass),
      reconcile (configWith [warmPool]) daemonCall twoIdleSnapshot idleState = .ok pass ∧
      pp.report.actions = [.stop 101] ∧ KeepsWarm warmPool [idleWorker, secondWorker] pp := by
  obtain ⟨pass, hpass⟩ : ∃ pass, reconcile (configWith [warmPool]) daemonCall twoIdleSnapshot idleState =
      .ok pass := reconcile_ok rfl
  have hactive : activeSlotsOf twoIdleSnapshot.activeUnits = [100, 101] :=
    activeSlotsOf_unitTable (by decide) (by decide) 0 ""
  refine ⟨pass, _, hpass, actions_warmPool,
    (keeps_warm_iff rfl hpass (mem_zip_configWith rfl hpass)).mpr (Or.inl ?_)⟩
  rw [hactive]
  decide +kernel

/-- Four workers are two too many, and the two that are stopped are the two that are ready. -/
theorem warm_pool_stopped :
    (configWith [smallPool]).validate = .ok () ∧
      ∃ (pass : Pass) (pp : PoolPass),
        reconcile (configWith [smallPool]) daemonCall pendingSnapshot idleState = .ok pass ∧
        (smallPool, pp) ∈ (configWith [smallPool]).pools.zip pass.pools ∧
        pp.report.actions = [.stop 101, .stop 100] ∧
        warmTarget smallPool [idleWorker, secondWorker] = 2 ∧
        ¬ KeepsWarm smallPool [idleWorker, secondWorker] pp := by
  obtain ⟨pass, hpass⟩ : ∃ pass, reconcile (configWith [smallPool]) daemonCall pendingSnapshot idleState =
      .ok pass := reconcile_ok rfl
  have hinput : poolInput (configWith [smallPool]) pendingSnapshot idleState [idleWorker, secondWorker] =
      { poolInput (configWith [smallPool]) pendingSnapshot idleState [idleWorker, secondWorker] with
        activeSlots := [100, 101, 102, 103] } := poolInput_of_unitTable rfl (by decide) (by decide)
  have hactions : (passOf (configWith [smallPool]) daemonCall pendingSnapshot
      (poolInput (configWith [smallPool]) pendingSnapshot idleState [idleWorker, secondWorker]) smallPool
      (startBudget (configWith [smallPool]) pendingSnapshot)).report.actions = [.stop 101, .stop 100] := by
    rw [hinput]
    decide +kernel
  have hwarm : warmTarget smallPool [idleWorker, secondWorker] = 2 := by decide +kernel
  have hnone : ∀ r ∈ smallPool.idleRunners [idleWorker, secondWorker],
      (slotOfVm smallPool.name r.name).all (· ∉ [101, 100]) = false := by
    decide +kernel
  refine ⟨by decide, pass, _, hpass, mem_zip_configWith rfl hpass, hactions, hwarm, fun hkeeps => ?_⟩
  rw [KeepsWarm, hwarm, List.filter_eq_nil_iff.mpr] at hkeeps
  · cases hkeeps
  · intro r hr
    rw [unstopped, hactions]
    exact Bool.eq_false_iff.mp (hnone r hr)

end VmFleet
