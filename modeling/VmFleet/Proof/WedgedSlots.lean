import VmFleet.Proof.LaunchOrder

/-!
# Launches that fail

The bound on the launches of a pool is fixed before the loop over its free slots, and it bounds the
attempts: a launch that fails uses up an attempt, and nothing of the budget. So a pool gets what its
working slots allow exactly when no launch fails among the slots it tries, or only slots that fail are
left after them.
-/

namespace VmFleet

/-- The launches of the pools served before. -/
def launchedBy (inv : Invocation) (snap : Snapshot) (served : List (Pool × PoolPass)) : Nat :=
  (served.map fun x => (x.2.started inv snap x.1).length).sum

/-- How many launches the deficit of a pool, the budget and the headroom allow after so many others. -/
def mayLaunch (cfg : Config) (snap : Snapshot) (deficit : Int) (launched : Nat) : Nat :=
  min deficit.toNat (min (cfg.supervisor.maxLaunchPerPoll.toNat - launched)
    ((startBudget cfg snap).headroom.toNat - launched))

section

variable {cfg : Config} {inv : Invocation} {snap : Snapshot} {state : SupState} {inp : PoolInput}
  {p : Pool} {pp : PoolPass} {b : Budget} {pass : Pass} {runners : List Runner}

theorem left_budgetAfter (hdry : inv.dryRun = false) (pools : List Pool) :
    (budgetAfter cfg inv snap inp pools b).left cfg =
      b.left cfg - launchedBy inv snap (pools.zip (poolLoop cfg inv snap inp pools b)) := by
  induction pools generalizing b with
  | nil => rfl
  | cons q qs ih =>
      have hrest : (budgetAfter cfg inv snap inp (q :: qs) b).left cfg =
          (actOn cfg inv snap inp q b).budget.left cfg - launchedBy inv snap
            (qs.zip (poolLoop cfg inv snap inp qs (actOn cfg inv snap inp q b).budget)) := ih
      rw [hrest, left_actOn, poolLoop_cons, List.zip_cons_cons, launchedBy, launchedBy, List.map_cons,
        List.sum_cons, started_passOf hdry]
      omega

/-- The pool at one place of the loop, and what was done for it. -/
theorem eq_of_zip_poolLoop {pools : List Pool} {before after : List (Pool × PoolPass)}
    (hsplit : pools.zip (poolLoop cfg inv snap inp pools b) = before ++ (p, pp) :: after) :
    ∃ pre, before = pre.zip (poolLoop cfg inv snap inp pre b) ∧
      pp = passOf cfg inv snap inp p (budgetAfter cfg inv snap inp pre b) := by
  have hpools : pools = before.map (·.1) ++ p :: after.map (·.1) := by
    have hfst := congrArg (List.map Prod.fst) hsplit
    rw [List.map_fst_zip (length_poolLoop pools).ge, List.map_append, List.map_cons] at hfst
    exact hfst
  obtain ⟨pre, hpre⟩ : ∃ pre, pre = before.map (·.1) := ⟨_, rfl⟩
  rw [hpools, ← hpre, zip_poolLoop_append] at hsplit
  have hlength : (pre.zip (poolLoop cfg inv snap inp pre b)).length = before.length := by
    rw [List.length_zip, length_poolLoop, Nat.min_self, hpre, List.length_map]
  obtain ⟨hbefore, hrest⟩ := List.append_inj hsplit hlength
  obtain ⟨hhead, _⟩ := List.cons.inj hrest
  exact ⟨pre, hbefore.symm, (Prod.mk.inj hhead).2.symm⟩

theorem started_eq (hdry : inv.dryRun = false) (hopen : inp.blocked = none) :
    (passOf cfg inv snap inp p b).started inv snap p =
      ((p.inactive inp.activeSlots).take
        (min (p.deficit inp.runners inp.activeSlots inp.queued).toNat (b.left cfg))).filter
          (launchOk inv snap p) := by
  rw [started_passOf hdry, slotsCounted, slotsToTry, if_pos hopen, Pool.freeSlots_eq_inactive]
  apply List.filter_congr
  intro slot _
  rw [launchCounts, hdry, Bool.false_or]

/-- The launches of a pass for one pool: among its lowest inactive slots, as many as it may launch into,
those that work. -/
theorem started_of_reconcile {before after : List (Pool × PoolPass)} (hdry : inv.dryRun = false)
    (hopen : gateBlocked cfg.admission snap.gateResources = none) (hrunners : snap.runners = .ok runners)
    (hpass : reconcile cfg inv snap state = .ok pass)
    (hsplit : cfg.pools.zip pass.pools = before ++ (p, pp) :: after) :
    pp.started inv snap p =
      ((p.inactive (activeSlotsOf snap.activeUnits)).take
        (mayLaunch cfg snap
          (p.deficit runners (activeSlotsOf snap.activeUnits) (refreshQueued cfg snap state))
          (launchedBy inv snap before))).filter (launchOk inv snap p) := by
  have hspec := reconciled_of_ok hrunners hpass
  rw [hspec.pools] at hsplit
  obtain ⟨pre, hbefore, hpp⟩ := eq_of_zip_poolLoop hsplit
  have hbound : min (p.deficit runners (activeSlotsOf snap.activeUnits)
        (refreshQueued cfg snap state)).toNat
      ((budgetAfter cfg inv snap (poolInput cfg snap state runners) pre (startBudget cfg snap)).left cfg) =
      mayLaunch cfg snap (p.deficit runners (activeSlotsOf snap.activeUnits)
        (refreshQueued cfg snap state)) (launchedBy inv snap before) := by
    rw [left_budgetAfter hdry, left_startBudget, ← hbefore, mayLaunch]
    omega
  rw [← hbound, hpp]
  exact started_eq hdry hopen

theorem deficit_of_reconcile (hrunners : snap.runners = .ok runners)
    (hpass : reconcile cfg inv snap state = .ok pass) (hpp : (p, pp) ∈ cfg.pools.zip pass.pools) :
    pp.report.deficit = p.deficit runners (activeSlotsOf snap.activeUnits) (refreshQueued cfg snap state) := by
  rw [(reconciled_of_ok hrunners hpass).pools] at hpp
  obtain ⟨_, _, _, rfl⟩ := mem_zip_poolLoop hpp
  rfl

/-- **When slots that fail cost a pool no launch.** -/
theorem launches_despite_wedged_iff {before after : List (Pool × PoolPass)} (hdry : inv.dryRun = false)
    (hopen : gateBlocked cfg.admission snap.gateResources = none) (hrunners : snap.runners = .ok runners)
    (hpass : reconcile cfg inv snap state = .ok pass)
    (hsplit : cfg.pools.zip pass.pools = before ++ (p, pp) :: after) :
    (pp.started inv snap p).length =
        min (mayLaunch cfg snap
            (p.deficit runners (activeSlotsOf snap.activeUnits) (refreshQueued cfg snap state))
            (launchedBy inv snap before))
          ((p.inactive (activeSlotsOf snap.activeUnits)).filter (launchOk inv snap p)).length ↔
      (∀ slot ∈ (p.inactive (activeSlotsOf snap.activeUnits)).take
          (mayLaunch cfg snap
            (p.deficit runners (activeSlotsOf snap.activeUnits) (refreshQueued cfg snap state))
            (launchedBy inv snap before)), launchOk inv snap p slot = true) ∨
      ∀ slot ∈ (p.inactive (activeSlotsOf snap.activeUnits)).drop
          (mayLaunch cfg snap
            (p.deficit runners (activeSlotsOf snap.activeUnits) (refreshQueued cfg snap state))
            (launchedBy inv snap before)), launchOk inv snap p slot = false := by
  rw [started_of_reconcile hdry hopen hrunners hpass hsplit]
  exact Allotment.length_filter_take_eq_iff _ _ _

end

/-- What a pass reads while the unit of a slot is stopping: it is not active, and its name is taken. -/
def wedgedSnapshot (wedged : Nat) : Snapshot :=
  { roomySnapshot [] [] with
    systemdRun := fun _ slot =>
      if slot = wedged then .ok ⟨1, "", "Unit " ++ workerUnit slot ++ " was already loaded"⟩
      else .ok ⟨0, "", ""⟩ }

theorem launches_despite_wedged_103 :
    ∃ pass pp, reconcile (configWith [smallPool]) daemonCall (wedgedSnapshot 103) {} = .ok pass ∧
      (configWith [smallPool]).pools.zip pass.pools = [] ++ (smallPool, pp) :: [] ∧
      (pp.started daemonCall (wedgedSnapshot 103) smallPool).length =
        min (mayLaunch (configWith [smallPool]) (wedgedSnapshot 103)
            (smallPool.deficit [] (activeSlotsOf (wedgedSnapshot 103).activeUnits)
              (refreshQueued (configWith [smallPool]) (wedgedSnapshot 103) {}))
            (launchedBy daemonCall (wedgedSnapshot 103) []))
          ((smallPool.inactive (activeSlotsOf (wedgedSnapshot 103).activeUnits)).filter
            (launchOk daemonCall (wedgedSnapshot 103) smallPool)).length := by
  obtain ⟨pass, hpass⟩ : ∃ pass, reconcile (configWith [smallPool]) daemonCall (wedgedSnapshot 103) {} =
      .ok pass := reconcile_ok rfl
  have hsplit : (configWith [smallPool]).pools.zip pass.pools = [] ++ (smallPool,
      passOf (configWith [smallPool]) daemonCall (wedgedSnapshot 103)
        (poolInput (configWith [smallPool]) (wedgedSnapshot 103) {} []) smallPool
        (startBudget (configWith [smallPool]) (wedgedSnapshot 103))) :: [] := by
    rw [(reconciled_of_ok rfl hpass).pools]
    rfl
  exact ⟨pass, _, hpass, hsplit,
    (launches_despite_wedged_iff rfl rfl rfl hpass hsplit).mpr (Or.inl (by decide))⟩

/-- Two workers are to be launched, three slots would do, and one is launched. -/
theorem wedged_slot_costs_launch :
    (configWith [smallPool]).validate = .ok () ∧
      ∃ pass pp, reconcile (configWith [smallPool]) daemonCall (wedgedSnapshot 100) {} = .ok pass ∧
        (configWith [smallPool]).pools.zip pass.pools = [] ++ (smallPool, pp) :: [] ∧
        pp.report.deficit = 2 ∧
        pp.started daemonCall (wedgedSnapshot 100) smallPool = [101] ∧
        min (mayLaunch (configWith [smallPool]) (wedgedSnapshot 100) 2
            (launchedBy daemonCall (wedgedSnapshot 100) []))
          ((smallPool.inactive (activeSlotsOf (wedgedSnapshot 100).activeUnits)).filter
            (launchOk daemonCall (wedgedSnapshot 100) smallPool)).length = 2 := by
  obtain ⟨pass, hpass⟩ : ∃ pass, reconcile (configWith [smallPool]) daemonCall (wedgedSnapshot 100) {} =
      .ok pass := reconcile_ok rfl
  have hstarted : (passOf (configWith [smallPool]) daemonCall (wedgedSnapshot 100)
      (poolInput (configWith [smallPool]) (wedgedSnapshot 100) {} []) smallPool
      (startBudget (configWith [smallPool]) (wedgedSnapshot 100))).started daemonCall
        (wedgedSnapshot 100) smallPool = [101] := by
    rw [started_eq rfl rfl]
    decide
  refine ⟨by decide, pass, _, hpass, ?_, by decide, hstarted, by decide⟩
  rw [(reconciled_of_ok rfl hpass).pools]
  rfl

end VmFleet
