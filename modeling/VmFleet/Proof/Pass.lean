import VmFleet.Proof.PoolPass

/-!
# A whole pass

The pools are served one after another, and what one of them does depends on the others only through the
counters it finds. `mem_zip_poolLoop` names these: those after the pools before it. The counters bound
the successful launches of all pools together (`sum_started_le`).
-/

namespace VmFleet

/-- The slots of a pool whose launch succeeds in a pass. -/
def PoolPass.started (pp : PoolPass) (inv : Invocation) (snap : Snapshot) (p : Pool) : List Nat :=
  pp.attempted.filter (launchOk inv snap p)

section Loop

variable (cfg : Config) (inv : Invocation) (snap : Snapshot) (inp : PoolInput)

def passOf (p : Pool) (b : Budget) : PoolPass :=
  ⟨poolReport inp p (actOn cfg inv snap inp p b).actions, (actOn cfg inv snap inp p b).commands⟩

def budgetAfter (pools : List Pool) (b : Budget) : Budget :=
  pools.foldl (fun b p => (actOn cfg inv snap inp p b).budget) b

variable {cfg inv snap inp} {p : Pool} {b : Budget}

theorem mem_slotsToTry {slot : Nat} (h : slot ∈ slotsToTry cfg inp p b) :
    slot ∈ p.slots ∧ slot ∉ inp.activeSlots := by
  rw [slotsToTry] at h
  split at h
  · exact Pool.mem_freeSlots.mp (List.mem_of_mem_take h)
  · exact absurd h List.not_mem_nil

theorem slotsToTry_nodup : (slotsToTry cfg inp p b).Nodup := by
  rw [slotsToTry]
  split
  · exact Pool.freeSlots_nodup.sublist (List.take_sublist _ _)
  · exact List.nodup_nil

theorem length_slotsToTry_le_left : (slotsToTry cfg inp p b).length ≤ b.left cfg := by
  rw [slotsToTry]
  split
  · rw [List.length_take]
    omega
  · exact Nat.zero_le _

theorem mem_slotsToStop {slot : Nat} (h : slot ∈ slotsToStop cfg snap inp p) :
    slot ∈ p.active inp.activeSlots := by
  obtain ⟨c, hc, rfl⟩ := List.mem_map.mp h
  have hcandidate := (List.mem_filter.mp (List.mem_of_mem_take hc)).1
  rw [stopCandidates, (List.perm_insertionSort _ _).mem_iff] at hcandidate
  exact of_decide_eq_true (List.mem_filter.mp hcandidate).2

theorem lt_of_mem_slotsToStop {slot : Nat} (h : slot ∈ slotsToStop cfg snap inp p) : slot < 2 ^ 32 :=
  Pool.lt_of_mem_slots (Pool.mem_active.mp (mem_slotsToStop h)).2

/-! ### What the commands for one pool say -/

theorem attempted_passOf :
    (passOf cfg inv snap inp p b).attempted = if inv.dryRun then [] else slotsToTry cfg inp p b := by
  rw [PoolPass.attempted, passOf, actOn_eq]
  cases inv.dryRun with
  | true => rfl
  | false =>
      simp only [Bool.false_eq_true, if_false, List.filterMap_append,
        Command.filterMap_startedSlot_stop, List.append_nil]
      exact Command.filterMap_startedSlot_launchCommands inv p fun slot hslot =>
        Pool.lt_of_mem_slots (mem_slotsToTry hslot).1

theorem stopped_passOf :
    (passOf cfg inv snap inp p b).stopped = if inv.dryRun then [] else slotsToStop cfg snap inp p := by
  rw [PoolPass.stopped, passOf, actOn_eq]
  cases inv.dryRun with
  | true => rfl
  | false =>
      simp only [Bool.false_eq_true, if_false, List.filterMap_append,
        Command.filterMap_stoppedSlot_launchCommands, List.nil_append]
      exact Command.filterMap_stoppedSlot_stop fun slot hslot => lt_of_mem_slotsToStop hslot

theorem started_passOf (hdry : inv.dryRun = false) :
    (passOf cfg inv snap inp p b).started inv snap p = slotsCounted cfg inv snap inp p b := by
  rw [PoolPass.started, attempted_passOf, hdry, slotsCounted]
  apply List.filter_congr
  intro slot _
  rw [launchCounts, hdry, Bool.false_or]

/-! ### The loop -/

theorem poolLoop_cons (ps : List Pool) :
    poolLoop cfg inv snap inp (p :: ps) b =
      passOf cfg inv snap inp p b :: poolLoop cfg inv snap inp ps (actOn cfg inv snap inp p b).budget :=
  rfl

theorem poolLoop_append (pre post : List Pool) :
    poolLoop cfg inv snap inp (pre ++ post) b =
      poolLoop cfg inv snap inp pre b ++
        poolLoop cfg inv snap inp post (budgetAfter cfg inv snap inp pre b) := by
  induction pre generalizing b with
  | nil => rfl
  | cons q qs ih =>
      rw [List.cons_append, poolLoop_cons, poolLoop_cons, ih, List.cons_append]
      rfl

theorem length_poolLoop (pools : List Pool) :
    (poolLoop cfg inv snap inp pools b).length = pools.length := by
  induction pools generalizing b with
  | nil => rfl
  | cons q qs ih => rw [poolLoop_cons, List.length_cons, List.length_cons, ih]

theorem mem_zip_poolLoop {pools : List Pool} {pp : PoolPass}
    (h : (p, pp) ∈ pools.zip (poolLoop cfg inv snap inp pools b)) :
    ∃ pre post, pools = pre ++ p :: post ∧
      pp = passOf cfg inv snap inp p (budgetAfter cfg inv snap inp pre b) := by
  induction pools generalizing b with
  | nil => exact absurd h List.not_mem_nil
  | cons q qs ih =>
      rw [poolLoop_cons, List.zip_cons_cons, List.mem_cons, Prod.mk.injEq] at h
      rcases h with ⟨rfl, rfl⟩ | h
      · exact ⟨[], qs, rfl, rfl⟩
      · obtain ⟨pre, post, hpools, hpp⟩ := ih h
        exact ⟨q :: pre, post, by rw [hpools, List.cons_append], hpp⟩

theorem zip_poolLoop_append (pre post : List Pool) :
    (pre ++ p :: post).zip (poolLoop cfg inv snap inp (pre ++ p :: post) b) =
      pre.zip (poolLoop cfg inv snap inp pre b) ++
        (p, passOf cfg inv snap inp p (budgetAfter cfg inv snap inp pre b)) ::
          post.zip (poolLoop cfg inv snap inp post
            (budgetAfter cfg inv snap inp (pre ++ [p]) b)) := by
  rw [poolLoop_append, List.zip_append (length_poolLoop pre).symm, poolLoop_cons, List.zip_cons_cons,
    budgetAfter, budgetAfter, List.foldl_append]
  rfl

theorem left_actOn :
    (actOn cfg inv snap inp p b).budget.left cfg =
      b.left cfg - (slotsCounted cfg inv snap inp p b).length := by
  rw [actOn_eq]
  exact Budget.left_iterate_spend cfg ((List.length_filter_le _ _).trans length_slotsToTry_le_left)

theorem length_started_passOf_le :
    ((passOf cfg inv snap inp p b).started inv snap p).length ≤
      (slotsCounted cfg inv snap inp p b).length := by
  cases hdry : inv.dryRun with
  | true =>
      rw [PoolPass.started, attempted_passOf, hdry]
      exact Nat.zero_le _
  | false => rw [started_passOf hdry]

/-- **The counters bound the launches of all pools together.** -/
theorem sum_started_le (pools : List Pool) :
    ((pools.zip (poolLoop cfg inv snap inp pools b)).map
      fun x => (x.2.started inv snap x.1).length).sum ≤ b.left cfg := by
  induction pools generalizing b with
  | nil => exact Nat.zero_le _
  | cons q qs ih =>
      have hcounted : (slotsCounted cfg inv snap inp q b).length ≤ b.left cfg :=
        (List.length_filter_le _ _).trans length_slotsToTry_le_left
      have hrest : _ ≤ (actOn cfg inv snap inp q b).budget.left cfg := ih
      rw [left_actOn] at hrest
      rw [poolLoop_cons, List.zip_cons_cons, List.map_cons, List.sum_cons]
      have hstarted : ((passOf cfg inv snap inp q b).started inv snap q).length ≤
          (slotsCounted cfg inv snap inp q b).length := length_started_passOf_le
      refine (Nat.add_le_add hstarted hrest).trans ?_
      omega

end Loop

/-! ### `reconcile` -/

/-- What a pass that has read the runner records does. -/
structure Reconciled (cfg : Config) (inv : Invocation) (snap : Snapshot) (state : SupState)
    (runners : List Runner) (pass : Pass) : Prop where
  pools : pass.pools = poolLoop cfg inv snap (poolInput cfg snap state runners) cfg.pools
    (startBudget cfg snap)
  reports : pass.report.pools = pass.pools.map (·.report)
  commands : pass.commands = queryCommands inv snap ++ pass.pools.flatMap (·.commands)
  idleSince : pass.state.idleSince = refreshIdleSince snap runners state.idleSince
  cycle : pass.state.cycle = state.cycle + 1
  cachedQueued : pass.state.cachedQueued = refreshQueued cfg snap state

theorem maybeUpdateCheck_fields (cfg : Config) (snap : Snapshot) (state : SupState) :
    (maybeUpdateCheck cfg snap state).1.idleSince = state.idleSince ∧
      (maybeUpdateCheck cfg snap state).1.cycle = state.cycle ∧
      (maybeUpdateCheck cfg snap state).1.cachedQueued = state.cachedQueued := by
  have happly : (applyUpdateResult snap state).idleSince = state.idleSince ∧
      (applyUpdateResult snap state).cycle = state.cycle ∧
      (applyUpdateResult snap state).cachedQueued = state.cachedQueued := by
    rw [applyUpdateResult]
    split
    · split <;> exact ⟨rfl, rfl, rfl⟩
    · exact ⟨rfl, rfl, rfl⟩
  rw [maybeUpdateCheck]
  split
  · exact happly
  · exact happly

variable {cfg : Config} {inv : Invocation} {snap : Snapshot} {state : SupState} {runners : List Runner}
  {pass : Pass}

/-- **A pass fails only at the runner records.** -/
theorem reconcile_ok (hrunners : snap.runners = .ok runners) :
    ∃ pass, reconcile cfg inv snap state = .ok pass := by
  rw [reconcile, hrunners]
  exact ⟨_, rfl⟩

theorem reconcile_error {message : String} (hrunners : snap.runners = .error message) :
    reconcile cfg inv snap state = .error message := by
  rw [reconcile, hrunners]
  rfl

theorem reconcile_spec (h : reconcile cfg inv snap state = .ok pass) :
    ∃ runners, snap.runners = .ok runners ∧ Reconciled cfg inv snap state runners pass := by
  rw [reconcile, Fallible.bind_eq_ok_iff] at h
  obtain ⟨runners, hrunners, h⟩ := h
  cases h
  refine ⟨runners, hrunners, ⟨rfl, rfl, rfl, ?_, ?_, ?_⟩⟩ <;> dsimp only <;> split
  · exact (maybeUpdateCheck_fields _ _ _).1
  · rfl
  · exact (maybeUpdateCheck_fields _ _ _).2.1
  · rfl
  · exact (maybeUpdateCheck_fields _ _ _).2.2
  · rfl

theorem reconciled_of_ok (hrunners : snap.runners = .ok runners)
    (h : reconcile cfg inv snap state = .ok pass) : Reconciled cfg inv snap state runners pass := by
  obtain ⟨runners', hrunners', hspec⟩ := reconcile_spec h
  rw [hrunners] at hrunners'
  cases hrunners'
  exact hspec

/-! ### The commands of a pass -/

theorem filterMap_startedSlot_queryCommands (inv : Invocation) (snap : Snapshot) :
    (queryCommands inv snap).filterMap Command.startedSlot = [] := by
  rw [List.filterMap_eq_nil_iff]
  intro c hc
  have hprogram : c.program = "systemctl" := by
    rw [queryCommands, List.mem_append, List.mem_singleton] at hc
    rcases hc with hc | rfl
    · split at hc
      · exact absurd hc List.not_mem_nil
      · rcases List.mem_cons.mp hc with rfl | hc
        · rfl
        · obtain ⟨unit, _, rfl⟩ := List.mem_map.mp hc
          rfl
    · rfl
  rw [Command.startedSlot, hprogram]
  exact if_neg Command.systemctl_ne_systemdRun

theorem filterMap_stoppedSlot_queryCommands (inv : Invocation) (snap : Snapshot) :
    (queryCommands inv snap).filterMap Command.stoppedSlot = [] := by
  rw [List.filterMap_eq_nil_iff]
  intro c hc
  rw [queryCommands, List.mem_append, List.mem_singleton] at hc
  rcases hc with hc | rfl
  · split at hc
    · exact absurd hc List.not_mem_nil
    · rcases List.mem_cons.mp hc with rfl | hc
      · exact (if_pos rfl).trans rfl
      · obtain ⟨unit, _, rfl⟩ := List.mem_map.mp hc
        exact Command.stoppedSlot_resetFailed unit
  · exact (if_pos rfl).trans rfl

theorem Reconciled.startedSlots (h : Reconciled cfg inv snap state runners pass) :
    pass.commands.filterMap Command.startedSlot = pass.pools.flatMap (·.attempted) := by
  rw [h.commands, List.filterMap_append, filterMap_startedSlot_queryCommands, List.nil_append,
    List.filterMap_flatMap]
  rfl

theorem Reconciled.stoppedSlots (h : Reconciled cfg inv snap state runners pass) :
    pass.commands.filterMap Command.stoppedSlot = pass.pools.flatMap (·.stopped) := by
  rw [h.commands, List.filterMap_append, filterMap_stoppedSlot_queryCommands, List.nil_append,
    List.filterMap_flatMap]
  rfl

/-! ### The budget of a pass -/

theorem toNat_max_one (x : UInt64) : (max x 1).toNat = max x.toNat 1 := by
  show (if x ≤ 1 then (1 : UInt64) else x).toNat = _
  have hone : (1 : UInt64).toNat = 1 := rfl
  split
  · next h =>
      have hle := UInt64.le_iff_toNat_le.mp h
      omega
  · next h =>
      have hlt := UInt64.lt_iff_toNat_lt.mp (UInt64.not_le.mp h)
      omega

theorem headroomVms_toNat (avail minAvail reserve : UInt64) :
    (headroomVms avail minAvail reserve).toNat =
      (avail.toNat - minAvail.toNat) / max reserve.toNat 1 % 2 ^ 32 := by
  rw [headroomVms, UInt64.toNat_toUInt32, UInt64.toNat_div, toNat_max_one]
  split
  · next h => rw [UInt64.toNat_sub_of_le _ _ h]
  · next h =>
      have hlt := UInt64.lt_iff_toNat_lt.mp (UInt64.not_le.mp h)
      rw [Nat.sub_eq_zero_of_le (by omega), UInt64.toNat_zero]

theorem headroomVms_toNat_le (avail minAvail reserve : UInt64) :
    (headroomVms avail minAvail reserve).toNat ≤ (avail.toNat - minAvail.toNat) / max reserve.toNat 1 := by
  rw [headroomVms_toNat]
  exact Nat.mod_le _ _

theorem left_startBudget (cfg : Config) (snap : Snapshot) :
    (startBudget cfg snap).left cfg =
      min cfg.supervisor.maxLaunchPerPoll.toNat (startBudget cfg snap).headroom.toNat := rfl

/-- Launches within the headroom leave the memory the gate asks for. -/
theorem memory_of_le_headroom {n : Nat} (hpos : 0 < n)
    (hle : n ≤ (startBudget cfg snap).headroom.toNat) :
    cfg.admission.minAvailMib.toNat + n * max 1 cfg.supervisor.busyReserveMib.toNat ≤
      snap.resources.availMib.toNat := by
  have hheadroom := hle.trans (headroomVms_toNat_le _ _ _)
  rw [Nat.le_div_iff_mul_le (by omega), Nat.max_comm] at hheadroom
  have hreserve : 0 < n * max 1 cfg.supervisor.busyReserveMib.toNat :=
    Nat.mul_pos hpos (by omega)
  omega

end VmFleet
