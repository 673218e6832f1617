import VmFleet.Proof.LaunchOrder

/-!
# A dry run

A dry run takes the same decisions as a pass that really acts: its counters move as if every launch had
succeeded. It only asks systemd for the active units and writes nothing.
-/

namespace VmFleet

variable {cfg : Config} {snap : Snapshot} {inp : PoolInput}

/-! ### One pool -/

theorem slotsCounted_of_dryRun {inv : Invocation} (hdry : inv.dryRun = true) (p : Pool) (b : Budget) :
    slotsCounted cfg inv snap inp p b = slotsToTry cfg inp p b := by
  rw [slotsCounted, List.filter_eq_self]
  intro slot _
  rw [launchCounts, hdry, Bool.true_or]

theorem slotsCounted_of_launchOk {inv : Invocation} {p : Pool} (b : Budget)
    (hok : ∀ slot ∈ p.slots, launchOk inv snap p slot = true) :
    slotsCounted cfg inv snap inp p b = slotsToTry cfg inp p b := by
  rw [slotsCounted, List.filter_eq_self]
  intro slot hslot
  rw [launchCounts, hok slot (mem_slotsToTry hslot).1, Bool.or_true]

variable {dry real : Invocation}

/-- The decisions for a pool, and what they leave of the counters. -/
theorem actOn_dryRun (hdry : dry.dryRun = true) {p : Pool} (b : Budget)
    (hok : ∀ slot ∈ p.slots, launchOk real snap p slot = true) :
    (actOn cfg dry snap inp p b).actions = (actOn cfg real snap inp p b).actions ∧
      (actOn cfg dry snap inp p b).budget = (actOn cfg real snap inp p b).budget := by
  rw [actOn_eq, actOn_eq, slotsCounted_of_dryRun hdry, slotsCounted_of_launchOk b hok]
  exact ⟨rfl, rfl⟩

theorem reports_dryRun (hdry : dry.dryRun = true) {pools : List Pool} (b : Budget)
    (hok : ∀ p ∈ pools, ∀ slot ∈ p.slots, launchOk real snap p slot = true) :
    (poolLoop cfg dry snap inp pools b).map (·.report) =
      (poolLoop cfg real snap inp pools b).map (·.report) := by
  induction pools generalizing b with
  | nil => rfl
  | cons p ps ih =>
      rw [List.forall_mem_cons] at hok
      have hsame : (actOn cfg dry snap inp p b).actions = (actOn cfg real snap inp p b).actions ∧
          (actOn cfg dry snap inp p b).budget = (actOn cfg real snap inp p b).budget :=
        actOn_dryRun hdry b hok.1
      rw [poolLoop_cons, poolLoop_cons, List.map_cons, List.map_cons, ih _ hok.2, hsame.2, passOf, passOf,
        hsame.1]

theorem commands_dryRun (hdry : dry.dryRun = true) (pools : List Pool) (b : Budget) :
    (poolLoop cfg dry snap inp pools b).flatMap (·.commands) = [] := by
  induction pools generalizing b with
  | nil => rfl
  | cons p ps ih =>
      have hnone : (actOn cfg dry snap inp p b).commands = [] := by rw [actOn_eq, hdry, if_pos rfl]
      rw [poolLoop_cons, List.flatMap_cons, ih, passOf, hnone]
      rfl

/-! ### A whole pass -/

structure SameDecisions (dry real : Pass) : Prop where
  pools : dry.report.pools = real.report.pools
  blocked : dry.report.blocked = real.report.blocked
  headroomVms : dry.report.headroomVms = real.report.headroomVms
  idleSince : dry.state.idleSince = real.state.idleSince
  cycle : dry.state.cycle = real.state.cycle
  cachedQueued : dry.state.cachedQueued = real.state.cachedQueued

/-- A pass that leaves everything as it is. -/
structure NoEffects (pass : Pass) : Prop where
  commands : ∀ c ∈ pass.commands, c = Systemd.listActiveCommand workerUnitGlob
  filesWritten : pass.filesWritten = []

theorem report_of_ok {inv : Invocation} {state : SupState} {runners : List Runner} {pass : Pass}
    (hrunners : snap.runners = .ok runners) (h : reconcile cfg inv snap state = .ok pass) :
    pass.report.blocked = gateBlocked cfg.admission snap.gateResources ∧
      pass.report.headroomVms = (startBudget cfg snap).headroom ∧
      pass.filesWritten = if inv.dryRun then [] else ["status.json", "vmfleet.prom"] := by
  rw [reconcile, hrunners] at h
  cases h
  exact ⟨rfl, rfl, rfl⟩

/-- **A dry run decides what the pass decides when every launch succeeds, and does none of it.** -/
theorem dry_run_agrees {exe cfgPath : String} {state : SupState}
    (hok : ∀ p ∈ cfg.pools, ∀ slot ∈ p.slots, launchOk ⟨exe, cfgPath, false⟩ snap p slot = true) :
    (∃ message, reconcile cfg ⟨exe, cfgPath, true⟩ snap state = .error message ∧
      reconcile cfg ⟨exe, cfgPath, false⟩ snap state = .error message) ∨
    ∃ dry real, reconcile cfg ⟨exe, cfgPath, true⟩ snap state = .ok dry ∧
      reconcile cfg ⟨exe, cfgPath, false⟩ snap state = .ok real ∧
      SameDecisions dry real ∧ NoEffects dry := by
  cases hrunners : snap.runners with
  | error message => exact Or.inl ⟨message, reconcile_error hrunners, reconcile_error hrunners⟩
  | ok runners =>
      obtain ⟨dry, hdry⟩ : ∃ pass, reconcile cfg ⟨exe, cfgPath, true⟩ snap state = .ok pass :=
        reconcile_ok hrunners
      obtain ⟨real, hreal⟩ : ∃ pass, reconcile cfg ⟨exe, cfgPath, false⟩ snap state = .ok pass :=
        reconcile_ok hrunners
      have hdspec := reconciled_of_ok hrunners hdry
      have hrspec := reconciled_of_ok hrunners hreal
      obtain ⟨hdblocked, hdheadroom, hdfiles⟩ := report_of_ok hrunners hdry
      obtain ⟨hrblocked, hrheadroom, _⟩ := report_of_ok hrunners hreal
      refine Or.inr ⟨dry, real, hdry, hreal, ⟨?_, ?_, ?_, ?_, ?_, ?_⟩, ⟨?_, ?_⟩⟩
      · rw [hdspec.reports, hrspec.reports, hdspec.pools, hrspec.pools]
        exact reports_dryRun rfl _ hok
      · rw [hdblocked, hrblocked]
      · rw [hdheadroom, hrheadroom]
      · rw [hdspec.idleSince, hrspec.idleSince]
      · rw [hdspec.cycle, hrspec.cycle]
      · rw [hdspec.cachedQueued, hrspec.cachedQueued]
      · rw [hdspec.commands, hdspec.pools, commands_dryRun rfl, List.append_nil]
        intro c hc
        exact List.mem_singleton.mp hc
      · exact hdfiles

/-- Two pools share the budget of launches, and the second has a worker that is already there. -/
theorem dry_run_agrees_two_pools :
    ∃ dry real, reconcile (configWith [smallPool, largePool]) ⟨daemonCall.exe, daemonCall.cfgPath, true⟩
        (roomySnapshot [] [200]) {} = .ok dry ∧
      reconcile (configWith [smallPool, largePool]) ⟨daemonCall.exe, daemonCall.cfgPath, false⟩
        (roomySnapshot [] [200]) {} = .ok real ∧
      SameDecisions dry real ∧ NoEffects dry := by
  have hok : ∀ p ∈ (configWith [smallPool, largePool]).pools, ∀ slot ∈ p.slots,
      launchOk ⟨daemonCall.exe, daemonCall.cfgPath, false⟩ (roomySnapshot [] [200]) p slot = true := by
    decide
  cases dry_run_agrees hok with
  | inl hfails =>
      obtain ⟨message, hmessage, _⟩ := hfails
      cases hmessage
  | inr hagree => exact hagree

end VmFleet
