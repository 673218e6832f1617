import VmFleet.Source.ConfigFile
import VmFleet.Library.Transition
import VmFleet.Proof.LaunchSafety
import Mathlib.Data.List.Forall2

/-!
# Which limits a cycle uses

A running supervisor never reads the config file again, so its cycles work with the limits the file had
when it was started. `scalesSince` collects the scale commands since then; a cycle works with the limits
in the file exactly when these commands, one after another, leave the pools as they were.
-/

namespace VmFleet

/-- The cycle that comes next works with the limits in the file. -/
structure UsesWrittenLimits (d : Deployment) (inv : Invocation) (snap : Snapshot) : Prop where
  limits : List.Forall₂ (fun p q : Pool => p.name = q.name ∧ p.minWarm = q.minWarm ∧ p.max = q.max)
    d.loaded.pools d.file.pools
  slots : d.loaded.pools.map Pool.slots = d.file.pools.map Pool.slots
  desired : ∀ pass, reconcile d.loaded inv snap d.state = .ok pass →
    pass.report.pools.map (·.desired) =
      List.zipWith (fun (q : Pool) (r : PoolReport) => desired r.busy r.queued q.minWarm q.max)
        d.file.pools pass.report.pools

/-- The successful scale commands since the supervisor was last started. -/
def scalesSince (events : List DeployEvent) : List (String × Option UInt32 × Option UInt32) :=
  events.foldl (fun since e =>
    match e with
    | .scale pool min max => since ++ [(pool, min, max)]
    | .start => []
    | .cycle _ => since) []

def scaledPools (scales : List (String × Option UInt32 × Option UInt32)) (pools : List Pool) : List Pool :=
  scales.foldl (fun pools s => scalePools s.1 s.2.1 s.2.2 pools) pools

section

variable {home : String} {inv : Invocation} {file cfg : Config} {d d' : Deployment}

/-! ### What the commands change -/

theorem load_pools (h : Config.load home file = .ok cfg) : cfg.pools = file.pools := by
  rw [Config.load, Fallible.bind_eq_ok_iff] at h
  obtain ⟨_, _, h⟩ := h
  cases h
  rfl

theorem scale_pools {pool message : String} {min max : Option UInt32}
    (h : scale home file pool min max = .ok (cfg, message)) :
    cfg.pools = scalePools pool min max file.pools := by
  rw [scale, Fallible.bind_eq_ok_iff] at h
  obtain ⟨loaded, hload, h⟩ := h
  obtain ⟨_, h⟩ := Fallible.ite_error_eq_ok_iff.mp h
  obtain ⟨_, _, h⟩ := Fallible.bind_eq_ok_iff.mp h
  obtain ⟨_, _, h⟩ := Fallible.bind_eq_ok_iff.mp h
  cases h
  rw [← load_pools hload]

def OtherLimits (p q : Pool) : Prop := q = { p with minWarm := q.minWarm, max := q.max }

theorem OtherLimits.scalePool {p q : Pool} (h : OtherLimits p q) (min max : Option UInt32) :
    OtherLimits p (scalePool min max q) := by
  rw [OtherLimits] at h
  rw [h]
  rfl

theorem forall₂_otherLimits_scalePools {pools changed : List Pool} (pool : String)
    (min max : Option UInt32) (h : List.Forall₂ OtherLimits pools changed) :
    List.Forall₂ OtherLimits pools (scalePools pool min max changed) := by
  induction h with
  | nil => exact List.Forall₂.nil
  | cons hhead htail ih =>
      rw [scalePools]
      split
      · exact List.Forall₂.cons (hhead.scalePool min max) htail
      · exact List.Forall₂.cons hhead ih

theorem forall₂_otherLimits_scaledPools (scales : List (String × Option UInt32 × Option UInt32))
    (pools : List Pool) : List.Forall₂ OtherLimits pools (scaledPools scales pools) := by
  induction scales using List.reverseRecOn with
  | nil => exact List.forall₂_same.mpr fun _ _ => rfl
  | append_singleton scales s ih =>
      rw [scaledPools, List.foldl_append]
      exact forall₂_otherLimits_scalePools s.1 s.2.1 s.2.2 ih

theorem eq_of_sameLimits {pools changed : List Pool} (h : List.Forall₂ OtherLimits pools changed)
    (hsame : List.Forall₂
      (fun p q : Pool => p.name = q.name ∧ p.minWarm = q.minWarm ∧ p.max = q.max) pools changed) :
    changed = pools := by
  induction h with
  | nil => rfl
  | cons hhead _ ih =>
      obtain ⟨hlimits, hrest⟩ := List.forall₂_cons.mp hsame
      rw [OtherLimits, ← hlimits.2.1, ← hlimits.2.2] at hhead
      rw [hhead, ih hrest]

/-! ### The file against the loaded copy -/

theorem scalesSince_append_singleton (events : List DeployEvent) (e : DeployEvent) :
    scalesSince (events ++ [e]) =
      match e with
      | .scale pool min max => scalesSince events ++ [(pool, min, max)]
      | .start => []
      | .cycle _ => scalesSince events := by
  rw [scalesSince, List.foldl_append]
  cases e <;> rfl

theorem boot_spec (h : Deployment.boot home file = some d) :
    d.file = file ∧ d.loaded.pools = file.pools := by
  rw [Deployment.boot] at h
  split at h
  · next hload =>
      cases h
      exact ⟨rfl, load_pools hload⟩
  · cases h

/-- **The file holds what the supervisor loaded, with the scale commands since then applied.** -/
theorem file_pools_of_exec {events : List DeployEvent} (hboot : Deployment.boot home file = some d)
    (hexec : Transition.exec (Deployment.step home inv) d events = some d') :
    d'.file.pools = scaledPools (scalesSince events) d'.loaded.pools := by
  induction events using List.reverseRecOn generalizing d' with
  | nil =>
      cases hexec
      obtain ⟨hfile, hloaded⟩ := boot_spec hboot
      rw [hfile, hloaded]
      rfl
  | append_singleton events e ih =>
      obtain ⟨mid, hmid, hlast⟩ := Transition.exec_append_eq_some_iff.mp hexec
      obtain ⟨next, hstep, hnil⟩ := Transition.exec_cons_eq_some_iff.mp hlast
      cases hnil
      rw [scalesSince_append_singleton]
      cases e with
      | scale pool min max =>
          rw [Deployment.step] at hstep
          split at hstep
          · next written hscale =>
              cases hstep
              show written.1.pools = _
              rw [scale_pools hscale, ih hmid, scaledPools, scaledPools, List.foldl_append]
              rfl
          · cases hstep
      | start =>
          obtain ⟨hfile, hloaded⟩ := boot_spec hstep
          rw [hfile, hloaded]
          rfl
      | cycle snap =>
          cases hstep
          show mid.file.pools = scaledPools (scalesSince events) mid.loaded.pools
          exact ih hmid

/-! ### What a cycle computes -/

theorem reports_desired {snap : Snapshot} {state : SupState} {pass : Pass}
    (h : reconcile cfg inv snap state = .ok pass) :
    pass.report.pools.map (·.desired) =
      List.zipWith (fun (q : Pool) (r : PoolReport) => desired r.busy r.queued q.minWarm q.max)
        cfg.pools pass.report.pools := by
  obtain ⟨runners, _, hspec⟩ := reconcile_spec h
  rw [hspec.reports, hspec.pools]
  generalize startBudget cfg snap = b
  generalize hpools : cfg.pools = pools
  clear hpools
  induction pools generalizing b with
  | nil => rfl
  | cons p ps ih =>
      rw [poolLoop_cons, List.map_cons, List.map_cons, List.zipWith_cons_cons, ih]
      rfl

theorem usesWrittenLimits_iff {snap : Snapshot} (h : List.Forall₂ OtherLimits d.loaded.pools d.file.pools) :
    UsesWrittenLimits d inv snap ↔ d.file.pools = d.loaded.pools := by
  refine ⟨fun huses => eq_of_sameLimits h huses.limits, fun heq => ⟨?_, ?_, fun pass hpass => ?_⟩⟩
  · rw [heq]
    exact List.forall₂_same.mpr fun _ _ => ⟨rfl, rfl, rfl⟩
  · rw [heq]
  · rw [heq]
    exact reports_desired hpass

/-- **When every cycle works with the limits in the file.** -/
theorem cycles_use_written_limits_iff (events : List DeployEvent)
    (hboot : Deployment.boot home file = some d) :
    (∀ pre snap post, events = pre ++ .cycle snap :: post → ∀ mid,
      Transition.exec (Deployment.step home inv) d pre = some mid → UsesWrittenLimits mid inv snap) ↔
    ∀ pre snap post, events = pre ++ .cycle snap :: post → ∀ mid,
      Transition.exec (Deployment.step home inv) d pre = some mid →
        scaledPools (scalesSince pre) mid.loaded.pools = mid.loaded.pools := by
  refine forall_congr' fun pre => forall_congr' fun snap => forall_congr' fun post =>
    forall_congr' fun _ => forall_congr' fun mid => forall_congr' fun hmid => ?_
  have hfile := file_pools_of_exec hboot hmid
  have hother : List.Forall₂ OtherLimits mid.loaded.pools mid.file.pools := by
    rw [hfile]
    exact forall₂_otherLimits_scaledPools _ _
  rw [usesWrittenLimits_iff hother, hfile]

end

def smallDeployment : Deployment := ⟨configWith [smallPool], configWith [smallPool], {}⟩

theorem boot_smallDeployment :
    Deployment.boot "/root" (configWith [smallPool]) = some smallDeployment := rfl

theorem cycle_uses_limits_after_restart :
    ∃ mid, Transition.exec (Deployment.step "/root" daemonCall) smallDeployment
        [.scale "ci" (some 3) none, .start] = some mid ∧
      UsesWrittenLimits mid daemonCall (roomySnapshot [] []) := by
  refine ⟨_, rfl, (cycles_use_written_limits_iff [.scale "ci" (some 3) none, .start,
    .cycle (roomySnapshot [] [])] boot_smallDeployment).mpr ?_ [.scale "ci" (some 3) none, .start]
    (roomySnapshot [] []) [] rfl _ rfl⟩
  intro pre snap post hsplit mid _
  have hpre : pre = [.scale "ci" (some 3) none, .start] := by
    rcases pre with _ | ⟨a, _ | ⟨b, _ | ⟨c, pre⟩⟩⟩
    · simp at hsplit
    · simp at hsplit
    · simp only [List.cons_append, List.nil_append, List.cons.injEq] at hsplit
      rw [hsplit.1, hsplit.2.1]
    · simp at hsplit
  rw [hpre]
  rfl

/-- After `vmfleet scale ci --min 4`, the running supervisor still computes with the old minimum. -/
theorem cycle_misses_scale :
    Deployment.boot "/root" (configWith [smallPool]) = some smallDeployment ∧
    ∃ d, Transition.exec (Deployment.step "/root" daemonCall) smallDeployment
        [.scale "ci" (some 4) none] = some d ∧
      d.file.pools.map (·.minWarm) = [4] ∧
      (∃ pass, reconcile d.loaded daemonCall (roomySnapshot [] []) d.state = .ok pass ∧
        pass.report.pools.map (·.desired) = [2]) ∧
      ¬ UsesWrittenLimits d daemonCall (roomySnapshot [] []) := by
  refine ⟨rfl, _, rfl, rfl, ⟨_, rfl, by decide⟩, fun h => ?_⟩
  have hlimits := (List.forall₂_cons.mp h.limits).1.2.1
  revert hlimits
  decide

end VmFleet
