import VmFleet.Source.WorkerLife
import VmFleet.Library.Procedure
import VmFleet.Proof.LaunchSafety

/-!
# What a worker cleans up

The cleanup purges the VM if the clone has come back with success. Between the clone command and the flag
nothing else can fail, so the VM is left only where the daemon has made it and the client says that it
has not. The runner records are looked up by name, whatever `lifecycle` has come to.
-/

namespace VmFleet

namespace WorkerLife

open Procedure

/-! ### What is not touched -/

/-- Whether the VM exists and whether `created` is set. -/
def Marks (vm created : Bool) (s : LifeState) : Prop := s.vm = vm ∧ s.created = created

variable {α β : Type}

/-- The two are left alone, however the procedure ends. -/
def Keeps (x : Life α) : Prop :=
  ∀ vm created, Triple (Marks vm created) x (fun _ => Marks vm created) (Marks vm created)

theorem keeps_pure (a : α) : Keeps (pure a) := fun _ _ => preserves_pure a

theorem keeps_throw (e : Stop) : Keeps (throw e : Life α) := fun _ _ => preserves_throw e

theorem Keeps.bind {x : Life α} {f : α → Life β} (hx : Keeps x) (hf : ∀ a, Keeps (f a)) :
    Keeps (x >>= f) := fun vm created => Preserves.bind (hx vm created) fun a => hf a vm created

theorem Keeps.ite {x y : Life α} {p : Prop} [Decidable p] (hx : Keeps x) (hy : Keeps y) :
    Keeps (if p then x else y) := fun vm created => Preserves.ite (hx vm created) (hy vm created)

theorem Keeps.discard {x : Life α} (hx : Keeps x) : Keeps (Functor.discard x) :=
  hx.bind fun _ => keeps_pure _

theorem keeps_issue (c : Command) : Keeps (issue c) := fun _ _ => preserves_modify fun _ h => h

theorem keeps_orFail (r : Except String α) : Keeps (orFail r) := by
  cases r with
  | ok a => exact keeps_pure a
  | error e => exact keeps_throw (.failed e)

theorem keeps_runChecked (c : Command) (answer : Answer) : Keeps (runChecked c answer) :=
  (keeps_issue c).bind fun _ => keeps_orFail _

theorem keeps_succeeds (c : Command) (answer : Answer) : Keeps (succeeds c answer) :=
  (keeps_issue c).bind fun _ => keeps_pure _

theorem keeps_childAlive (childRuns : Bool) : Keeps (childAlive childRuns) :=
  fun _ _ => preserves_get.bind fun _ => preserves_pure _

theorem keeps_waitCloudInit (vm : String) (timeout : UInt64) (rounds : List CloudInitRound) :
    Keeps (waitCloudInit vm timeout rounds) := by
  induction rounds with
  | nil => exact keeps_throw _
  | cons round rest ih =>
      rw [waitCloudInit]
      exact (keeps_succeeds _ _).bind fun ready => (keeps_pure _).ite ((keeps_throw _).ite ih)

theorem keeps_waitRegistration (own : String) (timeout : UInt64) (rounds : List RegistrationRound) :
    Keeps (waitRegistration own timeout rounds) := by
  induction rounds with
  | nil => exact keeps_throw _
  | cons round rest ih =>
      rw [waitRegistration]
      refine (keeps_childAlive _).bind fun alive => ?_
      exact ((keeps_pure _).ite ((keeps_throw _).ite ih)).ite (keeps_throw _)

theorem keeps_healthMonitor (own : String) (grace : UInt64) (since : Option Instant)
    (rounds : List HealthRound) : Keeps (healthMonitor own grace since rounds) := by
  induction rounds generalizing since with
  | nil => exact keeps_throw _
  | cons round rest ih =>
      rw [healthMonitor]
      exact (keeps_childAlive _).bind fun alive => ((keeps_pure _).ite (ih _)).ite (keeps_pure _)

theorem keeps_runConfigSh (cfg : Config) (pool : Pool) (own token : String) (answer : Answer) :
    Keeps (runConfigSh cfg pool own token answer) := by
  refine (keeps_orFail _).bind fun url => (keeps_issue _).bind fun _ => (keeps_orFail _).bind fun o => ?_
  exact (keeps_pure _).ite (keeps_throw _)

theorem keeps_swapIfSet (cfg : Config) (pool : Pool) (own : String) : Keeps (swapIfSet cfg pool own) := by
  unfold swapIfSet
  cases pool.swap with
  | none => exact keeps_pure _
  | some size => exact keeps_issue _

theorem keeps_configureIfToken (cfg : Config) (pool : Pool) (own : String) (token : Option String)
    (out : LifeOutcomes) : Keeps (configureIfToken cfg pool own token out) := by
  cases token with
  | none => exact keeps_pure _
  | some token => exact keeps_runConfigSh _ _ _ _ _

theorem keeps_runCommand (cfg : Config) (out : LifeOutcomes) : Keeps (runCommand cfg out) :=
  ((keeps_orFail _).bind fun _ => keeps_pure _).ite (keeps_pure _)

/-- Once the flag is set it stays, and so does the VM. -/
theorem serve_spec (cfg : Config) (pool : Pool) (own : String) (token : Option String)
    (out : LifeOutcomes) (vm : Bool) :
    Triple (Marks vm false) (serve cfg pool own token out) (fun _ => Marks vm true) (Marks vm true) := by
  have hset : Triple (Marks vm false) (modify fun s => { s with created := true } : Life PUnit)
      (fun _ => Marks vm true) (Marks vm true) := triple_modify fun s h => ⟨h.1, rfl⟩
  refine triple_bind hset fun _ => ?_
  have hspawned : Keeps (modify fun s => { s with runChild := true } : Life PUnit) :=
    fun _ _ => preserves_modify fun _ h => h
  refine triple_bind ((keeps_runChecked _ _).discard vm true) fun _ => ?_
  refine triple_bind ((keeps_runChecked _ _).discard vm true) fun _ => ?_
  refine triple_bind ((keeps_runChecked _ _).discard vm true) fun _ => ?_
  refine triple_bind (keeps_waitCloudInit _ _ _ vm true) fun _ => ?_
  refine triple_bind (keeps_swapIfSet _ _ _ vm true) fun _ => ?_
  refine triple_bind (keeps_configureIfToken _ _ _ _ _ vm true) fun _ => ?_
  refine triple_bind (keeps_runCommand _ _ vm true) fun runCmd => ?_
  refine triple_bind (keeps_issue _ vm true) fun _ => ?_
  refine triple_bind (keeps_orFail _ vm true) fun _ => ?_
  refine triple_bind (hspawned vm true) fun _ => ?_
  refine triple_bind (keeps_waitRegistration _ _ _ vm true) fun _ => ?_
  exact keeps_healthMonitor _ _ _ _ vm true

/-! ### How far it comes -/

/-- The two are left alone, and the procedure returns exactly if `ok` holds. -/
def Opens (ok : Bool) (x : Life α) : Prop :=
  ∀ vm created, Triple (Marks vm created) x (fun _ s => ok = true ∧ Marks vm created s)
    (fun s => ok = false ∧ Marks vm created s)

theorem Opens.bind {ok ok' : Bool} {x : Life α} {f : α → Life β} (hx : Opens ok x)
    (hf : ∀ a, Opens ok' (f a)) : Opens (ok && ok') (x >>= f) := by
  intro vm created
  have hfirst : Triple (Marks vm created) x (fun _ s => ok = true ∧ Marks vm created s)
      (fun s => (ok && ok') = false ∧ Marks vm created s) :=
    (hx vm created).mono_fail fun s h => ⟨by rw [h.1]; rfl, h.2⟩
  refine triple_bind hfirst fun a => triple_of_fact fun hok => ?_
  subst hok
  exact hf a vm created

theorem opens_pure (a : α) : Opens true (pure a) := fun _ _ => triple_pure fun _ h => ⟨rfl, h⟩

theorem opens_throw (e : Stop) : Opens false (throw e : Life α) := fun _ _ => triple_throw fun _ h => ⟨rfl, h⟩

theorem opens_modify {f : LifeState → LifeState}
    (hf : ∀ vm created s, Marks vm created s → Marks vm created (f s)) : Opens true (modify f : Life PUnit) :=
  fun vm created => triple_modify fun s h => ⟨rfl, hf vm created s h⟩

theorem opens_orFail (r : Except String α) : Opens r.isOk (orFail r) := by
  cases r with
  | ok a => exact opens_pure a
  | error e => exact opens_throw (.failed e)

theorem opens_ensure (c : Command) (answer : Answer) (message : String) :
    Opens (exitsZero answer) (ensure c answer message) := by
  have hissue : Opens true (issue c) := opens_modify fun _ _ _ h => h
  have hensure : Opens (true && exitsZero answer) (ensure c answer message) := by
    rw [ensure, succeeds, bind_assoc]
    refine hissue.bind fun _ => ?_
    rw [pure_bind]
    cases exitsZero answer with
    | true => exact opens_pure _
    | false => exact opens_throw _
  exact hensure

theorem opens_chooseBase (cfg : Config) (pool : Pool) :
    Opens (cfg.baseFor pool).isSome (chooseBase cfg pool) := by
  unfold chooseBase
  cases cfg.baseFor pool with
  | none => exact opens_throw _
  | some base => exact opens_pure base

theorem isOk_context (message : String) (x : Except String α) : (context message x).isOk = x.isOk := by
  cases x with
  | ok a => rfl
  | error e => rfl

theorem opens_registrationToken (cfg : Config) (out : LifeOutcomes) :
    Opens (cfg.supervisor.useJit || out.registrationToken.isOk) (registrationToken cfg out) := by
  unfold registrationToken
  cases cfg.supervisor.useJit with
  | true => exact opens_pure none
  | false =>
      have htoken : Opens (out.registrationToken.isOk && true) (do
          let token ← orFail (context "registration token" out.registrationToken)
          return some token) := by
        rw [← isOk_context "registration token"]
        exact (opens_orFail _).bind fun token => opens_pure (some token)
      rw [Bool.and_true] at htoken
      exact htoken

theorem opens_acquire (out : LifeOutcomes) : Opens (out.acquired.any Except.isOk) (acquire out) := by
  unfold acquire
  cases out.acquired with
  | none => exact opens_throw _
  | some granted => exact opens_orFail granted

/-- The clone command is reached: everything before it succeeds. -/
def reachesClone (cfg : Config) (pool : Pool) (out : LifeOutcomes) : Bool :=
  exitsZero out.version && (cfg.baseFor pool).isSome && exitsZero out.info && out.reachable.isOk &&
    (cfg.supervisor.useJit || out.registrationToken.isOk) && out.acquired.any Except.isOk

theorem opens_prepare (cfg : Config) (pool : Pool) (slot : Nat) (own : String) (out : LifeOutcomes) :
    Opens (reachesClone cfg pool out) (prepare cfg pool slot own out) := by
  have hsweep : Opens true (sweepAndMark pool slot own out) := opens_modify fun _ _ _ h => h
  have hprepare := (opens_ensure Multipass.versionCommand out.version
      "multipass daemon not available").bind fun _ =>
    (opens_chooseBase cfg pool).bind fun base =>
    (opens_ensure (Multipass.infoCommand base.name) out.info
      ("base VM does not exist: " ++ base.name ++ " (run `vmfleet build-base`)")).bind fun _ =>
    (opens_orFail (context "GitHub not reachable" out.reachable)).bind fun _ =>
    hsweep.bind fun _ =>
    (opens_registrationToken cfg out).bind fun token =>
    (opens_acquire out).bind fun _ => opens_pure (base, token)
  simp only [isOk_context, Bool.and_true, Bool.true_and, ← Bool.and_assoc] at hprepare
  exact hprepare

theorem isOk_checked (c : Command) (answer : Answer) : (checked c answer).isOk = exitsZero answer := by
  cases answer with
  | error e => rfl
  | ok o =>
      show (if o.ok = true then (Except.ok o.stdout : Except String String) else _).isOk = o.ok
      cases o.ok with
      | true => rfl
      | false => rfl

theorem cloneFrom_spec (base own : String) (out : LifeOutcomes) :
    Triple (Marks false false) (cloneFrom base own out)
      (fun _ s => exitsZero out.clone = true ∧ Marks out.cloned false s)
      (fun s => exitsZero out.clone = false ∧ Marks out.cloned false s) := by
  have hasked : Triple (Marks false false) (modify fun s => { s with vm := out.cloned } : Life PUnit)
      (fun _ => Marks out.cloned false)
      (fun s => exitsZero out.clone = false ∧ Marks out.cloned false s) :=
    triple_modify fun s h => ⟨rfl, h.2⟩
  refine triple_bind hasked fun _ => ?_
  have hclone : Opens (exitsZero out.clone) (runChecked (Multipass.cloneCommand base own) out.clone) := by
    have hissue : Opens true (issue (Multipass.cloneCommand base own)) := opens_modify fun _ _ _ h => h
    rw [← isOk_checked (Multipass.cloneCommand base own)]
    exact hissue.bind fun _ => opens_orFail (checked (Multipass.cloneCommand base own) out.clone)
  have hdiscard := hclone.bind fun _ => opens_pure PUnit.unit
  rw [Bool.and_true] at hdiscard
  exact hdiscard out.cloned false

/-- The VM is the one the clone has made, and the flag says whether the clone has come back with
success. -/
theorem lifecycle_spec (cfg : Config) (pool : Pool) (slot : Nat) (own : String) (out : LifeOutcomes) :
    Triple (Marks false false) (lifecycle cfg pool slot own out)
      (fun _ => Marks (reachesClone cfg pool out && out.cloned)
        (reachesClone cfg pool out && exitsZero out.clone))
      (Marks (reachesClone cfg pool out && out.cloned)
        (reachesClone cfg pool out && exitsZero out.clone)) := by
  have hprepare : Triple (Marks false false) (prepare cfg pool slot own out)
      (fun _ s => reachesClone cfg pool out = true ∧ Marks false false s)
      (Marks (reachesClone cfg pool out && out.cloned)
        (reachesClone cfg pool out && exitsZero out.clone)) := by
    refine (opens_prepare cfg pool slot own out false false).mono_fail ?_
    intro s h
    rw [h.1]
    exact h.2
  refine triple_bind hprepare fun ready => triple_of_fact fun hreaches => ?_
  rw [hreaches, Bool.true_and, Bool.true_and]
  have hclone : Triple (Marks false false) (cloneFrom ready.1.name own out)
      (fun _ s => exitsZero out.clone = true ∧ Marks out.cloned false s)
      (Marks out.cloned (exitsZero out.clone)) := by
    refine (cloneFrom_spec ready.1.name own out).mono_fail ?_
    intro s h
    rw [h.1]
    exact h.2
  refine triple_bind hclone fun _ => triple_of_fact fun hok => ?_
  rw [hok]
  exact serve_spec cfg pool own ready.2 out out.cloned

/-! ### The cleanup -/

/-- A VM is purged, and every record listed is deleted. -/
structure CleanedUp (own : String) (out : LifeOutcomes) (e : Ended) : Prop where
  purged : e.left.vm = true → ∀ c ∈ [Multipass.stopCancelCommand own, Multipass.stopForceCommand own,
    Multipass.deleteCommand own], c ∈ e.cleanup.commands
  deregistered : ∀ rs, out.listed = .ok rs → ∀ r ∈ rs, r.name = own → r.id ∈ e.cleanup.deletedRunners

theorem run_eq_some {cfg : Config} {pool : Pool} {slot : Nat} {own : String} {out : LifeOutcomes}
    {e : Ended} (h : run cfg pool slot own out = some e) :
    e.cleanup = WorkerLife.cleanup own out e.left ∧
      Marks (reachesClone cfg pool out && out.cloned) (reachesClone cfg pool out && exitsZero out.clone)
        e.left := by
  have hends := lifecycle_spec cfg pool slot own out { stateFile := out.sweep.stateFile } ⟨rfl, rfl⟩
  rw [run] at h
  cases hrun : StateT.run (ExceptT.run (lifecycle cfg pool slot own out))
      { stateFile := out.sweep.stateFile } with
  | mk r s =>
      rw [hrun] at h hends
      rcases r with stop | u
      · cases stop with
        | failed message =>
            cases h
            exact ⟨rfl, hends⟩
        | waiting => cases h
      · cases h
        exact ⟨rfl, hends⟩

/-- Every record of the worker's name in the list is deleted. -/
theorem cleanup_deregisters {own : String} {out : LifeOutcomes} {s : LifeState} {rs : List Runner}
    {r : Runner} (hlisted : out.listed = .ok rs) (hr : r ∈ rs) (hname : r.name = own) :
    r.id ∈ (cleanup own out s).deletedRunners := by
  rw [cleanup, hlisted]
  exact List.mem_map_of_mem (List.mem_filter.mpr ⟨hr, beq_iff_eq.mpr hname⟩)

theorem mem_purge {own : String} {first retry : Answer} {c : Command}
    (hc : c ∈ [Multipass.stopCancelCommand own, Multipass.stopForceCommand own,
      Multipass.deleteCommand own]) : c ∈ (Multipass.purge own first retry).1 := by
  unfold Multipass.purge
  cases first with
  | error e => exact hc
  | ok o =>
      dsimp only
      split
      · exact hc
      · exact List.mem_append_left _ hc

/-- **When a worker cleans up what it has made.** -/
theorem run_cleans_up_iff {cfg : Config} {pool : Pool} {slot : Nat} {own : String} {out : LifeOutcomes}
    {e : Ended} (hrun : run cfg pool slot own out = some e) :
    CleanedUp own out e ↔
      (reachesClone cfg pool out = true → out.cloned = true → exitsZero out.clone = true) := by
  obtain ⟨hcleanup, hvm, hcreated⟩ := run_eq_some hrun
  refine ⟨fun h hreaches hcloned => ?_, fun h => ⟨fun hleft c hc => ?_, fun rs hlisted r hr hname => ?_⟩⟩
  · by_contra hfailed
    rw [hreaches, hcloned] at hvm
    have hdelete := h.purged hvm (Multipass.deleteCommand own) (by simp)
    rw [hreaches, Bool.true_and, eq_false_of_ne_true hfailed] at hcreated
    rw [hcleanup, cleanup, hcreated] at hdelete
    cases hdelete
  · rw [hvm, Bool.and_eq_true] at hleft
    rw [hleft.1, h hleft.1 hleft.2] at hcreated
    rw [hcleanup, cleanup, hcreated]
    exact mem_purge hc
  · rw [hcleanup]
    exact cleanup_deregisters hlisted hr hname

end WorkerLife

/-! ### A clone that takes too long -/

def ownName : String := vmName "ci" 100 1700000000 4242

/-- Everything succeeds. The runner does a job and ends. -/
def smoothLife : LifeOutcomes where
  version := .ok ⟨0, "", ""⟩
  info := .ok ⟨0, "", ""⟩
  reachable := .ok ()
  sweep := ⟨none, .ok ⟨0, "", ""⟩, fun _ => .ok [], fun _ => (.ok ⟨0, "", ""⟩, .ok ⟨0, "", ""⟩)⟩
  stateWritten := true
  registrationToken := .ok "token"
  acquired := some (.ok ())
  clone := .ok ⟨0, "", ""⟩
  cloned := true
  setCpus := .ok ⟨0, "", ""⟩
  setMemory := .ok ⟨0, "", ""⟩
  start := .ok ⟨0, "", ""⟩
  cloudInit := [⟨.ok ⟨0, "", ""⟩, false⟩]
  setupSwap := .ok ⟨0, "", ""⟩
  configSh := .ok ⟨0, "", ""⟩
  jitconfig := .ok "blob"
  spawned := .ok ()
  registration := [⟨true, .ok [{ id := 7, name := ownName, status := "online" }], false⟩]
  health := [⟨false, .ok [], 0, 0⟩]
  listed := .ok [{ id := 7, name := ownName, status := "offline" }]
  purge := (.ok ⟨0, "", ""⟩, .ok ⟨0, "", ""⟩)

/-- The start fails. -/
def startFails : LifeOutcomes := { smoothLife with start := .ok ⟨2, "", "start failed"⟩ }

/-- The client gives up on the clone, and the daemon goes through with it. -/
def cloneTimesOut : LifeOutcomes :=
  { smoothLife with clone := .error "`multipass` timed out after 180s" }

theorem startFails_cleaned_up :
    ∃ e, WorkerLife.run (configWith [smallPool]) smallPool 100 ownName startFails = some e ∧
      e.left.vm = true ∧ WorkerLife.CleanedUp ownName startFails e := by
  have hsome : ∃ e, WorkerLife.run (configWith [smallPool]) smallPool 100 ownName startFails = some e := ⟨_, rfl⟩
  obtain ⟨e, hrun⟩ := hsome
  refine ⟨e, hrun, ?_, (WorkerLife.run_cleans_up_iff hrun).mpr fun _ _ => rfl⟩
  rw [(WorkerLife.run_eq_some hrun).2.1]
  decide

theorem timed_out_clone_left :
    ∃ e, WorkerLife.run (configWith [smallPool]) smallPool 100 ownName cloneTimesOut = some e ∧
      e.result = .error "`multipass` timed out after 180s" ∧ e.left.vm = true ∧ e.cleanup.commands = [] ∧
      ¬ WorkerLife.CleanedUp ownName cloneTimesOut e := by
  refine ⟨_, rfl, rfl, rfl, rfl, fun h => ?_⟩
  have hdelete := h.purged rfl (Multipass.deleteCommand ownName) (by simp)
  cases hdelete

end VmFleet
