import VmFleet.Library.Procedure
import VmFleet.Proof.BuildBase
import VmFleet.Proof.Uninstall
import VmFleet.Source.Teardown

/-!
# What an uninstall purges

What is purged is decided in one place, with the config as it can be loaded then, and the VMs are reached
only past the token: a config that loads with a token that does not ends the uninstall before them.
-/

namespace VmFleet

namespace Teardown

open Procedure

/-! ### Steps that purge -/

/-- The purge of a VM deletes it. -/
def deletion (name : String) : TeardownStep := .run (Multipass.deleteCommand name)

/-- The VMs that have been purged are those of `P`. -/
def Purges (P : String → Prop) (s : List TeardownStep) : Prop := ∀ name, deletion name ∈ s ↔ P name

section

variable {opts : UninstallOpts} {paths : UninstallPaths} {out : TeardownOutcomes} {P : String → Prop}
variable {cfg : Option Config}

theorem perform_spec {steps : List TeardownStep} (hnone : ∀ name, deletion name ∉ steps)
    (E : List TeardownStep → Prop) : Triple (Purges P) (perform steps) (fun _ => Purges P) E := by
  refine triple_modify fun s h name => ?_
  rw [List.mem_append, or_iff_left (hnone name)]
  exact h name

theorem systemctl_ne_delete (args : List String) (timeout : Nat) (name : String) :
    (⟨"systemctl", args, timeout⟩ : Command) ≠ Multipass.deleteCommand name := by
  intro h
  exact absurd (congrArg Command.program h) (by decide : "systemctl" ≠ "multipass")

theorem stopUnits_spec (E : List TeardownStep → Prop) :
    Triple (Purges P) (stopUnits paths out) (fun _ => Purges P) E := by
  have hrun : ∀ {args : List String} {timeout : Nat} {name : String},
      deletion name ≠ .run ⟨"systemctl", args, timeout⟩ := by
    intro args timeout name h
    exact systemctl_ne_delete args timeout name (TeardownStep.run.inj h).symm
  refine triple_bind (perform_spec (fun name h => ?_) E) fun _ => ?_
  · rcases List.mem_pair.mp h with h | h
    · exact hrun h
    · exact hrun h
  refine triple_bind (perform_spec (fun name h => ?_) E) fun _ => ?_
  · obtain ⟨unit, -, h⟩ := List.mem_map.mp h
    cases h
  refine triple_bind (perform_spec (fun name h => ?_) E) fun _ => ?_
  · exact hrun (List.mem_singleton.mp h)
  refine triple_bind (perform_spec (fun name h => ?_) E) fun _ => ?_
  · obtain ⟨unit, -, h⟩ := List.mem_flatMap.mp h
    obtain ⟨c, hc, h⟩ := List.mem_map.mp h
    rcases List.mem_pair.mp hc with rfl | rfl
    · exact hrun h.symm
    · exact hrun h.symm
  exact perform_spec (fun name h => hrun (List.mem_singleton.mp h)) E

theorem deleteRunners_spec (c : Client) (runners : List Runner) :
    Triple (Purges P) (deleteRunners out c runners) (fun _ => Purges P) (Purges P) := by
  induction runners with
  | nil => exact triple_pure fun s h => h
  | cons r rest ih =>
      have hrequest : ∀ name, deletion name ∉ [TeardownStep.deleteRunner c r.id] :=
        fun name h => by cases List.mem_singleton.mp h
      refine triple_bind (perform_spec hrequest _) fun _ => ?_
      refine triple_bind ((triple_ofExcept_eq _).mono_fail fun s h => h.2) fun _ => ?_
      exact triple_of_fact fun _ => ih

/-- Nothing is purged with the records, and only the token can end it with an error. -/
theorem deregister_spec (cfg : Config) : Triple (Purges P) (deregister out cfg)
    (fun _ s => (cfg.token out.envToken out.tokenFile).isOk = true ∧ Purges P s)
    (fun s => (cfg.token out.envToken out.tokenFile).isOk = false ∧ Purges P s) := by
  refine triple_bind (triple_ofExcept_eq _) fun token => triple_of_fact fun htoken => ?_
  rw [htoken]
  cases Client.new cfg.github token with
  | error e => exact triple_pure fun s h => ⟨rfl, h⟩
  | ok c =>
      have hlist : ∀ name, deletion name ∉ [TeardownStep.listRunners c] :=
        fun name h => by cases List.mem_singleton.mp h
      have hdelete : Triple (Purges P) (deleteRunnersByPrefix out c vmPrefix) (fun _ => Purges P)
          (Purges P) := by
        refine triple_bind (perform_spec hlist _) fun _ => ?_
        refine triple_bind ((triple_ofExcept_eq _).mono_fail fun s h => h.2)
          fun _ => ?_
        exact triple_of_fact fun _ => deleteRunners_spec c _
      refine triple_tryCatch (hdelete.mono_post (fun _ s h => ⟨rfl, h⟩) fun s h => h) fun _ => ?_
      exact triple_pure fun s h => ⟨rfl, h⟩

theorem deleteCommand_eq_iff {name other : String} :
    Multipass.deleteCommand name = Multipass.deleteCommand other ↔ name = other := by
  simp [Multipass.deleteCommand]

theorem stop_ne_delete (args : List String) (timeout : Nat) (name : String) :
    (⟨"multipass", "stop" :: args, timeout⟩ : Command) ≠ Multipass.deleteCommand name := by
  intro h
  exact absurd (List.cons.inj (congrArg Command.args h)).1 (by decide)

theorem deletion_mem_purge_iff {name other : String} (first retry : Answer) :
    deletion name ∈ (Multipass.purge other first retry).1.map TeardownStep.run ↔ name = other := by
  have hmem : deletion name ∈ (Multipass.purge other first retry).1.map TeardownStep.run ↔
      Multipass.deleteCommand name ∈ (Multipass.purge other first retry).1 := by
    rw [deletion, List.mem_map_of_injective fun a b h => TeardownStep.run.inj h]
  rw [hmem, ← deleteCommand_eq_iff]
  refine ⟨fun h => ?_, fun h => h ▸ WorkerLife.mem_purge (by simp)⟩
  have hstart : ∀ c ∈ [Multipass.stopCancelCommand other, Multipass.stopForceCommand other,
      Multipass.deleteCommand other], c = Multipass.deleteCommand name →
      Multipass.deleteCommand name = Multipass.deleteCommand other := by
    intro c hc heq
    simp only [List.mem_cons, List.not_mem_nil, or_false] at hc
    rcases hc with rfl | rfl | rfl
    · exact absurd heq (stop_ne_delete _ _ _)
    · exact absurd heq (stop_ne_delete _ _ _)
    · exact heq.symm
  have hall : Multipass.deleteCommand name ∈ [Multipass.stopCancelCommand other,
      Multipass.stopForceCommand other, Multipass.deleteCommand other] := by
    unfold Multipass.purge at h
    cases first with
    | error e => exact h
    | ok o =>
        dsimp only at h
        split at h
        · exact h
        · rcases List.mem_append.mp h with h | h
          · exact h
          · exact List.mem_cons_of_mem _ h
  exact hstart _ hall rfl

/-- The VMs to be purged, where they are listed. -/
def Due (opts : UninstallOpts) (out : TeardownOutcomes) (cfg : Option Config) (name : String) : Prop :=
  ∃ vms, Multipass.list out.vms = .ok vms ∧ name ∈ uninstallPurges cfg opts.purgeAll vms

theorem purgeVms_spec (cfg : Option Config) : Triple (Purges fun _ => False) (purgeVms opts out cfg)
    (fun _ => Purges (Due opts out cfg)) (Purges (Due opts out cfg)) := by
  have hlist : ∀ name, deletion name ∉ [TeardownStep.run Multipass.listCommand] := by
    intro name h
    have hcommand : Multipass.deleteCommand name = Multipass.listCommand :=
      TeardownStep.run.inj (List.mem_singleton.mp h)
    exact absurd (List.cons.inj (congrArg Command.args hcommand)).1 (by decide)
  refine triple_bind (perform_spec hlist _) fun _ => ?_
  refine triple_bind ((triple_ofExcept_eq _).mono_fail fun s h name => ?_)
    fun vms => triple_of_fact fun hvms => ?_
  · refine (h.2 name).trans (iff_of_false id ?_)
    rintro ⟨vms, hvms, -⟩
    rw [hvms] at h
    cases h.1
  · refine triple_modify fun s h name => ?_
    rw [List.mem_append, or_iff_right (fun hs => (h name).mp hs), List.mem_flatMap]
    simp only [deletion_mem_purge_iff, exists_eq_right']
    exact ⟨fun hname => ⟨vms, hvms, hname⟩, fun ⟨vms', hvms', hname⟩ => by
      rw [hvms] at hvms'
      rw [Except.ok.inj hvms']
      exact hname⟩

theorem removeFiles_spec (E : List TeardownStep → Prop) :
    Triple (Purges P) (removeFiles opts paths cfg) (fun _ => Purges P) E := by
  refine triple_ite (fun _ => perform_spec (fun name h => ?_) E) fun _ => triple_pure fun s h => h
  rcases List.mem_append.mp h with h | h
  · cases cfg with
    | none => cases h
    | some cfg => cases List.mem_singleton.mp h
  · rcases List.mem_pair.mp h with h | h
    · cases h
    · cases h

/-! ### A whole run -/

/-- The operator has been asked and agrees, or is not asked. -/
def Confirmed (opts : UninstallOpts) (out : TeardownOutcomes) : Prop :=
  opts.yes = true ∨ out.confirmed = .ok true

/-- The config does not load, or the token it leads to can be read. -/
def PassesToken (paths : UninstallPaths) (out : TeardownOutcomes) : Prop :=
  ∀ cfg, loaded paths out = some cfg → (cfg.token out.envToken out.tokenFile).isOk = true

theorem confirm_spec : Triple (Purges P) (confirm opts out)
    (fun agreed s => (agreed = true ↔ Confirmed opts out) ∧ Purges P s)
    (fun s => ¬ Confirmed opts out ∧ Purges P s) := by
  refine triple_ite (fun hyes => triple_pure fun s h => ⟨iff_of_true rfl (.inl hyes), h⟩) fun hno => ?_
  have hconfirmed : Confirmed opts out ↔ out.confirmed = .ok true := or_iff_right hno
  rw [hconfirmed]
  refine (triple_ofExcept_eq _).mono_post (fun agreed s h => ⟨?_, h.2⟩) fun s h => ⟨?_, h.2⟩
  · rw [h.1, Except.ok.injEq]
  · intro hok
    rw [hok] at h
    cases h.1

theorem deregisterLoaded_spec : Triple (Purges P) (deregisterLoaded out (loaded paths out))
    (fun _ s => PassesToken paths out ∧ Purges P s) (fun s => ¬ PassesToken paths out ∧ Purges P s) := by
  unfold PassesToken
  cases loaded paths out with
  | none => exact triple_pure fun s h => ⟨fun cfg hcfg => (nomatch hcfg), h⟩
  | some cfg =>
      refine (deregister_spec cfg).mono_post (fun _ s h => ⟨?_, h.2⟩) fun s h => ⟨?_, h.2⟩
      · intro cfg' hcfg
        cases hcfg
        exact h.1
      · intro htoken
        rw [htoken cfg rfl] at h
        cases h.1

/-- **What an uninstall purges.** -/
theorem deletion_mem_steps_iff (name : String) : deletion name ∈ steps opts paths out ↔
    Confirmed opts out ∧ PassesToken paths out ∧ Due opts out (loaded paths out) name := by
  have hearly : ∀ s, ¬ (Confirmed opts out ∧ PassesToken paths out) → Purges (fun _ => False) s →
      Purges (fun name =>
        Confirmed opts out ∧ PassesToken paths out ∧ Due opts out (loaded paths out) name) s :=
    fun s hnot h name => (h name).trans (iff_of_false id fun hall => hnot ⟨hall.1, hall.2.1⟩)
  have hrun : Triple (Purges fun _ => False) (uninstall opts paths out)
      (fun _ => Purges fun name =>
        Confirmed opts out ∧ PassesToken paths out ∧ Due opts out (loaded paths out) name)
      (Purges fun name =>
        Confirmed opts out ∧ PassesToken paths out ∧ Due opts out (loaded paths out) name) := by
    refine triple_bind (confirm_spec.mono_fail fun s h =>
      hearly s (fun hall => h.1 hall.1) h.2) fun agreed => triple_of_fact fun hagreed => ?_
    refine triple_ite (fun hyes => ?_) fun hno => triple_pure fun s h =>
      hearly s (fun hall => hno (hagreed.mpr hall.1)) h
    have hconfirmed := hagreed.mp hyes
    refine triple_bind (stopUnits_spec _) fun _ => ?_
    refine triple_bind (deregisterLoaded_spec.mono_fail fun s h =>
      hearly s (fun hall => h.1 hall.2) h.2) fun _ => triple_of_fact fun hpasses => ?_
    simp only [hconfirmed, hpasses, true_and]
    exact triple_bind (purgeVms_spec _) fun _ => removeFiles_spec _
  have hstart : Purges (fun _ => False) [] := fun name => iff_of_false List.not_mem_nil id
  exact hrun.final hstart name

/-- **When an uninstall that is to keep the bases purges none of these.** -/
theorem uninstall_keeps_iff (yes : Bool) (paths : UninstallPaths) (out : TeardownOutcomes)
    (B : Set String) :
    (∀ b ∈ B, deletion b ∉ steps ⟨false, yes⟩ paths out) ↔
      (Confirmed ⟨false, yes⟩ out → PassesToken paths out → ∀ vms, Multipass.list out.vms = .ok vms →
        ∀ b ∈ B, b ∈ vms.map (·.1) → Text.startsWith b vmPrefix = true →
          ∃ cfg, loaded paths out = some cfg ∧ isBase cfg b = true) := by
  simp only [deletion_mem_steps_iff, Due, Installation.mem_uninstallPurges_iff, Bool.false_eq_true, false_or]
  constructor
  · intro h hconfirmed hpasses vms hvms b hb hlisted hstart
    by_contra hnone
    refine h b hb ⟨hconfirmed, hpasses, vms, hvms, hlisted, hstart, fun cfg hcfg => ?_⟩
    exact eq_false_of_ne_true fun hbase => hnone ⟨cfg, hcfg, hbase⟩
  · rintro h b hb ⟨hconfirmed, hpasses, vms, hvms, hlisted, hstart, hnot⟩
    obtain ⟨cfg, hcfg, hbase⟩ := h hconfirmed hpasses vms hvms b hb hlisted hstart
    rw [hnot cfg hcfg] at hbase
    cases hbase

def rootPaths : UninstallPaths where
  home := "/root"
  configFile := "/etc/vmfleet/vmfleet.toml"
  systemdUserDir := "/root/.config/systemd/user"
  stateDir := "/root/.local/share/vmfleet"

/-- A fleet with one VM beside the base. Everything succeeds. -/
def smallTeardown : TeardownOutcomes where
  confirmed := .ok true
  activeUnits := .ok ⟨0, "", ""⟩
  config := .tables (configWith [smallPool])
  envToken := none
  tokenFile := some "ghp_0123456789\n"
  runners := .ok []
  deleteRunner _ := .ok ()
  vms := .ok ⟨0, "Name,State,IPv4,Image\nvmfleet-base,Stopped,--,Ubuntu 24.04 LTS\n" ++
    "vmfleet-ci-100-1700000000-4242,Running,10.1.2.3,Ubuntu 24.04 LTS\n", ""⟩
  purge _ := (.ok ⟨0, "", ""⟩, .ok ⟨0, "", ""⟩)

theorem list_smallTeardown : Multipass.list smallTeardown.vms =
    .ok [("vmfleet-base", .stopped), ("vmfleet-ci-100-1700000000-4242", .running)] := by
  decide +kernel

/-- Since the base was built the config file has got `pool = []`. Without the key the file would fail to
parse, before `validate`. -/
def poolsRemoved : TeardownOutcomes :=
  { smallTeardown with config := .tables { configWith [smallPool] with pools := [] } }

/-- `validate` rejects the file, and the base goes with the rest. -/
theorem base_purged_without_config :
    (BuildBase.perform (buildBase "/root" "/etc/vmfleet/vmfleet.toml" (some "/etc/vmfleet")
        (.tables (configWith [smallPool])) ⟨false, fun _ => BuildBase.smoothBase⟩)
      (BuildBase.startWith fun _ => false)).2.vms "vmfleet-base" = some ⟨true, []⟩ ∧
    Config.loadFile "/root" "/etc/vmfleet/vmfleet.toml" poolsRemoved.config =
      .error "config: at least one [[pool]] is required" ∧
    ¬ ∀ b ∈ ({"vmfleet-base"} : Set String), deletion b ∉ steps ⟨false, false⟩ rootPaths poolsRemoved := by
  refine ⟨rfl, rfl, fun h => h "vmfleet-base" rfl ((deletion_mem_steps_iff _).mpr ?_)⟩
  refine ⟨.inr rfl, fun cfg hcfg => (nomatch hcfg), _, list_smallTeardown, ?_⟩
  exact Installation.mem_uninstallPurges_iff.mpr
    ⟨List.mem_cons_self, by decide, .inr fun cfg hcfg => (nomatch hcfg)⟩

/-- Every VM of the prefix in the list is purged, but for the bases without `--purge-all`. -/
def PurgesAll (opts : UninstallOpts) (paths : UninstallPaths) (out : TeardownOutcomes) : Prop :=
  ∀ vms, Multipass.list out.vms = .ok vms → ∀ name ∈ vms.map (·.1), Text.startsWith name vmPrefix = true →
    (opts.purgeAll = true ∨ ∀ cfg, loaded paths out = some cfg → isBase cfg name = false) →
    deletion name ∈ steps opts paths out

/-- **When an uninstall tears down all VMs.** -/
theorem uninstall_purges_all_iff (opts : UninstallOpts) (paths : UninstallPaths)
    (out : TeardownOutcomes) : PurgesAll opts paths out ↔
      ((Confirmed opts out ∧ PassesToken paths out) ∨
        ∀ vms, Multipass.list out.vms = .ok vms →
          uninstallPurges (loaded paths out) opts.purgeAll vms = []) := by
  constructor
  · intro h
    by_cases hreached : Confirmed opts out ∧ PassesToken paths out
    · exact .inl hreached
    · refine .inr fun vms hvms => List.eq_nil_iff_forall_not_mem.mpr fun name hname => ?_
      obtain ⟨hlisted, hstart, hdue⟩ := Installation.mem_uninstallPurges_iff.mp hname
      have hpurged := (deletion_mem_steps_iff name).mp (h vms hvms name hlisted hstart hdue)
      exact hreached ⟨hpurged.1, hpurged.2.1⟩
  · intro h vms hvms name hlisted hstart hdue
    have hname := Installation.mem_uninstallPurges_iff.mpr ⟨hlisted, hstart, hdue⟩
    rcases h with ⟨hconfirmed, hpasses⟩ | hnone
    · exact (deletion_mem_steps_iff name).mpr ⟨hconfirmed, hpasses, vms, hvms, hname⟩
    · rw [hnone vms hvms] at hname
      cases hname

/-- Somebody has removed the token file. -/
def tokenRemoved : TeardownOutcomes := { smallTeardown with tokenFile := none }

theorem vms_left_without_token :
    StateT.run (ExceptT.run (uninstall ⟨true, false⟩ rootPaths tokenRemoved)) [] =
      (.error "reading token_file /etc/vmfleet/token", steps ⟨true, false⟩ rootPaths tokenRemoved) ∧
    ¬ PurgesAll ⟨true, false⟩ rootPaths tokenRemoved := by
  refine ⟨rfl, fun h => ?_⟩
  have hpurged := (deletion_mem_steps_iff _).mp
    (h _ list_smallTeardown "vmfleet-base" List.mem_cons_self (by decide) (.inl rfl))
  have htoken := hpurged.2.1 (configWith [smallPool]) rfl
  cases htoken

end

end Teardown

end VmFleet
