import VmFleet.Proof.Install
import VmFleet.Proof.Reload
import VmFleet.Proof.Teardown
import VmFleet.Source.Lifecycle

/-!
# The host over time

As long as no write of the config file is torn and nothing is purged with `purge_all`, the file loads after
every sequence of commands, as the config that the commands which came to their write have made of the first
one. Nothing but its version and the limits of its pools ever changes. After an uninstall nothing is left of
what came before it but the config file and the token files asked for.
-/

namespace VmFleet

open Procedure

/-! ### What the commands make of the config -/

/-- The config a command writes, where the file loads as `cfg`. -/
def Config.written (cfg : Config) : HostCommand → Option Config
  | .install opts out =>
    if exitsZero out.version ∧ opts.upgrade ∧ cfg.migrate.2 = true ∧ ¬ opts.dryRun ∧
      out.createConfigDir.isOk ∧ out.writeConfig = .done then some cfg.migrate.1 else none
  | .scale pool min max out =>
    if (∃ p ∈ cfg.pools, p.name = pool) ∧ (cfg.withLimits pool min max).validate = .ok () ∧
      out.createDir.isOk ∧ out.write = .done then some (cfg.withLimits pool min max) else none
  | .uninstall _ _ _ => none

def Config.after (cfg : Config) (c : HostCommand) : Config := (cfg.written c).getD cfg

/-- The configs written in the course of the commands. -/
def writtenConfigs : Config → List HostCommand → List Config
  | _, [] => []
  | cfg, c :: rest => (cfg.written c).toList ++ writtenConfigs (cfg.after c) rest

/-- The config file is written as a whole or not at all, and it is not removed. -/
def HostCommand.Whole : HostCommand → Prop
  | .install _ out => ∀ n e, out.writeConfig ≠ .torn n e
  | .scale _ _ _ out => ∀ n e, out.write ≠ .torn n e
  | .uninstall opts _ _ => opts.purgeAll = false

/-- Another version, and other limits. -/
structure SameButLimits (cfg cfg' : Config) : Prop where
  rest : cfg' = { cfg with version := cfg'.version, pools := cfg'.pools }
  pools : List.Forall₂ OtherLimits cfg.pools cfg'.pools

theorem SameButLimits.refl (cfg : Config) : SameButLimits cfg cfg :=
  ⟨rfl, List.forall₂_same.mpr fun _ _ => rfl⟩

theorem OtherLimits.trans {p q r : Pool} (hpq : OtherLimits p q) (hqr : OtherLimits q r) : OtherLimits p r := by
  rw [OtherLimits] at *
  rw [hqr, hpq]

theorem forall₂_otherLimits_trans {xs ys zs : List Pool} (hxy : List.Forall₂ OtherLimits xs ys)
    (hyz : List.Forall₂ OtherLimits ys zs) : List.Forall₂ OtherLimits xs zs := by
  induction hxy generalizing zs with
  | nil =>
      cases hyz
      exact List.Forall₂.nil
  | cons hhead _ ih =>
      cases hyz with
      | cons hhead' htail' => exact List.Forall₂.cons (hhead.trans hhead') (ih htail')

theorem SameButLimits.trans {a b c : Config} (hab : SameButLimits a b) (hbc : SameButLimits b c) :
    SameButLimits a c where
  rest := by rw [hbc.rest, hab.rest]
  pools := forall₂_otherLimits_trans hab.pools hbc.pools

theorem sameButLimits_withLimits (cfg : Config) (pool : String) (min max : Option UInt32) :
    SameButLimits cfg (cfg.withLimits pool min max) := by
  refine ⟨rfl, ?_⟩
  simp only [Config.withLimits, List.forall₂_map_right_iff, List.forall₂_same]
  intro p _
  split <;> rfl

theorem sameButLimits_migrate (cfg : Config) : SameButLimits cfg cfg.migrate.1 := by
  rw [Config.migrate]
  split
  · exact ⟨rfl, List.forall₂_same.mpr fun _ _ => rfl⟩
  · exact SameButLimits.refl cfg

theorem sameButLimits_after (cfg : Config) (c : HostCommand) : SameButLimits cfg (cfg.after c) := by
  rw [Config.after]
  cases hwritten : cfg.written c with
  | none => exact SameButLimits.refl cfg
  | some cfg' =>
      cases c with
      | install opts out =>
          obtain ⟨_, h⟩ := Option.ite_none_right_eq_some.mp hwritten
          cases h
          exact sameButLimits_migrate cfg
      | scale pool min max out =>
          obtain ⟨_, h⟩ := Option.ite_none_right_eq_some.mp hwritten
          cases h
          exact sameButLimits_withLimits cfg pool min max
      | uninstall => cases hwritten

theorem sameButLimits_foldl (cfg : Config) (commands : List HostCommand) :
    SameButLimits cfg (commands.foldl Config.after cfg) := by
  induction commands generalizing cfg with
  | nil => exact SameButLimits.refl cfg
  | cons c rest ih => exact (sameButLimits_after cfg c).trans (ih _)

/-! ### The file -/

section Holds

variable {crate : TomlCrate} {paths : HostPaths} {files : Files} {cfg : Config}

/-- A config with the same paths that passes the checks can be written, and is held then. -/
theorem Files.Holds.write
    (hholds : files.Holds crate paths.home paths.configFile cfg) {cfg' : Config} (hround : crate.RoundTrips cfg')
    (hu64s : cfg'.u64s = cfg.u64s) (hpaths : cfg'.expandPaths paths.home = cfg')
    (hvalid : cfg'.validate = .ok ()) :
    ∃ t, cfg'.toToml = some t ∧
      Files.Holds crate paths.home paths.configFile cfg'
        (Function.update files paths.configFile (some (textBytes (crate.render t)))) := by
  obtain ⟨t, ht⟩ := Config.exists_toToml (hu64s ▸ hholds.fits)
  have hwritten : Files.Holds crate paths.home paths.configFile (cfg'.expandPaths paths.home)
      (Function.update files paths.configFile (some (textBytes (crate.render t)))) :=
    Files.holds_write hround ht hvalid (by simp)
  rw [hpaths] at hwritten
  exact ⟨t, ht, hwritten⟩

theorem Config.u64s_migrate (c : Config) : c.migrate.1.u64s = c.u64s := by
  rw [Config.migrate]
  split <;> rfl

/-! ### `scale` -/

theorem Files.Holds.scale (hhome : Text.startsWith paths.home "/" = true)
    (hholds : files.Holds crate paths.home paths.configFile cfg) {pool : String} {min max : Option UInt32}
    {out : ScaleOutcomes} (hwhole : HostCommand.Whole (.scale pool min max out))
    (hround : ∀ c ∈ cfg.written (.scale pool min max out), crate.RoundTrips c) :
    Files.Holds crate paths.home paths.configFile (cfg.after (.scale pool min max out))
      (HostCommand.scaleFiles crate paths files pool min max out) := by
  obtain ⟨text, htext, hload⟩ := hholds.exists_text
  obtain ⟨parsed, hread, hparsed⟩ := Config.exists_read_of_loadFile hload
  have hunwritten : ∀ h : ¬ ((∃ p ∈ cfg.pools, p.name = pool) ∧
      (cfg.withLimits pool min max).validate = .ok () ∧ out.createDir.isOk ∧ out.write = .done),
      cfg.after (.scale pool min max out) = cfg := by
    intro h
    rw [Config.after, Config.written, if_neg h]
    rfl
  rw [HostCommand.scaleFiles, htext]
  simp only [scaleFile, hread]
  rcases scale_cases pool min max hparsed with
    ⟨hunknown, hscale⟩ | ⟨message, hinvalid, hscale⟩ | ⟨message, hknown, hvalid, hscale⟩
  · rw [hunwritten fun h => by
      obtain ⟨⟨p, hp, hname⟩, _⟩ := h
      exact hunknown p hp hname]
    simp only [hscale]
    exact hholds
  · rw [hunwritten fun h => by
      rw [hinvalid] at h
      cases h.2.1]
    simp only [hscale]
    exact hholds
  · obtain ⟨t, ht⟩ := Config.exists_toToml (c := cfg.withLimits pool min max) hholds.fits
    simp only [hscale, ht]
    by_cases hdir : out.createDir.isOk = true
    · rw [if_pos hdir]
      have hpaths : (cfg.withLimits pool min max).expandPaths paths.home = cfg.withLimits pool min max := by
        show (cfg.expandPaths paths.home).withLimits pool min max = _
        rw [hholds.expandPaths hhome]
      by_cases hdone : out.write = .done
      · have hwritten : cfg.written (.scale pool min max out) = some (cfg.withLimits pool min max) :=
          if_pos ⟨hknown, hvalid, hdir, hdone⟩
        obtain ⟨t', ht', hwrite⟩ := hholds.write (hround _ hwritten) rfl hpaths hvalid
        obtain rfl : t' = t := Option.some.inj (ht'.symm.trans ht)
        rw [Config.after, hwritten, hdone]
        exact hwrite
      · rw [hunwritten fun h => hdone h.2.2.2]
        cases hwrite : out.write with
        | done => exact absurd hwrite hdone
        | notOpened e => exact hholds
        | torn n e => exact absurd hwrite (hwhole n e)
    · rw [if_neg hdir, hunwritten fun h => hdir h.2.2.1]
      exact hholds

/-! ### `install` -/

section Install

open Install

variable {opts : InstallOpts} {out : InstallOutcomes} {cfg' : Config}

/-- The config file holds this config. -/
def FileHolds (crate : TomlCrate) (paths : HostPaths) (cfg : Config) (s : InstallHost) : Prop :=
  s.files.Holds crate paths.home paths.configFile cfg

/-- What leaves all files but the units alone leaves the config. -/
theorem fileHolds_of_keeps {α : Type} {x : Install α} (hconfig : paths.configFile ∉ unitNames.map paths.unit)
    (hx : ∀ files, Preserves (Keeps (unitNames.map paths.unit) files) x) :
    Preserves (FileHolds crate paths cfg) x := by
  apply preserves_of_frame (R := fun s => Keeps (unitNames.map paths.unit) s.files)
  · intro s
    refine (hx s.files).mono ?_ (fun _ _ h => h) fun _ h => h
    rintro t rfl p _
    rfl
  · exact fun s s' hkeeps hholds => hholds.congr (hkeeps _ hconfig)

theorem upgradeConfig_holds (hhome : Text.startsWith paths.home "/" = true)
    (hholds : files.Holds crate paths.home paths.configFile cfg) (hversion : exitsZero out.version = true)
    (hwhole : HostCommand.Whole (.install opts out))
    (hround : ∀ c ∈ cfg.written (.install opts out), crate.RoundTrips c) :
    Triple (fun s => s.files = files) (upgradeConfig crate opts paths.toInstallPaths out cfg)
      (fun _ => FileHolds crate paths (cfg.after (.install opts out)))
      (FileHolds crate paths (cfg.after (.install opts out))) := by
  have hunwritten : ∀ s : InstallHost, s.files = files → cfg.written (.install opts out) = none →
      FileHolds crate paths (cfg.after (.install opts out)) s := by
    intro s hs hnone
    rw [FileHolds, hs, Config.after, hnone]
    exact hholds
  refine triple_ite (fun hupgrade => triple_ite (fun hchanged => ?_) fun hsame => triple_pure fun s hs => ?_)
    fun hplain => triple_pure fun s hs => ?_
  · have hwrite : Triple (fun s => s.files = files) (writeConfig crate paths.toInstallPaths out cfg.migrate.1)
        (fun _ => FileHolds crate paths (cfg.after (.install opts out)))
        (FileHolds crate paths (cfg.after (.install opts out))) := by
      cases hdir : out.createConfigDir with
      | error e =>
          rw [writeConfig, hdir]
          exact triple_throw fun s hs => hunwritten s hs (if_neg fun h => by simp [hdir, Except.isOk, Except.toBool] at h)
      | ok u =>
          obtain ⟨t, ht⟩ := Config.exists_toToml (c := cfg.migrate.1) (Config.u64s_migrate cfg ▸ hholds.fits)
          rw [writeConfig, hdir, ht]
          refine triple_bind (Q := fun _ s => s.files = files) (triple_pure (a := u) fun s hs => hs) fun _ => ?_
          refine triple_tryCatch (R := FileHolds crate paths (cfg.after (.install opts out))) ?_
            fun _ => preserves_throw _
          cases hwrite : out.writeConfig with
          | done =>
              have hwritten : cfg.written (.install opts out) = some cfg.migrate.1 :=
                if_pos ⟨hversion, hupgrade, hchanged.1, hchanged.2, by simp [hdir, Except.isOk, Except.toBool], hwrite⟩
              have hpaths : cfg.migrate.1.expandPaths paths.home = cfg.migrate.1 := by
                rw [Config.expandPaths_migrate, hholds.expandPaths hhome]
              obtain ⟨t', ht', hheld⟩ := hholds.write (hround _ hwritten) (Config.u64s_migrate cfg) hpaths
                (by rw [Config.validate_migrate, hholds.validate])
              obtain rfl : t' = t := Option.some.inj (ht'.symm.trans ht)
              rintro s rfl
              rw [Config.after, hwritten]
              exact hheld
          | notOpened e =>
              rintro s rfl
              exact hunwritten s rfl (if_neg fun h => by simp [hwrite] at h)
          | torn n e => exact absurd hwrite (hwhole n e)
    exact triple_bind hwrite fun _ => triple_pure fun _ h => h
  · exact hunwritten s hs (if_neg fun h => hsame ⟨h.2.2.1, h.2.2.2.1⟩)
  · exact hunwritten s hs (if_neg fun h => hplain h.2.1)

theorem Files.Holds.install (hhome : Text.startsWith paths.home "/" = true)
    (hconfig : paths.configFile ∉ unitNames.map paths.unit)
    (hholds : files.Holds crate paths.home paths.configFile cfg) (hwhole : HostCommand.Whole (.install opts out))
    (hround : ∀ c ∈ cfg.written (.install opts out), crate.RoundTrips c) :
    Files.Holds crate paths.home paths.configFile (cfg.after (.install opts out))
      (HostCommand.act crate paths files (.install opts out)) := by
  refine Triple.final (P := fun s => s.files = files)
    (R := FileHolds crate paths (cfg.after (.install opts out))) ?_ rfl
  refine triple_bind (Q := fun _ s => s.files = files) (triple_modify fun _ h => h) fun _ =>
    triple_ite (fun hversion => ?_) fun hversion => triple_throw fun s hs => ?_
  · refine triple_bind (Q := fun _ => FileHolds crate paths (cfg.after (.install opts out))) ?_ fun c => ?_
    · refine triple_bind_get fun s hs => ?_
      rw [hs, if_pos hholds.exists_file, show Config.loadFile _ _ _ = Except.ok cfg from hholds]
      exact upgradeConfig_holds hhome hholds hversion hwhole hround
    · apply Preserves.bind (fileHolds_of_keeps hconfig fun _ => enableLinger_keeps)
      intro _
      apply (preserves_ofExcept _).bind
      intro exe
      refine .ite (fileHolds_of_keeps hconfig fun _ => noteBases_keeps c) ?_
      refine Preserves.bind ?_ fun _ => fileHolds_of_keeps hconfig fun _ => noteBases_keeps c
      exact fileHolds_of_keeps hconfig fun _ => installUnits_keeps (List.Subset.refl _) exe
  · rw [FileHolds, hs, Config.after, Config.written, if_neg fun h => hversion h.1]
    exact hholds

end Install

end Holds

/-! ### `uninstall` -/

/-- A step that removes no other files. -/
def TeardownStep.Removes (allowed : List String) : TeardownStep → Prop
  | .removeFile path => path ∈ allowed
  | .removeDirAll _ => False
  | .run _ | .listRunners _ | .deleteRunner _ _ => True

namespace TeardownStep

variable {removable : String → Bool} {files : Files} {p : String}

theorem foldl_apply_of_notMem {allowed : List String} {steps : List TeardownStep}
    (hsteps : ∀ step ∈ steps, step.Removes allowed) (hp : p ∉ allowed) :
    steps.foldl (TeardownStep.apply removable) files p = files p := by
  induction steps generalizing files with
  | nil => rfl
  | cons step rest ih =>
      rw [List.foldl_cons, ih fun other hother => hsteps other (List.mem_cons_of_mem _ hother)]
      cases step with
      | removeFile path =>
          have hne : p ≠ path := fun heq => hp (heq ▸ hsteps _ List.mem_cons_self)
          rw [TeardownStep.apply]
          split
          · exact Function.update_of_ne hne _ _
          · rfl
      | removeDirAll dir => exact (hsteps _ List.mem_cons_self).elim
      | _ => rfl

end TeardownStep

namespace Teardown

variable {opts : UninstallOpts} {paths : UninstallPaths} {out : TeardownOutcomes} {P : List TeardownStep → Prop}

/-- Steps that remove no file leave `P` as it is. -/
def Ignores (P : List TeardownStep → Prop) : Prop :=
  ∀ steps : List TeardownStep, (∀ step ∈ steps, step.Removes []) → Preserves P (perform steps)

theorem removes_run (cs : List Command) : ∀ step ∈ cs.map TeardownStep.run, step.Removes [] := by
  intro step hstep
  obtain ⟨c, _, rfl⟩ := List.mem_map.mp hstep
  trivial

theorem Ignores.run (h : Ignores P) (cs : List Command) : Preserves P (perform (cs.map .run)) := h _ (removes_run cs)

theorem Ignores.deleteRunners (h : Ignores P) (c : Client) (runners : List Runner) :
    Preserves P (deleteRunners out c runners) := by
  induction runners with
  | nil => exact preserves_pure _
  | cons r rest ih =>
      apply (h _ (by simp [TeardownStep.Removes])).bind
      intro _
      exact (preserves_ofExcept _).bind fun _ => ih

theorem Ignores.deregisterLoaded (h : Ignores P) (cfg : Option Config) : Preserves P (deregisterLoaded out cfg) := by
  cases cfg with
  | none => exact preserves_pure _
  | some cfg =>
      apply (preserves_ofExcept _).bind
      intro token
      cases Client.new cfg.github token with
      | error e => exact preserves_pure _
      | ok c =>
          refine Preserves.tryCatch ?_ fun _ => preserves_pure _
          apply (h _ (by simp [TeardownStep.Removes])).bind
          intro _
          exact (preserves_ofExcept _).bind fun _ => h.deleteRunners c _

theorem Ignores.purgeVms (h : Ignores P) (cfg : Option Config) : Preserves P (purgeVms opts out cfg) := by
  apply (h.run [_]).bind
  intro _
  apply (preserves_ofExcept _).bind
  intro vms
  apply h
  intro step hstep
  obtain ⟨name, _, hstep⟩ := List.mem_flatMap.mp hstep
  exact removes_run _ step hstep

def unitPaths (paths : UninstallPaths) : List String :=
  [supervisorUnit, gcTimer, gcService].map (joinPath paths.systemdUserDir)

/-- The units are removed in one go, whatever the commands around it answer. -/
theorem stopUnits_preserves (h : Ignores P)
    (hunits : Preserves P (perform ((unitPaths paths).map TeardownStep.removeFile))) :
    Preserves P (stopUnits paths out) := by
  apply (h.run [_, _]).bind
  intro _
  apply hunits.bind
  intro _
  apply (h.run [_]).bind
  intro _
  refine (h _ ?_).bind fun _ => h.run [_]
  intro step hstep
  obtain ⟨u, _, hstep⟩ := List.mem_flatMap.mp hstep
  exact removes_run _ step hstep

theorem uninstall_preserves (hkept : opts.purgeAll = false) (h : Ignores P)
    (hunits : Preserves P (perform ((unitPaths paths).map TeardownStep.removeFile))) :
    Preserves P (uninstall opts paths out) := by
  apply Preserves.bind (.ite (preserves_pure _) (preserves_ofExcept _))
  intro confirmed
  refine .ite ?_ (preserves_pure _)
  apply (stopUnits_preserves h hunits).bind
  intro _
  refine Preserves.bind (h.deregisterLoaded _) fun _ => Preserves.bind (h.purgeVms _) fun _ => ?_
  rw [removeFiles, if_neg (by simp [hkept])]
  exact preserves_pure _

/-- Without `purge_all`, only the units are removed. -/
theorem steps_remove (hkept : opts.purgeAll = false) :
    ∀ step ∈ steps opts paths out, step.Removes (unitPaths paths) := by
  have hperform : ∀ steps : List TeardownStep, (∀ step ∈ steps, step.Removes (unitPaths paths)) →
      Preserves (fun s : List TeardownStep => ∀ step ∈ s, step.Removes (unitPaths paths)) (perform steps) := by
    intro steps hsteps
    apply preserves_modify
    intro s hs step hstep
    rcases List.mem_append.mp hstep with hstep | hstep
    · exact hs step hstep
    · exact hsteps step hstep
  refine (uninstall_preserves (P := fun s => ∀ step ∈ s, step.Removes (unitPaths paths)) hkept ?_ ?_).final ?_
  · intro steps hsteps
    apply hperform
    intro step hstep
    have hremoves := hsteps step hstep
    cases step with
    | removeFile path => cases hremoves
    | removeDirAll dir => exact hremoves
    | _ => trivial
  · apply hperform
    intro step hstep
    obtain ⟨p, hp, rfl⟩ := List.mem_map.mp hstep
    exact hp
  · simp

end Teardown

/-! ### All commands -/

section Commands

variable {crate : TomlCrate} {paths : HostPaths} {files : Files} {cfg : Config}

def HostPaths.units (paths : HostPaths) : List String := Install.unitNames.map paths.unit

theorem mem_unitPaths_iff {p : String} : p ∈ Teardown.unitPaths paths.forUninstall ↔ p ∈ paths.units := by
  simp only [Teardown.unitPaths, HostPaths.units, Install.unitNames, List.map_cons, List.map_nil, List.mem_cons,
    List.not_mem_nil, or_false]
  rw [or_comm (a := p = joinPath _ gcTimer)]
  rfl

theorem uninstallFiles_of_notMem {opts : UninstallOpts} {out : TeardownOutcomes} {removable : String → Bool}
    (hkept : opts.purgeAll = false) {p : String} (hp : p ∉ paths.units) :
    HostCommand.uninstallFiles crate paths files opts out removable p = files p :=
  TeardownStep.foldl_apply_of_notMem (Teardown.steps_remove hkept) fun hmem => hp (mem_unitPaths_iff.mp hmem)

theorem Files.Holds.act (hhome : Text.startsWith paths.home "/" = true) (hconfig : paths.configFile ∉ paths.units)
    (hholds : files.Holds crate paths.home paths.configFile cfg) {c : HostCommand} (hwhole : c.Whole)
    (hround : ∀ cfg' ∈ cfg.written c, crate.RoundTrips cfg') :
    Files.Holds crate paths.home paths.configFile (cfg.after c) (c.act crate paths files) := by
  cases c with
  | install opts out => exact hholds.install hhome hconfig hwhole hround
  | scale pool min max out => exact hholds.scale hhome hwhole hround
  | uninstall opts out removable => exact hholds.congr (uninstallFiles_of_notMem hwhole hconfig)

/-- **The config survives every sequence of commands.** -/
theorem config_survives (hhome : Text.startsWith paths.home "/" = true)
    (hconfig : paths.configFile ∉ paths.units) (hholds : files.Holds crate paths.home paths.configFile cfg)
    (commands : List HostCommand) (hwhole : ∀ c ∈ commands, c.Whole)
    (hround : ∀ cfg' ∈ writtenConfigs cfg commands, crate.RoundTrips cfg') :
    Files.Holds crate paths.home paths.configFile (commands.foldl Config.after cfg)
        (commands.foldl (HostCommand.act crate paths) files) ∧
      SameButLimits cfg (commands.foldl Config.after cfg) := by
  refine ⟨?_, sameButLimits_foldl cfg commands⟩
  induction commands generalizing cfg files with
  | nil => exact hholds
  | cons c rest ih =>
      simp only [writtenConfigs, List.mem_append, Option.mem_toList] at hround
      apply ih
      · exact hholds.act hhome hconfig (hwhole c List.mem_cons_self) fun cfg' h => hround cfg' (Or.inl h)
      · exact fun c' hc' => hwhole c' (List.mem_cons_of_mem _ hc')
      · exact fun cfg' h => hround cfg' (Or.inr h)

/-- The token files an installation asks for. -/
def HostCommand.asked : HostCommand → List String
  | .install _ out => Install.askedTokenFiles out
  | .scale _ _ _ _ | .uninstall _ _ _ => []

end Commands

/-! A scale, an upgrade and an uninstall. -/

def sampleHost : Files := fun p => if p = "vmfleet.toml" then some ConfigWrite.sampleBytes else none

def samplePaths : HostPaths where
  home := "/home/ci"
  user := "ci"
  configFile := "vmfleet.toml"
  absConfigFile := "/home/ci/vmfleet.toml"
  systemdUserDir := "/home/ci/.config/systemd/user"
  stateDir := "/home/ci/.local/share/vmfleet"

def quietTeardown : TeardownOutcomes where
  confirmed := .ok true
  activeUnits := .ok ⟨0, "", ""⟩
  config := .unreadable
  envToken := some "secret-token"
  tokenFile := none
  runners := .ok []
  deleteRunner := fun _ => .ok ()
  vms := .ok ⟨0, "Name,State,IPv4,Image\n", ""⟩
  purge := fun _ => (.ok ⟨0, "", ""⟩, .ok ⟨0, "", ""⟩)

def sampleCommands : List HostCommand :=
  [.scale "ci" (some 1) (some 3) ⟨.ok (), .done⟩, .install { upgrade := true } (Install.smoothInstall "~/token"),
    .uninstall ⟨false, true⟩ quietTeardown fun _ => true]

theorem config_survives_sample :
    Files.Holds sampleCrate "/home/ci" "vmfleet.toml" (sampleConfig.withLimits "ci" (some 1) (some 3))
      (sampleCommands.foldl (HostCommand.act sampleCrate samplePaths) sampleHost) := by
  have hholds : sampleHost.Holds sampleCrate "/home/ci" "vmfleet.toml" sampleConfig := by
    have hconfig : sampleHost.config sampleCrate "vmfleet.toml" = sampleCrate.read sampleText := by
      rw [Files.config, sampleHost, if_pos rfl, Option.bind_some, ConfigWrite.sampleBytes, ConfigWrite.fromUtf8_encode]
    rw [Files.Holds, hconfig]
    decide +kernel
  have hwritten : writtenConfigs sampleConfig sampleCommands =
      [sampleConfig.withLimits "ci" (some 1) (some 3)] := by
    decide +kernel
  have hround : ∀ cfg' ∈ writtenConfigs sampleConfig sampleCommands, sampleCrate.RoundTrips cfg' := by
    intro cfg' hcfg' t ht
    rw [hwritten, List.mem_singleton] at hcfg'
    have hne : scaledText ≠ sampleText := by decide +kernel
    have hparse : sampleCrate.parse scaledText = some scaledToml := by
      simp only [sampleCrate, if_neg hne, if_true]
    rw [show sampleCrate.render t = scaledText from rfl, hparse, scaledToml, ← hcfg', ht, Option.getD_some]
  have hwhole : ∀ c ∈ sampleCommands, c.Whole := by
    simp [sampleCommands, HostCommand.Whole, Install.smoothInstall]
  have hafter : sampleCommands.foldl Config.after sampleConfig = sampleConfig.withLimits "ci" (some 1) (some 3) := by
    decide +kernel
  have hconfig : samplePaths.configFile ∉ samplePaths.units := by decide +kernel
  have hsurvives := (config_survives (by decide) hconfig hholds sampleCommands hwhole hround).1
  rw [hafter] at hsurvives
  exact hsurvives

end VmFleet
