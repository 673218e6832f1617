import VmFleet.Library.Procedure
import VmFleet.Proof.ConfigWrite
import VmFleet.Proof.WorkerLife
import VmFleet.Source.Install

/-!
# What an installation leaves

An installation touches its three units, the config file where there is none or it is migrated, and the token
file where one is asked for; a dry run touches the token file only, and asks nothing of the host that changes
it. One that succeeds leaves a config that loads, and the same installation once more leaves every file as
it is. The pasted token is stored under the path as it was given, and looked for under the path expanded.
-/

namespace VmFleet

open Procedure

/-! ### The config in the files -/

/-- The file loads as this config. -/
def Files.Holds (crate : TomlCrate) (home path : String) (cfg : Config) (files : Files) : Prop :=
  Config.loadFile home path (files.config crate path) = .ok cfg

section Holds

variable {crate : TomlCrate} {home path : String} {cfg : Config} {files files' : Files}

theorem Files.config_congr (h : files' path = files path) : files'.config crate path = files.config crate path := by
  rw [Files.config, Files.config, h]

theorem Files.Holds.congr (hholds : files.Holds crate home path cfg) (h : files' path = files path) :
    files'.Holds crate home path cfg := by
  rw [Files.Holds, Files.config_congr h]
  exact hholds

theorem Files.Holds.unique {other : Config} (h : files.Holds crate home path cfg)
    (hother : files.Holds crate home path other) : cfg = other :=
  Except.ok.inj (Eq.trans (Eq.symm h) hother)

theorem Files.Holds.exists_text (h : files.Holds crate home path cfg) :
    ∃ text, (files path).bind fromUtf8 = some text ∧ Config.loadFile home path (crate.read text) = .ok cfg := by
  rw [Files.Holds, Files.config] at h
  split at h
  · rename_i text htext
    exact ⟨text, htext, h⟩
  · cases h

theorem Files.Holds.exists_file (h : files.Holds crate home path cfg) : (files path).isSome = true := by
  obtain ⟨text, htext, _⟩ := h.exists_text
  obtain ⟨bytes, hbytes, _⟩ := Option.bind_eq_some_iff.mp htext
  rw [hbytes]
  rfl

theorem Files.Holds.fits (h : files.Holds crate home path cfg) : FitsToml cfg.u64s := by
  obtain ⟨text, _, hload⟩ := h.exists_text
  obtain ⟨parsed, hread, hparsed⟩ := Config.exists_read_of_loadFile hload
  have hfits : FitsToml parsed.u64s := TomlCrate.fitsToml_of_read hread
  rw [← (Config.load_eq_ok_iff.mp hparsed).1]
  exact hfits

theorem Files.Holds.loaded (h : files.Holds crate home path cfg) :
    ∃ parsed, Config.load home parsed = .ok cfg := by
  obtain ⟨text, _, hload⟩ := h.exists_text
  obtain ⟨parsed, _, hparsed⟩ := Config.exists_read_of_loadFile hload
  exact ⟨parsed, hparsed⟩

theorem Files.Holds.validate (h : files.Holds crate home path cfg) : cfg.validate = .ok () := by
  obtain ⟨parsed, hparsed⟩ := h.loaded
  exact (Config.load_eq_ok_iff.mp hparsed).2

theorem checkBases_map {f : Base → Base} (hname : ∀ b, (f b).name = b.name) (seen : List String)
    (bases : List Base) : checkBases seen (bases.map f) = checkBases seen bases := by
  induction bases generalizing seen with
  | nil => rfl
  | cons b bs ih => simp [checkBases, hname, ih]

/-- No check looks at a path. -/
theorem Config.validate_expandPaths (home : String) (c : Config) :
    (c.expandPaths home).validate = c.validate := by
  have hbases : checkBases [] (c.expandPaths home).bases = checkBases [] c.bases :=
    checkBases_map (f := fun b => { b with setupScripts := b.setupScripts.map (expand home) })
      (fun _ => rfl) [] c.bases
  have hempty : (c.expandPaths home).bases.isEmpty = c.bases.isEmpty := by simp [Config.expandPaths]
  rw [Config.validate, Config.validate, hbases, hempty]
  rfl

theorem Config.validate_migrate (c : Config) : c.migrate.1.validate = c.validate := by
  rw [Config.migrate]
  split <;> rfl

theorem Config.migrate_migrate (c : Config) : c.migrate.1.migrate.2 = false := by
  by_cases h : c.version < Config.currentVersion
  · simp [Config.migrate, h]
  · simp [Config.migrate, h]

theorem Config.migrate_of_unchanged {c : Config} (h : c.migrate.2 = false) : c.migrate.1 = c := by
  rw [Config.migrate] at h ⊢
  split at h
  · cases h
  · rename_i hcurrent
    rw [if_neg hcurrent]

theorem Config.expandPaths_migrate (home : String) (c : Config) :
    c.migrate.1.expandPaths home = (c.expandPaths home).migrate.1 := by
  by_cases h : c.version < Config.currentVersion
  · simp [Config.migrate, Config.expandPaths, h]
  · simp [Config.migrate, Config.expandPaths, h]

/-- **What is written as a text the crate reads back,** is held with its paths expanded. -/
theorem Files.holds_write {t : Toml F64} (hround : crate.RoundTrips cfg) (ht : cfg.toToml = some t)
    (hvalid : cfg.validate = .ok ()) (hfile : files path = some (textBytes (crate.render t))) :
    files.Holds crate home path (cfg.expandPaths home) := by
  rw [Files.Holds, Files.config, hfile, Option.bind_some, textBytes, ConfigWrite.fromUtf8_encode]
  show Config.loadFile home path (crate.read (crate.render t)) = _
  rw [TomlCrate.read_render hround ht]
  exact Config.load_eq_ok_iff.mpr ⟨rfl, by rw [Config.validate_expandPaths, hvalid]⟩

theorem Files.Holds.expandPaths (hhome : Text.startsWith home "/" = true)
    (h : files.Holds crate home path cfg) : cfg.expandPaths home = cfg := by
  obtain ⟨parsed, hparsed⟩ := h.loaded
  exact Config.expandPaths_of_load hhome hparsed

end Holds

/-! ### Writing a file -/

theorem WriteOutcome.write_of_ne {o : WriteOutcome} {path other : String} {content : List UInt8} {files : Files}
    (h : other ≠ path) : o.write path content files other = files other := by
  cases o <;> simp [WriteOutcome.write, h]

namespace Install

variable {crate : TomlCrate} {opts : InstallOpts} {paths : InstallPaths} {out : InstallOutcomes}

/-- All files but these are as they were. -/
def Keeps (touched : List String) (files : Files) (s : InstallHost) : Prop :=
  ∀ p ∉ touched, s.files p = files p

theorem Keeps.mono {touched more : List String} {files : Files} {s : InstallHost} (h : Keeps touched files s)
    (hsub : touched ⊆ more) : Keeps more files s := fun p hp => h p fun hmem => hp (hsub hmem)

section Keeps

variable {touched : List String} {files : Files}

theorem issue_keeps (c : Command) : Preserves (Keeps touched files) (issue c) :=
  preserves_modify fun _ h => h

theorem runChecked_keeps (c : Command) (answer : Answer) : Preserves (Keeps touched files) (runChecked c answer) := by
  apply Preserves.bind (issue_keeps c)
  intro _
  exact (preserves_ofExcept _).bind fun _ => preserves_pure _

theorem writeFile_keeps {path : String} (hpath : path ∈ touched) (content : String) (o : WriteOutcome) :
    Preserves (Keeps touched files) (writeFile path content o) := by
  apply Preserves.bind
  · apply preserves_modify
    intro s h p hp
    have hne : p ≠ path := fun heq => hp (heq ▸ hpath)
    rw [← h p hp]
    exact WriteOutcome.write_of_ne hne
  · intro _
    exact preserves_ofExcept _

theorem writeConfig_keeps (hpath : paths.configFile ∈ touched) (cfg : Config) :
    Preserves (Keeps touched files) (writeConfig crate paths out cfg) := by
  apply (preserves_ofExcept _).bind
  intro _
  cases cfg.toToml with
  | none => exact preserves_throw _
  | some t => exact (writeFile_keeps hpath _ _).tryCatch fun _ => preserves_throw _

/-- The paths of the token files asked for. -/
def askedTokenFiles (out : InstallOutcomes) : List String := out.prompts.tokenFile.toOption.toList

theorem promptConfig_keeps (htoken : askedTokenFiles out ⊆ touched) :
    Preserves (Keeps touched files) (promptConfig out) := by
  apply (preserves_ofExcept _).bind
  intro scope
  refine triple_bind_ofExcept (fun _ h => h) fun tokenFile htf => ?_
  have hmem : tokenFile ∈ touched := htoken (by simp [askedTokenFiles, htf, Except.toOption])
  refine triple_bind (Q := fun _ => Keeps touched files) ?_ fun _ => ?_
  · apply preserves_get.bind
    intro s
    apply Preserves.ite (preserves_pure _)
    apply (preserves_ofExcept _).bind
    intro token
    apply (preserves_ofExcept _).bind
    intro _
    exact writeFile_keeps hmem _ _
  · iterate 7 (apply (preserves_ofExcept _).bind; intro _)
    exact preserves_pure _

theorem newConfig_keeps (hpath : opts.dryRun = false → paths.configFile ∈ touched)
    (htoken : askedTokenFiles out ⊆ touched) :
    Preserves (Keeps touched files) (newConfig crate opts paths out) := by
  apply (promptConfig_keeps htoken).bind
  intro cfg
  refine triple_ite (fun _ => ?_) fun hdry => ?_
  · cases cfg.toToml with
    | none => exact preserves_throw _
    | some t => exact preserves_pure _
  · exact (writeConfig_keeps (hpath (by simpa using hdry)) _).bind fun _ => preserves_pure _

/-- Whether the config in the files is one that `migrate` changes. -/
def migrates (crate : TomlCrate) (paths : InstallPaths) (files : Files) : Bool :=
  match Config.loadFile paths.home paths.configFile (files.config crate paths.configFile) with
  | .ok cfg => cfg.migrate.2
  | .error _ => false

/-- The files an installation may have its config from, or leave it in. -/
def configTouched (crate : TomlCrate) (opts : InstallOpts) (paths : InstallPaths) (out : InstallOutcomes)
    (files : Files) : List String :=
  if (files paths.configFile).isSome then
    if opts.upgrade ∧ ¬ opts.dryRun ∧ migrates crate paths files then [paths.configFile] else []
  else if opts.nonInteractive then []
  else askedTokenFiles out ++ if opts.dryRun then [] else [paths.configFile]

theorem obtainConfig_keeps (hsub : configTouched crate opts paths out files ⊆ touched) :
    Triple (fun s => s.files = files) (obtainConfig crate opts paths out) (fun _ => Keeps touched files)
      (Keeps touched files) := by
  have hself : ∀ s : InstallHost, s.files = files → Keeps touched files s := by
    rintro s rfl p _
    rfl
  refine triple_bind_get fun s hs => ?_
  rw [hs]
  refine triple_ite (fun hsome => ?_) fun hnone => triple_ite (fun _ => triple_throw hself) fun hasked => ?_
  · refine triple_bind_ofExcept hself fun cfg hload => ?_
    refine triple_ite (fun hupgrade => triple_ite (fun hchanged => ?_) fun _ => triple_pure hself)
      fun _ => triple_pure hself
    have hmigrates : migrates crate paths files = true := by
      rw [migrates, hload]
      exact hchanged.1
    have hpath : paths.configFile ∈ touched :=
      hsub (by simp [configTouched, hsome, hupgrade, hchanged.2, hmigrates])
    exact ((writeConfig_keeps hpath _).bind fun _ => preserves_pure _).mono hself (fun _ _ h => h) fun _ h => h
  · rw [configTouched, if_neg hnone, if_neg hasked] at hsub
    refine (newConfig_keeps (fun hdry => hsub ?_) fun p hp => hsub ?_).mono hself (fun _ _ h => h) fun _ h => h
    · simp [hdry]
    · exact List.mem_append_left _ hp

theorem enableLinger_keeps : Preserves (Keeps touched files) (enableLinger opts paths out) := by
  refine .ite (preserves_pure _) ((issue_keeps _).bind fun _ => ?_)
  exact .ite (preserves_pure _) (runChecked_keeps _ _)

def unitNames : List String := [supervisorUnit, gcService, gcTimer]

theorem installUnits_keeps (hunits : unitNames.map paths.unit ⊆ touched) (exe : String) :
    Preserves (Keeps touched files) (installUnits opts paths out exe) := by
  have hmem : ∀ name ∈ unitNames, paths.unit name ∈ touched :=
    fun name hname => hunits (List.mem_map.mpr ⟨name, hname, rfl⟩)
  apply (preserves_ofExcept _).bind
  intro _
  apply (writeFile_keeps (hmem supervisorUnit (by simp [unitNames])) _ _).bind
  intro _
  apply Preserves.bind
  · apply (preserves_ofExcept _).bind
    intro _
    apply (writeFile_keeps (hmem gcService (by simp [unitNames])) _ _).bind
    intro _
    exact writeFile_keeps (hmem gcTimer (by simp [unitNames])) _ _
  · intro _
    iterate 3 (apply (runChecked_keeps _ _).bind; intro _)
    exact .ite (runChecked_keeps _ _) (preserves_pure _)

theorem noteBases_keeps (cfg : Config) : Preserves (Keeps touched files) (noteBases cfg) :=
  preserves_modify fun _ h => h

end Keeps

/-- The files an installation may change. -/
def touched (crate : TomlCrate) (opts : InstallOpts) (paths : InstallPaths) (out : InstallOutcomes)
    (files : Files) : List String :=
  configTouched crate opts paths out files ++ if opts.dryRun then [] else unitNames.map paths.unit

/-- **An installation changes no other file,** however it ends. -/
theorem install_keeps (files : Files) :
    Triple (fun s => s.files = files) (install crate opts paths out)
      (fun _ => Keeps (touched crate opts paths out files) files) (Keeps (touched crate opts paths out files) files) := by
  have hself : ∀ s : InstallHost, s.files = files → Keeps (touched crate opts paths out files) files s := by
    rintro s rfl p _
    rfl
  refine triple_bind (triple_modify fun s h => h) fun _ => triple_ite (fun _ => ?_) fun _ => triple_throw hself
  refine triple_bind (obtainConfig_keeps (List.subset_append_left _ _)) fun cfg => ?_
  apply Preserves.bind enableLinger_keeps
  intro _
  apply (preserves_ofExcept _).bind
  intro exe
  refine triple_ite (fun _ => noteBases_keeps cfg) fun hdry => ?_
  refine Preserves.bind (installUnits_keeps ?_ exe) fun _ => noteBases_keeps cfg
  intro p hp
  rw [touched, if_neg hdry]
  exact List.mem_append_right _ hp

/-! ### A dry run -/

/-- A command that changes nothing. -/
def IsQuery (c : Command) : Prop := c = Multipass.versionCommand ∨ ∃ name, c = Multipass.infoCommand name

def OnlyQueries (s : InstallHost) : Prop := ∀ c ∈ s.issued, IsQuery c

/-- Files may have been created, and are as they were otherwise. -/
def Creates (created : List String) (files : Files) (s : InstallHost) : Prop :=
  ∀ p, p ∉ created ∨ (files p).isSome = true → s.files p = files p

/-- The token files a dry run may create. -/
def dryCreated (opts : InstallOpts) (paths : InstallPaths) (out : InstallOutcomes) (files : Files) :
    List String :=
  if (files paths.configFile).isSome ∨ opts.nonInteractive then [] else askedTokenFiles out

/-- The invariant of a dry run. -/
def Dry (created : List String) (files : Files) (s : InstallHost) : Prop :=
  Creates created files s ∧ OnlyQueries s

section Dry

variable {files : Files} {created : List String}

theorem storeToken_dry {tokenFile : String} (hmem : tokenFile ∈ created) :
    Triple (fun s => s.files = files ∧ OnlyQueries s) (storeToken out tokenFile) (fun _ => Dry created files)
      (Dry created files) := by
  have hself : ∀ s : InstallHost, s.files = files ∧ OnlyQueries s → Dry created files s := by
    rintro s ⟨rfl, hqueries⟩
    exact ⟨fun _ _ => rfl, hqueries⟩
  refine triple_bind_get fun s hs => ?_
  rw [hs.1]
  refine triple_ite (fun _ => triple_pure hself) fun hnone => ?_
  refine triple_bind_ofExcept hself fun token _ => ?_
  refine triple_bind_ofExcept hself fun _ _ => ?_
  refine triple_bind (triple_modify fun s h => ?_) fun _ => preserves_ofExcept _
  refine ⟨fun p hp => ?_, h.2⟩
  have hne : p ≠ tokenFile := by
    rintro rfl
    rcases hp with hp | hp
    · exact hp hmem
    · exact hnone hp
  rw [← h.1]
  exact WriteOutcome.write_of_ne hne

theorem promptConfig_dry (htoken : askedTokenFiles out ⊆ created) :
    Triple (fun s => s.files = files ∧ OnlyQueries s) (promptConfig out) (fun _ => Dry created files)
      (Dry created files) := by
  have hself : ∀ s : InstallHost, s.files = files ∧ OnlyQueries s → Dry created files s := by
    rintro s ⟨rfl, hqueries⟩
    exact ⟨fun _ _ => rfl, hqueries⟩
  refine triple_bind_ofExcept hself fun scope _ => ?_
  refine triple_bind_ofExcept hself fun tokenFile htf => ?_
  have hmem : tokenFile ∈ created := htoken (by simp [askedTokenFiles, htf, Except.toOption])
  refine triple_bind (storeToken_dry hmem) fun _ => ?_
  iterate 7 (apply (preserves_ofExcept _).bind; intro _)
  exact preserves_pure _

theorem obtainConfig_dry (hdry : opts.dryRun = true) (hsub : dryCreated opts paths out files ⊆ created) :
    Triple (fun s => s.files = files ∧ OnlyQueries s) (obtainConfig crate opts paths out)
      (fun _ => Dry created files) (Dry created files) := by
  have hself : ∀ s : InstallHost, s.files = files ∧ OnlyQueries s → Dry created files s := by
    rintro s ⟨rfl, hqueries⟩
    exact ⟨fun _ _ => rfl, hqueries⟩
  refine triple_bind_get fun s hs => ?_
  rw [hs.1]
  refine triple_ite (fun _ => ?_) fun hnone => triple_ite (fun _ => triple_throw hself) fun hasked => ?_
  · refine triple_bind_ofExcept hself fun cfg _ => ?_
    refine triple_ite (fun _ => triple_ite (fun hwrites => ?_) fun _ => triple_pure hself) fun _ =>
      triple_pure hself
    exact absurd hdry hwrites.2
  · rw [dryCreated, if_neg (by simp [hnone, hasked])] at hsub
    refine triple_bind (promptConfig_dry hsub) fun cfg => triple_ite (fun _ => ?_) fun hwrites => ?_
    · cases cfg.toToml with
      | none => exact preserves_throw _
      | some t => exact preserves_pure _
    · exact absurd hdry hwrites

theorem install_dry (hdry : opts.dryRun = true) (files : Files) :
    Triple (fun s => s = ⟨files, []⟩) (install crate opts paths out)
      (fun _ => Dry (dryCreated opts paths out files) files) (Dry (dryCreated opts paths out files) files) := by
  refine triple_bind (Q := fun _ s => s.files = files ∧ OnlyQueries s) (triple_modify ?_) fun _ =>
    triple_ite (fun _ => ?_) fun _ => triple_throw ?_
  · rintro s rfl
    refine ⟨rfl, fun c hc => Or.inl ?_⟩
    simpa using hc
  · refine triple_bind (obtainConfig_dry hdry (List.Subset.refl _)) fun cfg => ?_
    apply Preserves.bind
    · exact triple_ite (fun _ => preserves_pure _) fun hlinger => absurd hdry hlinger
    intro _
    apply (preserves_ofExcept _).bind
    intro exe
    refine triple_ite (fun _ => ?_) fun hunits => absurd hdry hunits
    refine preserves_modify fun s h => ⟨h.1, fun c hc => ?_⟩
    rcases List.mem_append.mp hc with hc | hc
    · exact h.2 c hc
    · obtain ⟨b, _, rfl⟩ := List.mem_map.mp hc
      exact Or.inr ⟨b.name, rfl⟩
  · rintro s ⟨rfl, hqueries⟩
    exact ⟨fun _ _ => rfl, hqueries⟩

end Dry

/-- **What an installation may change,** however it ends: a dry run no file that exists, and nothing else
either. -/
theorem install_touches_only (crate : TomlCrate) (opts : InstallOpts) (paths : InstallPaths)
    (out : InstallOutcomes) (files : Files) :
    (∀ p ∉ touched crate opts paths out files,
      (StateT.run (ExceptT.run (install crate opts paths out)) ⟨files, []⟩).2.files p = files p) ∧
    (opts.dryRun = true →
      (∀ p, (files p).isSome = true →
        (StateT.run (ExceptT.run (install crate opts paths out)) ⟨files, []⟩).2.files p = files p) ∧
      ∀ c ∈ (StateT.run (ExceptT.run (install crate opts paths out)) ⟨files, []⟩).2.issued, IsQuery c) := by
  refine ⟨(install_keeps files).final rfl, fun hdry => ?_⟩
  have hfinal : Dry (dryCreated opts paths out files) files
      (StateT.run (ExceptT.run (install crate opts paths out)) ⟨files, []⟩).2 :=
    (install_dry hdry files).final rfl
  obtain ⟨hcreates, hqueries⟩ := hfinal
  exact ⟨fun p hp => hcreates p (Or.inr hp), hqueries⟩

/-! ### A successful installation -/

/-- The state, where nothing is said of a failure. -/
def At (files : Files) (issued : List Command) (s : InstallHost) : Prop := s = ⟨files, issued⟩

def Fails (_ : InstallHost) : Prop := True

section Success

variable {files : Files} {issued : List Command}

theorem fails_of {P : InstallHost → Prop} : ∀ s, P s → Fails s := fun _ _ => trivial

theorem issue_at (c : Command) : Triple (At files issued) (issue c) (fun _ => At files (issued ++ [c])) Fails := by
  apply triple_modify
  rintro s rfl
  rfl

theorem runChecked_at (c : Command) (answer : Answer) :
    Triple (At files issued) (runChecked c answer) (fun _ => At files (issued ++ [c])) Fails := by
  apply triple_bind (issue_at c)
  intro _
  exact triple_bind_ofExcept fails_of fun _ _ => triple_pure fun _ h => h

theorem writeFile_at (path content : String) (o : WriteOutcome) :
    Triple (At files issued) (writeFile path content o)
      (fun _ => At (Function.update files path (some (textBytes content))) issued) Fails := by
  refine triple_bind (Q := fun _ => At (o.write path (textBytes content) files) issued) (triple_modify ?_) fun _ => ?_
  · rintro s rfl
    rfl
  · cases o with
    | done => exact triple_pure fun _ h => h
    | notOpened e => exact triple_throw fails_of
    | torn n e => exact triple_throw fails_of

theorem writeConfig_at (cfg : Config) :
    Triple (At files issued) (writeConfig crate paths out cfg) (fun _ s => ∃ t, cfg.toToml = some t ∧
      At (Function.update files paths.configFile (some (textBytes (crate.render t)))) issued s) Fails := by
  refine triple_bind_ofExcept fails_of fun _ _ => ?_
  cases cfg.toToml with
  | none => exact triple_throw fails_of
  | some t =>
      refine triple_tryCatch ((writeFile_at _ _ _).mono_post ?_ fun _ h => h) fun _ => triple_throw fails_of
      exact fun _ s h => ⟨t, rfl, h⟩

/-- The config the answers make. -/
def prompted (p : PromptAnswers) : Except String Config := do
  return promptedConfig (← p.scope) (← p.tokenFile) (← p.vault) (← p.useJit) (← p.smallMax) (← p.smallWarm)
    (← p.smallLabel) (← p.baseImage)

theorem prompted_eq_ok {p : PromptAnswers} {cfg : Config} (h : prompted p = .ok cfg) :
    ∃ scope tokenFile vault useJit smallMax smallWarm smallLabel baseImage, p.tokenFile = .ok tokenFile ∧
      cfg = promptedConfig scope tokenFile vault useJit smallMax smallWarm smallLabel baseImage := by
  simp only [prompted, Fallible.bind_eq_ok_iff] at h
  obtain ⟨scope, _, tokenFile, htokenFile, vault, _, useJit, _, smallMax, _, smallWarm, _, smallLabel, _,
    baseImage, _, h⟩ := h
  cases h
  exact ⟨scope, tokenFile, vault, useJit, smallMax, smallWarm, smallLabel, baseImage, htokenFile, rfl⟩

theorem version_of_prompted {p : PromptAnswers} {cfg : Config} (h : prompted p = .ok cfg) :
    cfg.version = Config.currentVersion := by
  obtain ⟨_, _, _, _, _, _, _, _, _, rfl⟩ := prompted_eq_ok h
  rfl

/-- The files with the token in them, which is pasted where there was no token file. -/
structure TokenStored (p : PromptAnswers) (tokenFile : String) (files files' : Files) : Prop where
  kept : (files tokenFile).isSome = true → files' = files
  pasted : files tokenFile = none → ∃ token, p.token = .ok token ∧
    files' = Function.update files tokenFile (some (textBytes (Text.trim token)))

theorem storeToken_at (tokenFile : String) : Triple (At files issued) (storeToken out tokenFile)
    (fun _ s => ∃ files', TokenStored out.prompts tokenFile files files' ∧ At files' issued s) Fails := by
  refine triple_bind_get fun s hs => ?_
  rw [hs]
  refine triple_ite (fun hsome => triple_pure fun s h => ⟨files, ⟨fun _ => rfl, ?_⟩, h⟩) fun hnone => ?_
  · intro hmissing
    have hsome : (files tokenFile).isSome = true := hsome
    rw [hmissing] at hsome
    cases hsome
  · refine triple_bind_ofExcept fails_of fun token htoken => ?_
    refine triple_bind_ofExcept fails_of fun _ _ => (writeFile_at _ _ _).mono_post ?_ fun _ h => h
    exact fun _ s h => ⟨_, ⟨fun hsome => absurd hsome hnone, fun _ => ⟨token, htoken, rfl⟩⟩, h⟩

theorem promptConfig_at : Triple (At files issued) (promptConfig out)
    (fun cfg s => prompted out.prompts = .ok cfg ∧ cfg.validate = .ok () ∧
      ∃ files', TokenStored out.prompts cfg.github.tokenFile files files' ∧ At files' issued s) Fails := by
  refine triple_bind_ofExcept fails_of fun scope hscope => ?_
  refine triple_bind_ofExcept fails_of fun tokenFile htokenFile => ?_
  refine triple_bind (storeToken_at tokenFile) fun _ => ?_
  refine triple_bind_ofExcept fails_of fun vault hvault => ?_
  refine triple_bind_ofExcept fails_of fun useJit huseJit => ?_
  refine triple_bind_ofExcept fails_of fun smallMax hsmallMax => ?_
  refine triple_bind_ofExcept fails_of fun smallWarm hsmallWarm => ?_
  refine triple_bind_ofExcept fails_of fun smallLabel hsmallLabel => ?_
  refine triple_bind_ofExcept fails_of fun baseImage hbaseImage => ?_
  refine triple_bind_ofExcept fails_of fun _ hvalid => triple_pure fun s h => ⟨?_, hvalid, h⟩
  rw [prompted, hscope, htokenFile, hvault, huseJit, hsmallMax, hsmallWarm, hsmallLabel, hbaseImage]
  rfl

/-- The config an installation writes, if it writes one. -/
def written (crate : TomlCrate) (opts : InstallOpts) (paths : InstallPaths) (out : InstallOutcomes)
    (files : Files) : List Config :=
  if (files paths.configFile).isSome then
    match Config.loadFile paths.home paths.configFile (files.config crate paths.configFile) with
    | .ok cfg => if opts.upgrade ∧ cfg.migrate.2 = true then [cfg.migrate.1] else []
    | .error _ => []
  else (prompted out.prompts).toOption.toList

/-- Where the config of a successful installation is from. -/
inductive Origin (crate : TomlCrate) (opts : InstallOpts) (paths : InstallPaths) (out : InstallOutcomes)
    (files files' : Files) (cfg : Config) : Prop where
  | file (old : Config) (holds : files.Holds crate paths.home paths.configFile old)
    (migrated : cfg = if opts.upgrade then old.migrate.1 else old)
    (others : ∀ p ≠ paths.configFile, files' p = files p)
    (kept : (opts.upgrade = true → old.migrate.2 = false) → files' = files)
  | prompts (missing : files paths.configFile = none) (answers : prompted out.prompts = .ok cfg)
    (stored : ∃ files'', TokenStored out.prompts cfg.github.tokenFile files files'' ∧
      ∀ p ≠ paths.configFile, files' p = files'' p)

theorem obtainConfig_at (hhome : Text.startsWith paths.home "/" = true) (hdry : opts.dryRun = false)
    (hround : ∀ c ∈ written crate opts paths out files, crate.RoundTrips c) :
    Triple (At files issued) (obtainConfig crate opts paths out) (fun cfg s => ∃ files',
      Origin crate opts paths out files files' cfg ∧
      files'.Holds crate paths.home paths.configFile (cfg.expandPaths paths.home) ∧ At files' issued s) Fails := by
  refine triple_bind_get fun s hs => ?_
  rw [hs]
  refine triple_ite (fun hsome => ?_) fun hnone => triple_ite (fun _ => triple_throw fails_of) fun _ => ?_
  · have hsome : (files paths.configFile).isSome = true := hsome
    refine triple_bind_ofExcept fails_of fun old hload => ?_
    have hholds : files.Holds crate paths.home paths.configFile old := hload
    have hexpanded : old.expandPaths paths.home = old := hholds.expandPaths hhome
    refine triple_ite (fun hupgrade => triple_ite (fun hchanged => ?_) fun hsame => triple_pure fun s h => ?_)
      fun hplain => triple_pure fun s h => ?_
    · refine triple_bind (writeConfig_at old.migrate.1) fun _ => triple_pure fun s h => ?_
      obtain ⟨t, ht, hs⟩ := h
      have hmem : old.migrate.1 ∈ written crate opts paths out files := by
        rw [written, if_pos hsome, show Config.loadFile _ _ _ = Except.ok old from hload]
        simp [hupgrade, hchanged.1]
      have hvalid : old.migrate.1.validate = .ok () := by rw [Config.validate_migrate, hholds.validate]
      refine ⟨_, .file old hholds (by simp [hupgrade]) (fun p hp => by simp [hp]) fun hkept => ?_,
        Files.holds_write (hround _ hmem) ht hvalid (by simp), hs⟩
      rw [hkept hupgrade] at hchanged
      cases hchanged.1
    · have hunchanged : old.migrate.2 = false := by simpa [hdry] using hsame
      have hmigrated : old.migrate.1 = old := Config.migrate_of_unchanged hunchanged
      refine ⟨files, .file old hholds (by simp [hupgrade]) (fun _ _ => rfl) fun _ => rfl, ?_, h⟩
      rw [hmigrated, hexpanded]
      exact hholds
    · refine ⟨files, .file old hholds (by simp [hplain]) (fun _ _ => rfl) fun _ => rfl, ?_, h⟩
      rw [hexpanded]
      exact hholds
  · have hmissing : files paths.configFile = none := by simpa using hnone
    refine triple_bind promptConfig_at fun cfg => triple_of_fact fun hanswers => triple_of_fact fun hvalid =>
      triple_of_exists fun stored => triple_of_fact fun hstored => ?_
    refine triple_ite (fun hyes => absurd hyes (by simp [hdry])) fun _ => ?_
    refine triple_bind (writeConfig_at cfg) fun _ => triple_pure fun s h => ?_
    obtain ⟨t, ht, hs⟩ := h
    have hmem : cfg ∈ written crate opts paths out files := by
      simp [written, hmissing, hanswers, Except.toOption]
    exact ⟨_, .prompts hmissing hanswers ⟨stored, hstored, fun p hp => by simp [hp]⟩,
      Files.holds_write (hround _ hmem) ht hvalid (by simp), hs⟩

def lingerCommands (paths : InstallPaths) (out : InstallOutcomes) : List Command :=
  Systemd.showLinger paths.user ::
    if Systemd.lingerEnabled out.linger then [] else [Systemd.ensureLinger paths.user]

theorem enableLinger_at (hdry : opts.dryRun = false) : Triple (At files issued) (enableLinger opts paths out)
    (fun _ => At files (issued ++ lingerCommands paths out)) Fails := by
  refine triple_ite (fun hyes => absurd hyes (by simp [hdry])) fun _ => ?_
  apply triple_bind (issue_at _)
  intro _
  refine triple_ite (fun hlinger => triple_pure ?_) fun hlinger => (runChecked_at _ _).mono_post ?_ fun _ h => h
  · rintro s rfl
    simp [lingerCommands, hlinger, At]
  · rintro _ s rfl
    simp [lingerCommands, hlinger, At]

/-- The files with the three units in them. -/
def withUnits (paths : InstallPaths) (exe : String) (files : Files) : Files :=
  Function.update (Function.update (Function.update files
    (paths.unit supervisorUnit) (some (textBytes (supervisorUnitContents paths exe))))
    (paths.unit gcService) (some (textBytes (gcServiceContents paths exe))))
    (paths.unit gcTimer) (some (textBytes gcTimerContents))

def unitCommands (opts : InstallOpts) : List Command :=
  [Systemd.daemonReload, Systemd.enableNow supervisorUnit, Systemd.enableNow gcTimer] ++
    if opts.upgrade then [Systemd.restart supervisorUnit] else []

theorem installUnits_at (exe : String) : Triple (At files issued) (installUnits opts paths out exe)
    (fun _ => At (withUnits paths exe files) (issued ++ unitCommands opts)) Fails := by
  refine triple_bind_ofExcept fails_of fun _ _ => ?_
  apply triple_bind (writeFile_at _ _ _)
  intro _
  refine triple_bind (Q := fun _ => At (withUnits paths exe files) issued) ?_ fun _ => ?_
  · refine triple_bind_ofExcept fails_of fun _ _ => ?_
    apply triple_bind (writeFile_at _ _ _)
    intro _
    exact writeFile_at _ _ _
  · iterate 3 (apply triple_bind (runChecked_at _ _); intro _)
    refine triple_ite (fun hupgrade => (runChecked_at _ _).mono_post ?_ fun _ h => h) fun hplain => triple_pure ?_
    · rintro _ s rfl
      simp [unitCommands, hupgrade, At]
    · rintro s rfl
      simp [unitCommands, hplain, At]

/-- What a successful installation comes to. -/
theorem install_at (hhome : Text.startsWith paths.home "/" = true) (hdry : opts.dryRun = false)
    (hround : ∀ c ∈ written crate opts paths out files, crate.RoundTrips c) :
    Triple (At files issued) (install crate opts paths out) (fun _ s => ∃ cfg exe files',
      out.currentExe = .ok exe ∧ Origin crate opts paths out files files' cfg ∧
      files'.Holds crate paths.home paths.configFile (cfg.expandPaths paths.home) ∧
      At (withUnits paths exe files') (issued ++ [Multipass.versionCommand] ++ lingerCommands paths out ++
        unitCommands opts ++ cfg.bases.map fun b => Multipass.infoCommand b.name) s) Fails := by
  apply triple_bind (issue_at _)
  intro _
  refine triple_ite (fun _ => ?_) fun _ => triple_throw fails_of
  refine triple_bind (obtainConfig_at hhome hdry hround) fun cfg => triple_of_exists fun files' =>
    triple_of_fact fun horigin => triple_of_fact fun hholds => ?_
  apply triple_bind (enableLinger_at hdry)
  intro _
  refine triple_bind_ofExcept fails_of fun exe hexe => ?_
  refine triple_ite (fun hyes => absurd hyes (by simp [hdry])) fun _ => ?_
  apply triple_bind (installUnits_at exe)
  intro _
  apply triple_modify
  rintro s rfl
  exact ⟨cfg, exe, files', hexe, horigin, hholds, rfl⟩

end Success

/-! ### The units -/

/-- Different names are different files. -/
theorem unit_injective {name other : String} (hname : Text.startsWith name "/" = false)
    (hother : Text.startsWith other "/" = false) (h : paths.unit name = paths.unit other) : name = other := by
  have hcancel : ∀ dir : String, dir ++ name = dir ++ other → name = other := by
    intro dir heq
    apply String.toList_inj.mp
    have hlists := congrArg String.toList heq
    rw [String.toList_append, String.toList_append] at hlists
    exact List.append_cancel_left hlists
  simp only [InstallPaths.unit, joinPath, hname, hother, Bool.false_eq_true, if_false] at h
  split at h
  · exact hcancel _ h
  · exact hcancel _ h

theorem withUnits_of_notMem {exe p : String} {files : Files} (hp : p ∉ unitNames.map paths.unit) :
    withUnits paths exe files p = files p := by
  simp only [unitNames, List.map_cons, List.map_nil, List.mem_cons, List.not_mem_nil, or_false, not_or] at hp
  simp [withUnits, hp]

/-- The units are written over whatever they were. -/
theorem withUnits_congr {exe : String} {files files' : Files}
    (h : ∀ p ∉ unitNames.map paths.unit, files' p = files p) :
    withUnits paths exe files' = withUnits paths exe files := by
  funext p
  by_cases hp : p ∈ unitNames.map paths.unit
  · simp only [withUnits, Function.update_apply]
    simp only [unitNames, List.map_cons, List.map_nil, List.mem_cons, List.not_mem_nil, or_false] at hp
    rcases hp with rfl | rfl | rfl
    · split <;> simp
    · split <;> simp
    · simp
  · rw [withUnits_of_notMem hp, withUnits_of_notMem hp, h p hp]

/-- What a successful installation has left and done, where `cfg` is what the config file is loaded as. -/
structure Installed (crate : TomlCrate) (opts : InstallOpts) (paths : InstallPaths) (out : InstallOutcomes)
    (cfg : Config) (exe : String) (s : InstallHost) : Prop where
  config : s.files.Holds crate paths.home paths.configFile cfg
  supervisor : s.files (paths.unit supervisorUnit) = some (textBytes (supervisorUnitContents paths exe))
  service : s.files (paths.unit gcService) = some (textBytes (gcServiceContents paths exe))
  timer : s.files (paths.unit gcTimer) = some (textBytes gcTimerContents)
  issued : s.issued = [Multipass.versionCommand] ++ lingerCommands paths out ++ unitCommands opts ++
    cfg.bases.map fun b => Multipass.infoCommand b.name

variable {files : Files} {s : InstallHost}

theorem installed_of_files {cfg : Config} {exe : String} {files' : Files}
    (hconfig : paths.configFile ∉ unitNames.map paths.unit)
    (hholds : files'.Holds crate paths.home paths.configFile cfg) :
    Installed crate opts paths out cfg exe ⟨withUnits paths exe files', [Multipass.versionCommand] ++
      lingerCommands paths out ++ unitCommands opts ++ cfg.bases.map fun b => Multipass.infoCommand b.name⟩ := by
  have hsupervisor : paths.unit supervisorUnit ≠ paths.unit gcService ∧
      paths.unit supervisorUnit ≠ paths.unit gcTimer :=
    ⟨fun h => absurd (unit_injective (by decide) (by decide) h) (by decide),
      fun h => absurd (unit_injective (by decide) (by decide) h) (by decide)⟩
  have hservice : paths.unit gcService ≠ paths.unit gcTimer :=
    fun h => absurd (unit_injective (by decide) (by decide) h) (by decide)
  exact ⟨hholds.congr (withUnits_of_notMem hconfig), by simp [withUnits, hsupervisor],
    by simp [withUnits, hservice], by simp [withUnits], rfl⟩

/-- **A successful installation** leaves a config that loads, which is the one there was or the one asked for,
and the units of this executable, started. -/
theorem installed_of_ok (hhome : Text.startsWith paths.home "/" = true) (hdry : opts.dryRun = false)
    (hconfig : paths.configFile ∉ unitNames.map paths.unit)
    (hround : ∀ c ∈ written crate opts paths out files, crate.RoundTrips c)
    (hrun : StateT.run (ExceptT.run (install crate opts paths out)) ⟨files, []⟩ = (.ok (), s)) :
    ∃ cfg exe, out.currentExe = .ok exe ∧
      Installed crate opts paths out (cfg.expandPaths paths.home) exe s ∧
      (files paths.configFile = none → prompted out.prompts = .ok cfg) ∧
      ∀ old, files.Holds crate paths.home paths.configFile old →
        cfg = if opts.upgrade then old.migrate.1 else old := by
  obtain ⟨cfg, exe, files', hexe, horigin, hholds, hs⟩ :=
    (install_at hhome hdry hround).returns (s := ⟨files, []⟩) rfl hrun
  have hinstalled : Installed crate opts paths out (cfg.expandPaths paths.home) exe _ :=
    installed_of_files hconfig hholds
  refine ⟨cfg, exe, hexe, ?_, fun hmissing => ?_, fun old hold => ?_⟩
  · have hinfos : ((cfg.expandPaths paths.home).bases.map fun b => Multipass.infoCommand b.name) =
        cfg.bases.map fun b => Multipass.infoCommand b.name := by
      simp [Config.expandPaths, Function.comp_def]
    rw [hinfos] at hinstalled
    rw [hs]
    simpa using hinstalled
  · cases horigin with
    | file old holds _ _ _ =>
        have hsome := holds.exists_file
        rw [hmissing] at hsome
        cases hsome
    | prompts _ answers _ => exact answers
  · cases horigin with
    | file old' holds migrated _ _ =>
        rw [hold.unique holds]
        exact migrated
    | prompts missing _ _ =>
        have hsome := hold.exists_file
        rw [missing] at hsome
        cases hsome

/-! ### When nothing fails -/

/-- Commands and writes succeed, and directories can be created. -/
structure Smooth (out : InstallOutcomes) : Prop where
  commands : ∀ answer ∈ [out.version, out.enableLinger, out.reload, out.enableSupervisor, out.enableTimer,
    out.restart], exitsZero answer = true
  writes : ∀ o ∈ [out.writeConfig, out.writeUnit, out.writeService, out.writeTimer], o = .done
  directories : ∀ r ∈ [out.createConfigDir, out.createUnitDir, out.createTimerDir], r.isOk = true
  exe : out.currentExe.isOk = true

section Smooth

theorem runChecked_succeeds (c : Command) {answer : Answer} (h : exitsZero answer = true) :
    CannotFail (runChecked c answer) := by
  apply (cannotFail_modify _).bind
  intro _
  apply CannotFail.bind
  · rw [← WorkerLife.isOk_checked c answer] at h
    exact cannotFail_ofExcept h
  · exact fun _ => cannotFail_pure _

theorem writeFile_succeeds (path content : String) {o : WriteOutcome} (h : o = .done) :
    CannotFail (writeFile path content o) := by
  apply (cannotFail_modify _).bind
  intro _
  rw [h]
  exact cannotFail_ofExcept rfl

theorem writeConfig_succeeds (h : Smooth out) {cfg : Config} (hfits : FitsToml cfg.u64s) :
    CannotFail (writeConfig crate paths out cfg) := by
  obtain ⟨t, ht⟩ := Config.exists_toToml hfits
  apply (cannotFail_ofExcept (h.directories _ (by simp))).bind
  intro _
  rw [ht]
  exact triple_tryCatch (R := fun _ => False) (writeFile_succeeds _ _ (h.writes _ (by simp))) fun _ _ hs => hs.elim

theorem installUnits_succeeds (h : Smooth out) (exe : String) : CannotFail (installUnits opts paths out exe) := by
  apply (cannotFail_ofExcept (h.directories _ (by simp))).bind
  intro _
  apply (writeFile_succeeds _ _ (h.writes _ (by simp))).bind
  intro _
  apply CannotFail.bind
  · apply (cannotFail_ofExcept (h.directories _ (by simp))).bind
    intro _
    apply (writeFile_succeeds _ _ (h.writes _ (by simp))).bind
    exact fun _ => writeFile_succeeds _ _ (h.writes _ (by simp))
  · intro _
    iterate 3 (apply (runChecked_succeeds _ (h.commands _ (by simp))).bind; intro _)
    exact .ite (runChecked_succeeds _ (h.commands _ (by simp))) (cannotFail_pure _)

theorem obtainConfig_succeeds (h : Smooth out) {cfg : Config}
    (hholds : files.Holds crate paths.home paths.configFile cfg) :
    Triple (fun s => s.files = files) (obtainConfig crate opts paths out) (fun _ _ => True) fun _ => False := by
  refine triple_bind_get fun s hs => ?_
  rw [hs, if_pos hholds.exists_file, show Config.loadFile _ _ _ = Except.ok cfg from hholds]
  have hfits : FitsToml cfg.migrate.1.u64s := by
    rw [show cfg.migrate.1.u64s = cfg.u64s by rw [Config.migrate]; split <;> rfl]
    exact hholds.fits
  have hupgrade : CannotFail (upgradeConfig crate opts paths out cfg) := by
    refine .ite (.ite ?_ (cannotFail_pure _)) (cannotFail_pure _)
    exact (writeConfig_succeeds h hfits).bind fun _ => cannotFail_pure _
  exact hupgrade.mono (fun _ _ => trivial) (fun _ _ hs => hs) fun _ hs => hs

/-- **An installation succeeds where the config file loads and nothing fails.** -/
theorem install_succeeds (h : Smooth out) {cfg : Config}
    (hholds : files.Holds crate paths.home paths.configFile cfg) :
    (StateT.run (ExceptT.run (install crate opts paths out)) ⟨files, []⟩).1.isOk = true := by
  refine Triple.isOk (P := fun s => s.files = files) (Q := fun _ _ => True) ?_ rfl
  refine triple_bind (Q := fun _ s => s.files = files) (triple_modify fun s hs => hs) fun _ => ?_
  rw [if_pos (h.commands _ (by simp))]
  apply triple_bind (obtainConfig_succeeds h hholds)
  intro cfg
  have hlinger : CannotFail (enableLinger opts paths out) := by
    refine .ite (cannotFail_pure _) ((cannotFail_modify _).bind fun _ => .ite (cannotFail_pure _) ?_)
    exact runChecked_succeeds _ (h.commands _ (by simp))
  apply hlinger.bind
  intro _
  apply (cannotFail_ofExcept h.exe).bind
  intro exe
  exact .ite (cannotFail_modify _) ((installUnits_succeeds h exe).bind fun _ => cannotFail_modify _)

end Smooth

/-- **The same installation once more leaves every file as it is,** and succeeds where nothing fails. -/
theorem install_again {out' : InstallOutcomes} (hhome : Text.startsWith paths.home "/" = true)
    (hdry : opts.dryRun = false) (hconfig : paths.configFile ∉ unitNames.map paths.unit)
    (hround : ∀ c ∈ written crate opts paths out files, crate.RoundTrips c)
    (hexe : out'.currentExe = out.currentExe)
    (hrun : StateT.run (ExceptT.run (install crate opts paths out)) ⟨files, []⟩ = (.ok (), s)) :
    (∀ s', StateT.run (ExceptT.run (install crate opts paths out')) ⟨s.files, []⟩ = (.ok (), s') →
      s'.files = s.files) ∧
    (Smooth out' → (StateT.run (ExceptT.run (install crate opts paths out')) ⟨s.files, []⟩).1.isOk = true) := by
  obtain ⟨cfg, exe, files', hexe', horigin, hholds, hs⟩ :=
    (install_at hhome hdry hround).returns (s := ⟨files, []⟩) rfl hrun
  have hfiles : s.files = withUnits paths exe files' := by rw [hs]
  have hloaded : s.files.Holds crate paths.home paths.configFile (cfg.expandPaths paths.home) := by
    rw [hfiles]
    exact hholds.congr (withUnits_of_notMem hconfig)
  have hcurrent : opts.upgrade = true → (cfg.expandPaths paths.home).migrate.2 = false := by
    intro hupgrade
    rcases horigin with ⟨old, _, hmigrated, _, _⟩ | ⟨_, hanswers, _⟩
    · rw [hmigrated, if_pos hupgrade, Config.expandPaths_migrate]
      exact Config.migrate_migrate _
    · simp [Config.migrate, Config.expandPaths, version_of_prompted hanswers]
  refine ⟨fun s' hagain => ?_, fun hsmooth => install_succeeds hsmooth hloaded⟩
  have hnothing : written crate opts paths out' s.files = [] := by
    rw [written, if_pos hloaded.exists_file, show Config.loadFile _ _ _ = Except.ok _ from hloaded]
    simp only [ite_eq_right_iff, List.cons_ne_nil, imp_false, not_and, Bool.not_eq_true]
    exact hcurrent
  obtain ⟨cfg', exe', files'', hexe'', horigin', _, hs'⟩ :=
    (install_at hhome hdry (by simp [hnothing])).returns (s := ⟨s.files, []⟩) rfl hagain
  have hsame : exe' = exe := Except.ok.inj (hexe''.symm.trans (hexe.trans hexe'))
  have hkept : files'' = s.files := by
    rcases horigin' with ⟨old, hold, _, _, hkept⟩ | ⟨hmissing, _, _⟩
    · apply hkept
      rw [hold.unique hloaded]
      exact hcurrent
    · have hsome := hloaded.exists_file
      rw [hmissing] at hsome
      cases hsome
  rw [hs', hkept, hfiles, hsame]
  exact withUnits_congr fun p hp => withUnits_of_notMem hp

/-! ### The pasted token -/

def guidedAnswers (tokenFile : String) : PromptAnswers where
  scope := .ok "acme/app"
  tokenFile := .ok tokenFile
  token := .ok "secret-token\n"
  vault := .ok "/var/snap/multipass/common"
  useJit := .ok true
  smallMax := .ok 10
  smallWarm := .ok 2
  smallLabel := .ok "self-hosted-small"
  baseImage := .ok "24.04"

def smoothInstall (tokenFile : String) : InstallOutcomes where
  version := .ok ⟨0, "", ""⟩
  prompts := guidedAnswers tokenFile
  createTokenDir := .ok ()
  writeToken := .done
  createConfigDir := .ok ()
  writeConfig := .done
  linger := .ok ⟨0, "no\n", ""⟩
  enableLinger := .ok ⟨0, "", ""⟩
  currentExe := .ok "/home/ci/bin/vmfleet"
  createUnitDir := .ok ()
  writeUnit := .done
  createTimerDir := .ok ()
  writeService := .done
  writeTimer := .done
  reload := .ok ⟨0, "", ""⟩
  enableSupervisor := .ok ⟨0, "", ""⟩
  enableTimer := .ok ⟨0, "", ""⟩
  restart := .ok ⟨0, "", ""⟩

def guidedPaths : InstallPaths where
  home := "/home/ci"
  user := "ci"
  configFile := "/home/ci/.config/vmfleet/vmfleet.toml"
  absConfigFile := "/home/ci/.config/vmfleet/vmfleet.toml"
  systemdUserDir := "/home/ci/.config/systemd/user"

def guidedConfig (tokenFile : String) : Config :=
  promptedConfig "acme/app" tokenFile "/var/snap/multipass/common" true 10 2 "self-hosted-small" "24.04"

def guidedText (tokenFile : String) : String :=
  "version = 1\n\n[github]\nrepo = \"acme/app\"\ntoken_file = \"" ++ tokenFile ++ "\"\nrunner_group_id = 1\n" ++
  "api_base = \"https://api.github.com\"\n\n[storage]\nvault_path = \"/var/snap/multipass/common\"\n\n" ++
  "[admission]\nmin_avail_mib = 4096\npsi_max = 20.0\nmin_disk_gib = 30\nsettle_seconds = 15\n" ++
  "lock_wait_seconds = 60\npoll_seconds = 10\n\n[[base]]\nimage = \"24.04\"\nname = \"vmfleet-base\"\n" ++
  "disk = \"80G\"\ncpus = 4\nmemory = \"8G\"\nsetup_scripts = []\nrunner_version = \"latest\"\n\n" ++
  "[[pool]]\nname = \"small\"\nlabels = [\"self-hosted-small\"]\ncpus = 4\nmemory = \"4GiB\"\nswap = \"8G\"\n" ++
  "min_warm = 2\nmax = 10\nslot_base = 101\n\n[supervisor]\npoll_seconds = 15\n" ++
  "idle_timeout_seconds = 900\nmax_launch_per_poll = 2\nbusy_reserve_mib = 2048\nuse_jit = true\n" ++
  "queued_poll_every = 4\nupdate_check = true\nupdate_check_interval_hours = 24\n\n[worker]\n" ++
  "config_timeout_seconds = 180\nregistration_timeout_seconds = 180\noffline_grace_seconds = 90\n" ++
  "health_poll_seconds = 10\ncloud_init_timeout_seconds = 180\n"

/-- The crate on the document printed for this config. -/
def guidedCrate (tokenFile : String) : TomlCrate where
  parse text := if text = guidedText tokenFile then (guidedConfig tokenFile).toToml else none
  render _ := guidedText tokenFile

def emptyHost : Files := fun _ => none

theorem guidedCrate_roundTrips (tokenFile : String) :
    ∀ c ∈ written (guidedCrate tokenFile) {} guidedPaths (smoothInstall tokenFile) emptyHost,
      (guidedCrate tokenFile).RoundTrips c := by
  intro c hc t ht
  have hanswers : prompted (smoothInstall tokenFile).prompts = .ok (guidedConfig tokenFile) := rfl
  have hguided : c = guidedConfig tokenFile := by
    simpa [written, emptyHost, hanswers, Except.toOption, eq_comm] using hc
  rw [hguided] at ht
  simp [guidedCrate, ht]

theorem guided_unit_notMem : ∀ p ∈ [guidedPaths.configFile, "/home/ci/.config/vmfleet/token", "~/token",
    "/home/ci/token"], p ∉ unitNames.map guidedPaths.unit := by
  decide +kernel

theorem exists_of_isOk {p : Except String Unit × InstallHost} (h : p.1.isOk = true) : ∃ s, p = (.ok (), s) := by
  obtain ⟨r, s⟩ := p
  cases r with
  | ok u => exact ⟨s, rfl⟩
  | error e => cases h

theorem guided_succeeds :
    ∃ s, StateT.run (ExceptT.run (install (guidedCrate "~/token") {} guidedPaths (smoothInstall "~/token")))
      ⟨emptyHost, []⟩ = (.ok (), s) :=
  exists_of_isOk (by decide +kernel)

theorem installed_of_ok_guided :
    ∃ s exe, StateT.run (ExceptT.run (install (guidedCrate "~/token") {} guidedPaths (smoothInstall "~/token")))
        ⟨emptyHost, []⟩ = (.ok (), s) ∧
      Installed (guidedCrate "~/token") {} guidedPaths (smoothInstall "~/token")
        ((guidedConfig "~/token").expandPaths "/home/ci") exe s := by
  obtain ⟨s, hrun⟩ := guided_succeeds
  obtain ⟨cfg, exe, _, hinstalled, hprompted, _⟩ := installed_of_ok (by decide) rfl
    (guided_unit_notMem _ (by simp)) (guidedCrate_roundTrips "~/token") hrun
  have hcfg : cfg = guidedConfig "~/token" := (Except.ok.inj (hprompted rfl)).symm
  exact ⟨s, exe, hrun, hcfg ▸ hinstalled⟩

theorem install_again_guided :
    ∃ s s', StateT.run (ExceptT.run (install (guidedCrate "~/token") {} guidedPaths (smoothInstall "~/token")))
        ⟨emptyHost, []⟩ = (.ok (), s) ∧
      StateT.run (ExceptT.run (install (guidedCrate "~/token") {} guidedPaths (smoothInstall "~/token")))
        ⟨s.files, []⟩ = (.ok (), s') ∧ s'.files = s.files := by
  have hsmooth : Smooth (smoothInstall "~/token") := by
    constructor <;> decide
  obtain ⟨s, hrun⟩ := guided_succeeds
  have hexe : (smoothInstall "~/token").currentExe = (smoothInstall "~/token").currentExe := rfl
  obtain ⟨hsame, hsucceeds⟩ := install_again (by decide) rfl (guided_unit_notMem _ (by simp))
    (guidedCrate_roundTrips "~/token") hexe hrun
  obtain ⟨s', hagain⟩ := exists_of_isOk (hsucceeds hsmooth)
  exact ⟨s, s', hrun, hagain, hsame s' hagain⟩

end Install

end VmFleet
