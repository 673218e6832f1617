import VmFleet.Source.ConfigText
import VmFleet.Proof.Reload

/-!
# Rewriting the config file

Each table is read back from what it is written as, so that a config that was read, changed and written is
the changed config when it is read again. The paths in it are expanded already, and an absolute home
directory makes sure that they stay as they are when they are expanded again.
-/

namespace VmFleet

open Toml

/-! ### Each table is read back -/

theorem Worker.fromToml_of_toToml {w : Worker} {t : Toml F64} (h : w.toToml = some t) :
    Worker.fromToml t = some w := by
  simp only [Worker.toToml, Option.bind_eq_bind, Option.bind_eq_some_iff, Option.pure_def] at h
  obtain ⟨t₀, h₀, t₁, h₁, t₂, h₂, t₃, h₃, t₄, h₄, h⟩ := h
  cases h
  simp [Worker.fromToml, fields, readU64_of_writeU64 h₀, readU64_of_writeU64 h₁,
    readU64_of_writeU64 h₂, readU64_of_writeU64 h₃, readU64_of_writeU64 h₄]

theorem GitHub.fromToml_of_toToml {gh : GitHub} {t : Toml F64} (h : gh.toToml = some t) :
    GitHub.fromToml t = some gh := by
  simp only [GitHub.toToml, Option.bind_eq_bind, Option.bind_eq_some_iff, Option.pure_def] at h
  obtain ⟨group, hgroup, h⟩ := h
  cases h
  simp [GitHub.fromToml, fields, List.lookup_append, optional_map readText_text, readU64_of_writeU64 hgroup]

theorem Storage.fromToml_toToml (s : Storage) : Storage.fromToml s.toToml = some s := by
  simp [Storage.fromToml, Storage.toToml, fields]

theorem Admission.fromToml_of_toToml {a : Admission} {t : Toml F64} (h : a.toToml = some t) :
    Admission.fromToml t = some a := by
  simp only [Admission.toToml, Option.bind_eq_bind, Option.bind_eq_some_iff, Option.pure_def] at h
  obtain ⟨t₀, h₀, t₁, h₁, t₂, h₂, t₃, h₃, t₄, h₄, h⟩ := h
  cases h
  simp [Admission.fromToml, fields, readU64_of_writeU64 h₀, readU64_of_writeU64 h₁,
    readU64_of_writeU64 h₂, readU64_of_writeU64 h₃, readU64_of_writeU64 h₄]

theorem Base.fromToml_toToml (b : Base) : Base.fromToml b.toToml = some b := by
  simp [Base.fromToml, Base.toToml, fields, readList_writeList readText_text]

theorem Pool.fromToml_toToml (p : Pool) : Pool.fromToml p.toToml = some p := by
  simp [Pool.fromToml, Pool.toToml, fields, List.lookup_append, optional_map readText_text,
    readList_writeList readText_text]

theorem Supervisor.fromToml_of_toToml {s : Supervisor} {t : Toml F64} (h : s.toToml = some t) :
    Supervisor.fromToml t = some s := by
  simp only [Supervisor.toToml, Option.bind_eq_bind, Option.bind_eq_some_iff, Option.pure_def] at h
  obtain ⟨t₀, h₀, t₁, h₁, t₂, h₂, t₃, h₃, h⟩ := h
  cases h
  simp [Supervisor.fromToml, fields, readU64_of_writeU64 h₀, readU64_of_writeU64 h₁,
    readU64_of_writeU64 h₂, readU64_of_writeU64 h₃]

/-- **What a config is written as is read as that config.** -/
theorem Config.fromToml_of_toToml {c : Config} {t : Toml F64} (h : c.toToml = some t) :
    Config.fromToml t = some c := by
  simp only [Config.toToml, Option.bind_eq_bind, Option.bind_eq_some_iff, Option.pure_def] at h
  obtain ⟨github, hgithub, admission, hadmission, supervisor, hsupervisor, worker, hworker, h⟩ := h
  cases h
  simp [Config.fromToml, fields, GitHub.fromToml_of_toToml hgithub, Storage.fromToml_toToml,
    Admission.fromToml_of_toToml hadmission, readList_writeList Base.fromToml_toToml,
    readList_writeList Pool.fromToml_toToml, Supervisor.fromToml_of_toToml hsupervisor,
    Worker.fromToml_of_toToml hworker]

/-! ### What was read can be written

TOML integers are signed, so a `u64` that was read from one is in the smaller half. -/

def Worker.u64s (w : Worker) : List UInt64 :=
  [w.configTimeoutSeconds, w.registrationTimeoutSeconds, w.offlineGraceSeconds, w.healthPollSeconds,
    w.cloudInitTimeoutSeconds]

def Admission.u64s (a : Admission) : List UInt64 :=
  [a.minAvailMib, a.minDiskGib, a.settleSeconds, a.lockWaitSeconds, a.pollSeconds]

def Supervisor.u64s (s : Supervisor) : List UInt64 :=
  [s.pollSeconds, s.idleTimeoutSeconds, s.busyReserveMib, s.updateCheckIntervalHours]

def Config.u64s (c : Config) : List UInt64 :=
  c.github.runnerGroupId :: (c.admission.u64s ++ c.supervisor.u64s ++ c.worker.u64s)

/-- The numbers can be written as TOML integers. -/
def FitsToml (xs : List UInt64) : Prop := ∀ x ∈ xs, x.toNat < 2 ^ 63

instance FitsToml.decidable (xs : List UInt64) : Decidable (FitsToml xs) :=
  decidable_of_iff (xs.all fun x => decide (x.toNat < 2 ^ 63)) (by simp [FitsToml])

@[simp] theorem fitsToml_nil : FitsToml [] := by simp [FitsToml]

@[simp] theorem fitsToml_cons {x : UInt64} {xs : List UInt64} :
    FitsToml (x :: xs) ↔ x.toNat < 2 ^ 63 ∧ FitsToml xs := List.forall_mem_cons

@[simp] theorem fitsToml_append {xs ys : List UInt64} : FitsToml (xs ++ ys) ↔ FitsToml xs ∧ FitsToml ys :=
  List.forall_mem_append

theorem Worker.fitsToml_of_fromToml {t : Toml F64} {w : Worker} (h : Worker.fromToml t = some w) :
    FitsToml w.u64s := by
  simp only [Worker.fromToml, Option.bind_eq_bind, Option.bind_eq_some_iff, Option.pure_def] at h
  obtain ⟨field, _, x₀, h₀, x₁, h₁, x₂, h₂, x₃, h₃, x₄, h₄, h⟩ := h
  cases h
  simp only [Worker.u64s, fitsToml_cons, fitsToml_nil, and_true]
  exact ⟨lt_of_orDefault (by decide) h₀, lt_of_orDefault (by decide) h₁, lt_of_orDefault (by decide) h₂,
    lt_of_orDefault (by decide) h₃, lt_of_orDefault (by decide) h₄⟩

theorem Admission.fitsToml_of_fromToml {t : Toml F64} {a : Admission} (h : Admission.fromToml t = some a) :
    FitsToml a.u64s := by
  simp only [Admission.fromToml, Option.bind_eq_bind, Option.bind_eq_some_iff, Option.pure_def] at h
  obtain ⟨field, _, x₀, h₀, psi, _, x₁, h₁, x₂, h₂, x₃, h₃, x₄, h₄, h⟩ := h
  cases h
  simp only [Admission.u64s, fitsToml_cons, fitsToml_nil, and_true]
  exact ⟨lt_of_orDefault (by decide) h₀, lt_of_orDefault (by decide) h₁, lt_of_orDefault (by decide) h₂,
    lt_of_orDefault (by decide) h₃, lt_of_orDefault (by decide) h₄⟩

theorem Supervisor.fitsToml_of_fromToml {t : Toml F64} {s : Supervisor} (h : Supervisor.fromToml t = some s) :
    FitsToml s.u64s := by
  simp only [Supervisor.fromToml, Option.bind_eq_bind, Option.bind_eq_some_iff, Option.pure_def] at h
  obtain ⟨field, _, x₀, h₀, x₁, h₁, launch, _, x₂, h₂, jit, _, every, _, check, _, x₃, h₃, h⟩ := h
  cases h
  simp only [Supervisor.u64s, fitsToml_cons, fitsToml_nil, and_true]
  exact ⟨lt_of_orDefault (by decide) h₀, lt_of_orDefault (by decide) h₁, lt_of_orDefault (by decide) h₂,
    lt_of_orDefault (by decide) h₃⟩

theorem GitHub.fitsToml_of_fromToml {t : Toml F64} {gh : GitHub} (h : GitHub.fromToml t = some gh) :
    gh.runnerGroupId.toNat < 2 ^ 63 := by
  simp only [GitHub.fromToml, Option.bind_eq_bind, Option.bind_eq_some_iff, Option.pure_def] at h
  obtain ⟨field, _, repo, _, org, _, token, _, group, hgroup, api, _, h⟩ := h
  cases h
  exact lt_of_orDefault (by decide) hgroup

theorem Config.fitsToml_of_fromToml {t : Toml F64} {c : Config} (h : Config.fromToml t = some c) :
    FitsToml c.u64s := by
  simp only [Config.fromToml, Option.bind_eq_bind, Option.bind_eq_some_iff, Option.pure_def] at h
  obtain ⟨field, _, version, _, github, hgithub, storage, _, admission, hadmission, bases, _, pools, _,
    supervisor, hsupervisor, worker, hworker, h⟩ := h
  cases h
  have hadmission : FitsToml admission.u64s :=
    of_orDefault (p := fun a => FitsToml a.u64s) (by decide)
      (fun _ _ => Admission.fitsToml_of_fromToml) hadmission
  have hsupervisor : FitsToml supervisor.u64s :=
    of_orDefault (p := fun s => FitsToml s.u64s) (by decide)
      (fun _ _ => Supervisor.fitsToml_of_fromToml) hsupervisor
  have hworker : FitsToml worker.u64s :=
    of_orDefault (p := fun w => FitsToml w.u64s) (by decide)
      (fun _ _ => Worker.fitsToml_of_fromToml) hworker
  have hgroup : github.runnerGroupId.toNat < 2 ^ 63 :=
    of_required (p := fun gh => gh.runnerGroupId.toNat < 2 ^ 63)
      (fun _ _ => GitHub.fitsToml_of_fromToml) hgithub
  simp only [Config.u64s, fitsToml_cons, fitsToml_append]
  exact ⟨hgroup, ⟨hadmission, hsupervisor⟩, hworker⟩

theorem Config.exists_toToml {c : Config} (h : FitsToml c.u64s) : ∃ t, c.toToml = some t := by
  simp only [Config.u64s, Worker.u64s, Admission.u64s, Supervisor.u64s, fitsToml_cons, fitsToml_append,
    fitsToml_nil, and_true] at h
  simp only [Config.toToml, GitHub.toToml, Admission.toToml, Supervisor.toToml, Worker.toToml,
    writeU64_of_lt, h, Option.bind_eq_bind, Option.bind_some, Option.pure_def, Option.some.injEq, exists_eq']

/-! ### Paths that are expanded already -/

theorem expand_of_absolute {p : String} (home : String) (hp : Text.startsWith p "/" = true) :
    expand home p = p := by
  have hhead : p.toList.head? = some '/' := by
    obtain ⟨rest, rfl⟩ := Text.startsWith_iff.mp hp
    simp [String.toList_append]
  have htilde : p ≠ "~" := by
    rintro rfl
    exact absurd hhead (by decide)
  have hslash : Text.stripPrefix p "~/" = none :=
    Text.stripPrefix_eq_none_of_head hhead (d := '~') rfl (by decide)
  have hvar : Text.stripPrefix p "$HOME/" = none :=
    Text.stripPrefix_eq_none_of_head hhead (d := '$') rfl (by decide)
  rw [expand, if_neg htilde, hslash, hvar]

theorem joinPath_absolute {home rest : String} (hhome : Text.startsWith home "/" = true) :
    Text.startsWith (joinPath home rest) "/" = true := by
  rw [joinPath]
  split
  · assumption
  · split
    · exact Text.startsWith_append hhome
    · exact Text.startsWith_append (Text.startsWith_append hhome)

/-- **Expanding a path twice is expanding it once, where the home directory is absolute.** -/
theorem expand_expand {home : String} (hhome : Text.startsWith home "/" = true) (p : String) :
    expand home (expand home p) = expand home p := by
  by_cases htilde : p = "~"
  · rw [expand.eq_def home p, if_pos htilde]
    exact expand_of_absolute home hhome
  · rw [expand.eq_def home p, if_neg htilde]
    split
    · exact expand_of_absolute home (joinPath_absolute hhome)
    · rename_i hslash
      split
      · exact expand_of_absolute home (joinPath_absolute hhome)
      · rename_i hvar
        rw [expand, if_neg htilde, hslash, hvar]

/-- The config with the paths in it expanded. -/
def Config.expandPaths (home : String) (c : Config) : Config :=
  { c with
    github := { c.github with tokenFile := expand home c.github.tokenFile }
    storage := { c.storage with vaultPath := expand home c.storage.vaultPath }
    bases := c.bases.map fun b => { b with setupScripts := b.setupScripts.map (expand home) } }

theorem Config.load_eq_ok_iff {home : String} {parsed cfg : Config} :
    Config.load home parsed = .ok cfg ↔ parsed.expandPaths home = cfg ∧ cfg.validate = .ok () := by
  rw [Config.load, Fallible.bind_eq_ok_iff]
  refine ⟨fun h => ?_, fun h => ?_⟩
  · obtain ⟨_, hvalid, h⟩ := h
    cases h
    exact ⟨rfl, hvalid⟩
  · obtain ⟨rfl, hvalid⟩ := h
    exact ⟨(), hvalid, rfl⟩

theorem Config.expandPaths_expandPaths {home : String} (hhome : Text.startsWith home "/" = true)
    (c : Config) : (c.expandPaths home).expandPaths home = c.expandPaths home := by
  simp [Config.expandPaths, expand_expand hhome, Function.comp_def]

/-- A loaded config stays as it is when its paths are expanded once more. -/
theorem Config.expandPaths_of_load {home : String} (hhome : Text.startsWith home "/" = true)
    {parsed cfg : Config} (h : Config.load home parsed = .ok cfg) : cfg.expandPaths home = cfg := by
  obtain ⟨rfl, _⟩ := Config.load_eq_ok_iff.mp h
  exact Config.expandPaths_expandPaths hhome parsed

/-! ### `scale` -/

/-- The config with other limits for one pool. -/
def Config.withLimits (c : Config) (pool : String) (min max : Option UInt32) : Config :=
  { c with
    pools := c.pools.map fun p =>
      if p.name = pool then { p with minWarm := min.getD p.minWarm, max := max.getD p.max } else p }

theorem scalePools_of_notMem {pool : String} (min max : Option UInt32) {pools : List Pool}
    (h : pool ∉ pools.map (·.name)) : scalePools pool min max pools = pools := by
  induction pools with
  | nil => rfl
  | cons p ps ih =>
      simp only [List.map_cons, List.mem_cons, not_or] at h
      rw [scalePools, if_neg (Ne.symm h.1), ih h.2]

/-- Changing the first pool of a name is changing each one, as the names differ. -/
theorem scalePools_eq_map {pool : String} (min max : Option UInt32) {pools : List Pool}
    (hnodup : (pools.map (·.name)).Nodup) :
    scalePools pool min max pools = pools.map fun p =>
      if p.name = pool then { p with minWarm := min.getD p.minWarm, max := max.getD p.max } else p := by
  induction pools with
  | nil => rfl
  | cons p ps ih =>
      rw [List.map_cons, List.nodup_cons] at hnodup
      rw [scalePools, List.map_cons]
      by_cases hname : p.name = pool
      · rw [if_pos hname, if_pos hname, ← ih hnodup.2,
          scalePools_of_notMem min max (hname ▸ hnodup.1)]
        rfl
      · rw [if_neg hname, if_neg hname, ih hnodup.2]

theorem Config.exists_pool {c : Config} {pool : String} (h : ∃ p ∈ c.pools, p.name = pool) :
    ∃ p, c.pool pool = .ok p := by
  obtain ⟨q, hq, hname⟩ := h
  have hsome : (c.pools.find? (·.name = pool)).isSome = true :=
    List.find?_isSome.mpr ⟨q, hq, decide_eq_true hname⟩
  obtain ⟨p, hp⟩ := Option.isSome_iff_exists.mp hsome
  exact ⟨p, by rw [Config.pool, hp]⟩

theorem Config.exists_pool_withLimits {c : Config} {pool : String} (min max : Option UInt32)
    (h : ∃ p ∈ c.pools, p.name = pool) : ∃ p, (c.withLimits pool min max).pool pool = .ok p := by
  obtain ⟨p, hp, hname⟩ := h
  refine Config.exists_pool ⟨_, List.mem_map.mpr ⟨p, hp, rfl⟩, ?_⟩
  rw [if_pos hname]
  exact hname

section Scale

variable {home : String} {parsed cfg : Config} (pool : String) (min max : Option UInt32)

theorem scale_of_load (hload : Config.load home parsed = .ok cfg) :
    scale home parsed pool min max =
      if cfg.pools.all (·.name ≠ pool) then .error s!"no pool `{pool}`"
      else do
        (cfg.withLimits pool min max).validate
        let p ← (cfg.withLimits pool min max).pool pool
        return (cfg.withLimits pool min max,
          s!"pool `{pool}`: min_warm={p.minWarm} max={p.max} (supervisor picks this up next cycle)") := by
  have hnodup : (cfg.pools.map (·.name)).Nodup := (Config.valid_of_load hload).poolNames_nodup
  rw [scale, hload, Config.withLimits, ← scalePools_eq_map min max hnodup]
  rfl

/-- **The three ways a `scale` on a file that loads can end.** -/
theorem scale_cases (hload : Config.load home parsed = .ok cfg) :
    ((∀ p ∈ cfg.pools, p.name ≠ pool) ∧ scale home parsed pool min max = .error s!"no pool `{pool}`") ∨
    (∃ message, (cfg.withLimits pool min max).validate = .error message ∧
      scale home parsed pool min max = .error message) ∨
    (∃ message, (∃ p ∈ cfg.pools, p.name = pool) ∧ (cfg.withLimits pool min max).validate = .ok () ∧
      scale home parsed pool min max = .ok (cfg.withLimits pool min max, message)) := by
  rw [scale_of_load pool min max hload]
  by_cases hknown : ∃ p ∈ cfg.pools, p.name = pool
  · have hall : ¬ cfg.pools.all (·.name ≠ pool) = true := by
      obtain ⟨p, hp, hname⟩ := hknown
      intro hall
      exact of_decide_eq_true (List.all_eq_true.mp hall p hp) hname
    obtain ⟨p, hp⟩ := Config.exists_pool_withLimits min max hknown
    rw [if_neg hall, hp]
    cases hvalid : (cfg.withLimits pool min max).validate with
    | error message => exact Or.inr (Or.inl ⟨message, rfl, rfl⟩)
    | ok u => exact Or.inr (Or.inr ⟨_, hknown, rfl, rfl⟩)
  · have hall : cfg.pools.all (·.name ≠ pool) = true :=
      List.all_eq_true.mpr fun p hp => decide_eq_true fun hname => hknown ⟨p, hp, hname⟩
    rw [if_pos hall]
    exact Or.inl ⟨fun p hp hname => hknown ⟨p, hp, hname⟩, rfl⟩

end Scale

/-! ### The file -/

/-- The crate reads what it prints for a config as what was printed. -/
def TomlCrate.RoundTrips (crate : TomlCrate) (c : Config) : Prop :=
  ∀ t, c.toToml = some t → crate.parse (crate.render t) = some t

theorem TomlCrate.read_render {crate : TomlCrate} {c : Config} {t : Toml F64} (hround : crate.RoundTrips c)
    (h : c.toToml = some t) : crate.read (crate.render t) = .tables c := by
  rw [TomlCrate.read, hround t h, Option.bind_some, Config.fromToml_of_toToml h]

theorem TomlCrate.fitsToml_of_read {crate : TomlCrate} {text : String} {parsed : Config}
    (h : crate.read text = .tables parsed) : FitsToml parsed.u64s := by
  rw [TomlCrate.read] at h
  split at h
  · rename_i c hparse
    cases h
    obtain ⟨t, _, ht⟩ := Option.bind_eq_some_iff.mp hparse
    exact Config.fitsToml_of_fromToml ht
  · cases h

theorem Config.exists_read_of_loadFile {crate : TomlCrate} {home path text : String} {cfg : Config}
    (h : Config.loadFile home path (crate.read text) = .ok cfg) :
    ∃ parsed, crate.read text = .tables parsed ∧ Config.load home parsed = .ok cfg := by
  cases hread : crate.read text with
  | unreadable =>
      rw [hread] at h
      cases h
  | unparseable =>
      rw [hread] at h
      cases h
  | tables parsed =>
      rw [hread] at h
      exact ⟨parsed, rfl, h⟩

/-- **`scale` leaves the file as it was, or writes one that loads as the config with the new limits.** -/
theorem scaleFile_frame {crate : TomlCrate} {home path text pool : String} {min max : Option UInt32}
    {cfg : Config} (hhome : Text.startsWith home "/" = true)
    (hload : Config.loadFile home path (crate.read text) = .ok cfg)
    (hround : crate.RoundTrips (cfg.withLimits pool min max)) :
    (∃ message, scaleFile crate home path text pool min max = (.error message, text) ∧
      (((∀ p ∈ cfg.pools, p.name ≠ pool) ∧ message = s!"no pool `{pool}`") ∨
        (cfg.withLimits pool min max).validate = .error message)) ∨
    (∃ message written, scaleFile crate home path text pool min max = (.ok message, written) ∧
      (∃ p ∈ cfg.pools, p.name = pool) ∧
      Config.loadFile home path (crate.read written) = .ok (cfg.withLimits pool min max)) := by
  obtain ⟨parsed, hread, hparsed⟩ := Config.exists_read_of_loadFile hload
  rw [scaleFile, hread]
  rcases scale_cases pool min max hparsed with
    ⟨hunknown, hscale⟩ | ⟨message, hinvalid, hscale⟩ | ⟨message, hknown, hvalid, hscale⟩
  · exact Or.inl ⟨_, by simp only [hscale], Or.inl ⟨hunknown, rfl⟩⟩
  · exact Or.inl ⟨message, by simp only [hscale], Or.inr hinvalid⟩
  · have hexpanded : cfg.expandPaths home = cfg := Config.expandPaths_of_load hhome hparsed
    have hfits : FitsToml (cfg.withLimits pool min max).u64s := by
      have hfits : FitsToml parsed.u64s := TomlCrate.fitsToml_of_read hread
      rw [← (Config.load_eq_ok_iff.mp hparsed).1]
      exact hfits
    obtain ⟨t, ht⟩ := Config.exists_toToml hfits
    refine Or.inr ⟨message, crate.render t, by simp only [hscale, ht], hknown, ?_⟩
    rw [TomlCrate.read_render hround ht]
    refine Config.load_eq_ok_iff.mpr ⟨?_, hvalid⟩
    calc (cfg.withLimits pool min max).expandPaths home
        = (cfg.expandPaths home).withLimits pool min max := rfl
      _ = cfg.withLimits pool min max := by rw [hexpanded]

/-! A file with few fields, and the text it is rewritten as, in which every field is written out. -/

def sampleText : String :=
  "[github]\nrepo = \"acme/app\"\ntoken_file = \"~/token\"\n\n[[base]]\nimage = \"24.04\"\n\n" ++
  "[[pool]]\nname = \"ci\"\nlabels = [\"linux\"]\ncpus = 2\nmemory = \"4G\"\nmin_warm = 2\nmax = 4\n" ++
  "slot_base = 100\n"

def sampleToml : Toml F64 :=
  .table [
    ("github", .table [("repo", .text "acme/app"), ("token_file", .text "~/token")]),
    ("base", .array [.table [("image", .text "24.04")]]),
    ("pool", .array [.table [
      ("name", .text "ci"), ("labels", .array [.text "linux"]), ("cpus", .integer 2), ("memory", .text "4G"),
      ("min_warm", .integer 2), ("max", .integer 4), ("slot_base", .integer 100)]])]

def sampleConfig : Config :=
  { configWith [smallPool] with github := { repo := some "acme/app", tokenFile := "/home/ci/token" } }

def scaledText : String :=
  "version = 1\n\n[github]\nrepo = \"acme/app\"\ntoken_file = \"/home/ci/token\"\nrunner_group_id = 1\n" ++
  "api_base = \"https://api.github.com\"\n\n[storage]\nvault_path = \"/var/snap/multipass/common\"\n\n" ++
  "[admission]\nmin_avail_mib = 4096\npsi_max = 20.0\nmin_disk_gib = 30\nsettle_seconds = 15\n" ++
  "lock_wait_seconds = 60\npoll_seconds = 10\n\n[[base]]\nimage = \"24.04\"\nname = \"vmfleet-base\"\n" ++
  "disk = \"80G\"\ncpus = 4\nmemory = \"8G\"\nsetup_scripts = []\nrunner_version = \"latest\"\n\n" ++
  "[[pool]]\nname = \"ci\"\nlabels = [\"linux\"]\ncpus = 2\nmemory = \"4G\"\nmin_warm = 1\nmax = 3\n" ++
  "slot_base = 100\n\n[supervisor]\npoll_seconds = 15\nidle_timeout_seconds = 900\n" ++
  "max_launch_per_poll = 2\nbusy_reserve_mib = 2048\nuse_jit = true\nqueued_poll_every = 4\n" ++
  "update_check = true\nupdate_check_interval_hours = 24\n\n[worker]\nconfig_timeout_seconds = 180\n" ++
  "registration_timeout_seconds = 180\noffline_grace_seconds = 90\nhealth_poll_seconds = 10\n" ++
  "cloud_init_timeout_seconds = 180\n"

def scaledToml : Toml F64 :=
  ((sampleConfig.withLimits "ci" (some 1) (some 3)).toToml).getD sampleToml

/-- The crate on these two documents and the empty one. -/
def sampleCrate : TomlCrate where
  parse text :=
    if text = sampleText then some sampleToml
    else if text = scaledText then some scaledToml
    else if text = "" then some (.table [])
    else none
  render _ := scaledText

theorem scaleFile_frame_sample :
    scaleFile sampleCrate "/home/ci" "vmfleet.toml" sampleText "ci" (some 1) (some 3) =
      (.ok "pool `ci`: min_warm=1 max=3 (supervisor picks this up next cycle)", scaledText) ∧
    Config.loadFile "/home/ci" "vmfleet.toml" (sampleCrate.read scaledText) =
      .ok (sampleConfig.withLimits "ci" (some 1) (some 3)) := by
  have hload : Config.loadFile "/home/ci" "vmfleet.toml" (sampleCrate.read sampleText) =
      .ok sampleConfig := by
    decide +kernel
  have hround : sampleCrate.RoundTrips (sampleConfig.withLimits "ci" (some 1) (some 3)) := by
    intro t ht
    have hne : scaledText ≠ sampleText := by decide +kernel
    have hparse : sampleCrate.parse scaledText = some scaledToml := by
      simp only [sampleCrate, if_neg hne, if_true]
    rw [show sampleCrate.render t = scaledText from rfl, hparse, scaledToml, ht, Option.getD_some]
  have hscale : scaleFile sampleCrate "/home/ci" "vmfleet.toml" sampleText "ci" (some 1) (some 3) =
      (.ok "pool `ci`: min_warm=1 max=3 (supervisor picks this up next cycle)", scaledText) := by
    decide +kernel
  refine ⟨hscale, ?_⟩
  rcases scaleFile_frame (by decide) hload hround with
    ⟨message, herror, _⟩ | ⟨message, written, hok, _, hloaded⟩
  · rw [hscale] at herror
    cases herror
  · rw [hscale] at hok
    cases hok
    exact hloaded

end VmFleet
