import VmFleet.Library.Toml
import VmFleet.Source.BuildBase
import VmFleet.Source.ConfigFile

/-!
# The text of the config file

The derived `Deserialize` and `Serialize` of the tables in `config.rs`: names and defaults of the fields,
the tables written under another name, the options that are not written. `write_config` of `commands.rs`
and `scale` on the text of the file. The crate that reads and prints TOML documents is a parameter.
-/

namespace VmFleet

/-- `i as f64`: to the nearest, and to the even one of two that are as near. -/
def F64.ofInteger (i : Int64) : F64 :=
  let n := i.toInt.natAbs
  let unit := 2 ^ (Nat.log2 n - 52)
  let rounded :=
    if 2 * (n % unit) > unit ∨ (2 * (n % unit) = unit ∧ n / unit % 2 = 1) then n / unit + 1 else n / unit
  .finite (if i.toInt < 0 then -(rounded * unit : Nat) else (rounded * unit : Nat))

open Toml

/-! ### Reading -/

def Worker.fromToml (t : Toml F64) : Option Worker := do
  let field ← t.fields
  return {
    configTimeoutSeconds := ← orDefault readU64 180 (field 0 "config_timeout_seconds")
    registrationTimeoutSeconds := ← orDefault readU64 180 (field 1 "registration_timeout_seconds")
    offlineGraceSeconds := ← orDefault readU64 90 (field 2 "offline_grace_seconds")
    healthPollSeconds := ← orDefault readU64 10 (field 3 "health_poll_seconds")
    cloudInitTimeoutSeconds := ← orDefault readU64 180 (field 4 "cloud_init_timeout_seconds") }

def GitHub.fromToml (t : Toml F64) : Option GitHub := do
  let field ← t.fields
  return {
    repo := ← optional readText (field 0 "repo")
    org := ← optional readText (field 1 "org")
    tokenFile := ← required readText (field 2 "token_file")
    runnerGroupId := ← orDefault readU64 1 (field 3 "runner_group_id")
    apiBase := ← orDefault readText "https://api.github.com" (field 4 "api_base") }

def Storage.fromToml (t : Toml F64) : Option Storage := do
  let field ← t.fields
  return { vaultPath := ← orDefault readText "/var/snap/multipass/common" (field 0 "vault_path") }

def Admission.fromToml (t : Toml F64) : Option Admission := do
  let field ← t.fields
  return {
    minAvailMib := ← orDefault readU64 4096 (field 0 "min_avail_mib")
    psiMax := ← orDefault (readFloat F64.ofInteger) (.finite 20) (field 1 "psi_max")
    minDiskGib := ← orDefault readU64 30 (field 2 "min_disk_gib")
    settleSeconds := ← orDefault readU64 15 (field 3 "settle_seconds")
    lockWaitSeconds := ← orDefault readU64 60 (field 4 "lock_wait_seconds")
    pollSeconds := ← orDefault readU64 10 (field 5 "poll_seconds") }

def Base.fromToml (t : Toml F64) : Option Base := do
  let field ← t.fields
  return {
    image := ← required readText (field 0 "image")
    name := ← orDefault readText "vmfleet-base" (field 1 "name")
    disk := ← orDefault readText "80G" (field 2 "disk")
    cpus := ← orDefault readU32 4 (field 3 "cpus")
    memory := ← orDefault readText "8G" (field 4 "memory")
    setupScripts := ← orDefault (readList readText) [] (field 5 "setup_scripts")
    runnerVersion := ← orDefault readText "latest" (field 6 "runner_version") }

def Pool.fromToml (t : Toml F64) : Option Pool := do
  let field ← t.fields
  return {
    name := ← required readText (field 0 "name")
    labels := ← required (readList readText) (field 1 "labels")
    cpus := ← required readU32 (field 2 "cpus")
    memory := ← required readText (field 3 "memory")
    swap := ← optional readText (field 4 "swap")
    minWarm := ← orDefault readU32 0 (field 5 "min_warm")
    max := ← required readU32 (field 6 "max")
    slotBase := ← required readU32 (field 7 "slot_base")
    base := ← optional readText (field 8 "base") }

def Supervisor.fromToml (t : Toml F64) : Option Supervisor := do
  let field ← t.fields
  return {
    pollSeconds := ← orDefault readU64 15 (field 0 "poll_seconds")
    idleTimeoutSeconds := ← orDefault readU64 900 (field 1 "idle_timeout_seconds")
    maxLaunchPerPoll := ← orDefault readU32 2 (field 2 "max_launch_per_poll")
    busyReserveMib := ← orDefault readU64 2048 (field 3 "busy_reserve_mib")
    useJit := ← orDefault readBool true (field 4 "use_jit")
    queuedPollEvery := ← orDefault readU32 4 (field 5 "queued_poll_every")
    updateCheck := ← orDefault readBool true (field 6 "update_check")
    updateCheckIntervalHours := ← orDefault readU64 24 (field 7 "update_check_interval_hours") }

def Config.fromToml (t : Toml F64) : Option Config := do
  let field ← t.fields
  return {
    version := ← orDefault readU32 1 (field 0 "version")
    github := ← required GitHub.fromToml (field 1 "github")
    storage := ← orDefault Storage.fromToml {} (field 2 "storage")
    admission := ← orDefault Admission.fromToml {} (field 3 "admission")
    bases := ← required (readList Base.fromToml) (field 4 "base")
    pools := ← required (readList Pool.fromToml) (field 5 "pool")
    supervisor := ← orDefault Supervisor.fromToml {} (field 6 "supervisor")
    worker := ← orDefault Worker.fromToml {} (field 7 "worker") }

/-! ### Writing -/

def Worker.toToml (w : Worker) : Option (Toml F64) := do
  return .table [
    ("config_timeout_seconds", ← writeU64 w.configTimeoutSeconds),
    ("registration_timeout_seconds", ← writeU64 w.registrationTimeoutSeconds),
    ("offline_grace_seconds", ← writeU64 w.offlineGraceSeconds),
    ("health_poll_seconds", ← writeU64 w.healthPollSeconds),
    ("cloud_init_timeout_seconds", ← writeU64 w.cloudInitTimeoutSeconds)]

def GitHub.toToml (gh : GitHub) : Option (Toml F64) := do
  return .table (skipNone "repo" (gh.repo.map .text) ++ skipNone "org" (gh.org.map .text) ++ [
    ("token_file", .text gh.tokenFile),
    ("runner_group_id", ← writeU64 gh.runnerGroupId),
    ("api_base", .text gh.apiBase)])

def Storage.toToml (s : Storage) : Toml F64 := .table [("vault_path", .text s.vaultPath)]

def Admission.toToml (a : Admission) : Option (Toml F64) := do
  return .table [
    ("min_avail_mib", ← writeU64 a.minAvailMib),
    ("psi_max", .float a.psiMax),
    ("min_disk_gib", ← writeU64 a.minDiskGib),
    ("settle_seconds", ← writeU64 a.settleSeconds),
    ("lock_wait_seconds", ← writeU64 a.lockWaitSeconds),
    ("poll_seconds", ← writeU64 a.pollSeconds)]

def Base.toToml (b : Base) : Toml F64 :=
  .table [
    ("image", .text b.image),
    ("name", .text b.name),
    ("disk", .text b.disk),
    ("cpus", writeU32 b.cpus),
    ("memory", .text b.memory),
    ("setup_scripts", writeList .text b.setupScripts),
    ("runner_version", .text b.runnerVersion)]

def Pool.toToml (p : Pool) : Toml F64 :=
  .table ([
    ("name", .text p.name),
    ("labels", writeList .text p.labels),
    ("cpus", writeU32 p.cpus),
    ("memory", .text p.memory)] ++ skipNone "swap" (p.swap.map .text) ++ [
    ("min_warm", writeU32 p.minWarm),
    ("max", writeU32 p.max),
    ("slot_base", writeU32 p.slotBase)] ++ skipNone "base" (p.base.map .text))

def Supervisor.toToml (s : Supervisor) : Option (Toml F64) := do
  return .table [
    ("poll_seconds", ← writeU64 s.pollSeconds),
    ("idle_timeout_seconds", ← writeU64 s.idleTimeoutSeconds),
    ("max_launch_per_poll", writeU32 s.maxLaunchPerPoll),
    ("busy_reserve_mib", ← writeU64 s.busyReserveMib),
    ("use_jit", .boolean s.useJit),
    ("queued_poll_every", writeU32 s.queuedPollEvery),
    ("update_check", .boolean s.updateCheck),
    ("update_check_interval_hours", ← writeU64 s.updateCheckIntervalHours)]

def Config.toToml (c : Config) : Option (Toml F64) := do
  return .table [
    ("version", writeU32 c.version),
    ("github", ← c.github.toToml),
    ("storage", c.storage.toToml),
    ("admission", ← c.admission.toToml),
    ("base", writeList Base.toToml c.bases),
    ("pool", writeList Pool.toToml c.pools),
    ("supervisor", ← c.supervisor.toToml),
    ("worker", ← c.worker.toToml)]

/-! ### The file -/

/-- The `toml` crate: `parse` is none where the text is no TOML document. -/
structure TomlCrate where
  parse : String → Option (Toml F64)
  render : Toml F64 → String

/-- What `Config::load` finds in a file of this text. -/
def TomlCrate.read (crate : TomlCrate) (text : String) : ConfigText :=
  match (crate.parse text).bind Config.fromToml with
  | some parsed => .tables parsed
  | none => .unparseable

/-- `scale` where the file holds `text`: what it prints or the error it returns, and what the file holds
afterwards. Its look-up after the write cannot fail, since it has found the pool before. -/
def scaleFile (crate : TomlCrate) (home path text pool : String) (min max : Option UInt32) :
    Except String String × String :=
  match crate.read text with
  | .tables parsed =>
    match scale home parsed pool min max with
    | .ok (cfg, message) =>
      match cfg.toToml with
      | some t => (.ok message, crate.render t)
      | none => (.error "out-of-range value for u64 type", text)
    | .error message => (.error message, text)
  | .unparseable | .unreadable => (.error ("parsing config " ++ path), text)

end VmFleet
