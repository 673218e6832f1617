import VmFleet.Library.Text
import Mathlib.Data.List.Sort
import Mathlib.Data.Rat.Defs
import Mathlib.Algebra.Order.Ring.Unbundled.Rat

/-!
# Configuration

`config.rs` and `paths.rs`: the tables of `vmfleet.toml` with the checks `Config::validate` makes on
them. Integer fields keep the width they have in the source, so a sum of two `u32` fields wraps as it
does in the release profile. What TOML text a value came from is left out: a `Config` here is what
`toml::from_str` returned.
-/

namespace VmFleet

/-- The values of an `f64`. A finite one is the rational number it denotes. -/
inductive F64 where
  | nan
  | negInfinity
  | finite (q : ℚ)
  | infinity
  deriving DecidableEq

/-- `a >= b` on `f64`: false as soon as one side is not a number. -/
def F64.ge : F64 → F64 → Bool
  | .nan, _ => false
  | _, .nan => false
  | .infinity, _ => true
  | _, .negInfinity => true
  | .finite a, .finite b => decide (b ≤ a)
  | _, _ => false

/-! ### Paths -/

/-- `PathBuf::join`: an absolute path replaces the one it is joined to. -/
def joinPath (dir rest : String) : String :=
  if Text.startsWith rest "/" then rest
  else if dir = "" ∨ Text.endsWith dir "/" then dir ++ rest
  else dir ++ "/" ++ rest

/-- `paths::expand` for a home directory: a leading `~` or `$HOME/` in a path of the config file. -/
def expand (home p : String) : String :=
  if p = "~" then home
  else match Text.stripPrefix p "~/" with
    | some rest => joinPath home rest
    | none => match Text.stripPrefix p "$HOME/" with
      | some rest => joinPath home rest
      | none => p

/-! ### The tables -/

structure Worker where
  configTimeoutSeconds : UInt64 := 180
  registrationTimeoutSeconds : UInt64 := 180
  offlineGraceSeconds : UInt64 := 90
  healthPollSeconds : UInt64 := 10
  cloudInitTimeoutSeconds : UInt64 := 180
  deriving DecidableEq

structure GitHub where
  repo : Option String := none
  org : Option String := none
  tokenFile : String
  runnerGroupId : UInt64 := 1
  apiBase : String := "https://api.github.com"
  deriving DecidableEq

/-- The API path segment for registration and listing. -/
def GitHub.scopePath (gh : GitHub) : Except String String :=
  match gh.repo, gh.org with
  | some r, none => .ok ("repos/" ++ r)
  | none, some o => .ok ("orgs/" ++ o)
  | some _, some _ => .error "config [github]: set exactly one of `repo` or `org`, not both"
  | none, none => .error "config [github]: one of `repo` or `org` is required"

structure Storage where
  vaultPath : String := "/var/snap/multipass/common"
  deriving DecidableEq

structure Admission where
  minAvailMib : UInt64 := 4096
  psiMax : F64 := .finite 20
  minDiskGib : UInt64 := 30
  settleSeconds : UInt64 := 15
  lockWaitSeconds : UInt64 := 60
  pollSeconds : UInt64 := 10
  deriving DecidableEq

structure Base where
  image : String
  name : String := "vmfleet-base"
  disk : String := "80G"
  cpus : UInt32 := 4
  memory : String := "8G"
  setupScripts : List String := []
  runnerVersion : String := "latest"
  deriving DecidableEq

structure Pool where
  name : String
  labels : List String
  cpus : UInt32
  memory : String
  swap : Option String := none
  minWarm : UInt32 := 0
  max : UInt32
  slotBase : UInt32
  base : Option String := none
  deriving DecidableEq

def Pool.slotEnd (p : Pool) : UInt32 := p.slotBase + p.max

/-- The numbers of the range `slot_base..(slot_base + max)`, in order. -/
def Pool.slots (p : Pool) : List Nat :=
  List.range' p.slotBase.toNat (p.slotEnd.toNat - p.slotBase.toNat)

structure Supervisor where
  pollSeconds : UInt64 := 15
  idleTimeoutSeconds : UInt64 := 900
  maxLaunchPerPoll : UInt32 := 2
  busyReserveMib : UInt64 := 2048
  useJit : Bool := true
  queuedPollEvery : UInt32 := 4
  updateCheck : Bool := true
  updateCheckIntervalHours : UInt64 := 24
  deriving DecidableEq

structure Config where
  version : UInt32 := 1
  github : GitHub
  storage : Storage := {}
  admission : Admission := {}
  bases : List Base
  pools : List Pool
  supervisor : Supervisor := {}
  worker : Worker := {}
  deriving DecidableEq

/-! ### Validation -/

/-- Lowercase alphanumeric characters and hyphens, at least one. -/
def validName (s : String) : Bool :=
  !s.toList.isEmpty && s.toList.all fun c => c.isLower || c.isDigit || c == '-'

/-- The loop over the base images: `seen` is the set `base_names`. -/
def checkBases (seen : List String) : List Base → Except String (List String)
  | [] => .ok seen
  | b :: bs =>
    if !validName b.name then
      .error s!"base name `{b.name}` must be lowercase alphanumeric characters and hyphens"
    else if b.name ∈ seen then .error s!"duplicate base name `{b.name}`"
    else checkBases (b.name :: seen) bs

structure SlotRange where
  first : UInt32
  last : UInt32
  pool : String
  deriving DecidableEq

/-- The order of the tuples `(u32, u32, &str)`. -/
def SlotRange.le (a b : SlotRange) : Prop :=
  a.first.toNat < b.first.toNat ∨
    (a.first = b.first ∧ (a.last.toNat < b.last.toNat ∨ (a.last = b.last ∧ a.pool ≤ b.pool)))

instance : DecidableRel SlotRange.le := fun _ _ => inferInstanceAs (Decidable (_ ∨ _))

def checkPoolBase (baseNames : List String) (p : Pool) : Except String Unit :=
  match p.base with
  | some bn =>
    if bn ∈ baseNames then .ok ()
    else .error s!"pool `{p.name}`: base `{bn}` not defined in any [[base]]"
  | none => .ok ()

def checkPool (baseNames seen : List String) (p : Pool) : Except String Unit :=
  if p.max = 0 then .error s!"pool `{p.name}`: max must be > 0"
  else if p.minWarm > p.max then
    .error s!"pool `{p.name}`: min_warm ({p.minWarm}) > max ({p.max})"
  else if p.labels.isEmpty then .error s!"pool `{p.name}`: at least one label required"
  else if !validName p.name then
    .error s!"pool name `{p.name}` must be lowercase alphanumeric characters and hyphens"
  else if p.name ∈ seen then .error s!"duplicate pool name `{p.name}`"
  else checkPoolBase baseNames p

/-- The loop over the pools: `seen` is the set `seen_names`, the result is `ranges`. -/
def checkPools (baseNames seen : List String) : List Pool → Except String (List SlotRange)
  | [] => .ok []
  | p :: ps => do
    checkPool baseNames seen p
    let ranges ← checkPools baseNames (p.name :: seen) ps
    return ⟨p.slotBase, p.slotEnd, p.name⟩ :: ranges

/-- The loop over `ranges.windows(2)`. -/
def checkWindows : List SlotRange → Except String Unit
  | a :: b :: rest =>
    if a.last.toNat > b.first.toNat then
      .error (s!"pool slot ranges overlap: `{a.pool}` [{a.first}..{a.last}) and " ++
        s!"`{b.pool}` [{b.first}..{b.last})")
    else checkWindows (b :: rest)
  | _ => .ok ()

def Config.validate (cfg : Config) : Except String Unit := do
  let _ ← cfg.github.scopePath
  if cfg.bases.isEmpty then .error "config: at least one [[base]] is required"
  else
    let baseNames ← checkBases [] cfg.bases
    if cfg.pools.isEmpty then .error "config: at least one [[pool]] is required"
    else
      let ranges ← checkPools baseNames [] cfg.pools
      checkWindows (ranges.insertionSort SlotRange.le)

/-! ### Loading and look-up -/

/-- `Config::load` on a file that TOML reads as `parsed`: paths are expanded, then checked. -/
def Config.load (home : String) (parsed : Config) : Except String Config := do
  let cfg := { parsed with
    github := { parsed.github with tokenFile := expand home parsed.github.tokenFile }
    storage := { parsed.storage with vaultPath := expand home parsed.storage.vaultPath }
    bases := parsed.bases.map fun b =>
      { b with setupScripts := b.setupScripts.map (expand home) } }
  cfg.validate
  return cfg

def Config.pool (cfg : Config) (name : String) : Except String Pool :=
  match cfg.pools.find? (·.name = name) with
  | some p => .ok p
  | none => .error s!"no pool named `{name}`"

end VmFleet
