import VmFleet.Source.Supervisor

/-!
# The config file and the running supervisor

`scale` of `commands.rs` rewrites the config file; `main` loads it once, before it calls
`supervisor::run`, whose loop then passes the same `cfg` to every `reconcile`. The file is the config
TOML reads it as: what `write_config` serializes is read back as it was.
-/

namespace VmFleet

/-! ### `scale` -/

def scalePool (min max : Option UInt32) (p : Pool) : Pool :=
  { p with minWarm := min.getD p.minWarm, max := max.getD p.max }

def scalePools (pool : String) (min max : Option UInt32) : List Pool → List Pool
  | [] => []
  | p :: ps =>
    if p.name = pool then scalePool min max p :: ps else p :: scalePools pool min max ps

/-- `scale` on a file: what it writes to the file, and what it prints. -/
def scale (home : String) (file : Config) (pool : String) (min max : Option UInt32) :
    Except String (Config × String) := do
  let cfg ← Config.load home file
  if cfg.pools.all (·.name ≠ pool) then .error s!"no pool `{pool}`"
  else
    let cfg := { cfg with pools := scalePools pool min max cfg.pools }
    cfg.validate
    let p ← cfg.pool pool
    return (cfg,
      s!"pool `{pool}`: min_warm={p.minWarm} max={p.max} (supervisor picks this up next cycle)")

/-! ### The file and the supervisor over time -/

structure Deployment where
  file : Config
  /-- The config the supervisor was started with. -/
  loaded : Config
  state : SupState

inductive DeployEvent where
  | scale (pool : String) (min max : Option UInt32)
  /-- The supervisor is started anew. -/
  | start
  | cycle (snap : Snapshot)

def Deployment.boot (home : String) (file : Config) : Option Deployment :=
  match Config.load home file with
  | .ok cfg => some ⟨file, cfg, {}⟩
  | .error _ => none

def Deployment.step (home : String) (inv : Invocation) (d : Deployment) : DeployEvent → Option Deployment
  | .scale pool min max =>
    match scale home d.file pool min max with
    | .ok written => some { d with file := written.1 }
    | .error _ => none
  | .start => Deployment.boot home d.file
  | .cycle snap => some { d with state := cycleState d.loaded inv d.state snap }

end VmFleet
