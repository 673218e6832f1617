import VmFleet.Proof.LaunchSafety
import VmFleet.Library.Allotment

/-!
# Pools are served in config order

When the gate is open and every launch succeeds, a pass shares out its budget as `Allotment.allot` does:
each pool takes what it is short of, or what the pools before it have left, from its lowest inactive
slots. What the source gives a pool is `offer`, which is the demand as long as the headcount fits `u32`.
-/

namespace VmFleet

namespace Pool

variable {p : Pool} {runners : List Runner} {activeSlots : List Nat} {queued : String → Option UInt32}

def inactive (p : Pool) (activeSlots : List Nat) : List Nat := p.slots.filter (· ∉ activeSlots)

theorem freeSlots_eq_inactive : p.freeSlots activeSlots = p.inactive activeSlots := by
  have hsame : p.slots.filter (· ∉ p.active activeSlots) = p.inactive activeSlots := by
    apply List.filter_congr
    intro slot hslot
    rw [decide_eq_decide, mem_active]
    exact not_congr ⟨fun h => h.1, fun h => ⟨h, hslot⟩⟩
  have hsorted : (p.inactive activeSlots).Pairwise (· ≤ ·) :=
    (p.slots_pairwise_lt.imp fun h => Nat.le_of_lt h).filter _
  rw [freeSlots, hsame, hsorted.insertionSort_eq]

/-- What a pass launches for the pool when it finds the budget it asks for. -/
def offer (p : Pool) (runners : List Runner) (activeSlots : List Nat) (queued : String → Option UInt32) :
    Nat :=
  min (p.deficit runners activeSlots queued).toNat (p.inactive activeSlots).length

theorem offer_eq_demand (hfits : p.headcount runners activeSlots < 2 ^ 32)
    (hroom : p.demand runners activeSlots queued ≤ (p.inactive activeSlots).length) :
    p.offer runners activeSlots queued = p.demand runners activeSlots queued := by
  rw [offer, deficit_toNat, Nat.mod_eq_of_lt hfits]
  exact Nat.min_eq_left hroom

end Pool

section OnePass

variable {cfg : Config} {inv : Invocation} {snap : Snapshot} {inp : PoolInput} {b : Budget}

def lowest (inp : PoolInput) (p : Pool) (n : Nat) : List Nat := (p.inactive inp.activeSlots).take n

def demandOf (inp : PoolInput) (p : Pool) : Nat := p.demand inp.runners inp.activeSlots inp.queued

def offerOf (inp : PoolInput) (p : Pool) : Nat := p.offer inp.runners inp.activeSlots inp.queued

/-- The slots tried in a pass, with the pools' offers as the demands. -/
theorem map_attempted_poolLoop {pools : List Pool} (hdry : inv.dryRun = false)
    (hopen : inp.blocked = none)
    (hsucceed : ∀ p ∈ pools, ∀ slot, launchOk inv snap p slot = true) :
    (poolLoop cfg inv snap inp pools b).map (·.attempted) =
      List.zipWith (lowest inp) pools (Allotment.allot (b.left cfg) (pools.map (offerOf inp))) := by
  induction pools generalizing b with
  | nil => rfl
  | cons p ps ih =>
      have htried : slotsToTry cfg inp p b = lowest inp p (min (offerOf inp p) (b.left cfg)) := by
        rw [slotsToTry, if_pos hopen, Pool.freeSlots_eq_inactive, lowest, offerOf, Pool.offer,
          List.take_eq_take_iff]
        omega
      have hcounted : (slotsCounted cfg inv snap inp p b).length = min (offerOf inp p) (b.left cfg) := by
        have hall : slotsCounted cfg inv snap inp p b = slotsToTry cfg inp p b := by
          apply List.filter_eq_self.mpr
          intro slot _
          rw [launchCounts, hsucceed p List.mem_cons_self slot, Bool.or_true]
        rw [hall, htried, lowest, List.length_take, offerOf, Pool.offer]
        omega
      rw [poolLoop_cons, List.map_cons, ih fun q hq => hsucceed q (List.mem_cons_of_mem _ hq),
        List.map_cons, Allotment.allot_cons, List.zipWith_cons_cons, attempted_passOf, hdry, htried,
        left_actOn, hcounted]
      rfl

theorem length_served {pools : List Pool} {pps : List PoolPass} {budget : Nat}
    (hroom : ∀ p ∈ pools, demandOf inp p ≤ (p.inactive inp.activeSlots).length)
    (heach : pps.map (·.attempted) =
      List.zipWith (lowest inp) pools (Allotment.allot budget (pools.map (demandOf inp)))) :
    (pps.flatMap (·.attempted)).length = min budget (pools.map (demandOf inp)).sum := by
  have hlengths := Allotment.map_length_zipWith_take (demandOf inp)
    (fun p : Pool => p.inactive inp.activeSlots) budget hroom
  rw [List.length_flatMap, ← Allotment.sum_allot, ← hlengths]
  show (pps.map (List.length ∘ (·.attempted))).sum = _
  rw [← List.map_map, heach]
  rfl

end OnePass

/-- How a pass that can launch shares out its budget. -/
structure ServesInOrder (cfg : Config) (snap : Snapshot) (inp : PoolInput) (pass : Pass) : Prop where
  each : pass.pools.map (·.attempted) =
    List.zipWith (lowest inp) cfg.pools
      (Allotment.allot
        (min cfg.supervisor.maxLaunchPerPoll.toNat (startBudget cfg snap).headroom.toNat)
        (cfg.pools.map (demandOf inp)))
  total : (pass.pools.flatMap (·.attempted)).length =
    min (min cfg.supervisor.maxLaunchPerPoll.toNat (startBudget cfg snap).headroom.toNat)
      (cfg.pools.map (demandOf inp)).sum
  room : ∀ p ∈ cfg.pools, demandOf inp p ≤ (p.inactive inp.activeSlots).length

section OpenGate

variable {cfg : Config} {inv : Invocation} {snap : Snapshot} {state : SupState} {runners : List Runner}
  {pass : Pass}

/-- **The pools are served in order.** -/
theorem reconcile_serves_in_order (hvalid : cfg.validate = .ok ()) (hwrap : ∀ p ∈ cfg.pools, p.NoWrap)
    (hrunners : snap.runners = .ok runners) (hfew : runners.length < 2 ^ 31)
    (hunits : SystemRunner.Answers (Systemd.listActiveCommand workerUnitGlob) snap.activeUnits)
    (hdry : inv.dryRun = false) (hopen : gateBlocked cfg.admission snap.gateResources = none)
    (hsucceed : ∀ p ∈ cfg.pools, ∀ slot, ∃ o, snap.systemdRun p.name slot = .ok o ∧ o.status = 0)
    (hpass : reconcile cfg inv snap state = .ok pass) :
    ServesInOrder cfg snap (poolInput cfg snap state runners) pass := by
  have hvalid := Config.valid_of_validate hvalid
  have hroom : ∀ p ∈ cfg.pools, demandOf (poolInput cfg snap state runners) p ≤
      (p.inactive (activeSlotsOf snap.activeUnits)).length := by
    intro p hp
    rw [← Pool.freeSlots_eq_inactive]
    exact Pool.demand_le_length_freeSlots (hvalid.minWarm_le p hp) (hwrap p hp) (activeSlotsOf_nodup _)
  have hok : ∀ p ∈ cfg.pools, ∀ slot, launchOk inv snap p slot = true := by
    intro p hp slot
    obtain ⟨o, hanswer, hstatus⟩ := hsucceed p hp slot
    rw [launchOk_of_ok hanswer, CmdOut.ok, hstatus]
    rfl
  have hoffer : cfg.pools.map (offerOf (poolInput cfg snap state runners)) =
      cfg.pools.map (demandOf (poolInput cfg snap state runners)) := by
    apply List.map_congr_left
    intro p hp
    exact Pool.offer_eq_demand (Pool.headcount_lt_of_answers hfew hunits) (hroom p hp)
  have heach : pass.pools.map (·.attempted) = List.zipWith (lowest (poolInput cfg snap state runners))
      cfg.pools (Allotment.allot ((startBudget cfg snap).left cfg)
        (cfg.pools.map (demandOf (poolInput cfg snap state runners)))) := by
    rw [(reconciled_of_ok hrunners hpass).pools, map_attempted_poolLoop hdry hopen hok, hoffer]
  rw [left_startBudget] at heach
  exact ⟨heach, length_served hroom heach, hroom⟩

end OpenGate

def largePool : Pool :=
  { name := "gpu", labels := ["gpu"], cpus := 8, memory := "16G", minWarm := 3, max := 6, slotBase := 200 }

theorem reconcile_serves_two_pools :
    ∃ pass, reconcile (configWith [smallPool, largePool]) daemonCall (roomySnapshot [] [101]) {} = .ok pass ∧
      ServesInOrder (configWith [smallPool, largePool]) (roomySnapshot [] [101])
        (poolInput (configWith [smallPool, largePool]) (roomySnapshot [] [101]) {} []) pass := by
  obtain ⟨pass, hpass⟩ : ∃ pass, reconcile (configWith [smallPool, largePool]) daemonCall
      (roomySnapshot [] [101]) {} = .ok pass := reconcile_ok rfl
  refine ⟨pass, hpass, ?_⟩
  apply reconcile_serves_in_order (by decide) ?_ rfl (by decide) answers_unitTable_101 rfl rfl
    (fun _ _ _ => ⟨⟨0, "", ""⟩, rfl, rfl⟩) hpass
  intro p hp
  simp only [configWith, List.mem_cons, List.not_mem_nil, or_false] at hp
  rcases hp with rfl | rfl
  · show (100 : Nat) + 4 < 2 ^ 32
    omega
  · show (200 : Nat) + 6 < 2 ^ 32
    omega

end VmFleet
