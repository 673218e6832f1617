import Mathlib.Data.List.Chain
import VmFleet.Proof.LaunchOrder
import VmFleet.Proof.PendingLaunches

/-!
# From cycle to cycle

What the control loop comes to when nothing disturbs it: the gate is open, launches succeed, the desired
counts stay as they are, and the headcounts change by what the loop itself launches and stops. Then several
cycles serve the pools as one cycle with the sum of their budgets would, in config order, and every pool
moves towards its desired count and never past it.
-/

namespace VmFleet

namespace Cycle

def budget (cfg : Config) (c : Cycle) : Nat :=
  min cfg.supervisor.maxLaunchPerPoll.toNat (startBudget cfg c.snap).headroom.toNat

def headcount (c : Cycle) (p : Pool) : Nat := p.headcount c.runners (activeSlotsOf c.snap.activeUnits)

/-- What a pool lacks of the count it is to come to. -/
def need (want : Pool → Nat) (c : Cycle) (p : Pool) : Nat := want p - c.headcount p

/-- The successful launches of a cycle for one pool. -/
def launchesOf (cfg : Config) (inv : Invocation) (c : Cycle) (p : Pool) : Nat :=
  ((c.started cfg inv).filter (· ∈ p.slots)).length

end Cycle

/-- Cycles that nothing disturbs. -/
structure Steady (cfg : Config) (inv : Invocation) (want : Pool → Nat) (cycles : List Cycle) : Prop where
  openGate : ∀ c ∈ cycles, gateBlocked cfg.admission c.snap.gateResources = none
  launches : ∀ c ∈ cycles, ∀ p ∈ cfg.pools, ∀ slot,
    ∃ o, c.snap.systemdRun p.name slot = .ok o ∧ o.status = 0
  fits : ∀ c ∈ cycles, ∀ p ∈ cfg.pools, c.headcount p < 2 ^ 32
  desired : ∀ c ∈ cycles, ∀ x ∈ cfg.pools.zip c.pass.pools, x.2.report.desired.toNat = want x.1
  counts : cycles.IsChain fun a b => ∀ x ∈ cfg.pools.zip a.pass.pools,
    b.headcount x.1 + x.2.stopped.length = a.headcount x.1 + (x.2.started inv a.snap x.1).length

section

variable {cfg : Config} {inv : Invocation} {want : Pool → Nat} {c : Cycle} {cycles : List Cycle} {p : Pool}
variable {pp : PoolPass} {state : SupState}

/-! ### One cycle -/

theorem Cycle.exists_poolPass (hpass : reconcile cfg inv c.snap state = .ok c.pass) (hp : p ∈ cfg.pools) :
    ∃ pp, (p, pp) ∈ cfg.pools.zip c.pass.pools := by
  rw [← List.map_fst_zip (Cycle.length_pools hpass).ge] at hp
  obtain ⟨x, hx, rfl⟩ := List.mem_map.mp hp
  exact ⟨x.2, hx⟩

/-- The launches in the slots of a pool are those of its own part of the pass. -/
theorem Cycle.launchesOf_eq (hvalid : cfg.Valid) (hdry : inv.dryRun = false)
    (hpass : reconcile cfg inv c.snap state = .ok c.pass) (hpp : (p, pp) ∈ cfg.pools.zip c.pass.pools) :
    c.launchesOf cfg inv p = (pp.started inv c.snap p).length := by
  obtain ⟨hp, b, hpassOf⟩ := Cycle.passOf_of_mem hpass hpp
  have hnodup : (pp.started inv c.snap p).Nodup := by
    rw [hpassOf, started_passOf hdry]
    exact slotsToTry_nodup.filter _
  apply List.Perm.length_eq
  rw [List.perm_ext_iff_of_nodup ((Cycle.started_nodup hvalid hpass).filter _) hnodup]
  intro slot
  rw [List.mem_filter, decide_eq_true_eq]
  refine ⟨fun h => ?_, fun h => ⟨List.mem_flatMap.mpr ⟨(p, pp), hpp, h⟩, ?_⟩⟩
  · obtain ⟨q, qq, hqq, hslot⟩ := Cycle.mem_started h.1
    obtain ⟨hq, b', rfl⟩ := Cycle.passOf_of_mem hpass hqq
    have hsame : q = p := hvalid.slot_unique hq hp (slots_of_mem_started hslot).1 h.2
    subst hsame
    rw [Cycle.pass_unique hvalid hpass hpp hqq]
    exact hslot
  · rw [hpassOf] at h
    exact (slots_of_mem_started h).1

theorem Cycle.length_stopped_le (hdry : inv.dryRun = false)
    (hpass : reconcile cfg inv c.snap state = .ok c.pass) (hpp : (p, pp) ∈ cfg.pools.zip c.pass.pools)
    (hfits : c.headcount p < 2 ^ 32) : pp.stopped.length ≤ c.headcount p - pp.report.desired.toNat := by
  obtain ⟨_, b, rfl⟩ := Cycle.passOf_of_mem hpass hpp
  have hpresent : (p.present c.runners (activeSlotsOf c.snap.activeUnits)).toNat = c.headcount p := by
    rw [Pool.present_toNat, ← Cycle.headcount, Nat.mod_eq_of_lt hfits]
  rw [stopped_passOf, hdry, if_neg (by simp), slotsToStop, List.length_map, stopped, List.length_take]
  refine (Nat.min_le_left _ _).trans ?_
  rw [Pool.deficit]
  show _ ≤ c.headcount p - (p.want _ _).toNat
  have hsame : (poolInput cfg c.snap state c.runners).activeSlots = activeSlotsOf c.snap.activeUnits := rfl
  rw [hsame, show (poolInput cfg c.snap state c.runners).runners = c.runners from rfl, hpresent]
  omega

/-- What the source offers a pool is what it lacks. -/
theorem Cycle.offerOf_eq_need (hvalid : cfg.Valid) (hwrap : p.NoWrap) (hp : p ∈ cfg.pools)
    (hfits : c.headcount p < 2 ^ 32)
    (hdesired : (p.want c.runners (refreshQueued cfg c.snap state)).toNat = want p) :
    offerOf (poolInput cfg c.snap state c.runners) p = c.need want p := by
  have hroom : p.demand c.runners (activeSlotsOf c.snap.activeUnits) (refreshQueued cfg c.snap state) ≤
      (p.freeSlots (activeSlotsOf c.snap.activeUnits)).length :=
    Pool.demand_le_length_freeSlots (hvalid.minWarm_le p hp) hwrap (activeSlotsOf_nodup _)
  rw [Pool.freeSlots_eq_inactive] at hroom
  show p.offer c.runners (activeSlotsOf c.snap.activeUnits) (refreshQueued cfg c.snap state) = _
  rw [Pool.offer_eq_demand hfits hroom, Pool.demand, hdesired]
  rfl

/-- **A cycle that nothing disturbs shares out its budget.** -/
theorem Cycle.map_launchesOf (hvalid : cfg.Valid) (hwrap : ∀ p ∈ cfg.pools, p.NoWrap)
    (hdry : inv.dryRun = false) (hsteady : Steady cfg inv want cycles) (hc : c ∈ cycles)
    (hpass : reconcile cfg inv c.snap state = .ok c.pass) :
    cfg.pools.map (c.launchesOf cfg inv) = Allotment.allot (c.budget cfg) (cfg.pools.map (c.need want)) := by
  have hok : ∀ p ∈ cfg.pools, ∀ slot, launchOk inv c.snap p slot = true := by
    intro p hp slot
    obtain ⟨o, hanswer, hstatus⟩ := hsteady.launches c hc p hp slot
    rw [launchOk_of_ok hanswer, CmdOut.ok, hstatus]
    rfl
  have hoffer : cfg.pools.map (offerOf (poolInput cfg c.snap state c.runners)) =
      cfg.pools.map (c.need want) := by
    apply List.map_congr_left
    intro p hp
    obtain ⟨pp, hpp⟩ := Cycle.exists_poolPass hpass hp
    have hdesired := hsteady.desired c hc (p, pp) hpp
    obtain ⟨_, b, rfl⟩ := Cycle.passOf_of_mem hpass hpp
    exact Cycle.offerOf_eq_need hvalid (hwrap p hp) hp (hsteady.fits c hc p hp) hdesired
  have hattempted : (poolLoop cfg inv c.snap (poolInput cfg c.snap state c.runners) cfg.pools
      (startBudget cfg c.snap)).map (·.attempted) = _ :=
    map_attempted_poolLoop hdry (hsteady.openGate c hc) hok
  rw [hoffer, left_startBudget, ← Cycle.passes hpass] at hattempted
  have hfits : ∀ p ∈ cfg.pools, offerOf (poolInput cfg c.snap state c.runners) p ≤
      (p.inactive (activeSlotsOf c.snap.activeUnits)).length := fun _ _ => Nat.min_le_right _ _
  have hlengths := Allotment.map_length_zipWith_take _ _ (c.budget cfg) hfits
  rw [hoffer] at hlengths
  have hcount : cfg.pools.map (c.launchesOf cfg inv) = c.pass.pools.map fun pp => pp.attempted.length := by
    have hfst := List.map_fst_zip (Cycle.length_pools hpass).ge
    have hsnd := List.map_snd_zip (Cycle.length_pools hpass).le
    rw [← congrArg (List.map (c.launchesOf cfg inv)) hfst,
      ← congrArg (List.map fun pp : PoolPass => pp.attempted.length) hsnd, List.map_map, List.map_map]
    apply List.map_congr_left
    intro x hx
    have hall : x.2.started inv c.snap x.1 = x.2.attempted :=
      List.filter_eq_self.mpr fun slot _ => hok x.1 (List.of_mem_zip hx).1 slot
    show c.launchesOf cfg inv x.1 = x.2.attempted.length
    rw [Cycle.launchesOf_eq hvalid hdry hpass hx, hall]
  rw [hcount, ← hlengths]
  show c.pass.pools.map (List.length ∘ (·.attempted)) = _
  rw [← List.map_map, hattempted]
  rfl

/-- From one cycle to the next a pool moves towards its desired count. -/
structure Approaches (want : Pool → Nat) (a b : Cycle) (launched : Nat) (p : Pool) : Prop where
  need : b.need want p = a.need want p - launched
  low : min (a.headcount p) (want p) ≤ min (b.headcount p) (want p)
  high : max (b.headcount p) (want p) ≤ max (a.headcount p) (want p)

theorem Steady.approaches {a b : Cycle} (hsteady : Steady cfg inv want cycles) (hvalid : cfg.Valid)
    (hwrap : ∀ p ∈ cfg.pools, p.NoWrap) (hdry : inv.dryRun = false) (ha : a ∈ cycles)
    (hpass : reconcile cfg inv a.snap state = .ok a.pass) (hp : p ∈ cfg.pools)
    (hcounts : ∀ x ∈ cfg.pools.zip a.pass.pools,
      b.headcount x.1 + x.2.stopped.length = a.headcount x.1 + (x.2.started inv a.snap x.1).length) :
    Approaches want a b (a.launchesOf cfg inv p) p := by
  obtain ⟨pp, hpp⟩ := Cycle.exists_poolPass hpass hp
  have hcount := hcounts (p, pp) hpp
  rw [← Cycle.launchesOf_eq hvalid hdry hpass hpp] at hcount
  have hstopped := Cycle.length_stopped_le hdry hpass hpp (hsteady.fits a ha p hp)
  rw [hsteady.desired a ha (p, pp) hpp] at hstopped
  -- A pool gets no more than what the allotment could give it, which is what it lacks.
  have hlaunched : a.launchesOf cfg inv p ≤ a.need want p := by
    have hserved := Cycle.map_launchesOf hvalid hwrap hdry hsteady ha hpass
    exact Allotment.le_of_map_eq_allot hserved p hp
  dsimp only at hcount hstopped
  rw [Cycle.need] at hlaunched
  refine ⟨?_, ?_, ?_⟩
  · rw [Cycle.need, Cycle.need]
    omega
  · omega
  · omega

/-- What undisturbed cycles come to, from the first one on. -/
structure Converges (cfg : Config) (inv : Invocation) (want : Pool → Nat) (cycles : List Cycle)
    (first : Cycle) : Prop where
  /-- What each pool gets in all the cycles is its share of all the budgets, in config order. -/
  served : cfg.pools.map (fun p => (cycles.map fun c => c.launchesOf cfg inv p).sum) =
    Allotment.allot (cycles.map (Cycle.budget cfg)).sum (cfg.pools.map (first.need want))
  between : ∀ c ∈ cycles, ∀ p ∈ cfg.pools, min (first.headcount p) (want p) ≤ c.headcount p ∧
    c.headcount p ≤ max (first.headcount p) (want p)
  /-- Once the budgets have sufficed, no pool lacks anything and nothing is launched. -/
  settled : ∀ pre c post, cycles = pre ++ c :: post →
    (cfg.pools.map (first.need want)).sum ≤ (pre.map (Cycle.budget cfg)).sum →
      ∀ p ∈ cfg.pools, want p ≤ c.headcount p ∧ c.launchesOf cfg inv p = 0

/-- **The control loop converges.** Several cycles launch what one cycle with the sum of their budgets
would, no pool is taken past its desired count from either side, and once the budgets have sufficed nothing
is launched any more. -/
theorem cycles_converge {snaps : List Snapshot} {first : Cycle} (hvalid : cfg.validate = .ok ())
    (hwrap : ∀ p ∈ cfg.pools, p.NoWrap) (hdry : inv.dryRun = false)
    (hsteady : Steady cfg inv want (cyclesFrom cfg inv state snaps))
    (hfirst : (cyclesFrom cfg inv state snaps).head? = some first) :
    Converges cfg inv want (cyclesFrom cfg inv state snaps) first := by
  have hvalid := Config.valid_of_validate hvalid
  have hserved : ∀ c ∈ cyclesFrom cfg inv state snaps, cfg.pools.map (c.launchesOf cfg inv) =
      Allotment.allot (c.budget cfg) (cfg.pools.map (c.need want)) := by
    intro c hc
    obtain ⟨state', hpass⟩ := exists_state_of_mem_cyclesFrom hc
    exact Cycle.map_launchesOf hvalid hwrap hdry hsteady hc hpass
  have happroaches : (cyclesFrom cfg inv state snaps).IsChain fun a b =>
      ∀ p ∈ cfg.pools, Approaches want a b (a.launchesOf cfg inv p) p := by
    refine hsteady.counts.imp_of_mem_imp fun a b ha _ hcounts p hp => ?_
    obtain ⟨state', hpass⟩ := exists_state_of_mem_cyclesFrom ha
    exact hsteady.approaches hvalid hwrap hdry ha hpass hp hcounts
  generalize cyclesFrom cfg inv state snaps = cycles at hserved happroaches hfirst
  have hneed := happroaches.imp fun _ _ h p hp => (h p hp).need
  obtain ⟨rest, rfl⟩ : ∃ rest, cycles = first :: rest := List.head?_eq_some_iff.mp hfirst
  refine ⟨Allotment.map_sum_served hserved hneed, ?_, fun pre c post hcycles hsum p hp => ?_⟩
  · refine happroaches.induction (fun c => ∀ p ∈ cfg.pools, min (first.headcount p) (want p) ≤
      c.headcount p ∧ c.headcount p ≤ max (first.headcount p) (want p)) _ (fun a b hab ha p hp => ?_)
      fun _ p _ => ⟨Nat.min_le_left _ _, Nat.le_max_left _ _⟩
    have hlow := (hab p hp).low
    have hhigh := (hab p hp).high
    have hbefore := ha p hp
    omega
  · rw [hcycles] at hserved hneed hfirst
    have hleft := Allotment.map_need_of_rounds hserved hneed hfirst
    have hnone : (cfg.pools.map (c.need want)).sum = 0 := by
      rw [hleft, Allotment.sum_unmet]
      omega
    have hzero : c.need want p = 0 :=
      List.sum_eq_zero_iff.mp hnone _ (List.mem_map_of_mem hp)
    refine ⟨Nat.sub_eq_zero_iff_le.mp hzero, ?_⟩
    have hle := Allotment.le_of_map_eq_allot (hserved c (by simp)) p hp
    omega

theorem snap_mem_of_mem_cyclesFrom {snaps : List Snapshot} (h : c ∈ cyclesFrom cfg inv state snaps) :
    c.snap ∈ snaps := by
  induction snaps generalizing state with
  | nil => exact absurd h List.not_mem_nil
  | cons snap rest ih =>
      rw [cyclesFrom] at h
      split at h
      · rcases List.mem_cons.mp h with rfl | h
        · exact List.mem_cons_self
        · exact List.mem_cons_of_mem _ (ih h)
      · exact List.mem_cons_of_mem _ (ih h)

end

/-! ### Two pools and two launches a cycle -/

def twoPools : Config := configWith [smallPool, largePool]

/-- The second pool has to wait for the first, and has what it lacks after the third cycle. -/
def growing : List Snapshot :=
  [[], [100, 101], [100, 101, 200, 201], [100, 101, 200, 201, 202]].map (roomySnapshot [])

def wantOf (p : Pool) : Nat := p.minWarm.toNat

theorem growing_steady : Steady twoPools daemonCall wantOf (cyclesFrom twoPools daemonCall {} growing) where
  openGate := by decide +kernel
  launches := by
    intro c hc p _ slot
    obtain ⟨slots, _, hsnap⟩ := List.mem_map.mp (snap_mem_of_mem_cyclesFrom hc)
    rw [← hsnap]
    exact ⟨⟨0, "", ""⟩, rfl, rfl⟩
  fits := by decide +kernel
  desired := by decide +kernel
  counts := by decide +kernel

theorem cycles_converge_growing : ∃ first, (cyclesFrom twoPools daemonCall {} growing).head? = some first ∧
    Converges twoPools daemonCall wantOf (cyclesFrom twoPools daemonCall {} growing) first := by
  obtain ⟨first, hfirst⟩ := Option.isSome_iff_exists.mp (show
    (cyclesFrom twoPools daemonCall {} growing).head?.isSome = true by decide +kernel)
  refine ⟨first, hfirst, cycles_converge (by decide) ?_ rfl growing_steady hfirst⟩
  intro p hp
  simp only [twoPools, configWith, List.mem_cons, List.not_mem_nil, or_false] at hp
  rcases hp with rfl | rfl
  · show (100 : Nat) + 4 < 2 ^ 32
    omega
  · show (200 : Nat) + 6 < 2 ^ 32
    omega

end VmFleet
