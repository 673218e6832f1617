import VmFleet.Proof.LaunchSafety
import VmFleet.Library.Counting

/-!
# Launches whose memory is not used yet

A worker that has been launched takes a while to start its VM, and until then `MemAvailable` does not
show it. The headroom is computed from that reading anew in every cycle, so it bounds the launches of
each cycle and not those of several. What bounds these is that a pending worker counts as present: its
slot is not launched again, and a pool is not taken beyond its desired count.
-/

namespace VmFleet

/-- A cycle that has read the runner records. -/
structure Cycle where
  snap : Snapshot
  pass : Pass

def cyclesFrom (cfg : Config) (inv : Invocation) : SupState → List Snapshot → List Cycle
  | _, [] => []
  | state, snap :: rest =>
    match reconcile cfg inv snap state with
    | .ok pass => ⟨snap, pass⟩ :: cyclesFrom cfg inv pass.state rest
    | .error _ => cyclesFrom cfg inv state rest

namespace Cycle

def runners (c : Cycle) : List Runner :=
  match c.snap.runners with
  | .ok runners => runners
  | .error _ => []

def pendingSlots (c : Cycle) (p : Pool) : List Nat :=
  p.pendingSlots c.runners (activeSlotsOf c.snap.activeUnits)

/-- The slots whose launch succeeded in the cycle. -/
def started (cfg : Config) (inv : Invocation) (c : Cycle) : List Nat :=
  (cfg.pools.zip c.pass.pools).flatMap fun x => x.2.started inv c.snap x.1

end Cycle

/-- No worker is pending at the start, and those launched in the cycles stay so: `MemAvailable` reads the
same all along. -/
structure StillPending (cfg : Config) (inv : Invocation) (avail : UInt64) (cycles : List Cycle) :
    Prop where
  reading : ∀ c ∈ cycles, c.snap.resources.availMib = avail
  noneBefore : ∀ c ∈ cycles.head?, ∀ p ∈ cfg.pools, c.pendingSlots p = []
  pending : cycles.Pairwise fun a b => ∀ slot ∈ a.started cfg inv, ∀ p ∈ cfg.pools, slot ∈ p.slots →
    slot ∈ b.pendingSlots p

section

variable {cfg : Config} {inv : Invocation} {c : Cycle} {cycles : List Cycle} {p : Pool} {slot : Nat}

theorem exists_state_of_mem_cyclesFrom {state : SupState} {snaps : List Snapshot}
    (h : c ∈ cyclesFrom cfg inv state snaps) : ∃ state, reconcile cfg inv c.snap state = .ok c.pass := by
  induction snaps generalizing state with
  | nil => exact absurd h List.not_mem_nil
  | cons snap rest ih =>
      rw [cyclesFrom] at h
      split at h
      · next pass hpass =>
          rcases List.mem_cons.mp h with rfl | h
          · exact ⟨state, hpass⟩
          · exact ih h
      · exact ih h

/-! ### One cycle -/

/-- The pools of a cycle, each served with some budget that is left. -/
theorem Cycle.passes {state : SupState} (hpass : reconcile cfg inv c.snap state = .ok c.pass) :
    c.pass.pools = poolLoop cfg inv c.snap (poolInput cfg c.snap state c.runners) cfg.pools
      (startBudget cfg c.snap) := by
  obtain ⟨runners, hrunners, hspec⟩ := reconcile_spec hpass
  rw [hspec.pools, Cycle.runners, hrunners]

theorem Cycle.length_started_le_headroom {state : SupState}
    (hpass : reconcile cfg inv c.snap state = .ok c.pass) :
    (c.started cfg inv).length ≤ (headroomVms c.snap.resources.availMib cfg.admission.minAvailMib
      cfg.supervisor.busyReserveMib).toNat := by
  have hsum : ((cfg.pools.zip c.pass.pools).map
      fun x => (x.2.started inv c.snap x.1).length).sum ≤ (startBudget cfg c.snap).left cfg := by
    rw [Cycle.passes hpass]
    exact sum_started_le cfg.pools
  rw [left_startBudget] at hsum
  rw [Cycle.started, List.length_flatMap]
  exact hsum.trans (Nat.min_le_right _ _)

theorem Cycle.length_pools {state : SupState} (hpass : reconcile cfg inv c.snap state = .ok c.pass) :
    c.pass.pools.length = cfg.pools.length := by
  rw [Cycle.passes hpass]
  exact length_poolLoop _

/-- Where a launch of a cycle comes from. -/
theorem Cycle.mem_started (h : slot ∈ c.started cfg inv) :
    ∃ p pp, (p, pp) ∈ cfg.pools.zip c.pass.pools ∧ slot ∈ pp.started inv c.snap p := by
  obtain ⟨x, hx, hslot⟩ := List.mem_flatMap.mp h
  exact ⟨x.1, x.2, hx, hslot⟩

theorem Cycle.passOf_of_mem {state : SupState} {pp : PoolPass}
    (hpass : reconcile cfg inv c.snap state = .ok c.pass)
    (hpp : (p, pp) ∈ cfg.pools.zip c.pass.pools) :
    p ∈ cfg.pools ∧ ∃ b, pp = passOf cfg inv c.snap (poolInput cfg c.snap state c.runners) p b := by
  have hmem := hpp
  rw [Cycle.passes hpass] at hmem
  obtain ⟨pre, post, _, rfl⟩ := mem_zip_poolLoop hmem
  exact ⟨(List.of_mem_zip hpp).1, _, rfl⟩

/-- A pool is served once in a cycle. -/
theorem Cycle.pass_unique {state : SupState} {pp pp' : PoolPass} (hvalid : cfg.Valid)
    (hpass : reconcile cfg inv c.snap state = .ok c.pass)
    (hpp : (p, pp) ∈ cfg.pools.zip c.pass.pools) (hpp' : (p, pp') ∈ cfg.pools.zip c.pass.pools) :
    pp = pp' := by
  have hkeys : ((cfg.pools.zip c.pass.pools).map Prod.fst).Nodup := by
    rw [List.map_fst_zip (Cycle.length_pools hpass).ge]
    exact hvalid.poolNames_nodup.of_map _
  have hsame : (p, pp) = (p, pp') := List.inj_on_of_nodup_map hkeys hpp hpp' rfl
  exact congrArg Prod.snd hsame

theorem slots_of_mem_started {inp : PoolInput} {b : Budget} {snap : Snapshot}
    (h : slot ∈ (passOf cfg inv snap inp p b).started inv snap p) :
    slot ∈ p.slots ∧ slot ∉ inp.activeSlots :=
  mem_slotsToTry (mem_attempted_passOf (List.mem_filter.mp h).1)

theorem Cycle.started_free {state : SupState} (hpass : reconcile cfg inv c.snap state = .ok c.pass)
    (h : slot ∈ c.started cfg inv) :
    (∃ p ∈ cfg.pools, slot ∈ p.slots) ∧ slot ∉ activeSlotsOf c.snap.activeUnits := by
  obtain ⟨p, pp, hpp, hslot⟩ := Cycle.mem_started h
  obtain ⟨hp, b, rfl⟩ := Cycle.passOf_of_mem hpass hpp
  have hfree := slots_of_mem_started hslot
  exact ⟨⟨p, hp, hfree.1⟩, hfree.2⟩

theorem Cycle.started_nodup {state : SupState} (hvalid : cfg.Valid)
    (hpass : reconcile cfg inv c.snap state = .ok c.pass) : (c.started cfg inv).Nodup := by
  have hattempted : (c.pass.pools.flatMap (·.attempted)).Nodup := by
    rw [Cycle.passes hpass]
    exact attempted_poolLoop_nodup hvalid.apart
  have hzip : c.pass.pools = (cfg.pools.zip c.pass.pools).map Prod.snd :=
    (List.map_snd_zip (Cycle.length_pools hpass).le).symm
  rw [hzip, List.flatMap_map] at hattempted
  refine hattempted.sublist ?_
  rw [Cycle.started]
  generalize cfg.pools.zip c.pass.pools = xs
  induction xs with
  | nil => exact List.Sublist.refl _
  | cons x xs ih =>
      rw [List.flatMap_cons, List.flatMap_cons]
      exact List.filter_sublist.append ih

/-- The launches for one pool stay within what it is short of. -/
theorem Cycle.length_started_in_le {state : SupState} (hvalid : cfg.Valid)
    (hpass : reconcile cfg inv c.snap state = .ok c.pass) (hp : p ∈ cfg.pools)
    (hsome : slot ∈ (c.started cfg inv).filter (· ∈ p.slots)) :
    ∃ pp, (p, pp) ∈ cfg.pools.zip c.pass.pools ∧
      ((c.started cfg inv).filter (· ∈ p.slots)).length ≤
        pp.report.desired.toNat - p.headcount c.runners (activeSlotsOf c.snap.activeUnits) % 2 ^ 32 := by
  have howner : ∀ slot ∈ (c.started cfg inv).filter (· ∈ p.slots),
      ∃ pp, (p, pp) ∈ cfg.pools.zip c.pass.pools ∧ slot ∈ pp.started inv c.snap p := by
    intro slot hslot
    obtain ⟨hstarted, hmem⟩ := List.mem_filter.mp hslot
    obtain ⟨q, pp, hpp, hqslot⟩ := Cycle.mem_started hstarted
    obtain ⟨hq, b, rfl⟩ := Cycle.passOf_of_mem hpass hpp
    have hsame : q = p :=
      hvalid.slot_unique hq hp (slots_of_mem_started hqslot).1 (of_decide_eq_true hmem)
    subst hsame
    exact ⟨_, hpp, hqslot⟩
  obtain ⟨pp, hpp, _⟩ := howner slot hsome
  refine ⟨pp, hpp, ?_⟩
  have hsub : (c.started cfg inv).filter (· ∈ p.slots) ⊆ pp.started inv c.snap p := by
    intro slot hslot
    obtain ⟨pp', hpp', hslot'⟩ := howner slot hslot
    rw [Cycle.pass_unique hvalid hpass hpp hpp']
    exact hslot'
  have hlength : ((c.started cfg inv).filter (· ∈ p.slots)).length ≤ (pp.started inv c.snap p).length :=
    (List.subperm_of_subset ((Cycle.started_nodup hvalid hpass).filter _) hsub).length_le
  obtain ⟨_, b, rfl⟩ := Cycle.passOf_of_mem hpass hpp
  refine hlength.trans ((length_started_le.trans (Nat.min_le_left _ _)).trans ?_)
  rw [Pool.deficit_toNat]
  exact Nat.min_le_left _ _

/-! ### The whole sequence -/

theorem started_nodup (hvalid : cfg.Valid)
    (hpass : ∀ c ∈ cycles, ∃ state, reconcile cfg inv c.snap state = .ok c.pass)
    (hactive : cycles.Pairwise fun a b => ∀ slot ∈ a.started cfg inv,
      slot ∈ activeSlotsOf b.snap.activeUnits) :
    (cycles.flatMap (·.started cfg inv)).Nodup := by
  induction cycles with
  | nil => exact List.nodup_nil
  | cons c rest ih =>
      rw [List.pairwise_cons] at hactive
      obtain ⟨state, hfirst⟩ := hpass c List.mem_cons_self
      rw [List.flatMap_cons, List.nodup_append]
      refine ⟨Cycle.started_nodup hvalid hfirst,
        ih (fun c hc => hpass c (List.mem_cons_of_mem _ hc)) hactive.2, ?_⟩
      intro slot hslot slot' hslot' heq
      subst heq
      obtain ⟨later, hlater, hstarted⟩ := List.mem_flatMap.mp hslot'
      obtain ⟨state', hpass'⟩ := hpass later (List.mem_cons_of_mem _ hlater)
      exact (Cycle.started_free hpass' hstarted).2 (hactive.1 later hlater slot hslot)

theorem length_started_le_sum_max (hnodup : (cycles.flatMap (·.started cfg inv)).Nodup)
    (hpass : ∀ c ∈ cycles, ∃ state, reconcile cfg inv c.snap state = .ok c.pass) :
    (cycles.flatMap (·.started cfg inv)).length ≤ (cfg.pools.map (·.max.toNat)).sum := by
  have hsub : cycles.flatMap (·.started cfg inv) ⊆ cfg.pools.flatMap Pool.slots := by
    intro slot hslot
    obtain ⟨c, hc, hstarted⟩ := List.mem_flatMap.mp hslot
    obtain ⟨state, hstate⟩ := hpass c hc
    obtain ⟨p, hp, hmem⟩ := (Cycle.started_free hstate hstarted).1
    exact List.mem_flatMap.mpr ⟨p, hp, hmem⟩
  have hlength := (List.subperm_of_subset hnodup hsub).length_le
  rw [List.length_flatMap (l := cfg.pools)] at hlength
  have hmax : (cfg.pools.map fun p => p.slots.length).sum ≤ (cfg.pools.map (·.max.toNat)).sum :=
    List.sum_le_sum fun p _ => p.length_slots_le
  exact hlength.trans hmax

theorem length_started_le_mul {headroom : Nat}
    (hle : ∀ c ∈ cycles, (c.started cfg inv).length ≤ headroom) :
    (cycles.flatMap (·.started cfg inv)).length ≤ cycles.length * headroom := by
  induction cycles with
  | nil => exact Nat.zero_le _
  | cons c rest ih =>
      have hhead := hle c List.mem_cons_self
      have hrest := ih fun c hc => hle c (List.mem_cons_of_mem _ hc)
      rw [List.flatMap_cons, List.length_append, List.length_cons, Nat.add_mul]
      omega

/-- A pending worker takes the place of one still to be launched. -/
theorem length_started_in_le_desired {d : Nat} (hvalid : cfg.Valid) (hp : p ∈ cfg.pools)
    (hpass : ∀ c ∈ cycles, ∃ state, reconcile cfg inv c.snap state = .ok c.pass)
    (hpending : cycles.Pairwise fun a b => ∀ slot ∈ a.started cfg inv, ∀ p ∈ cfg.pools,
      slot ∈ p.slots → slot ∈ b.pendingSlots p)
    (hnodup : (cycles.flatMap (·.started cfg inv)).Nodup)
    (hfits : ∀ c ∈ cycles, p.headcount c.runners (activeSlotsOf c.snap.activeUnits) < 2 ^ 32)
    (hdesired : ∀ c ∈ cycles, ∀ pp, (p, pp) ∈ cfg.pools.zip c.pass.pools → pp.report.desired.toNat ≤ d) :
    ((cycles.flatMap (·.started cfg inv)).filter (· ∈ p.slots)).length ≤ d := by
  induction cycles using List.reverseRecOn with
  | nil => exact Nat.zero_le _
  | append_singleton cycles c ih =>
      rw [List.pairwise_append] at hpending
      rw [List.flatMap_append, List.flatMap_singleton] at hnodup ⊢
      have hearlier : ((cycles.flatMap (·.started cfg inv)).filter (· ∈ p.slots)).length ≤ d :=
        ih (fun c hc => hpass c (List.mem_append_left _ hc)) hpending.1 (List.nodup_append.mp hnodup).1
          (fun c hc => hfits c (List.mem_append_left _ hc))
          (fun c hc => hdesired c (List.mem_append_left _ hc))
      have hlast : c ∈ cycles ++ [c] := List.mem_append_right _ List.mem_cons_self
      obtain ⟨state, hstate⟩ := hpass c hlast
      rw [List.filter_append, List.length_append]
      cases hnone : (c.started cfg inv).filter (· ∈ p.slots) with
      | nil => exact hearlier
      | cons slot slots =>
          rw [← hnone]
          have hsome : slot ∈ (c.started cfg inv).filter (· ∈ p.slots) := hnone ▸ List.mem_cons_self
          obtain ⟨pp, hpp, hle⟩ := Cycle.length_started_in_le hvalid hstate hp hsome
          rw [Nat.mod_eq_of_lt (hfits c hlast)] at hle
          have hsub : (cycles.flatMap (·.started cfg inv)).filter (· ∈ p.slots) ⊆ c.pendingSlots p := by
            intro slot' hslot'
            obtain ⟨hstarted, hmem⟩ := List.mem_filter.mp hslot'
            obtain ⟨c', hc', hstarted⟩ := List.mem_flatMap.mp hstarted
            exact hpending.2.2 c' hc' c List.mem_cons_self slot' hstarted p hp (of_decide_eq_true hmem)
          have hpendingLength := (List.subperm_of_subset
            ((List.nodup_append.mp hnodup).1.filter _) hsub).length_le
          have hcount : (c.pendingSlots p).length ≤
              p.headcount c.runners (activeSlotsOf c.snap.activeUnits) := by
            rw [Pool.headcount, Cycle.pendingSlots]
            omega
          have hd := hdesired c hlast pp hpp
          have hpos : 0 < ((c.started cfg inv).filter (· ∈ p.slots)).length := by
            rw [hnone]
            exact Nat.succ_pos _
          omega

/-- **The headroom bounds the launches of a cycle, the desired counts those of all of them.** -/
theorem pending_launches_bounded {state : SupState} {snaps : List Snapshot} {avail : UInt64}
    (hvalid : cfg.validate = .ok ())
    (hpending : StillPending cfg inv avail (cyclesFrom cfg inv state snaps)) :
    (∀ c ∈ cyclesFrom cfg inv state snaps, (c.started cfg inv).length ≤
        (headroomVms avail cfg.admission.minAvailMib cfg.supervisor.busyReserveMib).toNat) ∧
      ((cyclesFrom cfg inv state snaps).flatMap (·.started cfg inv)).Nodup ∧
      ((cyclesFrom cfg inv state snaps).flatMap (·.started cfg inv)).length ≤
        min ((cyclesFrom cfg inv state snaps).length *
            (headroomVms avail cfg.admission.minAvailMib cfg.supervisor.busyReserveMib).toNat)
          (cfg.pools.map (·.max.toNat)).sum ∧
      ∀ p ∈ cfg.pools, ∀ d : Nat,
        (∀ c ∈ cyclesFrom cfg inv state snaps,
          p.headcount c.runners (activeSlotsOf c.snap.activeUnits) < 2 ^ 32) →
        (∀ c ∈ cyclesFrom cfg inv state snaps, ∀ pp, (p, pp) ∈ cfg.pools.zip c.pass.pools →
          pp.report.desired.toNat ≤ d) →
        (((cyclesFrom cfg inv state snaps).flatMap (·.started cfg inv)).filter (· ∈ p.slots)).length ≤ d := by
  have hvalid := Config.valid_of_validate hvalid
  have hpass : ∀ c ∈ cyclesFrom cfg inv state snaps,
      ∃ state, reconcile cfg inv c.snap state = .ok c.pass :=
    fun c hc => exists_state_of_mem_cyclesFrom hc
  have hactive : (cyclesFrom cfg inv state snaps).Pairwise fun a b => ∀ slot ∈ a.started cfg inv,
      slot ∈ activeSlotsOf b.snap.activeUnits := by
    refine hpending.pending.imp_of_mem fun ha _ hab slot hslot => ?_
    obtain ⟨state', hstate⟩ := hpass _ ha
    obtain ⟨p, hp, hmem⟩ := (Cycle.started_free hstate hslot).1
    exact (Pool.mem_active.mp (List.mem_filter.mp (hab slot hslot p hp hmem)).1).1
  have heach : ∀ c ∈ cyclesFrom cfg inv state snaps, (c.started cfg inv).length ≤
      (headroomVms avail cfg.admission.minAvailMib cfg.supervisor.busyReserveMib).toNat := by
    intro c hc
    obtain ⟨state', hstate⟩ := hpass c hc
    rw [← hpending.reading c hc]
    exact Cycle.length_started_le_headroom hstate
  have hnodup := started_nodup hvalid hpass hactive
  refine ⟨heach, hnodup, le_min (length_started_le_mul heach) (length_started_le_sum_max hnodup hpass), ?_⟩
  intro p hp d hfits hdesired
  exact length_started_in_le_desired hvalid hp hpass hpending.pending hnodup hfits hdesired

end

/-- Memory for one more worker above what the gate asks for. -/
def tightSnapshot (slots : List Nat) : Snapshot :=
  { roomySnapshot [] slots with
    resources := ⟨6200, .finite 0, .ok 500⟩
    gateResources := ⟨6200, .finite 0, .ok 500⟩ }

theorem tight_stillPending :
    StillPending (configWith [smallPool]) daemonCall 6200
      (cyclesFrom (configWith [smallPool]) daemonCall {} [tightSnapshot [], tightSnapshot [100]]) where
  reading := by decide
  noneBefore := by decide +kernel
  pending := by decide +kernel

/-- Two cycles, each of which launches the one worker there is memory for. -/
theorem headroom_spent_twice :
    StillPending (configWith [smallPool]) daemonCall 6200
        (cyclesFrom (configWith [smallPool]) daemonCall {} [tightSnapshot [], tightSnapshot [100]]) ∧
      ¬ ((cyclesFrom (configWith [smallPool]) daemonCall {} [tightSnapshot [], tightSnapshot [100]]).flatMap
          (·.started (configWith [smallPool]) daemonCall)).length ≤
        (headroomVms 6200 (configWith [smallPool]).admission.minAvailMib
          (configWith [smallPool]).supervisor.busyReserveMib).toNat :=
  ⟨tight_stillPending, by decide +kernel⟩

theorem pending_launches_two_cycles :
    ((cyclesFrom (configWith [smallPool]) daemonCall {} [tightSnapshot [], tightSnapshot [100]]).flatMap
      (·.started (configWith [smallPool]) daemonCall)).Nodup :=
  (pending_launches_bounded (by decide) tight_stillPending).2.1

end VmFleet
