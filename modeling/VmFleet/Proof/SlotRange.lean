import VmFleet.Proof.WedgedSlots

/-!
# Slots at the end of `u32`

The end of a slot range is computed in `u32`. A range that runs over the largest number ends before it
begins: `validate` accepts it, the pool has no slots, and nothing is ever launched for it.
-/

namespace VmFleet

/-- The slots from `slot_base` on, `max` of them. -/
def Pool.fullRange (p : Pool) : List Nat := List.range' p.slotBase.toNat p.max.toNat

/-- Every pass launches into the slot if it is inactive, the gate is open, the launch works, and more
launches are allowed than there are inactive slots before it. -/
def Pool.LaunchesInto (p : Pool) (cfg : Config) (slot : Nat) : Prop :=
  ∀ (inv : Invocation) (snap : Snapshot) (state : SupState) (pass : Pass) (before : List (Pool × PoolPass))
    (pp : PoolPass) (after : List (Pool × PoolPass)),
    inv.dryRun = false → gateBlocked cfg.admission snap.gateResources = none →
    reconcile cfg inv snap state = .ok pass → cfg.pools.zip pass.pools = before ++ (p, pp) :: after →
    slot ∉ activeSlotsOf snap.activeUnits → launchOk inv snap p slot = true →
    ((List.range' p.slotBase.toNat (slot - p.slotBase.toNat)).filter
      (· ∉ activeSlotsOf snap.activeUnits)).length <
      mayLaunch cfg snap pp.report.deficit (launchedBy inv snap before) →
    slot ∈ pp.started inv snap p

/-- What a pool is to have of its `max` slots. -/
structure Pool.HasAllSlots (p : Pool) (cfg : Config) : Prop where
  /-- The end of the range, as `validate` compares it and `slots` goes up to it. -/
  slotEnd : p.slotEnd.toNat = p.slotBase.toNat + p.max.toNat
  slots : p.slots = p.fullRange
  launched : ∀ slot ∈ p.fullRange, p.LaunchesInto cfg slot

theorem Pool.slots_eq_fullRange {p : Pool} (h : p.NoWrap) : p.slots = p.fullRange := by
  have hend : p.slotEnd.toNat = p.slotBase.toNat + p.max.toNat := by
    rw [Pool.slotEnd, UInt32.toNat_add, Nat.mod_eq_of_lt h]
  rw [Pool.slots, Pool.fullRange, hend, Nat.add_sub_cancel_left]

theorem mem_take_of_length_lt {α : Type} {before after : List α} {a : α} {n : Nat} (h : before.length < n) :
    a ∈ (before ++ a :: after).take n := by
  rw [List.take_append, List.take_of_length_le h.le, List.mem_append]
  obtain ⟨k, hk⟩ : ∃ k, n - before.length = k + 1 := ⟨n - before.length - 1, by omega⟩
  rw [hk, List.take_succ_cons]
  exact Or.inr List.mem_cons_self

theorem Pool.launchesInto_of_noWrap {p : Pool} (h : p.NoWrap) (cfg : Config) {slot : Nat}
    (hslot : slot ∈ p.fullRange) : p.LaunchesInto cfg slot := by
  intro inv snap state pass before pp after hdry hopen hpass hsplit hinactive hworks hallowed
  have hrange : p.fullRange = List.range' p.slotBase.toNat (slot - p.slotBase.toNat) ++
      slot :: List.range' (slot + 1) (p.slotBase.toNat + p.max.toNat - (slot + 1)) := by
    have hbounds := List.mem_range'_1.mp hslot
    have hlength : p.max.toNat =
        slot - p.slotBase.toNat + (p.slotBase.toNat + p.max.toNat - (slot + 1) + 1) := by omega
    have hstart : p.slotBase.toNat + 1 * (slot - p.slotBase.toNat) = slot := by omega
    rw [Pool.fullRange]
    conv_lhs => rw [hlength]
    rw [← List.range'_append, hstart, List.range'_succ]
  have hkept : decide (slot ∉ activeSlotsOf snap.activeUnits) = true := decide_eq_true hinactive
  obtain ⟨runners, hrunners, _⟩ := reconcile_spec hpass
  have hmem : (p, pp) ∈ cfg.pools.zip pass.pools := hsplit ▸ List.mem_append_cons_self
  rw [deficit_of_reconcile hrunners hpass hmem] at hallowed
  rw [started_of_reconcile hdry hopen hrunners hpass hsplit, Pool.inactive, Pool.slots_eq_fullRange h, hrange,
    List.filter_append, List.filter_cons, hkept, if_pos rfl]
  exact List.mem_filter.mpr ⟨mem_take_of_length_lt hallowed, hworks⟩

/-- **A pool has all its slots exactly if the end of its range is a `u32`.** -/
theorem hasAllSlots_iff (cfg : Config) :
    (∀ p ∈ cfg.pools, p.HasAllSlots cfg) ↔
      ∀ p ∈ cfg.pools, p.slotBase.toNat ≤ 0xffffffff - p.max.toNat := by
  have hfits : ∀ p : Pool, p.slotBase.toNat ≤ 0xffffffff - p.max.toNat ↔ p.NoWrap := by
    intro p
    have hmax := p.max.toNat_lt
    rw [Pool.NoWrap]
    omega
  refine ⟨fun h p hp => ?_, fun h p hp => ?_⟩
  · rw [hfits, Pool.NoWrap, ← (h p hp).slotEnd]
    exact p.slotEnd.toNat_lt
  · have hnoWrap := (hfits p).mp (h p hp)
    refine ⟨?_, Pool.slots_eq_fullRange hnoWrap, fun slot hslot => ?_⟩
    · rw [Pool.slotEnd, UInt32.toNat_add, Nat.mod_eq_of_lt hnoWrap]
    · exact Pool.launchesInto_of_noWrap hnoWrap cfg hslot

/-- Four slots, the last of which would be 2^32. -/
def lastPool : Pool := { smallPool with slotBase := 4294967293 }

/-- It is accepted, has no slots, and no pass launches anything for it. -/
theorem lastPool_never_launched :
    (configWith [lastPool]).validate = .ok () ∧ lastPool.max = 4 ∧ lastPool.slots = [] ∧
    ∀ (inv : Invocation) (snap : Snapshot) (state : SupState) (pass : Pass) (pp : PoolPass),
      reconcile (configWith [lastPool]) inv snap state = .ok pass →
      (lastPool, pp) ∈ (configWith [lastPool]).pools.zip pass.pools → pp.started inv snap lastPool = [] := by
  have hslots : lastPool.slots = [] := by decide
  refine ⟨by decide, rfl, hslots, fun inv snap state pass pp hpass hmem => ?_⟩
  obtain ⟨runners, _, hspec⟩ := reconcile_spec hpass
  rw [hspec.pools] at hmem
  obtain ⟨pre, post, _, rfl⟩ := mem_zip_poolLoop hmem
  rw [PoolPass.started, List.filter_eq_nil_iff]
  intro slot hslot
  have htried := (mem_slotsToTry (mem_attempted_passOf hslot)).1
  rw [hslots] at htried
  exact absurd htried List.not_mem_nil

end VmFleet
