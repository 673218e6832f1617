import VmFleet.Proof.Config
import VmFleet.Proof.Naming

/-!
# The overlap check is exact

`pairwise_apart_of_checkWindows` says that a config with a common slot is not accepted. Here is the other
half: two neighbours in the sorted list that are rejected do have a slot in common, the first one of the
second range, because the ranges are in order and none of them is empty.
-/

namespace VmFleet

/-- `validate` up to the comparison of the ranges. -/
def Config.otherChecks (cfg : Config) : Except String (List SlotRange) := do
  let _ ← cfg.github.scopePath
  if cfg.bases.isEmpty then .error "config: at least one [[base]] is required"
  else
    let baseNames ← checkBases [] cfg.bases
    if cfg.pools.isEmpty then .error "config: at least one [[pool]] is required"
    else checkPools baseNames [] cfg.pools

def overlapMessage (a b : SlotRange) : String :=
  s!"pool slot ranges overlap: `{a.pool}` [{a.first}..{a.last}) and " ++
    s!"`{b.pool}` [{b.first}..{b.last})"

theorem bind_ite_error {ε α β : Type} {c : Prop} [Decidable c] {e : ε} {x : Except ε α}
    {f : α → Except ε β} : (if c then .error e else x) >>= f = if c then .error e else x >>= f := by
  split
  · rfl
  · rfl

theorem Config.validate_eq (cfg : Config) :
    cfg.validate =
      cfg.otherChecks >>= fun ranges => checkWindows (ranges.insertionSort SlotRange.le) := by
  rw [validate, otherChecks]
  simp only [bind_assoc, bind_ite_error]

theorem Config.ranges_eq {cfg : Config} {ranges : List SlotRange} (h : cfg.otherChecks = .ok ranges) :
    ranges = cfg.pools.map Pool.slotRange ∧ (cfg.pools.map (·.name)).Nodup ∧
      ∀ p ∈ cfg.pools, p.max ≠ 0 := by
  rw [otherChecks, Fallible.bind_eq_ok_iff] at h
  obtain ⟨path, hscope, h⟩ := h
  obtain ⟨hbempty, h⟩ := Fallible.ite_error_eq_ok_iff.mp h
  obtain ⟨baseNames, hbases, h⟩ := Fallible.bind_eq_ok_iff.mp h
  obtain ⟨hpempty, h⟩ := Fallible.ite_error_eq_ok_iff.mp h
  obtain ⟨hchecked, hnodup, hranges⟩ := checkPools_eq_ok h
  exact ⟨hranges, hnodup, fun p hp => (hchecked p hp).max_ne_zero⟩

/-! ### A rejected pair -/

theorem checkWindows_eq_error {ranges : List SlotRange} {message : String}
    (h : checkWindows ranges = .error message) :
    ∃ pre a b post, ranges = pre ++ a :: b :: post ∧ b.first.toNat < a.last.toNat ∧
      message = overlapMessage a b := by
  induction ranges with
  | nil => cases h
  | cons a rest ih =>
      cases rest with
      | nil => cases h
      | cons b rest =>
          rw [checkWindows] at h
          split at h
          · next hover =>
              cases h
              exact ⟨[], a, b, rest, rfl, hover, rfl⟩
          · obtain ⟨pre, a', b', post, hranges, hover, hmessage⟩ := ih h
            exact ⟨a :: pre, a', b', post, by rw [hranges, List.cons_append], hover, hmessage⟩

/-- Two neighbours that run into each other are the ranges of two pools with a common slot. -/
theorem common_slot_of_neighbours {pools : List Pool} {pre post : List SlotRange} {a b : SlotRange}
    (hnames : (pools.map (·.name)).Nodup) (hmax : ∀ p ∈ pools, p.max ≠ 0) (hfits : ∀ p ∈ pools, p.NoWrap)
    (hsorted : (pools.map Pool.slotRange).insertionSort SlotRange.le = pre ++ a :: b :: post)
    (hover : b.first.toNat < a.last.toNat) :
    ∃ p ∈ pools, ∃ q ∈ pools, p ≠ q ∧ ∃ slot, slot ∈ p.slots ∧ slot ∈ q.slots := by
  have hperm := List.perm_insertionSort SlotRange.le (pools.map Pool.slotRange)
  have horder := List.pairwise_insertionSort SlotRange.le (pools.map Pool.slotRange)
  rw [hsorted] at hperm horder
  have hle : a.first.toNat ≤ b.first.toNat := by
    have htail := (List.pairwise_append.mp horder).2.1
    exact SlotRange.first_le_of_le ((List.pairwise_cons.mp htail).1 b List.mem_cons_self)
  have hdistinct : a.pool ≠ b.pool := by
    have hnodup : ((pre ++ a :: b :: post).map (·.pool)).Nodup := by
      rw [(hperm.map _).nodup_iff, List.map_map]
      exact hnames
    rw [List.map_append, List.map_cons, List.map_cons] at hnodup
    have htail := (List.nodup_append.mp hnodup).2.1
    exact fun heq => (List.nodup_cons.mp htail).1 (heq ▸ List.mem_cons_self)
  have hmem : ∀ r ∈ [a, b], ∃ p ∈ pools, p.slotRange = r := by
    intro r hr
    apply List.mem_map.mp
    rw [← hperm.mem_iff]
    apply List.mem_append_right
    rcases List.mem_pair.mp hr with rfl | rfl
    · exact List.mem_cons_self
    · exact List.mem_cons_of_mem _ List.mem_cons_self
  obtain ⟨p, hp, rfl⟩ := hmem a List.mem_cons_self
  obtain ⟨q, hq, rfl⟩ := hmem b (List.mem_cons_of_mem _ List.mem_cons_self)
  have hend : q.slotEnd.toNat = q.slotBase.toNat + q.max.toNat := by
    rw [Pool.slotEnd, UInt32.toNat_add, Nat.mod_eq_of_lt (hfits q hq)]
  have hpos : q.max.toNat ≠ 0 := fun hzero => hmax q hq (UInt32.toNat_inj.mp hzero)
  refine ⟨p, hp, q, hq, fun heq => hdistinct (by rw [heq]), q.slotBase.toNat, ?_, ?_⟩
  · exact Pool.mem_slots.mpr ⟨hle, hover⟩
  · exact Pool.mem_slots.mpr ⟨Nat.le_refl _, by omega⟩

/-! ### Both directions -/

/-- **A config is rejected for overlapping slots exactly when two pools have a slot in common.** -/
theorem overlap_rejected_iff {cfg : Config} {ranges : List SlotRange} (hother : cfg.otherChecks = .ok ranges)
    (hfits : ∀ p ∈ cfg.pools, p.NoWrap) :
    ((∃ a b, cfg.validate = .error (overlapMessage a b)) ↔
      ∃ p ∈ cfg.pools, ∃ q ∈ cfg.pools, p ≠ q ∧ ∃ slot, slot ∈ p.slots ∧ slot ∈ q.slots) ∧
    (cfg.validate = .ok () → ∀ p ∈ cfg.pools, ∀ q ∈ cfg.pools, ∀ s ∈ p.slots, ∀ t ∈ q.slots,
      workerUnit s = workerUnit t → p = q ∧ s = t) := by
  obtain ⟨hranges, hnames, hmax⟩ := Config.ranges_eq hother
  have hvalidate : cfg.validate =
      checkWindows ((cfg.pools.map Pool.slotRange).insertionSort SlotRange.le) := by
    rw [Config.validate_eq, hother, hranges]
    rfl
  refine ⟨⟨fun hrejected => ?_, fun hcommon => ?_⟩, fun hok p hp q hq s hs t ht hunit => ?_⟩
  · obtain ⟨a, b, herror⟩ := hrejected
    rw [hvalidate] at herror
    obtain ⟨pre, a', b', post, hsorted, hover, _⟩ := checkWindows_eq_error herror
    exact common_slot_of_neighbours hnames hmax hfits hsorted hover
  · obtain ⟨p, hp, q, hq, hne, slot, hps, hqs⟩ := hcommon
    cases hresult : cfg.validate with
    | ok _ => exact absurd ((Config.valid_of_validate hresult).slot_unique hp hq hps hqs) hne
    | error message =>
        rw [hvalidate] at hresult
        obtain ⟨_, a, b, _, _, _, hmessage⟩ := checkWindows_eq_error hresult
        exact ⟨a, b, by rw [hmessage]⟩
  · have hslot : s = t := by
      have hread := congrArg slotFromUnit hunit
      rw [slotFromUnit_workerUnit (Pool.lt_of_mem_slots hs),
        slotFromUnit_workerUnit (Pool.lt_of_mem_slots ht)] at hread
      exact Option.some.inj hread
    subst hslot
    exact ⟨(Config.valid_of_validate hok).slot_unique hp hq hs ht, rfl⟩

/-- Slots 103 to 106, the first of which is the last one of `smallPool`. -/
def nextPool : Pool := { smallPool with name := "gpu", labels := ["gpu"], slotBase := 103 }

theorem overlap_rejected_neighbours :
    ∃ a b, (configWith [nextPool, smallPool]).validate = .error (overlapMessage a b) := by
  have hfits : ∀ p ∈ (configWith [nextPool, smallPool]).pools, p.NoWrap := by
    intro p hp
    rcases List.mem_pair.mp hp with rfl | rfl
    · exact (by decide : (103 : Nat) + 4 < 2 ^ 32)
    · exact (by decide : (100 : Nat) + 4 < 2 ^ 32)
  have hother : (configWith [nextPool, smallPool]).otherChecks =
      .ok [nextPool.slotRange, smallPool.slotRange] := by decide
  apply (overlap_rejected_iff hother hfits).1.mpr
  refine ⟨nextPool, List.mem_cons_self, smallPool, List.mem_cons_of_mem _ List.mem_cons_self, ?_, 103, ?_⟩
  · decide
  · decide

end VmFleet
