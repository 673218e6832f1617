import VmFleet.Source.Config
import VmFleet.Library.Fallible
import VmFleet.Library.Interval
import Mathlib.Data.String.Basic
import Mathlib.Data.List.Sort
import Mathlib.Data.List.Nodup

/-!
# What validation guarantees

`Config.Valid` is what the rest of the development knows of an accepted config. The slot ranges of two
pools are disjoint even where a range runs over the end of `u32`: such a range is empty, and the sorted
comparison of neighbours still separates the others.
-/

namespace VmFleet

/-! ### Slots of one pool -/

namespace Pool

theorem mem_slots {p : Pool} {slot : Nat} :
    slot ∈ p.slots ↔ p.slotBase.toNat ≤ slot ∧ slot < p.slotEnd.toNat := by
  rw [slots, List.mem_range'_1]
  omega

theorem slots_nodup (p : Pool) : p.slots.Nodup := List.nodup_range'

theorem slots_pairwise_lt (p : Pool) : p.slots.Pairwise (· < ·) := List.pairwise_lt_range'

theorem lt_of_mem_slots {p : Pool} {slot : Nat} (h : slot ∈ p.slots) : slot < 2 ^ 32 :=
  (mem_slots.mp h).2.trans p.slotEnd.toNat_lt

/-- The pool's range does not run over the end of `u32`. -/
def NoWrap (p : Pool) : Prop := p.slotBase.toNat + p.max.toNat < 2 ^ 32

theorem length_slots_of_noWrap {p : Pool} (h : p.NoWrap) : p.slots.length = p.max.toNat := by
  have hend : p.slotEnd.toNat = p.slotBase.toNat + p.max.toNat := by
    rw [slotEnd, UInt32.toNat_add, Nat.mod_eq_of_lt h]
  rw [slots, List.length_range', hend]
  omega

/-- A range that runs over the end of `u32` is empty, so a pool never has more than `max` slots. -/
theorem length_slots_le (p : Pool) : p.slots.length ≤ p.max.toNat := by
  have hbase := p.slotBase.toNat_lt
  have hmax := p.max.toNat_lt
  have hend : p.slotEnd.toNat = (p.slotBase.toNat + p.max.toNat) % 2 ^ 32 := UInt32.toNat_add _ _
  rw [slots, List.length_range', hend]
  omega

end Pool

/-! ### The slot ranges of all pools -/

def Pool.slotRange (p : Pool) : SlotRange := ⟨p.slotBase, p.slotEnd, p.name⟩

/-- One of the two pools' ranges ends before the other starts. -/
def Pool.Apart (p q : Pool) : Prop :=
  p.slotEnd.toNat ≤ q.slotBase.toNat ∨ q.slotEnd.toNat ≤ p.slotBase.toNat

instance : Std.Symm Pool.Apart where
  symm _ _ h := Or.symm h

theorem Pool.Apart.disjoint {p q : Pool} (h : p.Apart q) {slot : Nat} (hp : slot ∈ p.slots) :
    slot ∉ q.slots := by
  intro hq
  rw [Pool.mem_slots] at hp hq
  rcases h with h | h <;> omega

instance : Std.Total SlotRange.le where
  total a b := by
    have hfirst := UInt32.toNat_inj (a := a.first) (b := b.first)
    have hlast := UInt32.toNat_inj (a := a.last) (b := b.last)
    have hpool := le_total a.pool b.pool
    unfold SlotRange.le
    grind

instance : IsTrans SlotRange SlotRange.le where
  trans a b c := by
    intro hab hbc
    have hpool : a.pool ≤ b.pool → b.pool ≤ c.pool → a.pool ≤ c.pool := le_trans
    unfold SlotRange.le at hab hbc ⊢
    grind

theorem SlotRange.first_le_of_le {a b : SlotRange} (h : a.le b) : a.first.toNat ≤ b.first.toNat := by
  cases h with
  | inl h => omega
  | inr h => rw [h.1]

theorem checkWindows_eq_ok_iff {ranges : List SlotRange} :
    checkWindows ranges = .ok () ↔
      ranges.IsChain (Interval.Before (fun r => r.first.toNat) (fun r => r.last.toNat)) := by
  induction ranges with
  | nil => simp [checkWindows]
  | cons a rest ih =>
      cases rest with
      | nil => simp [checkWindows]
      | cons b rest =>
          rw [checkWindows, List.isChain_cons_cons, ← ih]
          by_cases hover : a.last.toNat > b.first.toNat
          · rw [if_pos hover]
            simp [Interval.Before]
            omega
          · rw [if_neg hover]
            exact ⟨fun h => ⟨Nat.le_of_not_lt hover, h⟩, fun h => h.2⟩

/-- The overlap check separates every two pools, whatever their order. -/
theorem pairwise_apart_of_checkWindows {pools : List Pool}
    (h : checkWindows ((pools.map Pool.slotRange).insertionSort SlotRange.le) = .ok ()) :
    pools.Pairwise Pool.Apart := by
  have hsorted := List.pairwise_insertionSort SlotRange.le (pools.map Pool.slotRange)
  have hbefore := Interval.pairwise_before (fun r : SlotRange => r.first.toNat)
    (fun r : SlotRange => r.last.toNat)
    (hsorted.imp fun hle => SlotRange.first_le_of_le hle) (checkWindows_eq_ok_iff.mp h)
  have happart : ((pools.map Pool.slotRange).insertionSort SlotRange.le).Pairwise
      fun a b : SlotRange => a.last.toNat ≤ b.first.toNat ∨ b.last.toNat ≤ a.first.toNat :=
    hbefore.imp fun hab => Or.inl hab
  have hperm := (List.perm_insertionSort SlotRange.le (pools.map Pool.slotRange)).pairwise_iff
    (R := fun a b : SlotRange => a.last.toNat ≤ b.first.toNat ∨ b.last.toNat ≤ a.first.toNat)
    fun h => h.symm
  have hpools := List.pairwise_map.mp (hperm.mp happart)
  exact hpools.imp fun hab => hab

/-! ### The loops of `validate` -/

theorem checkBases_eq_ok {seen names : List String} {bases : List Base}
    (h : checkBases seen bases = .ok names) :
    (∀ b ∈ bases, validName b.name = true ∧ b.name ∉ seen) ∧ (bases.map (·.name)).Nodup ∧
      (∀ name ∈ names, name ∈ seen ∨ ∃ b ∈ bases, b.name = name) := by
  induction bases generalizing seen with
  | nil =>
      rw [checkBases] at h
      cases h
      exact ⟨fun b hb => (List.not_mem_nil hb).elim, List.nodup_nil, fun name hname => Or.inl hname⟩
  | cons b bs ih =>
      rw [checkBases, Fallible.ite_error_eq_ok_iff, Fallible.ite_error_eq_ok_iff] at h
      obtain ⟨hinvalid, hseen, hrest⟩ := h
      have hvalid : validName b.name = true := by simpa using hinvalid
      obtain ⟨hall, hnodup, hnames⟩ := ih hrest
      refine ⟨?_, ?_, ?_⟩
      · intro b' hb'
        rcases List.mem_cons.mp hb' with rfl | hb'
        · exact ⟨hvalid, hseen⟩
        · exact ⟨(hall b' hb').1, fun hmem => (hall b' hb').2 (List.mem_cons_of_mem _ hmem)⟩
      · rw [List.map_cons, List.nodup_cons]
        refine ⟨fun hmem => ?_, hnodup⟩
        obtain ⟨b', hb', hname⟩ := List.mem_map.mp hmem
        exact (hall b' hb').2 (hname ▸ List.mem_cons_self)
      · intro name hname
        rcases hnames name hname with hmem | ⟨b', hb', heq⟩
        · rcases List.mem_cons.mp hmem with rfl | hmem
          · exact Or.inr ⟨b, List.mem_cons_self, rfl⟩
          · exact Or.inl hmem
        · exact Or.inr ⟨b', List.mem_cons_of_mem _ hb', heq⟩

structure Pool.Checked (baseNames seen : List String) (p : Pool) : Prop where
  max_ne_zero : p.max ≠ 0
  minWarm_le : p.minWarm.toNat ≤ p.max.toNat
  labels_ne_nil : p.labels ≠ []
  validName : validName p.name = true
  fresh : p.name ∉ seen
  base_mem : ∀ bn, p.base = some bn → bn ∈ baseNames

theorem checkPool_eq_ok_iff {baseNames seen : List String} {p : Pool} :
    checkPool baseNames seen p = .ok () ↔ p.Checked baseNames seen := by
  have hwarm : ¬ p.minWarm > p.max ↔ p.minWarm.toNat ≤ p.max.toNat := by
    rw [gt_iff_lt, UInt32.lt_iff_toNat_lt, Nat.not_lt]
  have hlabels : ¬ p.labels.isEmpty = true ↔ p.labels ≠ [] := by rw [List.isEmpty_iff]
  have hname : ¬ (!validName p.name) = true ↔ validName p.name = true := by simp
  have hbase : checkPoolBase baseNames p = .ok () ↔ ∀ bn, p.base = some bn → bn ∈ baseNames := by
    rw [checkPoolBase]
    cases p.base with
    | none => simp
    | some bn => by_cases hmem : bn ∈ baseNames <;> simp [hmem]
  unfold checkPool
  simp only [Fallible.ite_error_eq_ok_iff, hwarm, hlabels, hname, hbase]
  refine ⟨fun h => ?_,
    fun h => ⟨h.max_ne_zero, h.minWarm_le, h.labels_ne_nil, h.validName, h.fresh, h.base_mem⟩⟩
  obtain ⟨hmax, hmin, hl, hn, hseen, hb⟩ := h
  exact ⟨hmax, hmin, hl, hn, hseen, hb⟩

theorem checkPools_eq_ok {baseNames seen : List String} {pools : List Pool} {ranges : List SlotRange}
    (h : checkPools baseNames seen pools = .ok ranges) :
    (∀ p ∈ pools, p.Checked baseNames seen) ∧ (pools.map (·.name)).Nodup ∧
      ranges = pools.map Pool.slotRange := by
  induction pools generalizing seen ranges with
  | nil =>
      rw [checkPools] at h
      cases h
      exact ⟨fun p hp => (List.not_mem_nil hp).elim, List.nodup_nil, rfl⟩
  | cons p ps ih =>
      rw [checkPools, Fallible.bind_eq_ok_iff] at h
      obtain ⟨_, hpool, h⟩ := h
      obtain ⟨rest, hrest, h⟩ := Fallible.bind_eq_ok_iff.mp h
      cases h
      obtain ⟨hall, hnodup, hranges⟩ := ih hrest
      refine ⟨?_, ?_, ?_⟩
      · intro p' hp'
        rcases List.mem_cons.mp hp' with rfl | hp'
        · exact checkPool_eq_ok_iff.mp hpool
        · have hchecked := hall p' hp'
          exact { hchecked with fresh := fun hmem => hchecked.fresh (List.mem_cons_of_mem _ hmem) }
      · rw [List.map_cons, List.nodup_cons]
        refine ⟨fun hmem => ?_, hnodup⟩
        obtain ⟨p', hp', hname⟩ := List.mem_map.mp hmem
        exact (hall p' hp').fresh (hname ▸ List.mem_cons_self)
      · rw [List.map_cons, hranges, Pool.slotRange]

/-! ### Accepted configs -/

structure Config.Valid (cfg : Config) : Prop where
  scope : ∃ path, cfg.github.scopePath = .ok path
  bases_ne_nil : cfg.bases ≠ []
  base_validName : ∀ b ∈ cfg.bases, validName b.name = true
  baseNames_nodup : (cfg.bases.map (·.name)).Nodup
  pools_ne_nil : cfg.pools ≠ []
  pool_validName : ∀ p ∈ cfg.pools, validName p.name = true
  poolNames_nodup : (cfg.pools.map (·.name)).Nodup
  max_ne_zero : ∀ p ∈ cfg.pools, p.max ≠ 0
  minWarm_le : ∀ p ∈ cfg.pools, p.minWarm.toNat ≤ p.max.toNat
  labels_ne_nil : ∀ p ∈ cfg.pools, p.labels ≠ []
  base_mem : ∀ p ∈ cfg.pools, ∀ bn, p.base = some bn → ∃ b ∈ cfg.bases, b.name = bn
  apart : cfg.pools.Pairwise Pool.Apart

theorem Config.valid_of_validate {cfg : Config} (h : cfg.validate = .ok ()) : cfg.Valid := by
  rw [validate, Fallible.bind_eq_ok_iff] at h
  obtain ⟨path, hscope, h⟩ := h
  obtain ⟨hbempty, h⟩ := Fallible.ite_error_eq_ok_iff.mp h
  obtain ⟨baseNames, hbases, h⟩ := Fallible.bind_eq_ok_iff.mp h
  obtain ⟨hpempty, h⟩ := Fallible.ite_error_eq_ok_iff.mp h
  obtain ⟨ranges, hpools, hwindows⟩ := Fallible.bind_eq_ok_iff.mp h
  obtain ⟨hball, hbnodup, hbnames⟩ := checkBases_eq_ok hbases
  obtain ⟨hpall, hpnodup, hranges⟩ := checkPools_eq_ok hpools
  rw [hranges] at hwindows
  refine ⟨⟨path, hscope⟩, fun hnil => hbempty (List.isEmpty_iff.mpr hnil), fun b hb => (hball b hb).1,
    hbnodup, fun hnil => hpempty (List.isEmpty_iff.mpr hnil), fun p hp => (hpall p hp).validName,
    hpnodup, fun p hp => (hpall p hp).max_ne_zero, fun p hp => (hpall p hp).minWarm_le,
    fun p hp => (hpall p hp).labels_ne_nil, fun p hp bn hbn => ?_,
    pairwise_apart_of_checkWindows hwindows⟩
  cases hbnames bn ((hpall p hp).base_mem bn hbn) with
  | inl hmem => exact (List.not_mem_nil hmem).elim
  | inr hmem => exact hmem

theorem Config.valid_of_load {home : String} {parsed cfg : Config}
    (h : Config.load home parsed = .ok cfg) : cfg.Valid := by
  obtain ⟨u, hvalidate, hcfg⟩ := Fallible.bind_eq_ok_iff.mp h
  cases hcfg
  exact valid_of_validate hvalidate

/-- A config of one base image and the given pools, with every default. -/
def configWith (pools : List Pool) : Config where
  github := { repo := some "acme/app", tokenFile := "/etc/vmfleet/token" }
  bases := [{ image := "24.04" }]
  pools := pools

def smallPool : Pool :=
  { name := "ci", labels := ["linux"], cpus := 2, memory := "4G", minWarm := 2, max := 4, slotBase := 100 }

theorem Config.Valid.name_injective {cfg : Config} (h : cfg.Valid) {p q : Pool} (hp : p ∈ cfg.pools)
    (hq : q ∈ cfg.pools) (hname : p.name = q.name) : p = q :=
  List.inj_on_of_nodup_map h.poolNames_nodup hp hq hname

/-- A slot belongs to one pool of an accepted config at most. -/
theorem Config.Valid.slot_unique {cfg : Config} (h : cfg.Valid) {p q : Pool} (hp : p ∈ cfg.pools)
    (hq : q ∈ cfg.pools) {slot : Nat} (hps : slot ∈ p.slots) (hqs : slot ∈ q.slots) : p = q := by
  by_contra hne
  have happart : p.Apart q := h.apart.forall hp hq hne
  exact Pool.Apart.disjoint happart hps hqs

end VmFleet
