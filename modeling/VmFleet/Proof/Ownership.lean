import VmFleet.Proof.LaunchOrder
import VmFleet.Library.Counting

/-!
# Whose runner it is

A pool counts the online runners that carry one of its labels. The name of a runner says which pool
launched it, and nothing keeps two pools from having a label in common. So the pools' counts agree with
what the names say exactly when no pool with an online runner shares a label.
-/

namespace VmFleet

def LaunchedBy (p : Pool) (r : Runner) : Prop :=
  r.labels.map (·.name) = p.labels ∧ ∃ slot ∈ p.slots, ∃ ts pid, r.name = vmName p.name slot ts pid

/-- Every runner in the list was registered by a worker of the config. -/
def RegisteredBy (cfg : Config) (runners : List Runner) : Prop :=
  ∀ r ∈ runners, ∃ p ∈ cfg.pools, LaunchedBy p r

/-- Each online runner is counted by the pool that launched it and by no other, and the busy counts add
up to the busy runners. -/
structure CountedOnce (cfg : Config) (runners : List Runner) : Prop where
  once : ∀ r ∈ runners, r.online = true → ∀ p ∈ cfg.pools, LaunchedBy p r → ∀ q ∈ cfg.pools,
    (r ∈ q.idleRunners runners ∨ r ∈ q.busyRunners runners) ↔ q = p
  busy : (cfg.pools.map fun q => (q.busy runners).toNat).sum =
    (runners.filter fun r => r.online && r.busy).length

/-- No pool with an online runner in the list shares a label with another pool. -/
def LabelsApart (cfg : Config) (runners : List Runner) : Prop :=
  ∀ p ∈ cfg.pools, (∃ r ∈ runners, r.online = true ∧ LaunchedBy p r) →
    ∀ q ∈ cfg.pools, q ≠ p → ∀ l ∈ p.labels, l ∉ q.labels

section

variable {cfg : Config} {runners : List Runner} {p q : Pool} {r : Runner}

theorem hasLabel_iff {l : String} : r.hasLabel l = true ↔ l ∈ r.labels.map (·.name) := by
  rw [Runner.hasLabel, List.any_eq_true, List.mem_map]
  exact exists_congr fun label => and_congr_right fun _ => beq_iff_eq

theorem carries_iff (hlaunched : LaunchedBy p r) :
    (q.labels.any r.hasLabel) = true ↔ ∃ l ∈ p.labels, l ∈ q.labels := by
  rw [List.any_eq_true, ← hlaunched.1]
  refine ⟨fun h => ?_, fun h => ?_⟩
  · obtain ⟨l, hq, hl⟩ := h
    exact ⟨l, hasLabel_iff.mp hl, hq⟩
  · obtain ⟨l, hl, hq⟩ := h
    exact ⟨l, hq, hasLabel_iff.mpr hl⟩

theorem mem_counted_iff (hr : r ∈ runners) (honline : r.online = true) :
    (r ∈ q.idleRunners runners ∨ r ∈ q.busyRunners runners) ↔ (q.labels.any r.hasLabel) = true := by
  rw [Pool.idleRunners, Pool.busyRunners, List.mem_filter, List.mem_filter, Pool.mine, List.mem_filter,
    honline]
  cases r.busy <;> simp [hr]

theorem counted_iff_of_labelsApart (hvalid : cfg.Valid) (hapart : LabelsApart cfg runners)
    (hr : r ∈ runners) (honline : r.online = true) (hp : p ∈ cfg.pools) (hlaunched : LaunchedBy p r)
    (hq : q ∈ cfg.pools) : (q.labels.any r.hasLabel) = true ↔ q = p := by
  rw [carries_iff hlaunched]
  refine ⟨fun h => ?_, fun h => ?_⟩
  · obtain ⟨l, hl, hql⟩ := h
    by_contra hne
    exact hapart p hp ⟨r, hr, honline, hlaunched⟩ q hq hne l hl hql
  · obtain ⟨l, hl⟩ := List.exists_mem_of_ne_nil _ (hvalid.labels_ne_nil p hp)
    exact ⟨l, hl, h ▸ hl⟩

theorem length_busyRunners (q : Pool) (runners : List Runner) :
    (q.busyRunners runners).length =
      (runners.filter fun r => r.online && r.busy).countP fun r => q.labels.any r.hasLabel := by
  rw [Pool.busyRunners, Pool.mine, List.filter_filter, List.countP_filter, List.countP_eq_length_filter]
  congr 1
  apply List.filter_congr
  intro r _
  rw [Bool.and_comm]

theorem busy_toNat (q : Pool) (runners : List Runner) :
    (q.busy runners).toNat = (q.busyRunners runners).length % 2 ^ 32 :=
  UInt32.toNat_ofNat'

/-- With labels apart, the busy runners are sorted into the pools. -/
theorem sum_busyRunners (hvalid : cfg.Valid) (hreg : RegisteredBy cfg runners)
    (hapart : LabelsApart cfg runners) :
    (cfg.pools.map fun q => (q.busyRunners runners).length).sum =
      (runners.filter fun r => r.online && r.busy).length := by
  simp only [length_busyRunners]
  apply Counting.sum_countP_of_one fun (q : Pool) (r : Runner) => q.labels.any r.hasLabel
  intro r hr
  obtain ⟨hr, hbusy⟩ := List.mem_filter.mp hr
  have honline : r.online = true := (Bool.and_eq_true _ _ ▸ hbusy).1
  obtain ⟨p, hp, hlaunched⟩ := hreg r hr
  exact Counting.countP_eq_one hvalid.poolNames_nodup.of_map hp fun q hq =>
    counted_iff_of_labelsApart hvalid hapart hr honline hp hlaunched hq

/-- **When every runner is counted once.** -/
theorem countedOnce_iff (hvalid : cfg.validate = .ok ()) (hreg : RegisteredBy cfg runners) :
    CountedOnce cfg runners ↔
      LabelsApart cfg runners ∧ ∀ q ∈ cfg.pools, (q.busyRunners runners).length < 2 ^ 32 := by
  have hvalid := Config.valid_of_validate hvalid
  refine ⟨fun h => ?_, fun h => ?_⟩
  · have hapart : LabelsApart cfg runners := by
      intro p hp hsome q hq hne l hl hql
      obtain ⟨r, hr, honline, hlaunched⟩ := hsome
      refine hne ((h.once r hr honline p hp hlaunched q hq).mp ?_)
      exact (mem_counted_iff hr honline).mpr ((carries_iff hlaunched).mpr ⟨l, hl, hql⟩)
    refine ⟨hapart, fun q hq => ?_⟩
    have hall := Counting.eq_of_sum_map_eq
      (fun q _ => (busy_toNat q runners).trans_le (Nat.mod_le _ _))
      (h.busy.trans (sum_busyRunners hvalid hreg hapart).symm)
    rw [← hall q hq]
    exact (q.busy runners).toNat_lt
  · obtain ⟨hapart, hfits⟩ := h
    refine ⟨fun r hr honline p hp hlaunched q hq => ?_, ?_⟩
    · rw [mem_counted_iff hr honline]
      exact counted_iff_of_labelsApart hvalid hapart hr honline hp hlaunched hq
    · rw [← sum_busyRunners hvalid hreg hapart]
      congr 1
      apply List.map_congr_left
      intro q hq
      rw [busy_toNat, Nat.mod_eq_of_lt (hfits q hq)]

end

def twoBusy : List Runner :=
  [{ id := 1, name := vmName "ci" 100 1700000000 4242, status := "online", busy := true,
     labels := [⟨"linux"⟩] },
    { id := 2, name := vmName "gpu" 200 1700000000 4243, status := "online", busy := true,
      labels := [⟨"gpu"⟩] }]

theorem countedOnce_twoBusy : CountedOnce (configWith [smallPool, largePool]) twoBusy := by
  have hreg : RegisteredBy (configWith [smallPool, largePool]) twoBusy := by
    intro r hr
    simp only [twoBusy, List.mem_cons, List.not_mem_nil, or_false] at hr
    rcases hr with rfl | rfl
    · exact ⟨smallPool, List.mem_cons_self, rfl, 100, by decide, 1700000000, 4242, rfl⟩
    · exact ⟨largePool, List.mem_cons_of_mem _ List.mem_cons_self, rfl, 200, by decide, 1700000000, 4243,
        rfl⟩
  have hapart : ∀ p ∈ [smallPool, largePool], ∀ q ∈ [smallPool, largePool], q ≠ p →
      ∀ l ∈ p.labels, l ∉ q.labels := by decide
  exact (countedOnce_iff (by decide) hreg).mpr ⟨fun p hp _ => hapart p hp, by decide⟩

/-- A pool that serves the label of `ci` as well. -/
def sharingPool : Pool := { largePool with labels := ["linux", "gpu"] }

/-- One busy runner of `ci` is counted as busy by both pools. -/
theorem counted_twice :
    (configWith [smallPool, sharingPool]).validate = .ok () ∧
      RegisteredBy (configWith [smallPool, sharingPool]) (twoBusy.take 1) ∧
      ¬ CountedOnce (configWith [smallPool, sharingPool]) (twoBusy.take 1) := by
  refine ⟨by decide, ?_, fun h => ?_⟩
  · intro r hr
    obtain rfl := List.mem_singleton.mp hr
    exact ⟨smallPool, List.mem_cons_self, rfl, 100, by decide, 1700000000, 4242, rfl⟩
  · have hbusy := h.busy
    revert hbusy
    decide

end VmFleet
