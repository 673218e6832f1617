import VmFleet.Proof.LaunchOrder
import VmFleet.Proof.Gc

/-!
# When the active units are unknown

Both `gc` and `reconcile` go on when the query for active units is not answered, with whatever units its
output names, which is none when there is no output. `unanswered_harmless_iff` lists what then has to be
true of the fleet for nothing to be purged, launched or stopped.
-/

namespace VmFleet

def Unanswered : Answer → Prop
  | .error _ => True
  | .ok o => o.status ≠ 0

/-- A pass issues no command that starts or stops a worker. -/
structure LeavesWorkers (pass : Pass) : Prop where
  starts : pass.commands.filterMap Command.startedSlot = []
  stops : pass.commands.filterMap Command.stoppedSlot = []

/-- Every listed VM of the fleet is a base, or its slot is one of those the output names. -/
def NothingToPurge (cfg : Config) (read : GcRead) : Prop :=
  ∀ vms, Multipass.list read.vmList = .ok vms → ∀ name ∈ vms.map (·.1),
    Text.startsWith name vmPrefix = true →
      (∃ b ∈ cfg.bases, b.name = name) ∨
        ∃ slot ∈ activeSlotsOf read.activeUnits, gcSlot cfg name = some slot

/-- No pool is below its desired count and can be served, and no pool is above it and has a worker to
stop. -/
structure NothingToDo (cfg : Config) (snap : Snapshot) (inp : PoolInput) : Prop where
  launch : inp.blocked ≠ none ∨ cfg.supervisor.maxLaunchPerPoll.toNat = 0 ∨
    (startBudget cfg snap).headroom.toNat = 0 ∨
    ∀ p ∈ cfg.pools, (p.want inp.runners inp.queued).toNat ≤
        p.headcount inp.runners inp.activeSlots % 2 ^ 32 ∨ p.inactive inp.activeSlots = []
  stop : ∀ p ∈ cfg.pools, p.headcount inp.runners inp.activeSlots % 2 ^ 32 ≤
      (p.want inp.runners inp.queued).toNat ∨
    ∀ r ∈ p.idleRunners inp.runners, ∀ slot ∈ p.active inp.activeSlots,
      slotOfVm p.name r.name = some slot → longIdle cfg snap inp.idleSince p r = false

section

variable {cfg : Config} {inv : Invocation} {snap : Snapshot} {inp : PoolInput} {p : Pool} {b : Budget}

theorem slotsToTry_eq_nil_iff :
    slotsToTry cfg inp p b = [] ↔ inp.blocked ≠ none ∨ b.left cfg = 0 ∨
      (p.want inp.runners inp.queued).toNat ≤ p.headcount inp.runners inp.activeSlots % 2 ^ 32 ∨
        p.inactive inp.activeSlots = [] := by
  rw [slotsToTry]
  by_cases hblocked : inp.blocked = none
  · rw [if_pos hblocked, Pool.freeSlots_eq_inactive, List.take_eq_nil_iff, Pool.deficit_toNat]
    refine ⟨fun h => ?_, fun h => ?_⟩
    · cases h with
      | inl h =>
          by_cases hleft : b.left cfg = 0
          · exact Or.inr (Or.inl hleft)
          · exact Or.inr (Or.inr (Or.inl (by omega)))
      | inr h => exact Or.inr (Or.inr (Or.inr h))
    · rcases h with h | h | h | h
      · exact absurd hblocked h
      · exact Or.inl (by omega)
      · exact Or.inl (by omega)
      · exact Or.inr h
  · rw [if_neg hblocked]
    exact ⟨fun _ => Or.inl hblocked, fun _ => rfl⟩

theorem slotsToStop_eq_nil_iff :
    slotsToStop cfg snap inp p = [] ↔
      p.headcount inp.runners inp.activeSlots % 2 ^ 32 ≤ (p.want inp.runners inp.queued).toNat ∨
        ∀ r ∈ p.idleRunners inp.runners, ∀ slot ∈ p.active inp.activeSlots,
          slotOfVm p.name r.name = some slot → longIdle cfg snap inp.idleSince p r = false := by
  have hexcess : (-p.deficit inp.runners inp.activeSlots inp.queued).toNat = 0 ↔
      p.headcount inp.runners inp.activeSlots % 2 ^ 32 ≤ (p.want inp.runners inp.queued).toNat := by
    rw [Pool.deficit, Pool.present_toNat]
    omega
  have hcandidates : (stopCandidates snap inp.idleSince p inp.runners inp.activeSlots).filter
      (fun c => longIdle cfg snap inp.idleSince p c.1) = [] ↔
        ∀ r ∈ p.idleRunners inp.runners, ∀ slot ∈ p.active inp.activeSlots,
          slotOfVm p.name r.name = some slot → longIdle cfg snap inp.idleSince p r = false := by
    rw [List.filter_eq_nil_iff, stopCandidates]
    simp only [(List.perm_insertionSort _ _).mem_iff, List.mem_filter, List.mem_filterMap,
      decide_eq_true_eq, Bool.not_eq_true]
    refine ⟨fun h r hr slot hslot hdecode => ?_, fun h c hc => ?_⟩
    · exact h (r, slot) ⟨⟨r, hr, by rw [hdecode]; rfl⟩, hslot⟩
    · obtain ⟨⟨r, hr, hdecode⟩, hslot⟩ := hc
      obtain ⟨slot, hread, rfl⟩ := Option.map_eq_some_iff.mp hdecode
      exact h r hr slot hslot hread
  rw [slotsToStop, List.map_eq_nil_iff, stopped, List.take_eq_nil_iff, hexcess, hcandidates]

theorem attempted_poolLoop_eq_nil_iff (hdry : inv.dryRun = false) {pools : List Pool} :
    (poolLoop cfg inv snap inp pools b).flatMap (·.attempted) = [] ↔
      ∀ p ∈ pools, slotsToTry cfg inp p b = [] := by
  induction pools with
  | nil => exact ⟨fun _ p hp => absurd hp List.not_mem_nil, fun _ => rfl⟩
  | cons q qs ih =>
      rw [poolLoop_cons, List.flatMap_cons, List.append_eq_nil_iff, attempted_passOf, hdry,
        List.forall_mem_cons]
      refine and_congr_right fun hnone => ?_
      have hnone : slotsToTry cfg inp q b = [] := hnone
      have hsame : (actOn cfg inv snap inp q b).budget = b := by
        rw [actOn_eq, slotsCounted, hnone]
        rfl
      rw [hsame]
      exact ih

theorem stopped_poolLoop_eq_nil_iff (hdry : inv.dryRun = false) {pools : List Pool} :
    (poolLoop cfg inv snap inp pools b).flatMap (·.stopped) = [] ↔
      ∀ p ∈ pools, slotsToStop cfg snap inp p = [] := by
  induction pools generalizing b with
  | nil => exact ⟨fun _ p hp => absurd hp List.not_mem_nil, fun _ => rfl⟩
  | cons q qs ih =>
      rw [poolLoop_cons, List.flatMap_cons, List.append_eq_nil_iff, stopped_passOf, hdry, ih,
        List.forall_mem_cons]
      rfl

theorem commands_of_dryRun (hdry : inv.dryRun = true) {pools : List Pool} :
    (poolLoop cfg inv snap inp pools b).flatMap (·.attempted) = [] ∧
      (poolLoop cfg inv snap inp pools b).flatMap (·.stopped) = [] := by
  induction pools generalizing b with
  | nil => exact ⟨rfl, rfl⟩
  | cons q qs ih =>
      rw [poolLoop_cons, List.flatMap_cons, List.flatMap_cons, attempted_passOf, stopped_passOf, hdry]
      exact ih

theorem leavesWorkers_iff {state : SupState} {runners : List Runner} {pass : Pass}
    (hspec : Reconciled cfg inv snap state runners pass) :
    LeavesWorkers pass ↔ inv.dryRun = true ∨ NothingToDo cfg snap (poolInput cfg snap state runners) := by
  have hcommands : LeavesWorkers pass ↔
      (poolLoop cfg inv snap (poolInput cfg snap state runners) cfg.pools (startBudget cfg snap)).flatMap
          (·.attempted) = [] ∧
        (poolLoop cfg inv snap (poolInput cfg snap state runners) cfg.pools (startBudget cfg snap)).flatMap
          (·.stopped) = [] := by
    rw [← hspec.pools, ← hspec.startedSlots, ← hspec.stoppedSlots]
    exact ⟨fun h => ⟨h.starts, h.stops⟩, fun h => ⟨h.1, h.2⟩⟩
  rw [hcommands]
  cases hdry : inv.dryRun with
  | true => exact ⟨fun _ => Or.inl rfl, fun _ => commands_of_dryRun hdry⟩
  | false =>
      rw [attempted_poolLoop_eq_nil_iff hdry, stopped_poolLoop_eq_nil_iff hdry]
      simp only [slotsToTry_eq_nil_iff, slotsToStop_eq_nil_iff, left_startBudget, Bool.false_eq_true,
        false_or]
      refine ⟨fun h => ⟨?_, h.2⟩, fun h => ⟨fun p hp => ?_, h.stop⟩⟩
      · by_cases hidle : (poolInput cfg snap state runners).blocked ≠ none ∨
            cfg.supervisor.maxLaunchPerPoll.toNat = 0 ∨ (startBudget cfg snap).headroom.toNat = 0
        · rcases hidle with hblocked | hmax | hheadroom
          · exact Or.inl hblocked
          · exact Or.inr (Or.inl hmax)
          · exact Or.inr (Or.inr (Or.inl hheadroom))
        · refine Or.inr (Or.inr (Or.inr fun p hp => ?_))
          rcases h.1 p hp with hblocked | hleft | hserved
          · exact absurd (Or.inl hblocked) hidle
          · exact absurd (Or.inr (by omega)) hidle
          · exact hserved
      · rcases h.launch with hblocked | hmax | hheadroom | hserved
        · exact Or.inl hblocked
        · exact Or.inr (Or.inl (by omega))
        · exact Or.inr (Or.inl (by omega))
        · exact Or.inr (Or.inr (hserved p hp))

theorem purged_eq_nil_iff {read : GcRead} : (gc cfg read).purged = [] ↔ NothingToPurge cfg read := by
  rw [List.eq_nil_iff_forall_not_mem]
  simp only [mem_purged_iff]
  refine ⟨fun h vms hvms name hname hstart => ?_, fun h name hpurged => ?_⟩
  · by_contra hneither
    rw [not_or, ← isBase_eq_true_iff, ← gcOrphan_eq_false_iff, Bool.not_eq_true, Bool.not_eq_false]
      at hneither
    exact h name ⟨vms, hvms, hname, hstart, hneither⟩
  · obtain ⟨vms, hvms, hname, hstart, hbase, horphan⟩ := hpurged
    cases h vms hvms name hname hstart with
    | inl hmem =>
        rw [isBase_eq_true_iff.mpr hmem] at hbase
        cases hbase
    | inr hmem =>
        rw [gcOrphan_eq_false_iff.mpr hmem] at horphan
        cases horphan

/-- **When an unanswered query does no harm.** -/
theorem unanswered_harmless_iff {read : GcRead} {state : SupState} :
    ((Unanswered read.activeUnits → (gc cfg read).purged = []) ∧
      (Unanswered snap.activeUnits → ∀ pass, reconcile cfg inv snap state = .ok pass →
        LeavesWorkers pass)) ↔
    (Unanswered read.activeUnits → NothingToPurge cfg read) ∧
      (Unanswered snap.activeUnits → ∀ runners, snap.runners = .ok runners →
        inv.dryRun = true ∨ NothingToDo cfg snap (poolInput cfg snap state runners)) := by
  refine and_congr (imp_congr_right fun _ => purged_eq_nil_iff) (imp_congr_right fun _ => ?_)
  refine ⟨fun h runners hrunners => ?_, fun h pass hpass => ?_⟩
  · obtain ⟨pass, hpass⟩ : ∃ pass, reconcile cfg inv snap state = .ok pass := reconcile_ok hrunners
    exact (leavesWorkers_iff (reconciled_of_ok hrunners hpass)).mp (h pass hpass)
  · obtain ⟨runners, hrunners, hspec⟩ := reconcile_spec hpass
    exact (leavesWorkers_iff hspec).mpr (h runners hrunners)

end

def silentRead : GcRead where
  activeUnits := .error "timed out after 15s"
  vmList := .ok ⟨0, "Name,State,IPv4,IPv6,Release,AllIPv4\nvmfleet-ci-100-1700000000-4242,Running,,,,\n", ""⟩
  deletions := fun _ => (.ok ⟨0, "", ""⟩, .ok ⟨0, "", ""⟩)
  token := .ok "token"
  runners := .ok []

def silentSnapshot : Snapshot := { roomySnapshot [] [] with activeUnits := .error "timed out after 15s" }

/-- `gc` purges the VM, and a pass launches into every slot it is short of. -/
theorem unanswered_taken_as_empty :
    (configWith [smallPool]).validate = .ok () ∧ Unanswered silentRead.activeUnits ∧
      Unanswered silentSnapshot.activeUnits ∧
      (gc (configWith [smallPool]) silentRead).purged = ["vmfleet-ci-100-1700000000-4242"] ∧
      ∃ pass, reconcile (configWith [smallPool]) daemonCall silentSnapshot {} = .ok pass ∧
        pass.commands.filterMap Command.startedSlot = [100, 101] :=
  ⟨by decide, trivial, trivial, by decide +kernel, _, rfl, by decide +kernel⟩

end VmFleet
