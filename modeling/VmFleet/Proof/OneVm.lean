import VmFleet.Source.Site
import VmFleet.Library.Counting
import VmFleet.Proof.GcRace
import VmFleet.Proof.LaunchSafety

/-!
# One VM for a slot

Whatever order the supervisor, the workers and their ends come in, no slot has two VMs. A worker that has
swept finds none of its slot, systemd lets no second worker of the slot begin before it ends, and a worker
of another slot makes no VM of this one.
-/

namespace VmFleet

/-! ### Whose VM it is -/

/-- Whether the name is `vmName pool slot` of some second and process id. -/
def isVmOf (pool : String) (slot : Nat) (name : String) : Bool :=
  match Text.stripPrefix name (slotVmPrefix pool slot) with
  | none => false
  | some rest =>
    match Text.fields '-' rest with
    | [ts, pid] =>
      match Text.parseU64 (String.ofList ts), Text.parseU32 (String.ofList pid) with
      | some ts, some pid => name == vmName pool slot ts.toUInt64 pid.toUInt32
      | _, _ => false
    | _ => false

theorem isVmOf_iff {pool name : String} {slot : Nat} :
    isVmOf pool slot name = true ↔ ∃ ts pid, name = vmName pool slot ts pid := by
  refine ⟨fun h => ?_, fun h => ?_⟩
  · rw [isVmOf] at h
    split at h
    · cases h
    · split at h
      · split at h
        · exact ⟨_, _, beq_iff_eq.mp h⟩
        · cases h
      · cases h
  · obtain ⟨ts, pid, rfl⟩ := h
    have hname : vmName pool slot ts pid =
        slotVmPrefix pool slot ++ (toString ts.toNat ++ "-" ++ toString pid.toNat) := by
      rw [vmName, slotVmPrefix]
      simp only [String.append_assoc]
    have hfields : Text.fields '-' (toString ts.toNat ++ "-" ++ toString pid.toNat) =
        [(toString ts.toNat).toList, (toString pid.toNat).toList] := by
      rw [fields_dash_toString, Text.fields_toString _ (by decide)]
      rfl
    have hstrip : Text.stripPrefix (vmName pool slot ts pid) (slotVmPrefix pool slot) =
        some (toString ts.toNat ++ "-" ++ toString pid.toNat) := by
      rw [hname, Text.stripPrefix_append]
    rw [isVmOf, hstrip]
    simp only [hfields, String.ofList_toList, Text.parseU64, Text.parseU32,
      Text.parseUnsigned_toString ts.toNat_lt, Text.parseUnsigned_toString pid.toNat_lt]
    simp

theorem isVmOf_vmName_iff {p q : String} {s t : Nat} {ts : UInt64} {pid : UInt32} :
    isVmOf p s (vmName q t ts pid) = true ↔ p = q ∧ s = t := by
  rw [isVmOf_iff]
  refine ⟨fun h => ?_, fun h => ?_⟩
  · obtain ⟨ts', pid', heq⟩ := h
    obtain ⟨hpool, hslot, _⟩ := vmName_injective heq
    exact ⟨hpool.symm, hslot.symm⟩
  · obtain ⟨rfl, rfl⟩ := h
    exact ⟨ts, pid, rfl⟩

theorem startsWith_of_isVmOf {pool name : String} {slot : Nat} (h : isVmOf pool slot name = true) :
    Text.startsWith name (slotVmPrefix pool slot) = true := by
  obtain ⟨ts, pid, rfl⟩ := isVmOf_iff.mp h
  exact startsWith_slotVmPrefix_vmName_iff.mpr (Or.inl ⟨rfl, rfl⟩)

/-- How many VMs a slot of a pool has. -/
def vmCount (vms : List (String × VmState)) (pool : String) (slot : Nat) : Nat :=
  (vms.map (·.1)).countP (isVmOf pool slot)

/-- The VMs of all workers, past and present. -/
def workerVms (cfg : Config) (vms : List (String × VmState)) : List String :=
  (vms.map (·.1)).filter fun name => cfg.pools.any fun p => p.slots.any fun slot => isVmOf p.name slot name

/-! ### One step of a worker -/

namespace WorkerProc

/-- What a worker of a stage knows of the VMs of its slot. -/
def Clear (w : WorkerProc) (vms : List (String × VmState)) : Prop :=
  match w.stage with
  | .sweeping todo => ∀ n ∈ vms.map (·.1), isVmOf w.pool w.slot n = true → n ∈ todo
  | .swept => ∀ n ∈ vms.map (·.1), isVmOf w.pool w.slot n = false
  | _ => True

theorem Clear.of_subset {w : WorkerProc} {vms vms' : List (String × VmState)} (h : w.Clear vms)
    (hsub : ∀ n ∈ vms'.map (·.1), isVmOf w.pool w.slot n = true → n ∈ vms.map (·.1)) : w.Clear vms' := by
  rw [Clear] at h ⊢
  split at h
  · next todo _ => exact fun n hn hvm => h n (hsub n hn hvm) hvm
  · next _ =>
      intro n hn
      cases hvm : isVmOf w.pool w.slot n with
      | false => rfl
      | true => rw [← hvm, h n (hsub n hn hvm)]
  · next => trivial

theorem mem_names_purgeVm_true {vms : List (String × VmState)} {name n : String}
    (h : n ∈ (purgeVm true vms name).map (·.1)) : n ≠ name ∧ n ∈ vms.map (·.1) := by
  obtain ⟨vm, hvm, rfl⟩ := List.mem_map.mp h
  obtain ⟨hmem, hne⟩ := List.mem_filter.mp hvm
  exact ⟨of_decide_eq_true hne, List.mem_map_of_mem hmem⟩

/-- The list of a sweep has every VM of the slot. -/
theorem mem_leftovers {own pool n : String} {slot : Nat} {vms : List (String × VmState)}
    (hn : n ∈ vms.map (·.1)) (hne : n ≠ own) (hvm : isVmOf pool slot n = true) :
    n ∈ leftovers own (slotVmPrefix pool slot) vms := by
  obtain ⟨vm, hmem, rfl⟩ := List.mem_map.mp hn
  refine List.mem_filter.mpr ⟨?_, decide_eq_true hne⟩
  exact List.mem_map_of_mem (List.mem_filter.mpr ⟨hmem, startsWith_of_isVmOf hvm⟩)

/-- **A step of a worker** keeps what it knows. It makes a VM only when its slot has none. -/
theorem step_clear {w w' : WorkerProc} {vms vms' : List (String × VmState)} {e : WorkerEvent}
    (hclear : w.Clear vms) (hfresh : w.stage.created = false → w.vm ∉ vms.map (·.1))
    (hok : e.succeeds = true) (h : w.step vms e = some (w', vms')) :
    w'.pool = w.pool ∧ w'.Clear vms' ∧
      ((vms'.map (·.1)).Sublist (vms.map (·.1)) ∨
        (w.stage = .swept ∧ vms'.map (·.1) = vms.map (·.1) ++ [w.vm])) := by
  cases e with
  | sweepStateFile text ok =>
      rw [WorkerProc.step] at h
      split at h
      · cases h
        exact ⟨rfl, trivial, Or.inl (names_foldl_purgeVm_sublist ok _ _)⟩
      · cases h
  | sweepList =>
      rw [WorkerProc.step] at h
      split at h
      · next hstage =>
          cases h
          refine ⟨rfl, fun n hn hvm => mem_leftovers hn ?_ hvm, Or.inl (List.Sublist.refl _)⟩
          rintro rfl
          exact hfresh (by rw [hstage]; rfl) hn
      · cases h
  | sweepNext ok =>
      cases (show ok = true from hok)
      rw [WorkerProc.step] at h
      split at h
      · next name rest hstage =>
          cases h
          rw [Clear, hstage] at hclear
          refine ⟨rfl, fun n hn hvm => ?_, Or.inl (names_purgeVm_sublist true _ _)⟩
          obtain ⟨hne, hn⟩ := mem_names_purgeVm_true hn
          exact (List.mem_cons.mp (hclear n hn hvm)).resolve_left hne
      · next hstage =>
          cases h
          rw [Clear, hstage] at hclear
          refine ⟨rfl, fun n hn => ?_, Or.inl (List.Sublist.refl _)⟩
          rw [← Bool.not_eq_true]
          exact fun hvm => List.not_mem_nil (hclear n hn hvm)
      · cases h
  | clone =>
      rw [WorkerProc.step] at h
      split at h
      · next hstage =>
          cases h
          exact ⟨rfl, trivial, Or.inr ⟨hstage, List.map_append⟩⟩
      · cases h
  | start =>
      rw [WorkerProc.step] at h
      split at h
      · cases h
        refine ⟨rfl, trivial, Or.inl ?_⟩
        rw [names_start]
      · cases h
  | cleanup ok =>
      cases h
      have hsub : ((if w.stage.created = true then purgeVm ok vms w.vm else vms).map (·.1)).Sublist
          (vms.map (·.1)) := by
        split
        · exact names_purgeVm_sublist ok vms w.vm
        · exact List.Sublist.refl _
      exact ⟨rfl, hclear.of_subset fun n hn _ => hsub.subset hn, Or.inl hsub⟩
  | stop =>
      cases h
      exact ⟨rfl, hclear.of_subset fun n hn _ => hn, Or.inl (List.Sublist.refl _)⟩

end WorkerProc

namespace Fleet

variable {cfg : Config} {s s' : Fleet}

/-! ### The invariant -/

structure Sole (s : Fleet) : Prop where
  unique : ∀ v ∈ s.workers, ∀ w ∈ s.workers, v.slot = w.slot → v = w
  named : ∀ w ∈ s.workers, isVmOf w.pool w.slot w.vm = true
  used : ∀ w ∈ s.workers, w.vm ∈ s.usedNames
  known : ∀ n ∈ s.vms.map (·.1), n ∈ s.usedNames
  fresh : ∀ w ∈ s.workers, w.stage.created = false → w.vm ∉ s.vms.map (·.1)
  clear : ∀ w ∈ s.workers, w.Clear s.vms

theorem sole_rest (vms : List (String × VmState)) : Sole (rest vms) where
  unique := nofun
  named := nofun
  used := nofun
  known := fun _ hn => hn
  fresh := nofun
  clear := nofun

/-- The VM of a worker of another slot is none of this one. -/
theorem Sole.not_isVmOf (h : Sole s) {v w : WorkerProc} (hw : w ∈ s.workers) (hne : v.slot ≠ w.slot) :
    isVmOf v.pool v.slot w.vm = false := by
  obtain ⟨ts, pid, hvm⟩ := isVmOf_iff.mp (h.named w hw)
  rw [← Bool.not_eq_true, hvm, isVmOf_vmName_iff]
  exact fun heq => hne heq.2

/-- VMs go. -/
theorem Sole.of_sublist (h : Sole s) {vms : List (String × VmState)} {gc : GcPhase}
    (hsub : (vms.map (·.1)).Sublist (s.vms.map (·.1))) : Sole { s with vms := vms, gc := gc } where
  unique := h.unique
  named := h.named
  used := h.used
  known := fun n hn => h.known n (hsub.subset hn)
  fresh := fun w hw hstage hn => h.fresh w hw hstage (hsub.subset hn)
  clear := fun w hw => (h.clear w hw).of_subset fun _ hn _ => hsub.subset hn

/-- What a step of the fleet does to the number of VMs of a slot. -/
def CountsKept (s s' : Fleet) : Prop :=
  ∀ pool slot, vmCount s'.vms pool slot ≤ max (vmCount s.vms pool slot) 1

theorem countsKept_of_sublist (hsub : (s'.vms.map (·.1)).Sublist (s.vms.map (·.1))) :
    s.CountsKept s' :=
  fun _ _ => (hsub.countP_le).trans (Nat.le_max_left _ _)

/-- The slot of a worker has no VM when it clones. -/
theorem Sole.countP_of_swept (h : Sole s) {w : WorkerProc} (hw : w ∈ s.workers) (hstage : w.stage = .swept)
    {pool : String} {slot : Nat} (hvm : isVmOf pool slot w.vm = true) :
    (s.vms.map (·.1)).countP (isVmOf pool slot) = 0 := by
  obtain ⟨ts, pid, hname⟩ := isVmOf_iff.mp (h.named w hw)
  rw [hname, isVmOf_vmName_iff] at hvm
  have hswept := h.clear w hw
  rw [WorkerProc.Clear, hstage] at hswept
  rw [List.countP_eq_zero, hvm.1, hvm.2]
  intro n hn
  rw [hswept n hn]
  exact Bool.false_ne_true

/-- So a clone makes the first VM of its slot. -/
theorem Sole.countsKept_of_clone (h : Sole s) {w : WorkerProc} (hw : w ∈ s.workers)
    (hstage : w.stage = .swept) (hvms : s'.vms.map (·.1) = s.vms.map (·.1) ++ [w.vm]) :
    s.CountsKept s' := by
  intro pool slot
  rw [vmCount, vmCount, hvms, List.countP_append, List.countP_singleton]
  split
  · next hvm =>
      have hzero := h.countP_of_swept hw hstage hvm
      omega
  · exact Nat.le_max_left _ _

/-! ### The steps -/

theorem Sole.worker (h : Sole s) {slot : Nat} {e : WorkerEvent} (hok : e.succeeds = true)
    (hstep : step cfg s (.worker slot e) = some s') : Sole s' ∧ s.CountsKept s' := by
  obtain ⟨w, hw, rfl, w', vms, hw', rfl⟩ := step_worker hstep
  obtain ⟨hfollows, hcases⟩ := WorkerProc.step_cases hw'
  obtain ⟨hpool, hclear, hvms⟩ := WorkerProc.step_clear (h.clear w hw) (h.fresh w hw) hok hw'
  have hmem : ∀ n ∈ vms.map (·.1), n ∈ s.vms.map (·.1) ∨ n = w.vm := by
    intro n hn
    cases hvms with
    | inl hsub => exact Or.inl (hsub.subset hn)
    | inr hclone =>
        rw [hclone.2] at hn
        exact (List.mem_append.mp hn).imp_right List.mem_singleton.mp
  refine ⟨⟨?_, ?_, ?_, fun n hn => ?_, ?_, ?_⟩, ?_⟩
  · intro v hv u hu hslot
    rcases mem_put hv with rfl | ⟨hv, hne⟩ <;> rcases mem_put hu with rfl | ⟨hu, hne'⟩
    · rfl
    · exact absurd hslot.symm hne'
    · exact absurd hslot hne
    · exact h.unique v hv u hu hslot
  · intro v hv
    rcases mem_put hv with rfl | ⟨hv, _⟩
    · rw [hpool, hfollows.slot, hfollows.vm]
      exact h.named w hw
    · exact h.named v hv
  · intro v hv
    rcases mem_put hv with rfl | ⟨hv, _⟩
    · rw [hfollows.vm]
      exact h.used w hw
    · exact h.used v hv
  · cases hmem n hn with
    | inl hn => exact h.known n hn
    | inr hn => exact hn ▸ h.used w hw
  · intro v hv hpending hlisted
    rcases mem_put hv with rfl | ⟨hv, hne⟩
    · obtain ⟨_, hcreated, _⟩ | ⟨hcreated, hsub⟩ := hcases
      · rw [hcreated] at hpending
        cases hpending
      · rw [hfollows.vm] at hlisted
        exact h.fresh w hw (hcreated ▸ hpending) (hsub _ hlisted)
    · rw [hfollows.slot] at hne
      cases hmem _ hlisted with
      | inl hold => exact h.fresh v hv hpending hold
      | inr hvm =>
          have hother := h.not_isVmOf hw hne
          rw [← hvm, h.named v hv] at hother
          cases hother
  · intro v hv
    rcases mem_put hv with rfl | ⟨hv, hne⟩
    · exact hclear
    · rw [hfollows.slot] at hne
      refine (h.clear v hv).of_subset fun n hn hvm => (hmem n hn).resolve_right ?_
      rintro rfl
      rw [h.not_isVmOf hw hne] at hvm
      cases hvm
  · cases hvms with
    | inl hsub => exact countsKept_of_sublist hsub
    | inr hclone => exact h.countsKept_of_clone hw hclone.1 hclone.2

theorem Sole.launch (h : Sole s) {pool : Pool} {slot : Nat} {ts : UInt64} {pid : UInt32}
    (hstep : step cfg s (.launch pool slot ts pid) = some s') : Sole s' ∧ s.CountsKept s' := by
  obtain ⟨⟨_, _, hfree, hfresh⟩, rfl⟩ := step_launch hstep
  refine ⟨⟨?_, ?_, ?_, fun n hn => List.mem_cons_of_mem _ (h.known n hn), ?_, ?_⟩,
    countsKept_of_sublist (List.Sublist.refl _)⟩
  · intro v hv u hu hslots
    rcases List.mem_cons.mp hv with rfl | hv <;> rcases List.mem_cons.mp hu with rfl | hu
    · rfl
    · exact absurd hslots.symm (hfree u hu)
    · exact absurd hslots (hfree v hv)
    · exact h.unique v hv u hu hslots
  · intro v hv
    rcases List.mem_cons.mp hv with rfl | hv
    · exact isVmOf_vmName_iff.mpr ⟨rfl, rfl⟩
    · exact h.named v hv
  · intro v hv
    rcases List.mem_cons.mp hv with rfl | hv
    · exact List.mem_cons_self
    · exact List.mem_cons_of_mem _ (h.used v hv)
  · intro v hv hstage hlisted
    rcases List.mem_cons.mp hv with rfl | hv
    · exact hfresh (h.known _ hlisted)
    · exact h.fresh v hv hstage hlisted
  · intro v hv
    rcases List.mem_cons.mp hv with rfl | hv
    · trivial
    · exact h.clear v hv

theorem Sole.exit (h : Sole s) (slot : Nat) : Sole { s with workers := s.workers.filter (·.slot ≠ slot) } := by
  have hsub : ∀ v ∈ s.workers.filter (·.slot ≠ slot), v ∈ s.workers :=
    fun v hv => (List.mem_filter.mp hv).1
  exact ⟨fun v hv u hu => h.unique v (hsub v hv) u (hsub u hu), fun v hv => h.named v (hsub v hv),
    fun v hv => h.used v (hsub v hv), h.known, fun v hv => h.fresh v (hsub v hv),
    fun v hv => h.clear v (hsub v hv)⟩

theorem Sole.gc (h : Sole s) {e : FleetEvent} (he : e = .gcQuery ∨ e = .gcList ∨ ∃ ok, e = .gcPurge ok)
    (hstep : step cfg s e = some s') : Sole s' ∧ s.CountsKept s' := by
  obtain ⟨hworkers, hnames, hsub⟩ := step_gc he hstep
  have hsole : Sole { s with vms := s'.vms, gc := s'.gc } := h.of_sublist hsub
  have hs' : s' = { s with vms := s'.vms, gc := s'.gc } := by
    rw [← hworkers, ← hnames]
  exact ⟨hs' ▸ hsole, countsKept_of_sublist hsub⟩

theorem Sole.step {e : FleetEvent} (h : Sole s) (hok : e.succeeds = true)
    (hstep : step cfg s e = some s') : Sole s' ∧ s.CountsKept s' := by
  cases e with
  | launch pool slot ts pid => exact h.launch hstep
  | worker slot e => exact h.worker hok hstep
  | exit slot =>
      cases hstep
      exact ⟨h.exit slot, countsKept_of_sublist (List.Sublist.refl _)⟩
  | gcQuery => exact h.gc (Or.inl rfl) hstep
  | gcList => exact h.gc (Or.inr (Or.inl rfl)) hstep
  | gcPurge ok => exact h.gc (Or.inr (Or.inr ⟨ok, rfl⟩)) hstep

end Fleet

/-! ### The units -/

theorem launched_passOf {cfg : Config} {inv : Invocation} {snap : Snapshot} {inp : PoolInput} {p : Pool}
    {b : Budget} : (passOf cfg inv snap inp p b).launched = slotsCounted cfg inv snap inp p b := by
  have hlaunch : ∀ slots : List Nat, (slots.map Action.launch).filterMap Action.launched = slots := by
    intro slots
    rw [List.filterMap_map]
    exact List.filterMap_some
  have hstop : ∀ slots : List Nat, (slots.map Action.stop).filterMap Action.launched = [] := by
    intro slots
    rw [List.filterMap_map]
    exact List.filterMap_eq_nil_iff.mpr fun _ _ => rfl
  rw [PoolPass.launched, passOf, actOn_eq]
  show ((slotsCounted cfg inv snap inp p b).map Action.launch ++
    (slotsToStop cfg snap inp p).map Action.stop).filterMap Action.launched = _
  rw [List.filterMap_append, hlaunch, hstop, List.append_nil]

/-- A pass starts units for slots of the pool it names. -/
theorem mem_launched {cfg : Config} {inv : Invocation} {snap : Snapshot} {sup : SupState} {pass : Pass}
    {unit : Pool × Nat} (hpass : reconcile cfg inv snap sup = .ok pass)
    (hunit : unit ∈ pass.launched cfg) : unit.1 ∈ cfg.pools ∧ unit.2 ∈ unit.1.slots := by
  obtain ⟨runners, _, hspec⟩ := reconcile_spec hpass
  obtain ⟨⟨p, pp⟩, hpp, hunit⟩ := List.mem_flatMap.mp hunit
  obtain ⟨slot, hslot, rfl⟩ := List.mem_map.mp hunit
  rw [hspec.pools] at hpp
  obtain ⟨pre, post, hpools, rfl⟩ := mem_zip_poolLoop hpp
  refine ⟨?_, ?_⟩
  · rw [hpools]
    exact List.mem_append_right _ List.mem_cons_self
  · rw [launched_passOf] at hslot
    exact (mem_slotsToTry (List.mem_filter.mp hslot).1).1

namespace Site

variable {cfg : Config} {s s' : Site}

structure Inv (cfg : Config) (s : Site) : Prop where
  sole : s.fleet.Sole
  one : ∀ p ∈ cfg.pools, ∀ slot ∈ p.slots, vmCount s.fleet.vms p.name slot ≤ 1
  queued : ∀ unit ∈ s.queued, unit.1 ∈ cfg.pools ∧ unit.2 ∈ unit.1.slots
  /-- Every unit is loaded once. -/
  units : (s.queued.map (·.2)).Nodup ∧ ∀ unit ∈ s.queued, s.fleet.worker unit.2 = none

theorem worker_eq_none_iff {s : Fleet} {slot : Nat} :
    s.worker slot = none ↔ ∀ w ∈ s.workers, w.slot ≠ slot := by
  rw [Fleet.worker, List.find?_eq_none]
  simp only [decide_eq_true_eq, ne_eq]

theorem Inv.accept (h : Inv cfg s) {unit : Pool × Nat} (hunit : unit.1 ∈ cfg.pools ∧ unit.2 ∈ unit.1.slots) :
    Inv cfg (s.accept unit) := by
  rw [Site.accept]
  split
  · exact h
  · next hloaded =>
      simp only [loaded, Bool.or_eq_true, not_or, Bool.not_eq_true, Option.isSome_eq_false_iff,
        Option.isNone_iff_eq_none, List.any_eq_false, beq_iff_eq] at hloaded
      refine { h with queued := fun u hu => ?_, units := ⟨?_, fun u hu => ?_⟩ }
      · rcases List.mem_cons.mp hu with rfl | hu
        · exact hunit
        · exact h.queued u hu
      · rw [List.map_cons, List.nodup_cons]
        refine ⟨fun hmem => ?_, h.units.1⟩
        obtain ⟨u, hu, hslot⟩ := List.mem_map.mp hmem
        exact hloaded.2 u hu hslot
      · rcases List.mem_cons.mp hu with rfl | hu
        · exact hloaded.1
        · exact h.units.2 u hu

theorem Inv.acceptAll (h : Inv cfg s) {units : List (Pool × Nat)}
    (hunits : ∀ unit ∈ units, unit.1 ∈ cfg.pools ∧ unit.2 ∈ unit.1.slots) :
    Inv cfg (units.foldl Site.accept s) := by
  induction units generalizing s with
  | nil => exact h
  | cons unit units ih =>
      rw [List.forall_mem_cons] at hunits
      exact ih (h.accept hunits.1) hunits.2

theorem Inv.pass (h : Inv cfg s) {exe cfgPath : String} {snap : Snapshot}
    (hstep : step cfg s (.pass exe cfgPath snap) = some s') : Inv cfg s' := by
  rw [step] at hstep
  split at hstep
  · next pass hpass =>
      cases hstep
      have hsup : Inv cfg { s with sup := pass.state } := ⟨h.sole, h.one, h.queued, h.units⟩
      exact hsup.acceptAll fun unit hunit => mem_launched hpass hunit
  · cases hstep
    exact h

/-- Workers of the same slots have become no more. -/
theorem Inv.of_fleet (h : Inv cfg s) {fleet : Fleet} {queued : List (Pool × Nat)}
    (hsole : fleet.Sole ∧ s.fleet.CountsKept fleet) (hsub : queued.Sublist s.queued)
    (hworkers : ∀ unit ∈ queued, fleet.worker unit.2 = none) :
    Inv cfg { s with fleet := fleet, queued := queued } where
  sole := hsole.1
  one := by
    intro p hp slot hslot
    have hcount := hsole.2 p.name slot
    have hone := h.one p hp slot hslot
    show vmCount fleet.vms p.name slot ≤ 1
    omega
  queued := fun unit hunit => h.queued unit (hsub.subset hunit)
  units := ⟨h.units.1.sublist (hsub.map _), hworkers⟩

theorem Inv.begins (h : Inv cfg s) {slot : Nat} {ts : UInt64} {pid : UInt32}
    (hstep : step cfg s (.begins slot ts pid) = some s') : Inv cfg s' := by
  obtain ⟨unit, _, hstep⟩ := Option.bind_eq_some_iff.mp hstep
  obtain ⟨fleet, hfleet, hstep⟩ := Option.bind_eq_some_iff.mp hstep
  cases hstep
  refine h.of_fleet (h.sole.launch hfleet) List.filter_sublist fun u hu => ?_
  obtain ⟨hu, hne⟩ := List.mem_filter.mp hu
  rw [Fleet.step] at hfleet
  split at hfleet
  · cases hfleet
    rw [worker_eq_none_iff]
    intro w hw
    rcases List.mem_cons.mp hw with rfl | hw
    · exact fun heq => of_decide_eq_true hne heq.symm
    · exact worker_eq_none_iff.mp (h.units.2 u hu) w hw
  · cases hfleet

theorem worker_of_step {s s' : Fleet} {e : FleetEvent} (hlaunch : e.launches = false)
    (hstep : s.step cfg e = some s') {slot : Nat} (hnone : s.worker slot = none) :
    s'.worker slot = none := by
  rw [worker_eq_none_iff] at hnone ⊢
  intro w' hw'
  cases Fleet.mem_workers_of_step hstep hw' with
  | inl hold =>
      obtain ⟨w, hw, hfollows⟩ := hold
      rw [hfollows.slot]
      exact hnone w hw
  | inr hnew =>
      obtain ⟨⟨pool, slot, ts, pid, rfl⟩, _⟩ := hnew
      cases hlaunch

theorem Inv.step {e : SiteEvent} (h : Inv cfg s) (hstep : step cfg s e = some s') : Inv cfg s' := by
  cases e with
  | pass exe cfgPath snap => exact h.pass hstep
  | begins slot ts pid => exact h.begins hstep
  | lost slot =>
      cases hstep
      exact h.of_fleet ⟨h.sole, Fleet.countsKept_of_sublist (List.Sublist.refl _)⟩ List.filter_sublist
        fun unit hunit => h.units.2 unit (List.mem_filter.mp hunit).1
  | fleet e =>
      rw [Site.step] at hstep
      split at hstep
      · cases hstep
      · next hallowed =>
          rw [Bool.or_eq_true, not_or, Bool.not_eq_true, Bool.not_eq_true', Bool.not_eq_false] at hallowed
          obtain ⟨fleet, hfleet, rfl⟩ := Option.map_eq_some_iff.mp hstep
          exact h.of_fleet (h.sole.step hallowed.2 hfleet) (List.Sublist.refl _)
            fun unit hunit => worker_of_step hallowed.1 hfleet (h.units.2 unit hunit)

theorem inv_rest {vms : List (String × VmState)} (sup : SupState)
    (hstart : ∀ p ∈ cfg.pools, ∀ slot ∈ p.slots, vmCount vms p.name slot ≤ 1) :
    Inv cfg (rest vms sup) where
  sole := Fleet.sole_rest vms
  one := hstart
  queued := nofun
  units := ⟨List.nodup_nil, nofun⟩

/-- Nothing but a name that has been used keeps the process of a unit from beginning. -/
theorem Inv.begins_of_queued (h : Inv cfg s) {unit : Pool × Nat} (hunit : unit ∈ s.queued) {ts : UInt64}
    {pid : UInt32} (hfresh : vmName unit.1.name unit.2 ts pid ∉ s.fleet.usedNames) :
    (Site.step cfg s (.begins unit.2 ts pid)).isSome = true := by
  have hfound : s.queued.find? (·.2 = unit.2) = some unit := by
    cases hfind : s.queued.find? (·.2 = unit.2) with
    | none => simpa using List.find?_eq_none.mp hfind unit hunit
    | some u =>
        have hslot : u.2 = unit.2 := by simpa using List.find?_some hfind
        rw [List.inj_on_of_nodup_map h.units.1 (List.mem_of_find?_eq_some hfind) hunit hslot]
  obtain ⟨hpool, hslot⟩ := h.queued unit hunit
  simp only [Site.step, hfound, Option.bind_eq_bind, Option.bind_some, Fleet.step]
  rw [if_pos ⟨hpool, hslot, h.units.2 unit hunit, hfresh⟩]
  rfl

end Site

theorem length_workerVms_le {cfg : Config} {vms : List (String × VmState)}
    (hone : ∀ p ∈ cfg.pools, ∀ slot ∈ p.slots, vmCount vms p.name slot ≤ 1) :
    (workerVms cfg vms).length ≤ (cfg.pools.map fun p => p.max.toNat).sum := by
  have hpool : ∀ p ∈ cfg.pools, ((vms.map (·.1)).countP fun name =>
      p.slots.any fun slot => isVmOf p.name slot name) ≤ p.max.toNat := by
    intro p hp
    have hslots : (p.slots.map (vmCount vms p.name)).sum ≤ p.slots.length := by
      have hle := List.sum_le_card_nsmul (p.slots.map (vmCount vms p.name)) 1 fun n hn => by
        obtain ⟨slot, hslot, rfl⟩ := List.mem_map.mp hn
        exact hone p hp slot hslot
      simpa using hle
    calc _ ≤ (p.slots.map (vmCount vms p.name)).sum :=
          Counting.countP_any_le (fun slot name => isVmOf p.name slot name) p.slots (vms.map (·.1))
      _ ≤ p.slots.length := hslots
      _ ≤ p.max.toNat := Pool.length_slots_le p
  rw [workerVms, ← List.countP_eq_length_filter]
  calc _ ≤ (cfg.pools.map fun p => (vms.map (·.1)).countP fun name =>
          p.slots.any fun slot => isVmOf p.name slot name).sum :=
        Counting.countP_any_le (fun p name => p.slots.any fun slot => isVmOf p.name slot name) cfg.pools
          (vms.map (·.1))
    _ ≤ (cfg.pools.map fun p => p.max.toNat).sum := List.sum_le_sum hpool

/-- **At every moment each slot has at most one VM, and the worker VMs are no more than the pools may
have.** -/
theorem one_vm_per_slot {cfg : Config} {vms : List (String × VmState)} {sup : SupState}
    {events : List SiteEvent} {s : Site}
    (hstart : ∀ p ∈ cfg.pools, ∀ slot ∈ p.slots, vmCount vms p.name slot ≤ 1)
    (hexec : Transition.exec (Site.step cfg) (Site.rest vms sup) events = some s) :
    (∀ p ∈ cfg.pools, ∀ slot ∈ p.slots, vmCount s.fleet.vms p.name slot ≤ 1) ∧
      (workerVms cfg s.fleet.vms).length ≤ (cfg.pools.map fun p => p.max.toNat).sum := by
  have hinv : Site.Inv cfg s := Transition.Reachable.invariant
    (fun _ _ _ hinv hstep => hinv.step hstep) (Site.inv_rest sup hstart) ⟨events, hexec⟩
  exact ⟨hinv.one, length_workerVms_le hinv.one⟩

/-- A worker is killed after its clone, and the next worker of its slot sweeps the VM and clones its own. -/
def killedAndReplaced : List SiteEvent :=
  [.pass daemonCall.exe daemonCall.cfgPath (roomySnapshot [] []), .begins 100 1700000000 4242,
    .fleet (.worker 100 (.sweepStateFile none true)), .fleet (.worker 100 .sweepList),
    .fleet (.worker 100 (.sweepNext true)), .fleet (.worker 100 .clone), .fleet (.exit 100),
    .pass daemonCall.exe daemonCall.cfgPath (roomySnapshot [] []), .begins 100 1700000060 4300,
    .fleet (.worker 100 (.sweepStateFile none true)), .fleet (.worker 100 .sweepList),
    .fleet (.worker 100 (.sweepNext true)), .fleet (.worker 100 (.sweepNext true)),
    .fleet (.worker 100 .clone)]

theorem one_vm_per_slot_killed :
    ∃ s, Transition.exec (Site.step (configWith [smallPool]))
        (Site.rest [("vmfleet-ci-103-1600000000-99", .stopped)] {}) killedAndReplaced = some s ∧
      s.fleet.vms = [("vmfleet-ci-103-1600000000-99", .stopped),
        ("vmfleet-ci-100-1700000060-4300", .stopped)] ∧
      (∀ p ∈ (configWith [smallPool]).pools, ∀ slot ∈ p.slots, vmCount s.fleet.vms p.name slot ≤ 1) ∧
      (workerVms (configWith [smallPool]) s.fleet.vms).length ≤
        ((configWith [smallPool]).pools.map fun p => p.max.toNat).sum := by
  have hvms : (Transition.exec (Site.step (configWith [smallPool]))
      (Site.rest [("vmfleet-ci-103-1600000000-99", .stopped)] {}) killedAndReplaced).map (·.fleet.vms) =
    some [("vmfleet-ci-103-1600000000-99", .stopped), ("vmfleet-ci-100-1700000060-4300", .stopped)] := by
    decide +kernel
  obtain ⟨s, hexec, hs⟩ := Option.map_eq_some_iff.mp hvms
  exact ⟨s, hexec, hs, one_vm_per_slot (by decide +kernel) hexec⟩

end VmFleet
