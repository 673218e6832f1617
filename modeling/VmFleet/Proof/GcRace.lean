import VmFleet.Source.Fleet
import VmFleet.Library.Transition
import VmFleet.Proof.Gc

/-!
# A run of `gc` among supervisor and workers

`gc` reads the active slots first and lists the VMs later. A VM that is cloned in between, by a worker
whose slot was not active at the first query, is listed as an orphan. `gc_spares_running` says that
nothing else goes wrong: as long as no such VM is cloned, no VM of a worker in an active unit is purged.
-/

namespace VmFleet

/-! ### One step of a worker -/

/-- What no step of a worker does, and what every step leaves. -/
structure WorkerProc.Follows (w w' : WorkerProc) : Prop where
  slot : w'.slot = w.slot
  vm : w'.vm = w.vm
  active : w'.active = true → w.active = true

theorem names_purgeVm_sublist (ok : Bool) (vms : List (String × VmState)) (name : String) :
    ((purgeVm ok vms name).map (·.1)).Sublist (vms.map (·.1)) := by
  rw [purgeVm]
  split
  · exact List.filter_sublist.map _
  · exact List.Sublist.refl _

theorem mem_names_purgeVm {ok : Bool} {vms : List (String × VmState)} {name n : String}
    (h : n ∈ (purgeVm ok vms name).map (·.1)) : n ∈ vms.map (·.1) :=
  (names_purgeVm_sublist ok vms name).subset h

theorem names_foldl_purgeVm_sublist (ok : Bool) (names : List String) (vms : List (String × VmState)) :
    ((names.foldl (purgeVm ok) vms).map (·.1)).Sublist (vms.map (·.1)) := by
  induction names generalizing vms with
  | nil => exact List.Sublist.refl _
  | cons name names ih => exact (ih _).trans (names_purgeVm_sublist ok vms name)

theorem names_start (vms : List (String × VmState)) (name : String) :
    (vms.map fun vm => if vm.1 = name then (vm.1, VmState.running) else vm).map (·.1) =
      vms.map (·.1) := by
  rw [List.map_map]
  refine List.map_congr_left fun vm _ => ?_
  show (if vm.1 = name then (vm.1, VmState.running) else vm).1 = vm.1
  split <;> rfl

/-- **A step of a worker** clones its VM, or it adds no VM and leaves the `created` flag. -/
theorem WorkerProc.step_cases {w w' : WorkerProc} {vms vms' : List (String × VmState)}
    {e : WorkerEvent} (h : w.step vms e = some (w', vms')) :
    w.Follows w' ∧
      ((e = .clone ∧ w'.stage.created = true ∧ vms'.map (·.1) = vms.map (·.1) ++ [w.vm]) ∨
        (w'.stage.created = w.stage.created ∧ ∀ n ∈ vms'.map (·.1), n ∈ vms.map (·.1))) := by
  cases e with
  | sweepStateFile text ok =>
      rw [WorkerProc.step] at h
      split at h
      · next hstage =>
          cases h
          exact ⟨⟨rfl, rfl, id⟩, Or.inr ⟨by rw [hstage]; rfl, fun n hn => (names_foldl_purgeVm_sublist ok _ vms).subset hn⟩⟩
      · cases h
  | sweepList =>
      rw [WorkerProc.step] at h
      split at h
      · next hstage =>
          cases h
          exact ⟨⟨rfl, rfl, id⟩, Or.inr ⟨by rw [hstage]; rfl, fun n hn => hn⟩⟩
      · cases h
  | sweepNext ok =>
      rw [WorkerProc.step] at h
      split at h
      · next name rest hstage =>
          cases h
          exact ⟨⟨rfl, rfl, id⟩, Or.inr ⟨by rw [hstage]; rfl, fun n => mem_names_purgeVm⟩⟩
      · next hstage =>
          cases h
          exact ⟨⟨rfl, rfl, id⟩, Or.inr ⟨by rw [hstage]; rfl, fun n hn => hn⟩⟩
      · cases h
  | clone =>
      rw [WorkerProc.step] at h
      split at h
      · cases h
        exact ⟨⟨rfl, rfl, id⟩, Or.inl ⟨rfl, rfl, List.map_append⟩⟩
      · cases h
  | start =>
      rw [WorkerProc.step] at h
      split at h
      · next hstage =>
          cases h
          exact ⟨⟨rfl, rfl, id⟩, Or.inr ⟨by rw [hstage]; rfl, fun n hn => names_start vms w.vm ▸ hn⟩⟩
      · cases h
  | cleanup ok =>
      cases h
      refine ⟨⟨rfl, rfl, id⟩, Or.inr ⟨rfl, fun n hn => ?_⟩⟩
      split at hn
      · exact mem_names_purgeVm hn
      · exact hn
  | stop =>
      cases h
      exact ⟨⟨rfl, rfl, nofun⟩, Or.inr ⟨rfl, fun n hn => hn⟩⟩

namespace Fleet

variable {cfg : Config} {s s' : Fleet}

/-! ### The invariant -/

/-- What `gc` knows while it runs: of the VMs of workers in active units, those that exist are of
slots it has seen, and later none is on its list. -/
def GcSpares (s : Fleet) : Prop :=
  match s.gc with
  | .idle => True
  | .queried active =>
    ∀ w ∈ s.workers, w.active = true → w.stage.created = true → w.slot ∈ active
  | .purging todo =>
    (∀ n ∈ todo, n ∈ s.usedNames) ∧ ∀ w ∈ s.workers, w.active = true → w.vm ∉ todo

structure Inv (cfg : Config) (s : Fleet) : Prop where
  unique : ∀ v ∈ s.workers, ∀ w ∈ s.workers, v.slot = w.slot → v = w
  decodes : ∀ w ∈ s.workers, gcSlot cfg w.vm = some w.slot
  named : ∀ w ∈ s.workers, w.vm ∈ s.usedNames
  known : ∀ n ∈ s.vms.map (·.1), n ∈ s.usedNames
  pending : ∀ w ∈ s.workers, w.stage.created = false → w.vm ∉ s.vms.map (·.1)
  spares : s.GcSpares

theorem inv_rest (vms : List (String × VmState)) : Inv cfg (rest vms) where
  unique := nofun
  decodes := nofun
  named := nofun
  known := fun _ hn => hn
  pending := nofun
  spares := trivial

theorem Inv.eq_of_vm (h : Inv cfg s) {v w : WorkerProc} (hv : v ∈ s.workers) (hw : w ∈ s.workers)
    (hvm : v.vm = w.vm) : v = w := by
  have hslots := (h.decodes v hv).symm.trans (hvm ▸ h.decodes w hw)
  exact h.unique v hv w hw (Option.some.inj hslots)

theorem mem_put {w v : WorkerProc} {vms : List (String × VmState)} (hv : v ∈ (s.put w vms).workers) :
    v = w ∨ v ∈ s.workers ∧ v.slot ≠ w.slot := by
  obtain ⟨u, hu, rfl⟩ := List.mem_map.mp hv
  by_cases hslot : u.slot = w.slot
  · exact Or.inl (if_pos hslot)
  · rw [if_neg hslot]
    exact Or.inr ⟨hu, hslot⟩

theorem Inv.put (h : Inv cfg s) {w w' : WorkerProc} {vms : List (String × VmState)}
    (hw : w ∈ s.workers) (hfollows : w.Follows w')
    (hknown : ∀ n ∈ vms.map (·.1), n ∈ s.usedNames)
    (hpending : ∀ v ∈ (s.put w' vms).workers, v.stage.created = false → v.vm ∉ vms.map (·.1))
    (hspares : ∀ active, s.gc = .queried active → w'.active = true → w'.stage.created = true →
      w'.slot ∈ active) : Inv cfg (s.put w' vms) where
  unique := by
    intro v hv u hu hslot
    rcases mem_put hv with rfl | ⟨hv, hne⟩ <;> rcases mem_put hu with rfl | ⟨hu, hne'⟩
    · rfl
    · exact absurd hslot.symm hne'
    · exact absurd hslot hne
    · exact h.unique v hv u hu hslot
  decodes := by
    intro v hv
    rcases mem_put hv with rfl | ⟨hv, _⟩
    · rw [hfollows.vm, hfollows.slot]
      exact h.decodes w hw
    · exact h.decodes v hv
  named := by
    intro v hv
    rcases mem_put hv with rfl | ⟨hv, _⟩
    · rw [hfollows.vm]
      exact h.named w hw
    · exact h.named v hv
  known := hknown
  pending := hpending
  spares := by
    have hgc := h.spares
    rw [GcSpares] at hgc ⊢
    show match s.gc with
      | .idle => True
      | .queried active => _
      | .purging todo => _
    cases hphase : s.gc with
    | idle => trivial
    | queried active =>
        rw [hphase] at hgc
        intro v hv
        rcases mem_put hv with rfl | ⟨hv, _⟩
        · exact hspares active hphase
        · exact hgc v hv
    | purging todo =>
        rw [hphase] at hgc
        refine ⟨hgc.1, fun v hv hactive => ?_⟩
        rcases mem_put hv with rfl | ⟨hv, _⟩
        · rw [hfollows.vm]
          exact hgc.2 w hw (hfollows.active hactive)
        · exact hgc.2 v hv hactive

/-! ### The steps -/

/-- Between the two queries of `gc`, a worker in an active unit clones only if `gc` has seen its slot. -/
def CloneSeen (s : Fleet) : FleetEvent → Prop
  | .worker slot .clone =>
    match s.gc with
    | .queried active => slot ∈ s.activeSlots → slot ∈ active
    | _ => True
  | _ => True

instance (s : Fleet) : ∀ e, Decidable (s.CloneSeen e)
  | .worker slot .clone =>
    match hphase : s.gc with
    | .queried active =>
      decidable_of_iff (slot ∈ s.activeSlots → slot ∈ active) (by rw [CloneSeen, hphase])
    | .idle | .purging _ => isTrue (by rw [CloneSeen, hphase]; trivial)
  | .worker _ (.sweepStateFile _ _) | .worker _ .sweepList | .worker _ (.sweepNext _)
  | .worker _ .start | .worker _ (.cleanup _) | .worker _ .stop => isTrue trivial
  | .launch _ _ _ _ | .exit _ | .gcQuery | .gcList | .gcPurge _ => isTrue trivial

theorem mem_activeSlots {w : WorkerProc} (hw : w ∈ s.workers) (hactive : w.active = true) :
    w.slot ∈ s.activeSlots :=
  List.mem_map_of_mem (List.mem_filter.mpr ⟨hw, hactive⟩)

theorem worker_spec {slot : Nat} {w : WorkerProc} (h : s.worker slot = some w) :
    w ∈ s.workers ∧ w.slot = slot :=
  ⟨List.mem_of_find?_eq_some h, by simpa using List.find?_some h⟩

/-! ### One step of the fleet -/

theorem step_launch {pool : Pool} {slot : Nat} {ts : UInt64} {pid : UInt32}
    (hstep : step cfg s (.launch pool slot ts pid) = some s') :
    (pool ∈ cfg.pools ∧ slot ∈ pool.slots ∧ (∀ v ∈ s.workers, v.slot ≠ slot) ∧
        vmName pool.name slot ts pid ∉ s.usedNames) ∧
      s' = { s with
        workers := ⟨pool.name, slot, vmName pool.name slot ts pid, .launched, true⟩ :: s.workers
        usedNames := vmName pool.name slot ts pid :: s.usedNames } := by
  rw [step] at hstep
  split at hstep
  · next hguard =>
      obtain ⟨hpool, hslot, hnone, hfresh⟩ := hguard
      cases hstep
      refine ⟨⟨hpool, hslot, fun v hv => ?_, hfresh⟩, rfl⟩
      simpa using List.find?_eq_none.mp hnone v hv
  · cases hstep

theorem step_worker {slot : Nat} {e : WorkerEvent} (hstep : step cfg s (.worker slot e) = some s') :
    ∃ w ∈ s.workers, w.slot = slot ∧ ∃ w' vms, w.step s.vms e = some (w', vms) ∧ s' = s.put w' vms := by
  obtain ⟨w, hfound, hstep⟩ := Option.bind_eq_some_iff.mp hstep
  obtain ⟨⟨w', vms⟩, hw', hstep⟩ := Option.bind_eq_some_iff.mp hstep
  cases hstep
  obtain ⟨hw, hslot⟩ := worker_spec hfound
  exact ⟨w, hw, hslot, w', vms, hw', rfl⟩

/-- A step of `gc` leaves the workers, and takes VMs away at most. -/
theorem step_gc {e : FleetEvent} (hgc : e = .gcQuery ∨ e = .gcList ∨ ∃ ok, e = .gcPurge ok)
    (hstep : step cfg s e = some s') :
    s'.workers = s.workers ∧ s'.usedNames = s.usedNames ∧
      (s'.vms.map (·.1)).Sublist (s.vms.map (·.1)) := by
  rcases hgc with rfl | rfl | ⟨ok, rfl⟩
  · rw [step] at hstep
    split at hstep <;> cases hstep
    exact ⟨rfl, rfl, List.Sublist.refl _⟩
  · rw [step] at hstep
    split at hstep <;> cases hstep
    exact ⟨rfl, rfl, List.Sublist.refl _⟩
  · rw [step] at hstep
    split at hstep
    · cases hstep
      exact ⟨rfl, rfl, names_purgeVm_sublist ok s.vms _⟩
    · cases hstep
      exact ⟨rfl, rfl, List.Sublist.refl _⟩
    · cases hstep

/-- Every worker was there before, but for the one a launch makes. -/
theorem mem_workers_of_step {e : FleetEvent} (hstep : step cfg s e = some s') {w' : WorkerProc}
    (hw' : w' ∈ s'.workers) :
    (∃ w ∈ s.workers, w.Follows w') ∨
      (∃ pool slot ts pid, e = .launch pool slot ts pid) ∧ w'.vm ∉ s.usedNames ∧ w'.vm ∈ s'.usedNames := by
  have hsame : w' ∈ s.workers → ∃ w ∈ s.workers, w.Follows w' := fun hw => ⟨w', hw, rfl, rfl, id⟩
  cases e with
  | launch pool slot ts pid =>
      obtain ⟨⟨_, _, _, hfresh⟩, rfl⟩ := step_launch hstep
      rcases List.mem_cons.mp hw' with rfl | hw
      · exact Or.inr ⟨⟨pool, slot, ts, pid, rfl⟩, hfresh, List.mem_cons_self⟩
      · exact Or.inl (hsame hw)
  | worker slot e =>
      obtain ⟨w, hw, _, v, vms, hv, rfl⟩ := step_worker hstep
      rcases mem_put hw' with rfl | ⟨hw', _⟩
      · exact Or.inl ⟨w, hw, (WorkerProc.step_cases hv).1⟩
      · exact Or.inl (hsame hw')
  | exit slot =>
      cases hstep
      exact Or.inl (hsame (List.mem_filter.mp hw').1)
  | gcQuery => exact Or.inl (hsame ((step_gc (Or.inl rfl) hstep).1 ▸ hw'))
  | gcList => exact Or.inl (hsame ((step_gc (Or.inr (Or.inl rfl)) hstep).1 ▸ hw'))
  | gcPurge ok => exact Or.inl (hsame ((step_gc (Or.inr (Or.inr ⟨ok, rfl⟩)) hstep).1 ▸ hw'))

/-! ### The invariant is kept -/

theorem Inv.worker (h : Inv cfg s) {slot : Nat} {e : WorkerEvent} (hok : s.CloneSeen (.worker slot e))
    (hstep : step cfg s (.worker slot e) = some s') : Inv cfg s' := by
  obtain ⟨w, hw, rfl, w', vms, hw', rfl⟩ := step_worker hstep
  obtain ⟨hfollows, ⟨rfl, hcreated, hvms⟩ | ⟨hcreated, hvms⟩⟩ := WorkerProc.step_cases hw'
  · refine h.put hw hfollows ?_ ?_ ?_
    · intro n hn
      rw [hvms] at hn
      cases List.mem_append.mp hn with
      | inl hn => exact h.known n hn
      | inr hn => exact List.mem_singleton.mp hn ▸ h.named w hw
    · intro v hv hpending
      rcases mem_put hv with rfl | ⟨hv, hne⟩
      · rw [hcreated] at hpending
        cases hpending
      · rw [hvms, List.mem_append, List.mem_singleton, not_or]
        refine ⟨h.pending v hv hpending, fun hvm => hne ?_⟩
        rw [h.eq_of_vm hv hw hvm, hfollows.slot]
    · intro active hphase hactive _
      rw [CloneSeen, hphase] at hok
      rw [hfollows.slot]
      exact hok (mem_activeSlots hw (hfollows.active hactive))
  · refine h.put hw hfollows (fun n hn => h.known n (hvms n hn)) ?_ ?_
    · intro v hv hpending hlisted
      rcases mem_put hv with rfl | ⟨hv, _⟩
      · rw [hfollows.vm] at hlisted
        exact h.pending w hw (hcreated ▸ hpending) (hvms _ hlisted)
      · exact h.pending v hv hpending (hvms _ hlisted)
    · intro active hphase hactive hcreated'
      have hgc := h.spares
      rw [GcSpares, hphase] at hgc
      rw [hfollows.slot]
      exact hgc w hw (hfollows.active hactive) (hcreated ▸ hcreated')

theorem Inv.launch (h : Inv cfg s) {pool : Pool} {slot : Nat} {ts : UInt64} {pid : UInt32}
    (hdecode : ∀ p ∈ cfg.pools, ∀ slot ∈ p.slots, ∀ ts pid,
      gcSlot cfg (vmName p.name slot ts pid) = some slot)
    (hstep : step cfg s (.launch pool slot ts pid) = some s') : Inv cfg s' := by
  obtain ⟨⟨hpool, hslot, hfree, hfresh⟩, rfl⟩ := step_launch hstep
  refine ⟨?_, ?_, ?_, fun n hn => List.mem_cons_of_mem _ (h.known n hn), ?_, ?_⟩
  · intro v hv u hu hslots
    rcases List.mem_cons.mp hv with rfl | hv <;> rcases List.mem_cons.mp hu with rfl | hu
    · rfl
    · exact absurd hslots.symm (hfree u hu)
    · exact absurd hslots (hfree v hv)
    · exact h.unique v hv u hu hslots
  · intro v hv
    rcases List.mem_cons.mp hv with rfl | hv
    · exact hdecode pool hpool slot hslot ts pid
    · exact h.decodes v hv
  · intro v hv
    rcases List.mem_cons.mp hv with rfl | hv
    · exact List.mem_cons_self
    · exact List.mem_cons_of_mem _ (h.named v hv)
  · intro v hv hpending hlisted
    rcases List.mem_cons.mp hv with rfl | hv
    · exact hfresh (h.known _ hlisted)
    · exact h.pending v hv hpending hlisted
  · have hgc := h.spares
    rw [GcSpares] at hgc ⊢
    cases hphase : s.gc with
    | idle => trivial
    | queried active =>
        rw [hphase] at hgc
        intro v hv hactive hcreated
        rcases List.mem_cons.mp hv with rfl | hv
        · cases hcreated
        · exact hgc v hv hactive hcreated
    | purging todo =>
        rw [hphase] at hgc
        refine ⟨fun n hn => List.mem_cons_of_mem _ (hgc.1 n hn), fun v hv hactive => ?_⟩
        rcases List.mem_cons.mp hv with rfl | hv
        · exact fun hmem => hfresh (hgc.1 _ hmem)
        · exact hgc.2 v hv hactive

theorem Inv.exit (h : Inv cfg s) (slot : Nat) :
    Inv cfg { s with workers := s.workers.filter (·.slot ≠ slot) } := by
  have hsub : ∀ v ∈ s.workers.filter (·.slot ≠ slot), v ∈ s.workers :=
    fun v hv => (List.mem_filter.mp hv).1
  refine ⟨fun v hv u hu => h.unique v (hsub v hv) u (hsub u hu), fun v hv => h.decodes v (hsub v hv),
    fun v hv => h.named v (hsub v hv), h.known, fun v hv => h.pending v (hsub v hv), ?_⟩
  have hgc := h.spares
  rw [GcSpares] at hgc ⊢
  cases hphase : s.gc with
  | idle => trivial
  | queried active =>
      rw [hphase] at hgc
      exact fun v hv => hgc v (hsub v hv)
  | purging todo =>
      rw [hphase] at hgc
      exact ⟨hgc.1, fun v hv => hgc.2 v (hsub v hv)⟩

theorem Inv.gcQuery (h : Inv cfg s) (hstep : step cfg s .gcQuery = some s') : Inv cfg s' := by
  rw [step] at hstep
  split at hstep
  · cases hstep
    exact { h with spares := fun w hw hactive _ => mem_activeSlots hw hactive }
  · cases hstep

theorem mem_gcTodo_iff {active : List Nat} {vms : List (String × VmState)} {name : String} :
    name ∈ gcTodo cfg active vms ↔
      name ∈ vms.map (·.1) ∧ Text.startsWith name vmPrefix = true ∧ isBase cfg name = false ∧
        gcOrphan cfg active name = true := by
  rw [gcTodo, mem_gcPurges_iff, mem_prefixed_iff, and_assoc]

/-- The list is made: a worker that has cloned is of a slot that was active, the VM of any other does
not exist yet. -/
theorem Inv.gcList (h : Inv cfg s) (hstep : step cfg s .gcList = some s') : Inv cfg s' := by
  rw [step] at hstep
  split at hstep
  · next active hphase =>
      cases hstep
      have hgc := h.spares
      rw [GcSpares, hphase] at hgc
      refine { h with spares := ⟨fun n hn => h.known n (mem_gcTodo_iff.mp hn).1, ?_⟩ }
      intro w hw hactive hmem
      obtain ⟨hlisted, _, _, horphan⟩ := mem_gcTodo_iff.mp hmem
      cases hcreated : w.stage.created with
      | false => exact h.pending w hw hcreated hlisted
      | true =>
          have hspared := gcOrphan_eq_false_iff.mpr
            ⟨w.slot, hgc w hw hactive hcreated, h.decodes w hw⟩
          rw [hspared] at horphan
          cases horphan
  · cases hstep

theorem Inv.gcPurge (h : Inv cfg s) {ok : Bool} (hstep : step cfg s (.gcPurge ok) = some s') :
    Inv cfg s' := by
  rw [step] at hstep
  split at hstep
  · next name todo hphase =>
      cases hstep
      have hgc := h.spares
      rw [GcSpares, hphase] at hgc
      refine { h with known := fun n hn => ?_, pending := fun w hw hpending hlisted => ?_, spares := ?_ }
      · exact h.known n (mem_names_purgeVm hn)
      · exact h.pending w hw hpending (mem_names_purgeVm hlisted)
      · refine ⟨fun n hn => hgc.1 n (List.mem_cons_of_mem _ hn), fun w hw hactive hmem => ?_⟩
        exact hgc.2 w hw hactive (List.mem_cons_of_mem _ hmem)
  · cases hstep
    exact { h with spares := trivial }
  · cases hstep

theorem Inv.step {e : FleetEvent}
    (hdecode : ∀ p ∈ cfg.pools, ∀ slot ∈ p.slots, ∀ ts pid,
      gcSlot cfg (vmName p.name slot ts pid) = some slot)
    (h : Inv cfg s) (hok : s.CloneSeen e) (hstep : step cfg s e = some s') : Inv cfg s' := by
  cases e with
  | launch pool slot ts pid => exact h.launch hdecode hstep
  | worker slot e => exact h.worker hok hstep
  | exit slot =>
      cases hstep
      exact h.exit slot
  | gcQuery => exact h.gcQuery hstep
  | gcList => exact h.gcList hstep
  | gcPurge ok => exact h.gcPurge hstep

theorem Inv.not_mem_of_nextPurge (h : Inv cfg s) {name : String} (hnext : s.nextPurge = some name)
    {w : WorkerProc} (hw : w ∈ s.workers) (hactive : w.active = true) : w.vm ≠ name := by
  have hgc := h.spares
  rw [nextPurge] at hnext
  split at hnext
  · next todo hphase =>
      cases hnext
      rw [GcSpares, hphase] at hgc
      exact fun hvm => hgc.2 w hw hactive (hvm ▸ List.mem_cons_self)
  · cases hnext

/-- **In a run in which every VM cloned between the two queries is of a slot that `gc` has seen, `gc`
purges no VM of a worker in an active unit.** -/
theorem gc_spares_running
    (hdecode : ∀ p ∈ cfg.pools, ∀ slot ∈ p.slots, ∀ ts pid,
      gcSlot cfg (vmName p.name slot ts pid) = some slot)
    {vms : List (String × VmState)} {events : List FleetEvent}
    (hmeets : Transition.Meets (Fleet.step cfg) CloneSeen (rest vms) events)
    (hexec : Transition.exec (Fleet.step cfg) (rest vms) events = some s)
    {name : String} (hnext : s.nextPurge = some name) :
    ∀ w ∈ s.workers, w.active = true → w.stage.created = true → w.vm ≠ name := by
  have hinv : Inv cfg s := Transition.exec_invariant
    (fun _ _ _ hinv hok hstep => hinv.step hdecode hok hstep) (inv_rest vms) hmeets hexec
  exact fun w hw hactive _ => hinv.not_mem_of_nextPurge hnext hw hactive

/-! ### A run that nothing interrupts -/

/-- The two queries, when nothing comes between them, decide what `gc` does on their answers. -/
theorem exec_queries {read : GcRead} (hidle : s.gc = .idle)
    (hunits : activeSlotsOf read.activeUnits = s.activeSlots)
    (hvms : Multipass.list read.vmList = .ok s.vms) :
    Transition.exec (Fleet.step cfg) s [.gcQuery, .gcList] =
      some { s with gc := .purging (VmFleet.gc cfg read).purged } := by
  have hquery : Fleet.step cfg s .gcQuery = some { s with gc := .queried s.activeSlots } := by
    simp only [Fleet.step, hidle]
  refine Transition.exec_cons_eq_some_iff.mpr ⟨_, hquery, ?_⟩
  rw [purged_of_ok hvms, hunits]
  rfl

/-- So does a sweep. -/
theorem listedVms_eq_leftovers {own pre : String} {vmList : Answer} (h : Multipass.list vmList = .ok s.vms) :
    listedVms own pre vmList = leftovers own pre s.vms := by
  rw [listedVms, listPrefixed_ok h]
  rfl

/-! ### The clone that goes wrong -/

variable (cfg) in
theorem exec_purges {pre post : List String} {name : String}
    (hphase : s.gc = .purging (pre ++ name :: post)) :
    ∃ s', Transition.exec (Fleet.step cfg) s (List.replicate pre.length (.gcPurge true)) = some s' ∧
      s'.nextPurge = some name ∧ s'.workers = s.workers := by
  induction pre generalizing s with
  | nil => exact ⟨s, rfl, by rw [nextPurge, hphase]; rfl, rfl⟩
  | cons first pre ih =>
      have hstep : Fleet.step cfg s (.gcPurge true) =
          some { s with vms := purgeVm true s.vms first, gc := .purging (pre ++ name :: post) } := by
        rw [Fleet.step, hphase]
        rfl
      obtain ⟨s', hexec, hnext, hworkers⟩ := ih (s := { s with
        vms := purgeVm true s.vms first, gc := .purging (pre ++ name :: post) }) rfl
      exact ⟨s', Transition.exec_cons_eq_some_iff.mpr ⟨_, hstep, hexec⟩, hnext, hworkers⟩

theorem Inv.worker_eq (h : Inv cfg s) {w : WorkerProc} (hw : w ∈ s.workers) :
    s.worker w.slot = some w := by
  cases hfound : s.worker w.slot with
  | none => simpa using List.find?_eq_none.mp hfound w hw
  | some v =>
      obtain ⟨hv, hslot⟩ := worker_spec hfound
      rw [h.unique v hv w hw hslot]

theorem Inv.step_clone (h : Inv cfg s) {w : WorkerProc} (hw : w ∈ s.workers) (hswept : w.stage = .swept) :
    Fleet.step cfg s (.worker w.slot .clone) =
      some (s.put { w with stage := .cloned } (s.vms ++ [(w.vm, .stopped)])) := by
  have hworker : w.step s.vms .clone =
      some ({ w with stage := .cloned }, s.vms ++ [(w.vm, .stopped)]) := by
    simp only [WorkerProc.step, hswept]
  simp only [Fleet.step, h.worker_eq hw, Option.bind_eq_bind, Option.bind_some, hworker]
  rfl

/-- The condition cannot be left out: a clone of a slot that `gc` has not seen can always be followed by
steps of `gc` alone that come to purge the VM. -/
theorem unseen_clone_condemned (h : Inv cfg s) {active : List Nat} {w : WorkerProc}
    (hphase : s.gc = .queried active) (hw : w ∈ s.workers) (hactive : w.active = true)
    (hswept : w.stage = .swept) (hunseen : w.slot ∉ active)
    (hstart : Text.startsWith w.vm vmPrefix = true) (hbase : isBase cfg w.vm = false) :
    ∃ events s', Transition.exec (Fleet.step cfg) s (.worker w.slot .clone :: .gcList :: events) = some s' ∧
      s'.nextPurge = some w.vm ∧
      ∃ v ∈ s'.workers, v.vm = w.vm ∧ v.active = true ∧ v.stage.created = true := by
  have hlist : Fleet.step cfg (s.put { w with stage := .cloned } (s.vms ++ [(w.vm, .stopped)])) .gcList =
      some { s.put { w with stage := .cloned } (s.vms ++ [(w.vm, .stopped)]) with
        gc := .purging (gcTodo cfg active (s.vms ++ [(w.vm, .stopped)])) } := by
    simp only [Fleet.step, put, hphase]
  have hmem : w.vm ∈ gcTodo cfg active (s.vms ++ [(w.vm, .stopped)]) := by
    refine mem_gcTodo_iff.mpr ⟨?_, hstart, hbase, ?_⟩
    · rw [List.map_append]
      exact List.mem_append_right _ List.mem_cons_self
    · rw [gcOrphan, h.decodes w hw]
      exact decide_eq_true hunseen
  obtain ⟨pre, post, hsplit⟩ := List.append_of_mem hmem
  rw [hsplit] at hlist
  obtain ⟨s', hexec, hnext, hworkers⟩ := exec_purges cfg (s := {
    s.put { w with stage := .cloned } (s.vms ++ [(w.vm, .stopped)]) with
      gc := .purging (pre ++ w.vm :: post) }) rfl
  have hclone : { w with stage := WorkerStage.cloned } ∈ s'.workers := by
    rw [hworkers]
    exact List.mem_map.mpr ⟨w, hw, if_pos rfl⟩
  exact ⟨_, s', Transition.exec_cons_eq_some_iff.mpr ⟨_, h.step_clone hw hswept,
    Transition.exec_cons_eq_some_iff.mpr ⟨_, hlist, hexec⟩⟩, hnext, _, hclone, rfl, hactive, rfl⟩

end Fleet

/-- A worker is at its clone when `gc` begins, and an old VM of another slot is left. -/
def seenClone : List FleetEvent :=
  [.launch smallPool 100 1700000000 4242, .worker 100 (.sweepStateFile none true),
    .worker 100 .sweepList, .worker 100 (.sweepNext true), .gcQuery, .worker 100 .clone, .gcList]

theorem seenClone_spares_running :
    (Transition.exec (Fleet.step (configWith [smallPool]))
        (Fleet.rest [("vmfleet-ci-103-1600000000-99", .running)]) seenClone).bind Fleet.nextPurge =
      some "vmfleet-ci-103-1600000000-99" ∧
    ∀ s, Transition.exec (Fleet.step (configWith [smallPool]))
        (Fleet.rest [("vmfleet-ci-103-1600000000-99", .running)]) seenClone = some s →
      ∀ w ∈ s.workers, w.active = true → w.stage.created = true →
        w.vm ≠ "vmfleet-ci-103-1600000000-99" := by
  have hnext : (Transition.exec (Fleet.step (configWith [smallPool]))
      (Fleet.rest [("vmfleet-ci-103-1600000000-99", .running)]) seenClone).bind Fleet.nextPurge =
    some "vmfleet-ci-103-1600000000-99" := by decide
  refine ⟨hnext, fun s hexec => ?_⟩
  rw [hexec] at hnext
  exact Fleet.gc_spares_running
    (fun p hp slot hslot ts pid => gcSlot_of_no_hyphens (by decide) hp hslot) (by decide) hexec hnext

/-- The worker is launched after the first query of `gc` and has cloned before the second. -/
def unseenClone : List FleetEvent :=
  [.gcQuery, .launch smallPool 100 1700000000 4242, .worker 100 (.sweepStateFile none true),
    .worker 100 .sweepList, .worker 100 (.sweepNext true), .worker 100 .clone, .gcList]

/-- Its VM is purged while it runs. -/
theorem gc_purges_running_worker :
    (configWith [smallPool]).validate = .ok () ∧
    (∀ p ∈ (configWith [smallPool]).pools, ∀ slot ∈ p.slots, ∀ ts pid,
      gcSlot (configWith [smallPool]) (vmName p.name slot ts pid) = some slot) ∧
    ∃ s, Transition.exec (Fleet.step (configWith [smallPool])) (Fleet.rest []) unseenClone = some s ∧
      ∃ w ∈ s.workers, w.active = true ∧ w.stage.created = true ∧
        (w.vm, VmState.stopped) ∈ s.vms ∧ s.nextPurge = some w.vm := by
  refine ⟨by decide, fun p hp slot hslot ts pid => gcSlot_of_no_hyphens (by decide) hp hslot,
    _, rfl, _, List.mem_cons_self, ?_⟩
  decide

end VmFleet
