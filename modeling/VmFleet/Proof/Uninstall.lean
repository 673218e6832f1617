import VmFleet.Source.Uninstall
import VmFleet.Proof.OneVm

/-!
# What an uninstall leaves

`uninstall` finds VMs by their prefix. The VM of a worker always has it, a base is called what its table
says, and `validate` accepts any name. `uninstall_leaves_nothing` says that nothing else is left behind, but
for what is cloned after the VMs are listed. A worker that does so was being stopped before
(`inactive_of_late`). What the daemon finishes for a worker that is gone would be such a clone too; here a
worker is there when its clone is made.
-/

namespace VmFleet

/-! ### One step of the fleet -/

namespace Fleet

variable {cfg : Config} {s s' : Fleet} {e : FleetEvent}

/-- VMs are made by clones alone. -/
theorem names_of_step (hclone : ∀ slot, e ≠ .worker slot .clone) (hstep : step cfg s e = some s') :
    ∀ n ∈ s'.vms.map (·.1), n ∈ s.vms.map (·.1) := by
  cases e with
  | launch pool slot ts pid =>
      obtain ⟨_, rfl⟩ := step_launch hstep
      exact fun n hn => hn
  | worker slot e =>
      obtain ⟨w, _, _, w', vms, hw', rfl⟩ := step_worker hstep
      obtain ⟨_, ⟨rfl, _⟩ | ⟨_, hsub⟩⟩ := WorkerProc.step_cases hw'
      · exact absurd rfl (hclone slot)
      · exact hsub
  | exit slot =>
      cases hstep
      exact fun n hn => hn
  | gcQuery => exact fun n hn => (step_gc (Or.inl rfl) hstep).2.2.subset hn
  | gcList => exact fun n hn => (step_gc (Or.inr (Or.inl rfl)) hstep).2.2.subset hn
  | gcPurge ok => exact fun n hn => (step_gc (Or.inr (Or.inr ⟨ok, rfl⟩)) hstep).2.2.subset hn

/-- A worker in an active unit was there before, in its slot, unless it is launched. -/
theorem active_of_step (hlaunch : e.launches = false) (hstep : step cfg s e = some s') :
    ∀ w' ∈ s'.workers, w'.active = true → ∃ w ∈ s.workers, w.slot = w'.slot ∧ w.active = true := by
  intro w' hw' hactive
  cases mem_workers_of_step hstep hw' with
  | inl hold =>
      obtain ⟨w, hw, hfollows⟩ := hold
      exact ⟨w, hw, hfollows.slot.symm, hfollows.active hactive⟩
  | inr hnew =>
      obtain ⟨⟨pool, slot, ts, pid, rfl⟩, _⟩ := hnew
      cases hlaunch

end Fleet

namespace Installation

variable {cfg : Config} {s s' : Installation}

def names (s : Installation) : List String := s.fleet.vms.map (·.1)

/-! ### One step of the installation -/

/-- What a step does. What `build-base` does to the VMs is of no matter here. -/
inductive Moves (cfg : Config) (purgeAll : Bool) (s : Installation) : InstallationEvent → Installation → Prop
  | fleet {e : FleetEvent} {fleet : Fleet} (hlaunch : e.launches = true → s.phase = .notYet)
      (hfleet : s.fleet.step cfg e = some fleet) : Moves cfg purgeAll s (.fleet e) { s with fleet := fleet }
  | base {e : InstallationEvent} {vms : List (String × VmState)} {used : List String}
      (hphase : s.phase = .notYet) :
      Moves cfg purgeAll s e { s with fleet := { s.fleet with vms := vms, usedNames := used } }
  | disable (hphase : s.phase = .notYet) : Moves cfg purgeAll s .disable { s with phase := .disabled }
  | listUnits (hphase : s.phase = .disabled) :
      Moves cfg purgeAll s .listUnits { s with phase := .stopping s.fleet.activeSlots }
  | unitStopped {slot : Nat} {todo : List Nat} (hphase : s.phase = .stopping (slot :: todo))
      (hgone : s.fleet.worker slot = none) :
      Moves cfg purgeAll s .unitStopped { s with phase := .stopping todo }
  | listVms (hphase : s.phase = .stopping []) :
      Moves cfg purgeAll s .listVms
        { s with phase := .purging (uninstallPurges (some cfg) purgeAll s.fleet.vms) }
  | purge {name : String} {todo : List String} (hphase : s.phase = .purging (name :: todo)) :
      Moves cfg purgeAll s .purge { s.setVms (purgeVm true s.fleet.vms name) with phase := .purging todo }
  | complete (hphase : s.phase = .purging []) : Moves cfg purgeAll s .purge { s with phase := .complete }

theorem moves_of_step {purgeAll : Bool} {e : InstallationEvent} (hstep : step cfg purgeAll s e = some s') :
    Moves cfg purgeAll s e s' := by
  cases e with
  | fleet e =>
      rw [Installation.step] at hstep
      split at hstep
      · cases hstep
      · next hguard =>
          obtain ⟨fleet, hfleet, rfl⟩ := Option.map_eq_some_iff.mp hstep
          exact .fleet (fun hlaunch => Classical.not_not.mp fun hne => hguard ⟨hlaunch, hne⟩) hfleet
  | purgeBase b =>
      rw [Installation.step] at hstep
      split at hstep
      · next hguard =>
          cases hstep
          exact .base hguard.2
      · cases hstep
  | launchBase b =>
      rw [Installation.step] at hstep
      split at hstep
      · next hguard =>
          cases hstep
          exact .base hguard.2.1
      · cases hstep
  | stopBase b =>
      rw [Installation.step] at hstep
      split at hstep
      · next hguard =>
          cases hstep
          exact .base hguard.2
      · cases hstep
  | disable =>
      rw [Installation.step] at hstep
      split at hstep
      · next hphase =>
          cases hstep
          exact .disable hphase
      · cases hstep
  | listUnits =>
      rw [Installation.step] at hstep
      split at hstep
      · next hphase =>
          cases hstep
          exact .listUnits hphase
      · cases hstep
  | unitStopped =>
      rw [Installation.step] at hstep
      split at hstep
      · next hphase =>
          split at hstep
          · next hgone =>
              cases hstep
              exact .unitStopped hphase hgone
          · cases hstep
      · cases hstep
  | listVms =>
      rw [Installation.step] at hstep
      split at hstep
      · next hphase =>
          cases hstep
          exact .listVms hphase
      · cases hstep
  | purge =>
      rw [Installation.step] at hstep
      split at hstep
      · next hphase =>
          cases hstep
          exact .purge hphase
      · next hphase =>
          cases hstep
          exact .complete hphase
      · cases hstep

/-! ### The VMs due -/

/-- Whether the fleet makes VMs of this name. -/
def Makes (cfg : Config) (name : String) : Prop :=
  (∃ p ∈ cfg.pools, ∃ slot ∈ p.slots, isVmOf p.name slot name = true) ∨ ∃ b ∈ cfg.bases, b.name = name

def Covered (cfg : Config) (s : Installation) : Prop :=
  match s.phase with
  | .purging todo => ∀ n ∈ s.names, Makes cfg n → n ∈ todo
  | .complete => ∀ n ∈ s.names, ¬ Makes cfg n
  | _ => True

/-- When the VMs are listed every base has the prefix, and nothing is cloned for a worker afterwards. -/
def Findable (cfg : Config) (s : Installation) : InstallationEvent → Prop
  | .listVms => ∀ b ∈ cfg.bases, b.name ∈ s.names → Text.startsWith b.name vmPrefix = true
  | .fleet (.worker _ .clone) => s.phase.late = false
  | _ => True

instance (cfg : Config) (s : Installation) : DecidablePred (Findable cfg s) := fun e => by
  unfold Findable
  split <;> infer_instance

theorem covered_of_not_late (h : s.phase.late = false) : Covered cfg s := by
  rw [Covered]
  split
  · next hphase =>
      rw [hphase] at h
      cases h
  · next hphase =>
      rw [hphase] at h
      cases h
  · trivial

theorem Covered.of_subset (h : Covered cfg s) (hphase : s'.phase = s.phase)
    (hsub : ∀ n ∈ s'.names, n ∈ s.names) : Covered cfg s' := by
  rw [Covered] at h ⊢
  rw [hphase]
  split
  · next todo hpurging =>
      rw [hpurging] at h
      exact fun n hn => h n (hsub n hn)
  · next hcomplete =>
      rw [hcomplete] at h
      exact fun n hn => h n (hsub n hn)
  · trivial

theorem startsWith_of_makes {name : String} (hmakes : Makes cfg name)
    (hbases : ∀ b ∈ cfg.bases, b.name = name → Text.startsWith b.name vmPrefix = true) :
    Text.startsWith name vmPrefix = true := by
  rcases hmakes with ⟨p, _, slot, _, hvm⟩ | ⟨b, hb, rfl⟩
  · obtain ⟨ts, pid, rfl⟩ := isVmOf_iff.mp hvm
    exact startsWith_vmPrefix_vmName p.name slot ts pid
  · exact hbases b hb rfl

theorem mem_uninstallPurges_iff {file : Option Config} {purgeAll : Bool} {name : String}
    {vms : List (String × VmState)} : name ∈ uninstallPurges file purgeAll vms ↔
      name ∈ vms.map (·.1) ∧ Text.startsWith name vmPrefix = true ∧
        (purgeAll = true ∨ ∀ c, file = some c → isBase c name = false) := by
  rw [uninstallPurges, List.mem_filter, mem_prefixed_iff, and_assoc]
  refine and_congr_right fun _ => and_congr_right fun _ => ?_
  cases file with
  | none => simp
  | some c => simp [or_comm]

theorem Covered.step {e : InstallationEvent} (h : Covered cfg s) (hok : Findable cfg s e)
    (hstep : step cfg true s e = some s') : Covered cfg s' := by
  cases moves_of_step hstep with
  | @fleet e fleet hlaunch hfleet =>
      by_cases hclone : ∃ slot, e = .worker slot .clone
      · obtain ⟨slot, rfl⟩ := hclone
        exact covered_of_not_late hok
      · exact h.of_subset rfl (Fleet.names_of_step (fun slot he => hclone ⟨slot, he⟩) hfleet)
  | base hphase =>
      refine covered_of_not_late ?_
      show s.phase.late = false
      rw [hphase]
      rfl
  | disable hphase => trivial
  | listUnits hphase => trivial
  | unitStopped hphase hgone => trivial
  | listVms hphase =>
      intro n hn hmakes
      refine mem_uninstallPurges_iff.mpr ⟨hn, startsWith_of_makes hmakes ?_, .inl rfl⟩
      rintro b hb rfl
      exact hok b hb hn
  | purge hphase =>
      rw [Covered, hphase] at h
      intro n hn hmakes
      obtain ⟨hne, hn⟩ := WorkerProc.mem_names_purgeVm_true hn
      exact (List.mem_cons.mp (h n hn hmakes)).resolve_left hne
  | complete hphase =>
      rw [Covered, hphase] at h
      exact fun n hn hmakes => List.not_mem_nil (h n hn hmakes)

/-- No VM of a worker or base is left, whatever happened before. -/
theorem uninstall_leaves_nothing {vms : List (String × VmState)} {events : List InstallationEvent}
    (hfindable : Transition.Meets (step cfg true) (Findable cfg) (rest vms) events)
    (hexec : Transition.exec (step cfg true) (rest vms) events = some s) (hcomplete : s.phase = .complete) :
    workerVms cfg s.fleet.vms = [] ∧ ∀ b ∈ cfg.bases, b.name ∉ s.fleet.vms.map (·.1) := by
  have hcovered : Covered cfg s :=
    Transition.exec_invariant (fun s e s' h hok hstep => h.step hok hstep)
      (covered_of_not_late rfl) hfindable hexec
  rw [Covered, hcomplete] at hcovered
  refine ⟨List.filter_eq_nil_iff.mpr fun n hn hworker => ?_, fun b hb hn => ?_⟩
  · simp only [List.any_eq_true] at hworker
    exact hcovered n hn (Or.inl hworker)
  · exact hcovered b.name hn (Or.inr ⟨b, hb, rfl⟩)

/-! ### The workers left -/

/-- The slots whose unit has still to be stopped. -/
def awaits : UninstallPhase → Nat → Prop
  | .notYet, _ | .disabled, _ => True
  | .stopping todo, slot => slot ∈ todo
  | .purging _, _ | .complete, _ => False

def Awaited (s : Installation) : Prop := ∀ w ∈ s.fleet.workers, w.active = true → awaits s.phase w.slot

theorem Awaited.of_phase (h : Awaited s) {phase : UninstallPhase} (hphase : s.phase = phase) :
    ∀ w ∈ s.fleet.workers, w.active = true → awaits phase w.slot := hphase ▸ h

theorem Awaited.step {purgeAll : Bool} {e : InstallationEvent} (h : Awaited s)
    (hstep : step cfg purgeAll s e = some s') : Awaited s' := by
  cases moves_of_step hstep with
  | @fleet e fleet hlaunch hfleet =>
      intro w' hw' hactive
      cases hlaunches : e.launches with
      | true =>
          show awaits s.phase w'.slot
          rw [hlaunch hlaunches]
          trivial
      | false =>
          obtain ⟨w, hw, hslot, hwactive⟩ := Fleet.active_of_step hlaunches hfleet w' hw' hactive
          exact hslot ▸ h w hw hwactive
  | base hphase => exact h
  | disable hphase => exact fun _ _ _ => trivial
  | listUnits hphase => exact fun w hw hactive => Fleet.mem_activeSlots hw hactive
  | unitStopped hphase hgone =>
      intro w hw hactive
      refine (List.mem_cons.mp (h.of_phase hphase w hw hactive)).resolve_left ?_
      exact Site.worker_eq_none_iff.mp hgone w hw
  | listVms hphase => exact fun w hw hactive => List.not_mem_nil (h.of_phase hphase w hw hactive)
  | purge hphase => exact fun w hw hactive => h.of_phase hphase w hw hactive
  | complete hphase => exact fun w hw hactive => h.of_phase hphase w hw hactive

/-- Once the VMs are listed, the workers left are those that were being stopped already. A clone that goes
on without its worker is not seen here. -/
theorem inactive_of_late {purgeAll : Bool} {vms : List (String × VmState)}
    (hreach : Transition.Reachable (step cfg purgeAll) (rest vms) s) (hlate : s.phase.late = true) :
    ∀ w ∈ s.fleet.workers, w.active = false := by
  have hawaited : Awaited s :=
    hreach.invariant (fun s e s' h hstep => h.step hstep) (fun _ hw => absurd hw List.not_mem_nil)
  intro w hw
  rw [← Bool.not_eq_true]
  intro hactive
  have hawaits := hawaited w hw hactive
  cases hphase : s.phase <;> rw [hphase] at hlate hawaits
  case purging => exact hawaits
  case complete => exact hawaits
  all_goals cases hlate

end Installation

/-! ### The VMs without the prefix -/

def foreign (vms : List (String × VmState)) : List String :=
  (vms.map (·.1)).filter fun n => !Text.startsWith n vmPrefix

theorem foreign_purgeVm {name : String} (hname : Text.startsWith name vmPrefix = true) (ok : Bool)
    (vms : List (String × VmState)) : foreign (purgeVm ok vms name) = foreign vms := by
  rw [purgeVm]
  split
  · rw [foreign, foreign, List.filter_map, List.filter_map, List.filter_filter]
    congr 1
    refine List.filter_congr fun vm _ => ?_
    by_cases hvm : vm.1 = name
    · rw [Function.comp_apply, hvm, hname]
      rfl
    · rw [decide_eq_true hvm, Bool.and_true]
  · rfl

theorem foreign_foldl_purgeVm {due : List String} (hdue : ∀ n ∈ due, Text.startsWith n vmPrefix = true)
    (ok : Bool) (vms : List (String × VmState)) : foreign (due.foldl (purgeVm ok) vms) = foreign vms := by
  induction due generalizing vms with
  | nil => rfl
  | cons name due ih =>
      rw [List.foldl_cons, ih fun n hn => hdue n (List.mem_cons_of_mem _ hn),
        foreign_purgeVm (hdue name List.mem_cons_self)]

theorem foreign_start (vms : List (String × VmState)) (name : String) :
    foreign (vms.map fun vm => if vm.1 = name then (vm.1, VmState.running) else vm) = foreign vms := by
  rw [foreign, names_start, foreign]

theorem startsWith_vmPrefix_of_slot {name pool : String} {slot : Nat}
    (h : Text.startsWith name (slotVmPrefix pool slot) = true) : Text.startsWith name vmPrefix = true := by
  obtain ⟨rest, rfl⟩ := Text.startsWith_iff.mp h
  exact Text.startsWith_iff.mpr ⟨pool ++ "-" ++ toString slot ++ "-" ++ rest, by
    simp only [slotVmPrefix, String.append_assoc]⟩

theorem startsWith_of_mem_stateFileVm {own pre n : String} {text : Option String}
    (hn : n ∈ stateFileVm own pre text) : Text.startsWith n pre = true := by
  unfold stateFileVm at hn
  split at hn
  · dsimp only at hn
    split at hn
    · next hold => exact List.mem_singleton.mp hn ▸ hold.2.2
    · cases hn
  · cases hn

/-- A worker purges what has the prefix. -/
structure WorkerProc.Tidy (w : WorkerProc) : Prop where
  own : Text.startsWith w.vm vmPrefix = true
  leftovers : ∀ todo, w.stage = .sweeping todo → ∀ n ∈ todo, Text.startsWith n vmPrefix = true

theorem WorkerProc.Tidy.step {w w' : WorkerProc} {vms vms' : List (String × VmState)} {e : WorkerEvent}
    (h : w.Tidy) (hstep : w.step vms e = some (w', vms')) : w'.Tidy ∧ foreign vms' = foreign vms := by
  have hown : Text.startsWith w'.vm vmPrefix = true := (WorkerProc.step_cases hstep).1.vm ▸ h.own
  cases e with
  | sweepStateFile text ok =>
      rw [WorkerProc.step] at hstep
      split at hstep <;> cases hstep
      refine ⟨⟨hown, fun _ htodo => by cases htodo⟩, foreign_foldl_purgeVm (fun n hn => ?_) ok vms⟩
      exact startsWith_vmPrefix_of_slot (startsWith_of_mem_stateFileVm hn)
  | sweepList =>
      rw [WorkerProc.step] at hstep
      split at hstep <;> cases hstep
      refine ⟨⟨hown, fun todo htodo n hn => ?_⟩, rfl⟩
      cases htodo
      exact startsWith_vmPrefix_of_slot (mem_prefixed_iff.mp (List.mem_filter.mp hn).1).2
  | sweepNext ok =>
      rw [WorkerProc.step] at hstep
      split at hstep
      · next name rest hstage =>
          cases hstep
          refine ⟨⟨hown, fun todo htodo n hn => ?_⟩,
            foreign_purgeVm (h.leftovers _ hstage name List.mem_cons_self) ok vms⟩
          cases htodo
          exact h.leftovers _ hstage n (List.mem_cons_of_mem _ hn)
      · cases hstep
        exact ⟨⟨hown, fun _ htodo => by cases htodo⟩, rfl⟩
      · cases hstep
  | clone =>
      rw [WorkerProc.step] at hstep
      split at hstep <;> cases hstep
      refine ⟨⟨hown, fun _ htodo => by cases htodo⟩, ?_⟩
      rw [foreign, List.map_append, List.filter_append]
      show foreign vms ++ List.filter (fun n => !Text.startsWith n vmPrefix) [w.vm] = foreign vms
      rw [List.filter_cons_of_neg (by rw [h.own]; decide), List.filter_nil, List.append_nil]
  | start =>
      rw [WorkerProc.step] at hstep
      split at hstep <;> cases hstep
      exact ⟨⟨hown, fun _ htodo => by cases htodo⟩, foreign_start vms w.vm⟩
  | cleanup ok =>
      cases hstep
      refine ⟨h, ?_⟩
      split
      · exact foreign_purgeVm h.own ok vms
      · rfl
  | stop =>
      cases hstep
      exact ⟨⟨hown, h.leftovers⟩, rfl⟩

namespace Fleet

variable {cfg : Config} {s s' : Fleet}

structure Tidy (s : Fleet) : Prop where
  workers : ∀ w ∈ s.workers, w.Tidy
  gc : ∀ todo, s.gc = .purging todo → ∀ n ∈ todo, Text.startsWith n vmPrefix = true

theorem Tidy.step {e : FleetEvent} (h : Tidy s) (hstep : step cfg s e = some s') :
    Tidy s' ∧ foreign s'.vms = foreign s.vms := by
  cases e with
  | launch pool slot ts pid =>
      obtain ⟨_, rfl⟩ := step_launch hstep
      refine ⟨⟨fun w hw => ?_, h.gc⟩, rfl⟩
      rcases List.mem_cons.mp hw with rfl | hw
      · exact ⟨startsWith_vmPrefix_vmName pool.name slot ts pid, fun _ htodo => by cases htodo⟩
      · exact h.workers w hw
  | worker slot e =>
      obtain ⟨w, hw, _, w', vms, hw', rfl⟩ := step_worker hstep
      obtain ⟨htidy, hforeign⟩ := (h.workers w hw).step hw'
      refine ⟨⟨fun v hv => ?_, h.gc⟩, hforeign⟩
      rcases mem_put hv with rfl | ⟨hv, _⟩
      · exact htidy
      · exact h.workers v hv
  | exit slot =>
      cases hstep
      exact ⟨⟨fun w hw => h.workers w (List.mem_filter.mp hw).1, h.gc⟩, rfl⟩
  | gcQuery =>
      rw [Fleet.step] at hstep
      split at hstep <;> cases hstep
      exact ⟨⟨h.workers, fun _ htodo => by cases htodo⟩, rfl⟩
  | gcList =>
      rw [Fleet.step] at hstep
      split at hstep <;> cases hstep
      refine ⟨⟨h.workers, fun todo htodo n hn => ?_⟩, rfl⟩
      cases htodo
      exact (mem_gcTodo_iff.mp hn).2.1
  | gcPurge ok =>
      rw [Fleet.step] at hstep
      split at hstep
      · next name todo hphase =>
          cases hstep
          refine ⟨⟨h.workers, fun rest hrest n hn => ?_⟩,
            foreign_purgeVm (h.gc _ hphase name List.mem_cons_self) ok s.vms⟩
          cases hrest
          exact h.gc _ hphase n (List.mem_cons_of_mem _ hn)
      · cases hstep
        exact ⟨⟨h.workers, fun _ htodo => by cases htodo⟩, rfl⟩
      · cases hstep

end Fleet

namespace Installation

variable {cfg : Config} {s s' : Installation}

structure Tidy (s : Installation) : Prop where
  fleet : s.fleet.Tidy
  todo : ∀ todo, s.phase = .purging todo → ∀ n ∈ todo, Text.startsWith n vmPrefix = true

theorem Tidy.step {purgeAll : Bool} {e : InstallationEvent} (h : Tidy s)
    (hstep : step cfg purgeAll s e = some s') :
    Tidy s' ∧ (s.phase ≠ .notYet → s'.phase ≠ .notYet ∧ foreign s'.fleet.vms = foreign s.fleet.vms) := by
  cases moves_of_step hstep with
  | fleet hlaunch hfleet =>
      obtain ⟨htidy, hforeign⟩ := h.fleet.step hfleet
      exact ⟨⟨htidy, h.todo⟩, fun hbegun => ⟨hbegun, hforeign⟩⟩
  | base hphase =>
      exact ⟨⟨⟨h.fleet.workers, h.fleet.gc⟩, h.todo⟩, fun hbegun => absurd hphase hbegun⟩
  | disable hphase => exact ⟨⟨h.fleet, fun _ htodo => by cases htodo⟩, fun _ => ⟨nofun, rfl⟩⟩
  | listUnits hphase => exact ⟨⟨h.fleet, fun _ htodo => by cases htodo⟩, fun _ => ⟨nofun, rfl⟩⟩
  | unitStopped hphase hgone => exact ⟨⟨h.fleet, fun _ htodo => by cases htodo⟩, fun _ => ⟨nofun, rfl⟩⟩
  | listVms hphase =>
      refine ⟨⟨h.fleet, fun todo htodo n hn => ?_⟩, fun _ => ⟨nofun, rfl⟩⟩
      cases htodo
      exact (mem_prefixed_iff.mp (List.mem_filter.mp hn).1).2
  | @purge name todo hphase =>
      refine ⟨⟨⟨h.fleet.workers, h.fleet.gc⟩, fun rest hrest n hn => ?_⟩, fun _ => ⟨nofun, ?_⟩⟩
      · cases hrest
        exact h.todo _ hphase n (List.mem_cons_of_mem _ hn)
      · exact foreign_purgeVm (h.todo _ hphase name List.mem_cons_self) true s.fleet.vms
  | complete hphase => exact ⟨⟨h.fleet, fun _ htodo => by cases htodo⟩, fun _ => ⟨nofun, rfl⟩⟩

theorem tidy_rest (vms : List (String × VmState)) : Tidy (rest vms) where
  fleet := ⟨fun _ hw => absurd hw List.not_mem_nil, nofun⟩
  todo := nofun

/-- Once an uninstall has begun nothing purges a VM without the prefix. -/
theorem foreign_kept {purgeAll : Bool} {vms : List (String × VmState)} {events : List InstallationEvent}
    (hreach : Transition.Reachable (step cfg purgeAll) (rest vms) s) (hbegun : s.phase ≠ .notYet)
    (hexec : Transition.exec (step cfg purgeAll) s events = some s') :
    foreign s'.fleet.vms = foreign s.fleet.vms := by
  have htidy : Tidy s := hreach.invariant (fun s e s' h hstep => (h.step hstep).1) (tidy_rest vms)
  let Kept (t : Installation) : Prop :=
    t.Tidy ∧ t.phase ≠ .notYet ∧ foreign t.fleet.vms = foreign s.fleet.vms
  have hstep : ∀ t e t', Kept t → True → step cfg purgeAll t e = some t' → Kept t' := by
    intro t e t' ⟨htidy, hbegun, hforeign⟩ _ hstep
    obtain ⟨htidy', hstays⟩ := htidy.step hstep
    obtain ⟨hbegun', hforeign'⟩ := hstays hbegun
    exact ⟨htidy', hbegun', hforeign'.trans hforeign⟩
  exact (Transition.exec_invariant hstep ⟨htidy, hbegun, rfl⟩ (Transition.meets_true s events) hexec).2.2

/-- The condition on bases is needed: one without the prefix that is there when the VMs are listed is
there at the end. -/
theorem base_stays {purgeAll : Bool} {vms : List (String × VmState)} {events : List InstallationEvent}
    {b : Base} (hreach : Transition.Reachable (step cfg purgeAll) (rest vms) s) (hbegun : s.phase ≠ .notYet)
    (hthere : b.name ∈ s.names) (hname : Text.startsWith b.name vmPrefix = false)
    (hexec : Transition.exec (step cfg purgeAll) s events = some s') : b.name ∈ s'.names := by
  have hforeign : b.name ∈ foreign s.fleet.vms := List.mem_filter.mpr ⟨hthere, by rw [hname]; rfl⟩
  rw [← foreign_kept hreach hbegun hexec] at hforeign
  exact (List.mem_filter.mp hforeign).1

end Installation

/-- A base is built, a worker clones it and is stopped when the fleet is uninstalled. -/
def uninstallRun (base : Base) : List InstallationEvent :=
  [.launchBase base, .stopBase base, .fleet (.launch smallPool 100 1700000000 4242),
    .fleet (.worker 100 (.sweepStateFile none true)), .fleet (.worker 100 .sweepList),
    .fleet (.worker 100 (.sweepNext true)), .fleet (.worker 100 .clone), .disable, .listUnits,
    .fleet (.worker 100 .stop), .fleet (.exit 100), .unitStopped, .listVms]

def defaultBase : Base := { image := "24.04" }

theorem uninstallRun_leaves_nothing :
    ∃ s, Transition.exec (Installation.step (configWith [smallPool]) true) (Installation.rest [])
        (uninstallRun defaultBase ++ [.purge, .purge, .purge]) = some s ∧ s.phase = .complete ∧
      workerVms (configWith [smallPool]) s.fleet.vms = [] ∧
      ∀ b ∈ (configWith [smallPool]).bases, b.name ∉ s.fleet.vms.map (·.1) := by
  have hfindable : Transition.Meets (Installation.step (configWith [smallPool]) true)
      (Installation.Findable (configWith [smallPool])) (Installation.rest [])
      (uninstallRun defaultBase ++ [.purge, .purge, .purge]) := by decide +kernel
  exact ⟨_, rfl, rfl, Installation.uninstall_leaves_nothing hfindable rfl rfl⟩

/-- A name that `validate` accepts. -/
def ubuntuBase : Base := { image := "24.04", name := "ubuntu-base" }

def ubuntuConfig : Config := { configWith [smallPool] with bases := [ubuntuBase] }

/-- The base is still there when the uninstall is complete. -/
theorem uninstall_leaves_base :
    ubuntuConfig.validate = .ok () ∧
    ∃ s, Transition.exec (Installation.step ubuntuConfig true) (Installation.rest [])
        (uninstallRun ubuntuBase ++ [.purge, .purge]) = some s ∧ s.phase = .complete ∧
      ubuntuBase ∈ ubuntuConfig.bases ∧ s.fleet.vms = [("ubuntu-base", .stopped)] :=
  ⟨by decide, _, rfl, rfl, List.mem_cons_self, by decide +kernel⟩

end VmFleet
