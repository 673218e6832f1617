import VmFleet.Source.Registration
import VmFleet.Proof.GcRace

/-!
# `gc` and the records of running workers

`gc` deletes every record of the fleet that is shown offline, whether its worker runs or not. What it
spares is therefore a matter of what GitHub shows when the runners are listed. `gc_spares_live_records`
follows a record from there to its deletion.
-/

namespace VmFleet

/-! ### One step of the fleet -/

namespace Fleet

/-- What no step of the fleet does to its workers and names. -/
structure Follows (s s' : Fleet) : Prop where
  /-- A worker in an active unit was there before, or its name is new. -/
  live : ∀ w' ∈ s'.workers, w'.active = true →
    (∃ w ∈ s.workers, w.vm = w'.vm ∧ w.active = true) ∨ w'.vm ∉ s.usedNames
  named : ∀ w' ∈ s'.workers, (∃ w ∈ s.workers, w.vm = w'.vm) ∨ w'.vm ∈ s'.usedNames
  names : ∀ n ∈ s.usedNames, n ∈ s'.usedNames

variable {cfg : Config} {s s' : Fleet}

theorem usedNames_of_step {e : FleetEvent} (hstep : step cfg s e = some s') :
    ∀ n ∈ s.usedNames, n ∈ s'.usedNames := by
  cases e with
  | launch pool slot ts pid =>
      obtain ⟨_, rfl⟩ := step_launch hstep
      exact fun n hn => List.mem_cons_of_mem _ hn
  | worker slot e =>
      obtain ⟨w, _, _, w', vms, _, rfl⟩ := step_worker hstep
      exact fun n hn => hn
  | exit slot =>
      cases hstep
      exact fun n hn => hn
  | gcQuery => exact fun n hn => (step_gc (Or.inl rfl) hstep).2.1 ▸ hn
  | gcList => exact fun n hn => (step_gc (Or.inr (Or.inl rfl)) hstep).2.1 ▸ hn
  | gcPurge ok => exact fun n hn => (step_gc (Or.inr (Or.inr ⟨ok, rfl⟩)) hstep).2.1 ▸ hn

theorem Follows.of_step {e : FleetEvent} (hstep : step cfg s e = some s') : s.Follows s' := by
  refine ⟨fun w' hw' hactive => ?_, fun w' hw' => ?_, usedNames_of_step hstep⟩
  · cases mem_workers_of_step hstep hw' with
    | inl hold =>
        obtain ⟨w, hw, hfollows⟩ := hold
        exact Or.inl ⟨w, hw, hfollows.vm.symm, hfollows.active hactive⟩
    | inr hnew => exact Or.inr hnew.2.1
  · cases mem_workers_of_step hstep hw' with
    | inl hold =>
        obtain ⟨w, hw, hfollows⟩ := hold
        exact Or.inl ⟨w, hw, hfollows.vm.symm⟩
    | inr hnew => exact Or.inr hnew.2.2

end Fleet

namespace Registration

variable {cfg : Config} {s s' : Registration}

/-! ### The invariant -/

/-- A worker that runs in an active unit has a record of this name. -/
def Live (s : Registration) (name : String) : Prop :=
  ∃ w ∈ s.fleet.workers, w.active = true ∧ w.vm = name

/-- The records `gc` has still to delete. -/
def todo (s : Registration) : List UInt64 :=
  match s.gcRecords with
  | .deleting todo => todo
  | _ => []

structure Inv (s : Registration) : Prop where
  unique : ∀ r ∈ s.runners, ∀ r' ∈ s.runners, r.id = r'.id → r.name = r'.name
  known : ∀ r ∈ s.runners, r.id ∈ s.usedIds
  named : ∀ r ∈ s.runners, r.name ∈ s.fleet.usedNames
  workers : ∀ w ∈ s.fleet.workers, w.vm ∈ s.fleet.usedNames
  listed : ∀ id ∈ s.todo, id ∈ s.usedIds
  spares : ∀ id ∈ s.todo, ∀ r ∈ s.runners, r.id = id → ¬s.Live r.name

theorem inv_rest (vms : List (String × VmState)) : Inv (rest vms) where
  unique := nofun
  known := nofun
  named := nofun
  workers := nofun
  listed := nofun
  spares := nofun

/-- When the runners are listed, every record of a worker in an active unit is shown online. -/
def LiveShownOnline (s : Registration) : RegistrationEvent → Prop
  | .gcListRunners true =>
    ∀ w ∈ s.fleet.workers, w.active = true → ∀ r ∈ s.runners, r.name = w.vm → r.online = true
  | _ => True

instance (s : Registration) : ∀ e, Decidable (s.LiveShownOnline e)
  | .gcListRunners true => inferInstanceAs (Decidable (∀ w ∈ s.fleet.workers, w.active = true →
      ∀ r ∈ s.runners, r.name = w.vm → r.online = true))
  | .gcListRunners false => isTrue trivial
  | .fleet _ | .register _ _ _ | .spawnRunSh _ | .runShEnds _ | .shown _ _ _ | .jobDone _
  | .deregister _ _ | .foreign _ | .gcDelete _ => isTrue trivial

/-! ### The steps -/

/-- Nothing happens but that records go, or are shown otherwise. -/
theorem Inv.of_records (h : Inv s) (hfleet : s'.fleet = s.fleet) (hids : s'.usedIds = s.usedIds)
    (hrunners : ∀ r' ∈ s'.runners, ∃ r ∈ s.runners, r.id = r'.id ∧ r.name = r'.name)
    (htodo : ∀ id ∈ s'.todo, id ∈ s.todo) : Inv s' where
  unique := by
    intro r hr r' hr' hid
    obtain ⟨old, hold, hoid, honame⟩ := hrunners r hr
    obtain ⟨old', hold', hoid', honame'⟩ := hrunners r' hr'
    rw [← honame, ← honame']
    exact h.unique old hold old' hold' (by rw [hoid, hoid', hid])
  known := by
    intro r hr
    obtain ⟨old, hold, hoid, _⟩ := hrunners r hr
    rw [← hoid, hids]
    exact h.known old hold
  named := by
    intro r hr
    obtain ⟨old, hold, _, honame⟩ := hrunners r hr
    rw [← honame, hfleet]
    exact h.named old hold
  workers := by
    rw [hfleet]
    exact h.workers
  listed := fun id hid => hids ▸ h.listed id (htodo id hid)
  spares := by
    intro id hid r hr heq
    obtain ⟨old, hold, hoid, honame⟩ := hrunners r hr
    rw [Live, hfleet, ← honame]
    exact h.spares id (htodo id hid) old hold (hoid.trans heq)

theorem Inv.of_sub (h : Inv s) (hfleet : s'.fleet = s.fleet) (hids : s'.usedIds = s.usedIds)
    (hrunners : ∀ r ∈ s'.runners, r ∈ s.runners) (htodo : ∀ id ∈ s'.todo, id ∈ s.todo) : Inv s' :=
  h.of_records hfleet hids (fun r hr => ⟨r, hrunners r hr, rfl, rfl⟩) htodo

theorem mem_of_mem_removeRecords {name : String} {r : Runner} (hr : r ∈ s.removeRecords name) :
    r ∈ s.runners :=
  (List.mem_filter.mp hr).1

/-- A new record has an id that is on no list, and the name of no worker that runs already, or of one
that has had its name before. -/
theorem Inv.add (h : Inv s) {r : Runner} {names : List String} (hid : r.id ∉ s.usedIds)
    (hname : r.name ∈ names) (hnames : ∀ n ∈ s.fleet.usedNames, n ∈ names) :
    Inv { s with
      fleet := { s.fleet with usedNames := names }
      runners := s.runners ++ [r]
      usedIds := r.id :: s.usedIds } where
  unique := by
    intro r₁ hr₁ r₂ hr₂ heq
    rcases List.mem_append.mp hr₁ with hr₁ | hr₁ <;> rcases List.mem_append.mp hr₂ with hr₂ | hr₂
    · exact h.unique r₁ hr₁ r₂ hr₂ heq
    · rw [List.mem_singleton.mp hr₂] at heq
      exact absurd (heq ▸ h.known r₁ hr₁) hid
    · rw [List.mem_singleton.mp hr₁] at heq
      exact absurd (heq ▸ h.known r₂ hr₂) hid
    · rw [List.mem_singleton.mp hr₁, List.mem_singleton.mp hr₂]
  known := by
    intro r' hr'
    cases List.mem_append.mp hr' with
    | inl hr' => exact List.mem_cons_of_mem _ (h.known r' hr')
    | inr hr' => exact List.mem_singleton.mp hr' ▸ List.mem_cons_self
  named := by
    intro r' hr'
    cases List.mem_append.mp hr' with
    | inl hr' => exact hnames _ (h.named r' hr')
    | inr hr' => exact List.mem_singleton.mp hr' ▸ hname
  workers := fun w hw => hnames _ (h.workers w hw)
  listed := fun id hmem => List.mem_cons_of_mem _ (h.listed id hmem)
  spares := by
    intro id hmem r' hr' heq
    cases List.mem_append.mp hr' with
    | inl hr' => exact h.spares id hmem r' hr' heq
    | inr hr' =>
        rw [List.mem_singleton.mp hr'] at heq
        exact absurd (heq ▸ h.listed id hmem) hid

theorem Inv.fleet (h : Inv s) {e : FleetEvent} (hstep : step cfg s (.fleet e) = some s') : Inv s' := by
  rw [step] at hstep
  split at hstep
  · cases hstep
  · obtain ⟨fleet, hfleet, hs'⟩ := Option.map_eq_some_iff.mp hstep
    have hfollows := Fleet.Follows.of_step hfleet
    have hlive : ∀ r ∈ s.runners, s'.Live r.name → s.Live r.name := by
      intro r hr hlive
      obtain ⟨w', hw', hactive, hvm⟩ := hlive
      rw [← hs'] at hw'
      cases hfollows.live w' hw' hactive with
      | inl hold =>
          obtain ⟨w, hw, hwvm, hwactive⟩ := hold
          exact ⟨w, hw, hwactive, hwvm.trans hvm⟩
      | inr hnew => exact absurd (h.named r hr) (hvm ▸ hnew)
    have htodo : ∀ id ∈ s'.todo, id ∈ s.todo := by
      intro id hid
      rw [← hs', todo] at hid
      dsimp only at hid
      split at hid
      · next hphase =>
          split at hphase
          · cases hphase
          · rw [todo, hphase]
            exact hid
      · cases hid
    have hrunners : s'.runners = s.runners := by rw [← hs']
    have hids : s'.usedIds = s.usedIds := by rw [← hs']
    have hworkers : ∀ w ∈ s'.fleet.workers, w.vm ∈ s'.fleet.usedNames := by
      intro w' hw'
      rw [← hs'] at hw' ⊢
      cases hfollows.named w' hw' with
      | inl hold =>
          obtain ⟨w, hw, hvm⟩ := hold
          exact hvm ▸ hfollows.names _ (h.workers w hw)
      | inr hnew => exact hnew
    refine ⟨hrunners ▸ h.unique, hrunners ▸ hids ▸ h.known, fun r hr => ?_, hworkers, fun id hid => ?_,
      fun id hid r hr heq hl => ?_⟩
    · rw [hrunners] at hr
      rw [← hs']
      exact hfollows.names _ (h.named r hr)
    · exact hids ▸ h.listed id (htodo id hid)
    · rw [hrunners] at hr
      exact h.spares id (htodo id hid) r hr heq (hlive r hr hl)

theorem Inv.register (h : Inv s) {slot : Nat} {id : UInt64} {labels : List Label}
    (hstep : step cfg s (.register slot id labels) = some s') : Inv s' := by
  obtain ⟨w, hfound, hstep⟩ := Option.bind_eq_some_iff.mp hstep
  split at hstep
  · next hguard =>
      cases hstep
      exact h.add hguard.2.1 (h.workers w (Fleet.worker_spec hfound).1) (fun n hn => hn)
  · cases hstep

theorem mem_gcRunners_iff {runners : List Runner} {id : UInt64} :
    id ∈ gcRunners runners ↔
      ∃ r ∈ runners, r.id = id ∧ Text.startsWith r.name vmPrefix = true ∧ r.online = false := by
  simp only [gcRunners, List.mem_map, List.mem_filter, Bool.and_eq_true, Bool.not_eq_true']
  refine ⟨fun hr => ?_, fun hr => ?_⟩
  · obtain ⟨r, ⟨hmem, hname, hoffline⟩, hid⟩ := hr
    exact ⟨r, hmem, hid, hname, hoffline⟩
  · obtain ⟨r, hmem, hid, hname, hoffline⟩ := hr
    exact ⟨r, ⟨hmem, hname, hoffline⟩, hid⟩

/-- The list is made: what is on it was shown offline, so it is of no worker in an active unit. -/
theorem Inv.gcListRunners (h : Inv s) {ok : Bool} (hok : s.LiveShownOnline (.gcListRunners ok))
    (hstep : step cfg s (.gcListRunners ok) = some s') : Inv s' := by
  rw [step] at hstep
  split at hstep
  · cases hstep
    cases ok with
    | false => exact { h with listed := nofun, spares := nofun }
    | true =>
        refine { h with listed := fun id hid => ?_, spares := fun id hid r hr heq hlive => ?_ }
        · obtain ⟨r, hr, rfl, _⟩ := mem_gcRunners_iff.mp hid
          exact h.known r hr
        · obtain ⟨w, hw, hactive, hvm⟩ := hlive
          obtain ⟨shown, hshown, hid, _, hoffline⟩ := mem_gcRunners_iff.mp hid
          have hname := h.unique shown hshown r hr (hid.trans heq.symm)
          have honline := hok w hw hactive shown hshown (hname.trans hvm.symm)
          rw [hoffline] at honline
          cases honline
  · cases hstep

theorem Inv.gcDelete (h : Inv s) {ok : Bool} (hstep : step cfg s (.gcDelete ok) = some s') : Inv s' := by
  rw [step] at hstep
  split at hstep
  · next id rest hphase =>
      cases hstep
      refine h.of_sub rfl rfl (fun r hr => ?_) (fun id hid => ?_)
      · cases ok with
        | true => exact (List.mem_filter.mp hr).1
        | false => exact hr
      · rw [todo, hphase]
        exact List.mem_cons_of_mem _ hid
  · cases hstep
    exact h.of_sub rfl rfl (fun r hr => hr) nofun
  · cases hstep

theorem Inv.step {e : RegistrationEvent} (h : Inv s) (hok : s.LiveShownOnline e)
    (hstep : step cfg s e = some s') : Inv s' := by
  cases e with
  | fleet e => exact h.fleet hstep
  | register slot id labels => exact h.register hstep
  | spawnRunSh slot =>
      obtain ⟨w, _, hstep⟩ := Option.bind_eq_some_iff.mp hstep
      split at hstep <;> cases hstep
      exact h.of_sub rfl rfl (fun r hr => hr) (fun id hid => hid)
  | runShEnds name =>
      cases hstep
      exact h.of_sub rfl rfl (fun r hr => hr) (fun id hid => hid)
  | shown name status busy =>
      rw [Registration.step] at hstep
      split at hstep <;> cases hstep
      refine h.of_records rfl rfl (fun r' hr' => ?_) (fun id hid => hid)
      obtain ⟨r, hr, rfl⟩ := List.mem_map.mp hr'
      refine ⟨r, hr, ?_⟩
      split <;> exact ⟨rfl, rfl⟩
  | jobDone name =>
      rw [Registration.step] at hstep
      split at hstep <;> cases hstep
      exact h.of_sub rfl rfl (fun r hr => mem_of_mem_removeRecords hr) (fun id hid => hid)
  | deregister slot name =>
      obtain ⟨w, _, hstep⟩ := Option.bind_eq_some_iff.mp hstep
      split at hstep <;> cases hstep
      exact h.of_sub rfl rfl (fun r hr => mem_of_mem_removeRecords hr) (fun id hid => hid)
  | foreign r =>
      rw [Registration.step] at hstep
      split at hstep
      · next hguard =>
          cases hstep
          exact h.add hguard.1 List.mem_cons_self (fun n hn => List.mem_cons_of_mem _ hn)
      · cases hstep
  | gcListRunners ok => exact h.gcListRunners hok hstep
  | gcDelete ok => exact h.gcDelete hstep

/-- **In a run in which every record of a worker in an active unit is shown online whenever `gc` lists
the runners, `gc` deletes no record of such a worker.** -/
theorem gc_spares_live_records {vms : List (String × VmState)} {events : List RegistrationEvent}
    (hmeets : Transition.Meets (Registration.step cfg) LiveShownOnline (rest vms) events)
    (hexec : Transition.exec (Registration.step cfg) (rest vms) events = some s)
    {id : UInt64} (hnext : s.nextDeletion = some id) :
    ∀ w ∈ s.fleet.workers, w.active = true → ∀ r ∈ s.runners, r.name = w.vm → r.id ≠ id := by
  have hinv : Inv s := Transition.exec_invariant
    (fun _ _ _ hinv hok hstep => hinv.step hok hstep) (inv_rest vms) hmeets hexec
  intro w hw hactive r hr hname hid
  have hmem : id ∈ s.todo := by
    rw [nextDeletion] at hnext
    split at hnext
    · next rest hphase =>
        cases hnext
        rw [todo, hphase]
        exact List.mem_cons_self
    · cases hnext
  exact hinv.spares id hmem r hr hid ⟨w, hw, hactive, hname.symm⟩

/-! ### The record that is shown offline -/

variable (cfg) in
theorem exec_deletions {pre post : List UInt64} {id : UInt64}
    (hphase : s.gcRecords = .deleting (pre ++ id :: post)) (hpre : id ∉ pre) :
    ∃ s', Transition.exec (Registration.step cfg) s (List.replicate pre.length (.gcDelete true)) = some s' ∧
      s'.nextDeletion = some id ∧ s'.fleet = s.fleet ∧
      ∀ r ∈ s.runners, r.id = id → r ∈ s'.runners := by
  induction pre generalizing s with
  | nil => exact ⟨s, rfl, by rw [nextDeletion, hphase]; rfl, rfl, fun r hr _ => hr⟩
  | cons first pre ih =>
      rw [List.mem_cons, not_or] at hpre
      have hstep : Registration.step cfg s (.gcDelete true) = some { s with
          runners := s.runners.filter (·.id ≠ first), gcRecords := .deleting (pre ++ id :: post) } := by
        rw [Registration.step, hphase]
        rfl
      obtain ⟨s', hexec, hnext, hfleet, hkept⟩ := ih (s := { s with
        runners := s.runners.filter (·.id ≠ first), gcRecords := .deleting (pre ++ id :: post) }) rfl hpre.2
      refine ⟨s', Transition.exec_cons_eq_some_iff.mpr ⟨_, hstep, hexec⟩, hnext, hfleet, fun r hr hid => ?_⟩
      refine hkept r (List.mem_filter.mpr ⟨hr, decide_eq_true ?_⟩) hid
      rw [hid]
      exact hpre.1

variable (cfg) in
/-- The condition cannot be left out: where it fails, steps of `gc` alone come to delete the record. -/
theorem shown_offline_condemned (hdue : s.gcRecords = .due) {r : Runner} (hr : r ∈ s.runners)
    (hname : Text.startsWith r.name vmPrefix = true) (hoffline : r.online = false) :
    ∃ events s', Transition.exec (Registration.step cfg) s (.gcListRunners true :: events) = some s' ∧
      s'.nextDeletion = some r.id ∧ s'.fleet = s.fleet ∧ r ∈ s'.runners := by
  have hmem : r.id ∈ gcRunners s.runners := mem_gcRunners_iff.mpr ⟨r, hr, rfl, hname, hoffline⟩
  obtain ⟨pre, post, hsplit, hpre⟩ := List.eq_append_cons_of_mem hmem
  have hlist : Registration.step cfg s (.gcListRunners true) =
      some { s with gcRecords := .deleting (pre ++ r.id :: post) } := by
    simp only [Registration.step, hdue, if_true, hsplit]
  obtain ⟨s', hexec, hnext, hfleet, hkept⟩ := exec_deletions cfg (s := { s with
    gcRecords := .deleting (pre ++ r.id :: post) }) rfl hpre
  exact ⟨_, s', Transition.exec_cons_eq_some_iff.mpr ⟨_, hlist, hexec⟩, hnext, hfleet, hkept r hr rfl⟩

end Registration

/-- A worker starts its VM and registers, and `gc` runs through its VMs. -/
def registeredBeforeGc : List RegistrationEvent :=
  [.fleet (.launch smallPool 100 1700000000 4242), .fleet (.worker 100 (.sweepStateFile none true)),
    .fleet (.worker 100 .sweepList), .fleet (.worker 100 (.sweepNext true)), .fleet (.worker 100 .clone),
    .fleet (.worker 100 .start), .register 100 7 [⟨"linux"⟩], .fleet .gcQuery, .fleet .gcList,
    .fleet (.gcPurge true)]

/-- Its runner is online by then; the record of a worker that was killed before is not. -/
def onlineBeforeGc : List RegistrationEvent :=
  [.foreign ⟨3, "vmfleet-ci-103-1600000000-99", "offline", false, []⟩] ++ registeredBeforeGc ++
    [.spawnRunSh 100, .shown "vmfleet-ci-100-1700000000-4242" "online" false, .gcListRunners true]

theorem onlineBeforeGc_spares_live_records :
    (Transition.exec (Registration.step (configWith [smallPool])) (Registration.rest []) onlineBeforeGc).bind
        Registration.nextDeletion = some 3 ∧
    ∀ s, Transition.exec (Registration.step (configWith [smallPool])) (Registration.rest [])
        onlineBeforeGc = some s →
      ∀ w ∈ s.fleet.workers, w.active = true → ∀ r ∈ s.runners, r.name = w.vm → r.id ≠ 3 := by
  have hnext : (Transition.exec (Registration.step (configWith [smallPool])) (Registration.rest [])
      onlineBeforeGc).bind Registration.nextDeletion = some 3 := by decide
  refine ⟨hnext, fun s hexec => ?_⟩
  rw [hexec] at hnext
  exact Registration.gc_spares_live_records (by decide) hexec hnext

/-- `run.sh` has not connected yet when `gc` lists the runners. -/
theorem gc_deletes_live_record :
    (configWith [smallPool]).validate = .ok () ∧
    ∃ s, Transition.exec (Registration.step (configWith [smallPool])) (Registration.rest [])
        (registeredBeforeGc ++ [.gcListRunners true]) = some s ∧
      ∃ w ∈ s.fleet.workers, w.active = true ∧ w.vm = vmName "ci" 100 1700000000 4242 ∧
        ∃ r ∈ s.runners, r.name = w.vm ∧ s.nextDeletion = some r.id := by
  refine ⟨by decide, _, rfl, _, List.mem_cons_self, rfl, rfl, _, List.mem_cons_self, rfl, ?_⟩
  decide

end VmFleet
