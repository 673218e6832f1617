import VmFleet.Proof.BuildBase

/-!
# Adding a base

The loop over the bases ends at the first that fails, and without `--force` a base that only exists already
fails. So a base is built if none of those before it exists or lacks a setup script.
-/

namespace VmFleet

namespace BuildBase

open Procedure

variable {cfg : Config} {base : Base} {s s' : BuildState}

/-! ### Where every command succeeds -/

/-- Every command that is issued succeeds. -/
structure Smooth (out : BaseOutcomes) : Prop where
  info : exitsZero out.info = true
  launch : exitsZero out.launch = true
  transfer : ∀ i, exitsZero (out.script i).transfer = true
  exec : ∀ i, exitsZero (out.script i).exec = true

/-- The setup scripts of the base are on the host. -/
def ScriptsFound (base : Base) (out : BaseOutcomes) : Prop :=
  ∀ i < base.setupScripts.length, (out.script i).found = true

theorem runsThrough_iff {out : BaseOutcomes} (hsmooth : Smooth out) (i : Nat) (scripts : List String) :
    runsThrough out i scripts = true ↔ ∀ j < scripts.length, (out.script (i + j)).found = true := by
  induction scripts generalizing i with
  | nil => exact iff_of_true rfl fun j hj => absurd hj (Nat.not_lt_zero j)
  | cons script rest ih =>
      rw [runsThrough, hsmooth.transfer, hsmooth.exec, Bool.and_true, Bool.and_true, Bool.and_eq_true, ih]
      constructor
      · rintro ⟨hfound, hrest⟩ j hj
        cases j with
        | zero => exact hfound
        | succ j =>
            rw [← Nat.add_assoc, Nat.add_right_comm]
            exact hrest j (Nat.lt_of_succ_lt_succ hj)
      · intro h
        refine ⟨h 0 (Nat.zero_lt_succ _), fun j hj => ?_⟩
        rw [Nat.add_right_comm, Nat.add_assoc]
        exact h (j + 1) (Nat.succ_lt_succ hj)

/-! ### What a step issues -/

/-- The commands are among these, or are for this base. -/
def IssuedFor (name : String) (old : List (String × Command)) (s : BuildState) : Prop :=
  ∀ p ∈ s.issued, p ∈ old ∨ p.1 = name

variable {name : String} {old : List (String × Command)}

theorem preserves_of_issued {f : BuildState → BuildState} (hf : ∀ s, (f s).issued = s.issued) :
    Preserves (IssuedFor name old) (modify f : Build PUnit) := by
  refine preserves_modify fun s h => ?_
  rw [IssuedFor, hf]
  exact h

theorem preserves_issue (cs : List Command) : Preserves (IssuedFor name old) (issue name cs) := by
  refine preserves_modify fun s h p hp => ?_
  rcases List.mem_append.mp hp with hp | hp
  · exact h p hp
  · obtain ⟨c, -, rfl⟩ := List.mem_map.mp hp
    exact .inr rfl

theorem preserves_runChecked (c : Command) (answer : Answer) :
    Preserves (IssuedFor name old) (runChecked name c answer) :=
  (preserves_issue [c]).bind fun _ => (preserves_ofExcept _).bind fun _ => preserves_pure _

theorem preserves_provision (dir : String) (out : BaseOutcomes) (i : Nat) (scripts : List String) :
    Preserves (IssuedFor base.name old) (provision base dir out i scripts) := by
  induction scripts generalizing i with
  | nil => exact preserves_pure _
  | cons script rest ih =>
      have hrecord : Preserves (IssuedFor base.name old) (recordScript base.name script (out.script i)) := by
        refine preserves_of_issued fun s => ?_
        cases (out.script i).completes with
        | true => rfl
        | false => rfl
      rw [provision]
      refine Preserves.ite ?_ (preserves_throw _)
      refine (preserves_runChecked _ _).bind fun _ => (preserves_issue _).bind fun _ => ?_
      exact hrecord.bind fun _ => (preserves_ofExcept _).bind fun o => (ih (i + 1)).ite (preserves_throw _)

/-- A step of the loop issues commands for its own base only. -/
theorem preserves_buildOneBase (base : Base) (dir : String) (force : Bool) (out : BaseOutcomes) :
    Preserves (IssuedFor base.name old) (buildOneBase base dir force out) := by
  have hexists : Preserves (IssuedFor base.name old) (existsVm base.name out) :=
    (preserves_issue _).bind fun _ => preserves_get.bind fun _ => preserves_pure _
  have hgone : Preserves (IssuedFor base.name old) (modify fun s =>
      if out.purgeSucceeds base.name || out.purgedAnyway then s.setVm base.name none else s :
      Build PUnit) := by
    refine preserves_of_issued fun s => ?_
    cases out.purgeSucceeds base.name || out.purgedAnyway with
    | true => rfl
    | false => rfl
  have hpurge : Preserves (IssuedFor base.name old) (purge base.name out) :=
    (preserves_issue _).bind fun _ => hgone.bind fun _ => preserves_ofExcept _
  have hmade : Preserves (IssuedFor base.name old) (modify fun s =>
      if out.makes then s.setVm base.name (some ⟨true, []⟩) else s : Build PUnit) := by
    refine preserves_of_issued fun s => ?_
    cases out.makes with
    | true => rfl
    | false => rfl
  have hlaunch : Preserves (IssuedFor base.name old) (launch base out) :=
    preserves_get.bind fun _ => (preserves_runChecked _ _).ite (hmade.bind fun _ => preserves_runChecked _ _)
  have hroom : Preserves (IssuedFor base.name old) (makeRoom base force out) :=
    hexists.bind fun _ => (hpurge.ite (preserves_throw _)).ite (preserves_pure _)
  refine hroom.bind fun _ => hlaunch.bind fun _ => (preserves_issue _).bind fun _ => ?_
  exact (preserves_provision dir out 0 base.setupScripts).bind fun _ => preserves_issue _

theorem perform_existing {out : BaseOutcomes} (hexists : (s.vms base.name).isSome = true)
    (hinfo : exitsZero out.info = true) : perform (buildOneBase base dir false out) s =
      (.error ("base VM `" ++ base.name ++ "` already exists; pass --force to rebuild"),
        { s with issued := s.issued ++ [(base.name, Multipass.infoCommand base.name)] }) := by
  have hfound : StateT.run (ExceptT.run (existsVm base.name out)) s =
      (.ok true, { s with issued := s.issued ++ [(base.name, Multipass.infoCommand base.name)] }) := by
    show ((Except.ok ((s.vms base.name).isSome && exitsZero out.info) : Except String Bool), _) = _
    rw [hexists, hinfo]
    rfl
  rw [perform, buildOneBase, ExceptT.run_bind, StateT.run_bind, makeRoom, ExceptT.run_bind,
    StateT.run_bind, hfound]
  rfl

/-! ### A run without `--force` -/

/-- The VMs are as they were, and for those that exist nothing but `info` is issued. -/
structure Untouched (s s' : BuildState) : Prop where
  vms : ∀ n, (s.vms n).isSome = true → s'.vms n = s.vms n
  issued : ∀ p ∈ s'.issued, p ∈ s.issued ∨ s.vms p.1 = none ∨ p.2 = Multipass.infoCommand p.1

theorem Untouched.refl (s : BuildState) : Untouched s s := ⟨fun _ _ => rfl, fun _ hp => .inl hp⟩

theorem Untouched.trans {s'' : BuildState} (h : Untouched s s') (h' : Untouched s' s'') :
    Untouched s s'' where
  vms n hn := by rw [h'.vms n (by rw [h.vms n hn, hn]), h.vms n hn]
  issued p hp := by
    rcases h'.issued p hp with hp | hnone | hinfo
    · exact h.issued p hp
    · refine .inr (.inl ?_)
      cases hvm : s.vms p.1 with
      | none => rfl
      | some vm =>
          rw [h.vms p.1 (by rw [hvm]; rfl), hvm] at hnone
          cases hnone
    · exact .inr (.inr hinfo)

/-- Whether a step without `--force` goes on to the next base, if all its commands succeed. -/
def GoesOn (outs : String → BaseOutcomes) (vms : String → Option BaseVm) (base : Base) : Prop :=
  vms base.name = none ∧ ScriptsFound base (outs base.name)

theorem untouched_of_built {old : List (String × Command)} {vm : BaseVm} (hnone : s.vms base.name = none)
    (hat : At (Function.update s.vms base.name (some vm)) s') (hold : old = s.issued)
    (hissued : IssuedFor base.name old s') :
    Untouched s s' ∧ (s'.vms base.name).isSome = true ∧ ∀ n, n ≠ base.name → s'.vms n = s.vms n := by
  rw [At] at hat
  have hothers : ∀ n, n ≠ base.name → s'.vms n = s.vms n := by
    intro n hn
    rw [hat, Function.update_of_ne hn]
  refine ⟨⟨fun n hn => hothers n ?_, fun p hp => ?_⟩, by rw [hat, Function.update_self]; rfl, hothers⟩
  · rintro rfl
    rw [hnone] at hn
    cases hn
  · subst hold
    refine (hissued p hp).imp_right fun hname => .inl ?_
    rw [hname]
    exact hnone

/-- A step leaves its base existing. -/
theorem step_cases {outs : String → BaseOutcomes} (hsmooth : ∀ n, Smooth (outs n)) (base : Base)
    (dir : String) (s : BuildState) :
    ∃ r s', perform (buildOneBase base dir false (outs base.name)) s = (r, s') ∧
      (Untouched s s' ∧ (s'.vms base.name).isSome = true ∧ ∀ n, n ≠ base.name → s'.vms n = s.vms n) ∧
      (r = .ok () ↔ GoesOn outs s.vms base) := by
  have hs := hsmooth base.name
  cases hname : s.vms base.name with
  | some vm =>
      have hexists : (s.vms base.name).isSome = true := by rw [hname]; rfl
      refine ⟨_, _, perform_existing hexists hs.info, ⟨⟨fun _ _ => rfl, fun p hp => ?_⟩, hexists,
        fun _ _ => rfl⟩, iff_of_false (fun h => by cases h) fun h => ?_⟩
      · rcases List.mem_append.mp hp with hp | hp
        · exact .inl hp
        · rw [List.mem_singleton.mp hp]
          exact .inr (.inr rfl)
      · rw [h.1] at hname
        cases hname
  | none =>
      have hstep := buildOneBase_spec s.vms base dir false (outs base.name) s rfl
      have hissued := preserves_buildOneBase base dir false (outs base.name) s fun p hp => .inl hp
      have hlaunches : launches s.vms base false (outs base.name) = true := by
        rw [launches_of_free (by rw [hname]; rfl), BaseOutcomes.makes, hs.launch, Bool.true_or]
      have hgoes : runsThrough (outs base.name) 0 base.setupScripts = true ↔ GoesOn outs s.vms base := by
        rw [runsThrough_iff hs, GoesOn, ScriptsFound, and_iff_right hname]
        simp only [Nat.zero_add]
      rw [hlaunches, hs.launch, Bool.true_and, Bool.true_and] at hstep
      rw [perform]
      cases hrun : StateT.run (ExceptT.run (buildOneBase base dir false (outs base.name))) s with
      | mk r s' =>
          rw [hrun] at hstep hissued
          cases r with
          | ok u =>
              obtain ⟨hthrough, hat⟩ := hstep
              exact ⟨_, _, rfl, untouched_of_built hname hat rfl hissued,
                iff_of_true rfl (hgoes.mp hthrough)⟩
          | error e =>
              obtain ⟨hnot, ⟨-, done, hat, -⟩ | ⟨hlaunches', -⟩⟩ := hstep
              · rw [hlaunches, hs.launch, Bool.true_and, Bool.true_and] at hnot
                refine ⟨_, _, rfl, untouched_of_built hname hat rfl hissued,
                  iff_of_false (fun h => by cases h) fun h => ?_⟩
                rw [hgoes.mpr h] at hnot
                cases hnot
              · rw [hlaunches] at hlaunches'
                cases hlaunches'

theorem loop_builds_iff {outs : String → BaseOutcomes} (hsmooth : ∀ n, Smooth (outs n)) (dir : String)
    {todo : List Base} (hnodup : (todo.map (·.name)).Nodup) (s : BuildState) :
    Untouched s (perform (buildBases dir false outs todo) s).2 ∧
      ((∀ b ∈ todo, ((perform (buildBases dir false outs todo) s).2.vms b.name).isSome = true) ↔
        todo.Pairwise fun a b => s.vms b.name = none → GoesOn outs s.vms a) := by
  induction todo generalizing s with
  | nil => exact ⟨Untouched.refl s, iff_of_true (fun b hb => absurd hb List.not_mem_nil) List.Pairwise.nil⟩
  | cons base rest ih =>
      obtain ⟨hfirst, hrest⟩ := List.nodup_cons.mp hnodup
      have hne : ∀ b ∈ rest, b.name ≠ base.name := by
        rintro b hb hname
        exact hfirst (List.mem_map.mpr ⟨b, hb, hname⟩)
      obtain ⟨r, s', hrun, ⟨huntouched, hbuilt, hothers⟩, hgoes⟩ := step_cases hsmooth base dir s
      rw [perform_cons, hrun, List.forall_mem_cons, List.pairwise_cons]
      cases r with
      | ok u =>
          obtain ⟨hlater, hiff⟩ := ih hrest s'
          refine ⟨huntouched.trans hlater, ?_⟩
          have hkept : ((perform (buildBases dir false outs rest) s').2.vms base.name).isSome = true := by
            rw [hlater.vms _ hbuilt]
            exact hbuilt
          have hsame : (rest.Pairwise fun a b => s'.vms b.name = none → GoesOn outs s'.vms a) ↔
              rest.Pairwise fun a b => s.vms b.name = none → GoesOn outs s.vms a := by
            refine List.Pairwise.iff_of_mem fun {a b} ha hb => ?_
            rw [GoesOn, GoesOn, hothers _ (hne a ha), hothers _ (hne b hb)]
          have hgoesOn : ∀ b ∈ rest, s.vms b.name = none → GoesOn outs s.vms base :=
            fun _ _ _ => hgoes.mp rfl
          rw [← hsame, ← hiff]
          exact ⟨fun h => ⟨hgoesOn, h.2⟩, fun h => ⟨hkept, h.2⟩⟩
      | error e =>
          have hstops : ¬ GoesOn outs s.vms base := fun h => by cases hgoes.mpr h
          refine ⟨huntouched, ?_⟩
          have hexist : (∀ b ∈ rest, (s'.vms b.name).isSome = true) ↔
              ∀ b ∈ rest, s.vms b.name ≠ none := by
            refine forall₂_congr fun b hb => ?_
            rw [hothers _ (hne b hb), Option.isSome_iff_ne_none]
          constructor
          · rintro ⟨-, h⟩
            have hexist' := hexist.mp h
            exact ⟨fun b hb hnone => absurd hnone (hexist' b hb),
              List.pairwise_of_forall_mem_list fun a ha b hb hnone => absurd hnone (hexist' b hb)⟩
          · rintro ⟨h, -⟩
            exact ⟨hbuilt, hexist.mpr fun b hb hnone => hstops (h b hb hnone)⟩

variable {home path : String} {parent : Option String} {file : ConfigText}

/-- **When a build without `--force` leaves every base existing.** -/
theorem builds_every_base_iff (hload : Config.loadFile home path file = .ok cfg)
    (existing : String → Bool) {outs : String → BaseOutcomes} (hsmooth : ∀ n, Smooth (outs n)) :
    ((∀ b ∈ cfg.bases, ((perform (buildBase home path parent file ⟨false, outs⟩)
          (startWith existing)).2.vms b.name).isSome = true) ∧
        Untouched (startWith existing)
          (perform (buildBase home path parent file ⟨false, outs⟩) (startWith existing)).2) ↔
      cfg.bases.Pairwise fun a b =>
        existing b.name = false → existing a.name = false ∧ ScriptsFound a (outs a.name) := by
  have hmissing : ∀ n, (startWith existing).vms n = none ↔ existing n = false := by
    intro n
    simp [startWith]
  rw [perform_buildBase hload]
  obtain ⟨huntouched, hiff⟩ := loop_builds_iff hsmooth (parent.getD ".")
    (valid_of_loadFile hload).baseNames_nodup (startWith existing)
  simp only [GoesOn, hmissing] at hiff
  rw [and_iff_left huntouched]
  exact hiff

/-! ### A second base -/

def twoBases : Config :=
  { configWith [smallPool] with
    bases := [{ image := "24.04" }, { image := "24.04", name := "vmfleet-base-small", disk := "20G" }] }

theorem smooth_smoothBase : Smooth smoothBase := ⟨rfl, rfl, fun _ => rfl, fun _ => rfl⟩

theorem builds_every_base_first :
    (∀ b ∈ twoBases.bases, ((perform (buildBase "/root" "/etc/vmfleet/vmfleet.toml" (some "/etc/vmfleet")
          (.tables twoBases) ⟨false, fun _ => smoothBase⟩) (startWith fun _ => false)).2.vms b.name).isSome
        = true) ∧
      Untouched (startWith fun _ => false) (perform (buildBase "/root" "/etc/vmfleet/vmfleet.toml"
        (some "/etc/vmfleet") (.tables twoBases) ⟨false, fun _ => smoothBase⟩)
        (startWith fun _ => false)).2 := by
  refine (builds_every_base_iff rfl (fun _ => false) fun _ => smooth_smoothBase).mpr ?_
  exact List.pairwise_of_forall fun _ _ _ => ⟨rfl, fun _ _ => rfl⟩

/-- The second base is not built beside the first. -/
theorem second_base_missing :
    Config.loadFile "/root" "/etc/vmfleet/vmfleet.toml" (.tables twoBases) = .ok twoBases ∧
    Smooth smoothBase ∧
    perform (buildBase "/root" "/etc/vmfleet/vmfleet.toml" (some "/etc/vmfleet") (.tables twoBases)
        ⟨false, fun _ => smoothBase⟩) (startWith (· = "vmfleet-base")) =
      (.error "base VM `vmfleet-base` already exists; pass --force to rebuild",
        { startWith (· = "vmfleet-base") with
          issued := [("vmfleet-base", Multipass.infoCommand "vmfleet-base")] }) ∧
    ¬ ∀ b ∈ twoBases.bases, ((perform (buildBase "/root" "/etc/vmfleet/vmfleet.toml"
        (some "/etc/vmfleet") (.tables twoBases) ⟨false, fun _ => smoothBase⟩)
        (startWith (· = "vmfleet-base"))).2.vms b.name).isSome = true := by
  have hrun : perform (buildBase "/root" "/etc/vmfleet/vmfleet.toml" (some "/etc/vmfleet")
      (.tables twoBases) ⟨false, fun _ => smoothBase⟩) (startWith (· = "vmfleet-base")) =
      (.error "base VM `vmfleet-base` already exists; pass --force to rebuild",
        { startWith (· = "vmfleet-base") with
          issued := [("vmfleet-base", Multipass.infoCommand "vmfleet-base")] }) := rfl
  refine ⟨rfl, smooth_smoothBase, hrun, fun h => ?_⟩
  have hsmall := h { image := "24.04", name := "vmfleet-base-small", disk := "20G" } (by simp [twoBases])
  rw [hrun] at hsmall
  cases hsmall

end BuildBase

end VmFleet
