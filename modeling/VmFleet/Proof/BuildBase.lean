import VmFleet.Library.Procedure
import VmFleet.Proof.Config
import VmFleet.Proof.WorkerLife
import VmFleet.Source.BuildBase

/-!
# Which bases are whole

A base VM is launched under its final name before anything is installed in it, and a build that fails
leaves it as it is. So a base that exists is whole exactly if every build that has launched one has gone
through.
-/

namespace VmFleet

namespace BuildBase

open Procedure

/-! ### The setup scripts -/

def At (vms : String → Option BaseVm) (s : BuildState) : Prop := s.vms = vms

/-- From script `i` on, each script is found, copied and completes, and the client sees it of all but the
last. -/
def provisions (out : BaseOutcomes) : Nat → List String → Bool
  | _, [] => true
  | i, _ :: rest =>
    (out.script i).found && exitsZero (out.script i).transfer && (out.script i).completes &&
      (rest.isEmpty || (exitsZero (out.script i).exec && provisions out (i + 1) rest))

/-- From script `i` on, each script is found and copied, and runs with success. -/
def runsThrough (out : BaseOutcomes) : Nat → List String → Bool
  | _, [] => true
  | i, _ :: rest =>
    (out.script i).found && exitsZero (out.script i).transfer && exitsZero (out.script i).exec &&
      runsThrough out (i + 1) rest

/-- A build has left its VM with scripts completed in it, and with all of them if `whole`. -/
def LeftIn (vms : String → Option BaseVm) (name : String) (scripts : List String) (whole : Bool)
    (s : BuildState) : Prop :=
  ∃ done, At (Function.update vms name (some ⟨true, done⟩)) s ∧ (done = scripts ↔ whole = true)

section

variable {vms : String → Option BaseVm} {name : String} {base : Base} {dir : String} {force : Bool}
variable {out : BaseOutcomes}

theorem issue_spec (cs : List Command) (E : BuildState → Prop) :
    Triple (At vms) (issue name cs) (fun _ => At vms) E :=
  triple_modify fun _ h => h

theorem discard_spec {α : Type} (r : Except String α) :
    Triple (At vms) (discard (ofExcept r) : Build Unit) (fun _ s => r.isOk = true ∧ At vms s)
      (fun s => r.isOk = false ∧ At vms s) := by
  cases r with
  | ok a => exact fun s h => ⟨rfl, h⟩
  | error e => exact fun s h => ⟨rfl, h⟩

theorem runChecked_spec (vms : String → Option BaseVm) (name : String) (c : Command) (answer : Answer) :
    Triple (At vms) (runChecked name c answer) (fun _ s => exitsZero answer = true ∧ At vms s)
      (fun s => exitsZero answer = false ∧ At vms s) := by
  refine triple_bind (issue_spec [c] _) fun _ => ?_
  rw [← WorkerLife.isOk_checked c answer]
  exact discard_spec (checked c answer)

theorem recordScript_spec (script : String) (o : ScriptOutcomes) (done : List String) :
    Triple (At (Function.update vms name (some ⟨true, done⟩))) (recordScript name script o)
      (fun _ => At (Function.update vms name
        (some ⟨true, if o.completes then done ++ [script] else done⟩))) (fun _ => False) := by
  refine triple_modify fun s h => ?_
  cases o.completes with
  | false => exact h
  | true =>
      rw [At] at h
      show Function.update s.vms name ((s.vms name).map fun vm => _) = _
      rw [h, Function.update_self, Function.update_idem]
      rfl

theorem ofExcept_spec (answer : Answer) (P : BuildState → Prop) :
    Triple P (ofExcept answer : Build CmdOut) (fun o s => exitsZero answer = o.ok ∧ P s)
      (fun s => exitsZero answer = false ∧ P s) := by
  cases answer with
  | ok o => exact fun s h => ⟨rfl, h⟩
  | error e => exact fun s h => ⟨rfl, h⟩

theorem recorded_eq_iff (c : Bool) (done rest : List String) (script : String) :
    (if c then done ++ [script] else done) = done ++ script :: rest ↔ c = true ∧ rest = [] := by
  cases c with
  | true => simp [eq_comm]
  | false => simp

theorem provisions_cons (i : Nat) (script : String) (rest : List String) :
    provisions out i (script :: rest) = true ↔
      (out.script i).found = true ∧ exitsZero (out.script i).transfer = true ∧
        (out.script i).completes = true ∧
        (rest = [] ∨ (exitsZero (out.script i).exec = true ∧ provisions out (i + 1) rest = true)) := by
  simp [provisions, and_assoc]

/-- What is in the VM when the loop ends is all of the scripts only if they all complete. -/
theorem provision_spec (vms : String → Option BaseVm) (base : Base) (dir : String) (out : BaseOutcomes)
    (i : Nat) (done scripts : List String) :
    Triple (At (Function.update vms base.name (some ⟨true, done⟩))) (provision base dir out i scripts)
      (fun _ s => runsThrough out i scripts = true ∧
        At (Function.update vms base.name (some ⟨true, done ++ scripts⟩)) s)
      (fun s => runsThrough out i scripts = false ∧
        LeftIn vms base.name (done ++ scripts) (provisions out i scripts) s) := by
  induction scripts generalizing i done with
  | nil =>
      refine triple_pure fun s h => ⟨rfl, ?_⟩
      rw [List.append_nil]
      exact h
  | cons script rest ih =>
      have huntouched : ∀ s, At (Function.update vms base.name (some ⟨true, done⟩)) s →
          ((out.script i).found && exitsZero (out.script i).transfer) = false →
          runsThrough out i (script :: rest) = false ∧
            LeftIn vms base.name (done ++ script :: rest) (provisions out i (script :: rest)) s := by
        intro s h hnot
        refine ⟨by rw [runsThrough, hnot]; rfl, done, h, iff_of_false (by simp) ?_⟩
        rw [provisions, hnot]
        exact Bool.false_ne_true
      rw [provision]
      refine triple_ite (fun hfound => ?_) fun hfound => ?_
      · have htransfer := (runChecked_spec (Function.update vms base.name (some ⟨true, done⟩))
          base.name (Multipass.transferCommand (joinPath dir script) base.name (remotePath i))
          (out.script i).transfer).mono_fail fun s h =>
            huntouched s h.2 (by rw [h.1, Bool.and_false])
        refine triple_bind htransfer fun _ => triple_of_fact fun hcopied => ?_
        refine triple_bind (issue_spec _ _) fun _ => ?_
        refine triple_bind ((recordScript_spec script (out.script i) done).mono_fail fun s h => h.elim)
          fun _ => ?_
        have hunseen : ∀ s, exitsZero (out.script i).exec = false →
            At (Function.update vms base.name
              (some ⟨true, if (out.script i).completes then done ++ [script] else done⟩)) s →
            runsThrough out i (script :: rest) = false ∧
              LeftIn vms base.name (done ++ script :: rest) (provisions out i (script :: rest)) s := by
          intro s hexec h
          refine ⟨by rw [runsThrough, hexec, Bool.and_false]; rfl, _, h, ?_⟩
          rw [recorded_eq_iff, provisions_cons]
          simp [hexec, hfound, hcopied]
        refine triple_bind ((ofExcept_spec (out.script i).exec _).mono_fail
          fun s h => hunseen s h.1 h.2) fun o => triple_of_fact fun hexec => ?_
        refine triple_ite (fun hok => ?_) fun hok => ?_
        · have hzero : exitsZero (out.script i).exec = true := hexec.trans hok
          have hcompletes : (out.script i).completes = true := by
            rw [ScriptOutcomes.completes, hzero, Bool.true_or]
          have hall : provisions out i (script :: rest) = provisions out (i + 1) rest := by
            rw [provisions, hfound, hcopied, hcompletes, hzero]
            cases rest with
            | nil => rfl
            | cons next rest => rfl
          have hruns : runsThrough out i (script :: rest) = runsThrough out (i + 1) rest := by
            rw [runsThrough, hfound, hcopied, hzero]
            rfl
          have hnext := ih (i + 1) (done ++ [script])
          rw [List.append_assoc, List.singleton_append] at hnext
          rw [hall, hruns, hcompletes]
          exact hnext
        · exact triple_throw fun s h => hunseen s (hexec.trans (eq_false_of_ne_true hok)) h
      · exact triple_throw fun s h => huntouched s h (by rw [eq_false_of_ne_true hfound, Bool.false_and])

/-! ### One base -/

theorem At.setVm {s : BuildState} (h : At vms s) (name : String) (vm : Option BaseVm) :
    At (Function.update vms name vm) (s.setVm name vm) := by
  rw [At] at h ⊢
  rw [← h]
  rfl

theorem purge_spec : Triple (At vms) (purge name out)
    (fun _ s => out.purgeSucceeds name = true ∧ At (Function.update vms name none) s)
    (fun s => out.purgeSucceeds name = false ∧ (At vms s ∨ At (Function.update vms name none) s)) := by
  refine triple_bind (issue_spec _ _) fun _ => ?_
  have hgone : Triple (At vms)
      (modify fun s => if out.purgeSucceeds name || out.purgedAnyway then s.setVm name none else s :
        Build PUnit)
      (fun _ s => if out.purgeSucceeds name then At (Function.update vms name none) s
        else At vms s ∨ At (Function.update vms name none) s)
      (fun s => out.purgeSucceeds name = false ∧ (At vms s ∨ At (Function.update vms name none) s)) := by
    refine triple_modify fun s h => ?_
    cases out.purgeSucceeds name with
    | true => exact h.setVm name none
    | false =>
        cases out.purgedAnyway with
        | true => exact .inr (h.setVm name none)
        | false => exact .inl h
  refine triple_bind hgone fun _ => ?_
  rw [BaseOutcomes.purgeSucceeds]
  cases (Multipass.purge name out.purge.1 out.purge.2).2 with
  | ok u => exact triple_pure fun s h => ⟨rfl, h⟩
  | error e => exact triple_throw fun s h => ⟨rfl, h⟩

/-- Whether `info` finds the VM. -/
def seen (vms : String → Option BaseVm) (name : String) (out : BaseOutcomes) : Bool :=
  (vms name).isSome && exitsZero out.info

theorem makeRoom_spec : Triple (At vms) (makeRoom base force out)
    (fun _ s => (seen vms base.name out = false ∧ At vms s) ∨
      (seen vms base.name out = true ∧ (force && out.purgeSucceeds base.name) = true ∧
        At (Function.update vms base.name none) s))
    (fun s => seen vms base.name out = true ∧ (force && out.purgeSucceeds base.name) = false ∧
      (At vms s ∨ (force = true ∧ At (Function.update vms base.name none) s))) := by
  have hexists : Triple (At vms) (existsVm base.name out)
      (fun found s => found = seen vms base.name out ∧ At vms s)
      (fun s => seen vms base.name out = true ∧ (force && out.purgeSucceeds base.name) = false ∧
        (At vms s ∨ (force = true ∧ At (Function.update vms base.name none) s))) := by
    refine triple_bind (issue_spec _ _) fun _ => ?_
    have hget : Triple (At vms) (get : Build BuildState) (fun r s => At vms r ∧ At vms s)
        (fun s => seen vms base.name out = true ∧ (force && out.purgeSucceeds base.name) = false ∧
          (At vms s ∨ (force = true ∧ At (Function.update vms base.name none) s))) :=
      triple_get fun s h => ⟨h, h⟩
    refine triple_bind hget fun r => triple_pure fun s h => ⟨?_, h.2⟩
    rw [seen, ← h.1]
  refine triple_bind hexists fun found => triple_of_fact fun hfound => ?_
  refine triple_ite (fun hpos => ?_) fun hneg => ?_
  · rw [← hfound, hpos]
    refine triple_ite (fun hforce => ?_) fun hforce => ?_
    · rw [hforce, Bool.true_and]
      exact purge_spec.mono_post (fun _ s h => .inr ⟨rfl, h⟩)
        fun s h => ⟨rfl, h.1, h.2.imp_right fun hgone => ⟨rfl, hgone⟩⟩
    · rw [eq_false_of_ne_true hforce, Bool.false_and]
      exact triple_throw fun s h => ⟨rfl, rfl, .inl h⟩
  · exact triple_pure fun s h => .inl ⟨hfound.symm.trans (eq_false_of_ne_true hneg), h⟩

theorem launch_spec : Triple (At vms) (launch base out)
    (fun _ s => (vms base.name).isSome = false ∧ exitsZero out.launch = true ∧
      At (Function.update vms base.name (some ⟨true, []⟩)) s)
    (fun s => ((vms base.name).isSome = true ∧ At vms s) ∨
      ((vms base.name).isSome = false ∧ exitsZero out.launch = false ∧
        At (if out.makes then Function.update vms base.name (some ⟨true, []⟩) else vms) s)) := by
  have hget : Triple (At vms) (get : Build BuildState) (fun r s => At vms r ∧ At vms s)
      (fun s => ((vms base.name).isSome = true ∧ At vms s) ∨
        ((vms base.name).isSome = false ∧ exitsZero out.launch = false ∧
          At (if out.makes then Function.update vms base.name (some ⟨true, []⟩) else vms) s)) :=
    triple_get fun s h => ⟨h, h⟩
  refine triple_bind hget fun r => triple_of_fact fun hr => ?_
  rw [show r.vms = vms from hr]
  refine triple_ite (fun htaken => ?_) fun hfree => ?_
  · refine (runChecked_spec _ _ _ _).mono_post (fun _ s h => ?_) fun s h => .inl ⟨htaken, h.2⟩
    exact absurd h.1 Bool.false_ne_true
  · have hname : (vms base.name).isSome = false := eq_false_of_ne_true hfree
    have hmade : Triple (At vms)
        (modify fun s => if out.makes then s.setVm base.name (some ⟨true, []⟩) else s : Build PUnit)
        (fun _ => At (if out.makes then Function.update vms base.name (some ⟨true, []⟩) else vms))
        (fun s => ((vms base.name).isSome = true ∧ At vms s) ∨
          ((vms base.name).isSome = false ∧ exitsZero out.launch = false ∧
            At (if out.makes then Function.update vms base.name (some ⟨true, []⟩) else vms) s)) := by
      refine triple_modify fun s h => ?_
      cases out.makes with
      | true => exact h.setVm base.name (some ⟨true, []⟩)
      | false => exact h
    refine triple_bind hmade fun _ => ?_
    refine (runChecked_spec _ _ _ _).mono_post (fun _ s h => ⟨hname, h.1, ?_⟩)
      fun s h => .inr ⟨hname, h⟩
    have hmakes : out.makes = true := by rw [BaseOutcomes.makes, h.1, Bool.true_or]
    rw [hmakes] at h
    exact h.2

/-- The step launches a VM: its name is free, or has been freed. -/
def launches (vms : String → Option BaseVm) (base : Base) (force : Bool) (out : BaseOutcomes) : Bool :=
  ((vms base.name).isNone || (exitsZero out.info && force && out.purgeSucceeds base.name)) && out.makes

/-- The launch comes back with success and the setup scripts all complete, and the client sees it of all
but the last. -/
def goesThrough (base : Base) (out : BaseOutcomes) : Bool :=
  exitsZero out.launch && provisions out 0 base.setupScripts

/-- What a step leaves that fails after the first check. -/
def NotBuilt (vms : String → Option BaseVm) (base : Base) (out : BaseOutcomes) (s : BuildState) : Prop :=
  ((vms base.name).isSome = true ∧ At vms s) ∨
    ((vms base.name).isSome = false ∧
      (exitsZero out.launch && runsThrough out 0 base.setupScripts) = false ∧
      if out.makes then LeftIn vms base.name base.setupScripts
        (base.setupScripts.isEmpty || goesThrough base out) s else At vms s)

theorem notBuilt_of_launch {s : BuildState} (h : ((vms base.name).isSome = true ∧ At vms s) ∨
    ((vms base.name).isSome = false ∧ exitsZero out.launch = false ∧
      At (if out.makes then Function.update vms base.name (some ⟨true, []⟩) else vms) s)) :
    NotBuilt vms base out s := by
  refine h.imp_right fun hfailed => ?_
  obtain ⟨hfree, hnonzero, hat⟩ := hfailed
  refine ⟨hfree, by rw [hnonzero]; rfl, ?_⟩
  cases hmakes : out.makes with
  | false =>
      rw [hmakes] at hat
      exact hat
  | true =>
      rw [hmakes] at hat
      refine ⟨[], hat, ?_⟩
      rw [goesThrough, hnonzero, Bool.false_and, Bool.or_false, List.isEmpty_iff, eq_comm]

theorem afterRoom_spec (vms : String → Option BaseVm) : Triple (At vms)
    (do
      launch base out
      issue base.name [Multipass.execCommand base.name "cloud-init status --wait" 300]
      provision base dir out 0 base.setupScripts
      issue base.name [Multipass.stopCommand base.name, Multipass.listCommand])
    (fun _ s => (vms base.name).isSome = false ∧
      (exitsZero out.launch && runsThrough out 0 base.setupScripts) = true ∧
      At (Function.update vms base.name (some ⟨true, base.setupScripts⟩)) s)
    (NotBuilt vms base out) := by
  refine triple_bind (launch_spec.mono_fail fun s h => notBuilt_of_launch h)
    fun _ => triple_of_fact fun hfree => triple_of_fact fun hzero => ?_
  have hmakes : out.makes = true := by rw [BaseOutcomes.makes, hzero, Bool.true_or]
  have hgoes : (base.setupScripts.isEmpty || goesThrough base out) =
      provisions out 0 base.setupScripts := by
    rw [goesThrough, hzero, Bool.true_and]
    cases base.setupScripts with
    | nil => rfl
    | cons script rest => rfl
  refine triple_bind (issue_spec _ _) fun _ => ?_
  have hprovision := provision_spec vms base dir out 0 [] base.setupScripts
  rw [List.nil_append] at hprovision
  refine triple_bind (hprovision.mono_fail fun s h => .inr ?_) fun _ => ?_
  · rw [hzero, hmakes, hgoes]
    exact ⟨hfree, h⟩
  · rw [hzero]
    exact triple_modify fun s h => ⟨hfree, h⟩

/-- What a step leaves that fails. -/
def Failed (vms : String → Option BaseVm) (base : Base) (force : Bool) (out : BaseOutcomes)
    (s : BuildState) : Prop :=
  (launches vms base force out && (exitsZero out.launch && runsThrough out 0 base.setupScripts)) = false ∧
    ((launches vms base force out = true ∧ LeftIn vms base.name base.setupScripts
        (base.setupScripts.isEmpty || goesThrough base out) s) ∨
      (launches vms base force out = false ∧
        (At vms s ∨ (force = true ∧ At (Function.update vms base.name none) s))))

theorem NotBuilt.failed {room : String → Option BaseVm} {s : BuildState} (h : NotBuilt room base out s)
    (hfree : (room base.name).isSome = false)
    (hsame : ∀ vm, Function.update room base.name vm = Function.update vms base.name vm)
    (hlaunches : launches vms base force out = out.makes)
    (hroom : room = vms ∨ (force = true ∧ room = Function.update vms base.name none)) :
    Failed vms base force out s := by
  rcases h with ⟨htaken, -⟩ | ⟨-, hnot, hleft⟩
  · rw [hfree] at htaken
    cases htaken
  · rw [Failed, hlaunches, hnot, Bool.and_false]
    refine ⟨rfl, ?_⟩
    cases hmakes : out.makes with
    | true =>
        rw [hmakes] at hleft
        obtain ⟨done, hat, hdone⟩ := hleft
        rw [hsame] at hat
        exact .inl ⟨rfl, done, hat, hdone⟩
    | false =>
        rw [hmakes] at hleft
        refine .inr ⟨rfl, ?_⟩
        rcases hroom with rfl | ⟨hforce, rfl⟩
        · exact .inl hleft
        · exact .inr ⟨hforce, hleft⟩

theorem launches_of_free (hfree : (vms base.name).isSome = false) :
    launches vms base force out = out.makes := by
  rw [launches, ← Option.not_isSome, hfree]
  rfl

/-- **What one step of the loop leaves.** -/
theorem buildOneBase_spec (vms : String → Option BaseVm) (base : Base) (dir : String) (force : Bool)
    (out : BaseOutcomes) : Triple (At vms) (buildOneBase base dir force out)
    (fun _ s => (launches vms base force out &&
        (exitsZero out.launch && runsThrough out 0 base.setupScripts)) = true ∧
      At (Function.update vms base.name (some ⟨true, base.setupScripts⟩)) s)
    (Failed vms base force out) := by
  have hmakes : (exitsZero out.launch && runsThrough out 0 base.setupScripts) = true →
      out.makes = true := by
    intro hthrough
    rw [BaseOutcomes.makes, (Bool.and_eq_true_iff.mp hthrough).1, Bool.true_or]
  refine triple_bind (makeRoom_spec.mono_fail fun s h => ?_) fun _ s h => ?_
  · obtain ⟨hseen, hkept, hat⟩ := h
    obtain ⟨hsome, hinfo⟩ := Bool.and_eq_true_iff.mp hseen
    have hlaunches : launches vms base force out = false := by
      rw [launches, ← Option.not_isSome, hsome, hinfo, Bool.true_and, hkept]
      rfl
    exact ⟨by rw [hlaunches]; rfl, .inr ⟨hlaunches, hat⟩⟩
  · rcases h with ⟨hseen, hat⟩ | ⟨hseen, hfreed, hat⟩
    · refine (afterRoom_spec vms).mono_post (fun _ s h => ?_) (fun s h => ?_) s hat
      · obtain ⟨hfree, hthrough, hbuilt⟩ := h
        rw [launches_of_free hfree, hmakes hthrough, hthrough]
        exact ⟨rfl, hbuilt⟩
      · cases hname : (vms base.name).isSome with
        | false => exact h.failed hname (fun _ => rfl) (launches_of_free hname) (.inl rfl)
        | true =>
            rw [seen, hname, Bool.true_and] at hseen
            have hlaunches : launches vms base force out = false := by
              rw [launches, ← Option.not_isSome, hname, hseen]
              rfl
            rcases h with ⟨-, hkept⟩ | ⟨hfree, -⟩
            · exact ⟨by rw [hlaunches]; rfl, .inr ⟨hlaunches, .inl hkept⟩⟩
            · rw [hname] at hfree
              cases hfree
    · obtain ⟨hsome, hinfo⟩ := Bool.and_eq_true_iff.mp hseen
      have hlaunches : launches vms base force out = out.makes := by
        rw [launches, hinfo, Bool.true_and, hfreed, Bool.or_true, Bool.true_and]
      have hfree : (Function.update vms base.name none base.name).isSome = false := by
        rw [Function.update_self]
        rfl
      have hsame : ∀ vm, Function.update (Function.update vms base.name none) base.name vm =
          Function.update vms base.name vm := fun vm => Function.update_idem _ _ _
      refine (afterRoom_spec (Function.update vms base.name none)).mono_post (fun _ s h => ?_)
        (fun s h => ?_) s hat
      · obtain ⟨-, hthrough, hbuilt⟩ := h
        rw [hlaunches, hmakes hthrough, hthrough]
        rw [hsame] at hbuilt
        exact ⟨rfl, hbuilt⟩
      · exact h.failed hfree hsame hlaunches (.inr ⟨(Bool.and_eq_true_iff.mp hfreed).1, rfl⟩)

end

/-! ### The loop over the bases -/

def perform (x : Build Unit) (s : BuildState) : Except String Unit × BuildState :=
  StateT.run (ExceptT.run x) s

/-- The bases a run of the loop comes to, each with what is there before. -/
def comesTo (dir : String) (run : BuildRun) : BuildState → List Base → List (Base × BuildState)
  | _, [] => []
  | s, base :: rest => (base, s) ::
    match perform (buildOneBase base dir run.force (run.outs base.name)) s with
    | (.ok (), s') => comesTo dir run s' rest
    | (.error _, _) => []

theorem mem_of_mem_comesTo {dir : String} {run : BuildRun} {s : BuildState} {todo : List Base}
    {p : Base × BuildState} (hp : p ∈ comesTo dir run s todo) : p.1 ∈ todo := by
  induction todo generalizing s with
  | nil => cases hp
  | cons base rest ih =>
      rw [comesTo] at hp
      rcases List.mem_cons.mp hp with rfl | hp
      · exact List.mem_cons_self
      · split at hp
        · exact List.mem_cons_of_mem _ (ih hp)
        · cases hp

/-- Every base VM that a build has launched has all its setup scripts completed in it. -/
def Whole (cfg : Config) (s : BuildState) : Prop :=
  ∀ b ∈ cfg.bases, ∀ vm, s.vms b.name = some vm → vm.launched = true → vm.completed = b.setupScripts

/-- A VM that is launched here gets all its scripts completed. -/
def LaunchesWhole (run : BuildRun) (base : Base) (s : BuildState) : Prop :=
  launches s.vms base run.force (run.outs base.name) = true →
    base.setupScripts = [] ∨ goesThrough base (run.outs base.name) = true

variable {cfg : Config} {base : Base} {dir : String} {run : BuildRun} {s s' : BuildState}

theorem perform_cons (dir : String) (force : Bool) (outs : String → BaseOutcomes) (base : Base)
    (rest : List Base) (s : BuildState) : perform (buildBases dir force outs (base :: rest)) s =
      match perform (buildOneBase base dir force (outs base.name)) s with
      | (.ok (), s') => perform (buildBases dir force outs rest) s'
      | (.error e, s') => (.error e, s') := by
  rw [perform, buildBases, ExceptT.run_bind, StateT.run_bind]
  rw [perform]
  cases StateT.run (ExceptT.run (buildOneBase base dir force (outs base.name))) s with
  | mk r s' =>
      cases r with
      | ok u => rfl
      | error e => rfl

theorem provisions_of_runsThrough {out : BaseOutcomes} {i : Nat} {scripts : List String}
    (h : runsThrough out i scripts = true) : provisions out i scripts = true := by
  induction scripts generalizing i with
  | nil => rfl
  | cons script rest ih =>
      simp only [runsThrough, Bool.and_eq_true] at h
      obtain ⟨⟨⟨hfound, hcopied⟩, hzero⟩, hrest⟩ := h
      rw [provisions_cons, ScriptOutcomes.completes, hzero]
      exact ⟨hfound, hcopied, rfl, .inr ⟨rfl, ih hrest⟩⟩

theorem whole_update_iff (hnodup : (cfg.bases.map (·.name)).Nodup) (hbase : base ∈ cfg.bases)
    (hwhole : Whole cfg s) {vm : Option BaseVm} (hat : At (Function.update s.vms base.name vm) s') :
    Whole cfg s' ↔ ∀ v, vm = some v → v.launched = true → v.completed = base.setupScripts := by
  rw [At] at hat
  constructor
  · intro h v hv
    refine h base hbase v ?_
    rw [hat, Function.update_self, hv]
  · intro h b hb v hv
    rw [hat] at hv
    by_cases hname : b.name = base.name
    · rw [List.inj_on_of_nodup_map hnodup hb hbase hname] at hv ⊢
      rw [Function.update_self] at hv
      exact h v hv
    · rw [Function.update_of_ne hname] at hv
      exact hwhole b hb v hv

/-- The loop leaves whole bases if each VM it launches becomes whole. -/
theorem whole_loop_iff (hnodup : (cfg.bases.map (·.name)).Nodup) {todo : List Base}
    (htodo : ∀ b ∈ todo, b ∈ cfg.bases) (hwhole : Whole cfg s) :
    Whole cfg (perform (buildBases dir run.force run.outs todo) s).2 ↔
      ∀ p ∈ comesTo dir run s todo, LaunchesWhole run p.1 p.2 := by
  induction todo generalizing s with
  | nil => exact iff_of_true hwhole fun p hp => absurd hp List.not_mem_nil
  | cons base rest ih =>
      obtain ⟨hbase, hrest⟩ := List.forall_mem_cons.mp htodo
      have hstep := buildOneBase_spec s.vms base dir run.force (run.outs base.name) s rfl
      rw [perform_cons, comesTo, List.forall_mem_cons, perform]
      cases hrun : StateT.run (ExceptT.run (buildOneBase base dir run.force (run.outs base.name))) s with
      | mk r s' =>
          rw [hrun] at hstep
          cases r with
          | ok u =>
              obtain ⟨hthrough, hat⟩ := hstep
              obtain ⟨-, hthrough⟩ := Bool.and_eq_true_iff.mp hthrough
              obtain ⟨hzero, hthrough⟩ := Bool.and_eq_true_iff.mp hthrough
              have hwhole' : Whole cfg s' := by
                refine (whole_update_iff hnodup hbase hwhole hat).mpr fun v hv _ => ?_
                rw [← Option.some.inj hv]
              have hlaunches : LaunchesWhole run base s := by
                refine fun _ => .inr ?_
                rw [goesThrough, hzero, provisions_of_runsThrough hthrough]
                rfl
              rw [and_iff_right hlaunches]
              exact ih hrest hwhole'
          | error e =>
              obtain ⟨-, ⟨hlaunches, done, hat, hdone⟩ | ⟨hlaunches, hkept⟩⟩ := hstep
              · refine (whole_update_iff hnodup hbase hwhole hat).trans ?_
                rw [Bool.or_eq_true, List.isEmpty_iff] at hdone
                simp only [LaunchesWhole, hlaunches, List.not_mem_nil, Option.some.injEq, forall_eq',
                  hdone, false_implies, implies_true, and_true, true_implies]
              · refine iff_of_true ?_ ⟨fun h => ?_, fun p hp => absurd hp List.not_mem_nil⟩
                · rcases hkept with hat | ⟨-, hat⟩
                  · intro b hb vm hvm
                    rw [At] at hat
                    rw [hat] at hvm
                    exact hwhole b hb vm hvm
                  · exact (whole_update_iff hnodup hbase hwhole hat).mpr fun v hv => by cases hv
                · rw [hlaunches] at h
                  cases h

/-! ### Runs -/

/-- These VMs exist before the first run. -/
def startWith (existing : String → Bool) : BuildState :=
  { vms := fun name => if existing name then some ⟨false, []⟩ else none }

def afterRuns (home path : String) (dir : Option String) (file : ConfigText) (existing : String → Bool)
    (runs : List BuildRun) : BuildState :=
  runs.foldl (fun s run => (perform (buildBase home path dir file run) s).2) (startWith existing)

variable {home path : String} {parent : Option String} {file : ConfigText}

theorem perform_buildBase (hload : Config.loadFile home path file = .ok cfg) (run : BuildRun)
    (s : BuildState) : perform (buildBase home path parent file run) s =
      perform (buildBases (parent.getD ".") run.force run.outs cfg.bases) s := by
  rw [buildBase, hload]
  rfl

theorem valid_of_loadFile (hload : Config.loadFile home path file = .ok cfg) : cfg.Valid := by
  cases file with
  | unreadable => cases hload
  | unparseable => cases hload
  | tables parsed => exact Config.valid_of_load hload

/-- **When the bases that builds have launched are whole.** -/
theorem built_bases_whole_iff (hload : Config.loadFile home path file = .ok cfg)
    (existing : String → Bool) (runs : List BuildRun) :
    (∀ l, l <+: runs → Whole cfg (afterRuns home path parent file existing l)) ↔
      ∀ l run, l ++ [run] <+: runs →
        ∀ p ∈ comesTo (parent.getD ".") run (afterRuns home path parent file existing l) cfg.bases,
          LaunchesWhole run p.1 p.2 := by
  have hnodup := (valid_of_loadFile hload).baseNames_nodup
  have hstep : ∀ l run, Whole cfg (afterRuns home path parent file existing l) →
      (Whole cfg (afterRuns home path parent file existing (l ++ [run])) ↔
        ∀ p ∈ comesTo (parent.getD ".") run (afterRuns home path parent file existing l) cfg.bases,
          LaunchesWhole run p.1 p.2) := by
    intro l run hwhole
    rw [afterRuns, List.foldl_append, List.foldl_cons, List.foldl_nil, ← afterRuns,
      perform_buildBase hload]
    exact whole_loop_iff hnodup (fun b hb => hb) hwhole
  constructor
  · intro h l run hfront
    have hbefore := h l ((List.prefix_append l [run]).trans hfront)
    exact (hstep l run hbefore).mp (h (l ++ [run]) hfront)
  · intro h l
    induction l using List.reverseRecOn with
    | nil =>
        intro _ b _ vm hvm hlaunched
        rw [afterRuns, List.foldl_nil, startWith] at hvm
        dsimp only at hvm
        split at hvm
        · rw [← Option.some.inj hvm] at hlaunched
          cases hlaunched
        · cases hvm
    | append_singleton l run ih =>
        intro hfront
        exact (hstep l run (ih ((List.prefix_append l [run]).trans hfront))).mpr (h l run hfront)

/-! ### A setup script that fails -/

def provisionedConfig : Config :=
  { configWith [smallPool] with bases := [{ image := "24.04", setupScripts := ["provision/setup.sh"] }] }

def smoothBase : BaseOutcomes where
  info := .ok ⟨0, "", ""⟩
  purge := (.ok ⟨0, "", ""⟩, .ok ⟨0, "", ""⟩)
  purgedAnyway := false
  launch := .ok ⟨0, "", ""⟩
  launchedAnyway := false
  taken := "launch failed: instance already exists"
  script _ := ⟨true, .ok ⟨0, "", ""⟩, .ok ⟨0, "", ""⟩, false⟩

/-- The download in the setup script fails. -/
def failingScript : BaseOutcomes :=
  { smoothBase with script := fun _ =>
      ⟨true, .ok ⟨0, "", ""⟩, .ok ⟨6, "", "curl: (6) Could not resolve host: github.com"⟩, false⟩ }

theorem built_bases_whole_smooth :
    Whole provisionedConfig (afterRuns "/root" "/etc/vmfleet/vmfleet.toml" (some "/etc/vmfleet")
      (.tables provisionedConfig) (fun _ => false) [⟨false, fun _ => smoothBase⟩]) := by
  refine (built_bases_whole_iff rfl (fun _ => false) [⟨false, fun _ => smoothBase⟩]).mpr
    (fun l run hfront p hp _ => .inr ?_) _ List.prefix_rfl
  have hbase := mem_of_mem_comesTo hp
  rw [List.mem_singleton.mp hbase]
  have hrun : run ∈ [(⟨false, fun _ => smoothBase⟩ : BuildRun)] := hfront.subset List.mem_concat_self
  rw [List.mem_singleton.mp hrun]
  rfl

/-- The base VM is left as it was launched, for workers to clone. -/
theorem failed_build_left :
    Config.loadFile "/root" "/etc/vmfleet/vmfleet.toml" (.tables provisionedConfig) =
      .ok provisionedConfig ∧
    ¬ ∀ l, l <+: [⟨false, fun _ => failingScript⟩] →
      Whole provisionedConfig (afterRuns "/root" "/etc/vmfleet/vmfleet.toml" (some "/etc/vmfleet")
        (.tables provisionedConfig) (fun _ => false) l) := by
  refine ⟨rfl, fun h => ?_⟩
  have hwhole := h _ List.prefix_rfl _ (List.mem_singleton_self _) ⟨true, []⟩ rfl rfl
  cases hwhole

end BuildBase

end VmFleet
