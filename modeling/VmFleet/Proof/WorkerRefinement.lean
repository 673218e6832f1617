import VmFleet.Library.Refinement
import VmFleet.Proof.WorkerLife
import VmFleet.Source.WorkerThreads

/-!
# The life of a worker is a run of its threads

`WorkerLife` has every command of `lifecycle` and what it comes to, `WorkerThreads` the two threads and what
they share. Here the first is shown to follow the second, without a signal: each procedure stands for the
calls it makes, a loop for as many rounds as it takes, and what is asked of `multipass` is what the calls
made ask for.
-/

namespace VmFleet

open Procedure Refinement

namespace WorkerLife

variable {α β : Type}

/-! ### What a worker asks for -/

/-- What a command asks of `multipass`. An `exec` is left out, `wait_cloud_init` repeats it. -/
def verb (c : Command) : Option String :=
  match c.args.head? with
  | some "exec" => none
  | first => first

def asked (issued : List Command) : List String := issued.filterMap verb

/-- What each call of `lifecycle` asks for. -/
def asks : Call → List String
  | .available => ["version"]
  | .baseExists => ["info"]
  | .sweepLeftovers => ["list"]
  | .cloneFrom => ["clone"]
  | .setCpus | .setMemory => ["set"]
  | .start => ["start"]
  | _ => []

/-- From `s` to `s'`, this has been asked for, and what the threads share has been left alone. -/
structure Played (verbs : List String) (s s' : LifeState) : Prop where
  created : s'.created = s.created
  runChild : s'.runChild = s.runChild
  asked : asked s'.issued = asked s.issued ++ verbs

/-- However `x` ends, it has asked for this. -/
def Plays (verbs : List String) (x : Life α) : Prop :=
  ∀ start, Triple (fun s => s = start) x (fun _ => Played verbs start) (Played verbs start)

/-- What comes after asks for nothing more. -/
theorem Plays.bind {verbs : List String} {x : Life α} {f : α → Life β} (hx : Plays verbs x)
    (hf : ∀ a, Plays [] (f a)) : Plays verbs (x >>= f) := by
  intro start
  apply triple_bind (hx start)
  intro a mid hmid
  have hrest : ∀ s', Played [] mid s' → Played verbs start s' := fun s' h =>
    ⟨h.created.trans hmid.created, h.runChild.trans hmid.runChild,
      (h.asked.trans (List.append_nil _)).trans hmid.asked⟩
  have hends : Triple (fun s => s = mid) (f a) (fun _ => Played verbs start) (Played verbs start) :=
    (hf a mid).mono (fun _ h => h) (fun _ => hrest) hrest
  exact hends mid rfl

theorem Plays.ite {verbs : List String} {x y : Life α} {c : Prop} [Decidable c] (hx : Plays verbs x)
    (hy : Plays verbs y) : Plays verbs (if c then x else y) := fun start =>
  triple_ite (fun _ => hx start) fun _ => hy start

/-- The main thread has these calls before it. -/
def midway (todo : List Call) (cloned running : Bool) (s : LifeState) : WorkerThreads where
  todo := todo
  polled := none
  failed := false
  main := .away
  signal := .away
  sig := none
  cleaned := false
  created := s.created
  runChild := s.runChild
  lock := none
  cloned := cloned
  running := running
  attempted := []
  childMissed := false
  vmMissed := false
  exitCode := none

/-- `lifecycle` has returned, and the cleanup is about to begin. -/
def returned (failed running : Bool) (s : LifeState) : WorkerThreads :=
  { midway [] s.created running s with failed := failed, main := .swap }

/-- The events of a process that gets no signal. -/
def OfMain : ThreadEvent → Prop
  | .deliver _ | .cleanup .signal | .exit .signal => False
  | _ => True

/-- The call that an event is the return of. -/
def callMade (t : WorkerThreads) : ThreadEvent → List Call
  | .call _ => t.todo.head?.toList
  | _ => []

/-- The threads, and the calls that have been made. -/
abbrev Recorded := WorkerThreads × List Call

abbrev recordedStep : Recorded → ThreadEvent → Option Recorded :=
  Transition.recorded WorkerThreads.step callMade

/-- The calls made have asked for what the worker has asked for. -/
def InStep (s : LifeState) (made : List Call) : Prop := asked s.issued = made.flatMap asks

/-- Between two calls. -/
def At (todo : List Call) (s : LifeState) (r : Recorded) : Prop :=
  r.1 = midway todo s.created s.runChild s ∧ InStep s r.2

/-- `lifecycle` is over, and a process that runs is one that has been stored. -/
def Over (failed : Bool) (s : LifeState) (r : Recorded) : Prop :=
  ∃ running, r.1 = returned failed running s ∧ (running = true → s.runChild = true) ∧ InStep s r.2

/-- Of a `lifecycle` that is still waiting nothing is said. -/
def Fails : Stop → LifeState → Recorded → Prop
  | .failed _, s, r => Over true s r
  | .waiting, _, _ => True

theorem Played.midway_eq {verbs : List String} {s s' : LifeState} (h : Played verbs s s') (todo : List Call) :
    midway todo s'.created s'.runChild s' = midway todo s.created s.runChild s := by
  rw [midway, midway, h.created, h.runChild]

theorem Played.inStep {s s' : LifeState} {made : List Call} {c : Call} (h : Played (asks c) s s')
    (hmade : InStep s made) : InStep s' (made ++ [c]) := by
  rw [InStep, h.asked, hmade, List.flatMap_append, List.flatMap_singleton]

theorem step_fail {c : Call} (rest : List Call) (hpolls : c.polls = false) (hmayFail : c.mayFail = true)
    (running : Bool) (s : LifeState) (made : List Call) :
    recordedStep (midway (c :: rest) s.created running s, made) (.call false) =
      some (returned true running s, made ++ [c]) := by
  cases c <;> first
    | exact absurd hmayFail Bool.false_ne_true
    | exact absurd hpolls.symm Bool.false_ne_true
    | rfl

/-! ### One call -/

/-- The call that is next fails, unless `lifecycle` goes on waiting in it. -/
theorem At.fails {c : Call} {rest : List Call} (hpolls : c.polls = false) (hmayFail : c.mayFail = true)
    {s s' : LifeState} {r : Recorded} (h : At (c :: rest) s r) (hplayed : Played (asks c) s s') (e : Stop) :
    ∃ r', Reaches recordedStep OfMain r r' ∧ Fails e s' r' := by
  obtain ⟨t, made⟩ := r
  obtain ⟨rfl, hmade⟩ := h
  cases e with
  | failed message =>
      have hstep := step_fail rest hpolls hmayFail s'.runChild s' made
      rw [hplayed.midway_eq] at hstep
      exact ⟨_, reaches_step (e := .call false) trivial hstep, s'.runChild, rfl, id, hplayed.inStep hmade⟩
  | waiting => exact ⟨_, reaches_refl _, trivial⟩

/-- `run.sh` runs and is stored. -/
def AtChild (todo : List Call) (s : LifeState) (r : Recorded) : Prop := s.runChild = true ∧ At todo s r

/-- `child_alive` has returned in the loop that is next. -/
def polling (alive : Bool) (todo : List Call) (s : LifeState) : WorkerThreads :=
  { midway todo s.created alive s with polled := some alive }

/-- `child_alive` is called, and the child may have ended before. -/
theorem AtChild.polls {c : Call} {rest : List Call} (hpolls : c.polls = true) {s : LifeState} {r : Recorded}
    (h : AtChild (c :: rest) s r) (alive : Bool) :
    ∃ made, Reaches recordedStep OfMain r (polling alive (c :: rest) s, made) ∧ InStep s made := by
  obtain ⟨t, made⟩ := r
  obtain ⟨hchild, rfl, hmade⟩ := h
  obtain ⟨issued, reaped, stateFile, vm, created, runChild⟩ := s
  obtain rfl : runChild = true := hchild
  have hpoll : ∀ running made', recordedStep (midway (c :: rest) created running
        ⟨issued, reaped, stateFile, vm, created, true⟩, made') .childAlive =
      some (polling running (c :: rest) ⟨issued, reaped, stateFile, vm, created, true⟩, made' ++ []) := by
    intro running made'
    cases c <;> first
      | rfl
      | cases hpolls
  cases alive with
  | true =>
      refine ⟨made ++ [], reaches_step (e := .childAlive) trivial (hpoll true made), ?_⟩
      rw [List.append_nil]
      exact hmade
  | false =>
      have hexits : recordedStep (midway (c :: rest) created true
          ⟨issued, reaped, stateFile, vm, created, true⟩, made) .childExits =
          some (midway (c :: rest) created false ⟨issued, reaped, stateFile, vm, created, true⟩,
            made ++ []) := rfl
      refine ⟨(made ++ []) ++ [], (reaches_step (e := .childExits) trivial hexits).trans
        (reaches_step (e := .childAlive) trivial (hpoll false (made ++ []))), ?_⟩
      rw [List.append_nil, List.append_nil]
      exact hmade

theorem AtChild.again {c : Call} {rest : List Call} (hpolls : c.polls = true) {s : LifeState} {r : Recorded}
    (h : AtChild (c :: rest) s r) :
    ∃ r', Reaches recordedStep OfMain r r' ∧ AtChild (c :: rest) s r' := by
  obtain ⟨made, hreaches, hmade⟩ := h.polls hpolls true
  have hagain : recordedStep (polling true (c :: rest) s, made) .pollAgain =
      some (midway (c :: rest) s.created true s, made ++ []) := rfl
  refine ⟨_, hreaches.trans (reaches_step (e := .pollAgain) trivial hagain), h.1, ?_, ?_⟩
  · rw [h.1]
  · rw [List.append_nil]
    exact hmade

theorem baseFor_isSome {cfg : Config} (hbases : cfg.bases ≠ []) (pool : Pool) :
    ∃ base, cfg.baseFor pool = some base := by
  obtain ⟨base, rest, hcons⟩ := List.exists_cons_of_ne_nil hbases
  rw [Config.baseFor, hcons]
  cases pool.base with
  | none => exact ⟨base, rfl⟩
  | some name =>
      cases hfound : (base :: rest).find? (·.name == name) with
      | none => exact ⟨base, by simp [hfound]⟩
      | some named => exact ⟨named, by simp [hfound]⟩

end WorkerLife

end VmFleet
