import VmFleet.Proof.PendingLaunches
import VmFleet.Proof.SupervisorRun

/-!
# A supervisor among others

What a process has kept and issued, in any run beside any other processes, is what its own passes make of
their snapshots one after another: `runState` and `cyclesFrom` describe it. With `--once` it makes one pass,
and returns without an error only if that pass succeeded.
-/

namespace VmFleet

namespace SupervisorProcess

/-- Commands of the last pass that are not issued yet. -/
def todo (p : SupervisorProcess) : List Command :=
  match p.phase with
  | .acting commands _ => commands
  | _ => []

def beforeLoop (p : SupervisorProcess) : Bool :=
  match p.phase with
  | .starting | .settingUp => true
  | _ => false

/-- In a turn of the loop whose pass has succeeded, or returned from one. -/
def inTurn (p : SupervisorProcess) : Bool :=
  match p.phase with
  | .acting _ _ | .publishing _ _ | .writing _ _ _ | .returned true => true
  | _ => false

def atHead (p : SupervisorProcess) : Bool :=
  match p.phase with
  | .ready => true
  | _ => false

def isKilled (p : SupervisorProcess) : Bool :=
  match p.phase with
  | .killed => true
  | _ => false

def returnedOk (p : SupervisorProcess) : Bool :=
  match p.phase with
  | .returned true => true
  | _ => false

end SupervisorProcess

namespace SupervisorHost

def snapshotsOf (i : Nat) (events : List SupervisorEvent) : List Snapshot :=
  events.filterMap fun
    | .process j (.reconcile snap) => if j = i then some snap else none
    | _ => none

def issuedBy (s : SupervisorHost) (i : Nat) : List Command :=
  (s.issued.filter fun e => e.1 = i).map (·.2)

/-- What a process has to do with the snapshots of its passes so far. -/
structure History (issued : List Command) (p : SupervisorProcess) (snaps : List Snapshot) : Prop where
  state : p.state = runState p.cfg p.inv snaps
  issued : ∃ rest, issued ++ rest = (cyclesFrom p.cfg p.inv {} snaps).flatMap (·.pass.commands) ∧
    (p.isKilled = false → rest = p.todo)
  beforeLoop : p.beforeLoop = true → snaps = []
  once : p.once = true → snaps.length ≤ 1
  onceAtHead : p.once = true → p.atHead = true → snaps = []
  onceInTurn : p.once = true → p.inTurn = true →
    ∃ snap pass, snaps = [snap] ∧ reconcile p.cfg p.inv snap {} = .ok pass
  returned : p.returnedOk = true → p.once = true

variable {json : Report → Option String} {showF64 : F64 → String}
variable {s s' : SupervisorHost} {i : Nat} {p p' : SupervisorProcess} {snaps : List Snapshot}
variable {issued : List Command}

/-- A step that is no pass and issues nothing. -/
structure Continues (p p' : SupervisorProcess) : Prop where
  cfg : p'.cfg = p.cfg
  inv : p'.inv = p.inv
  once : p'.once = p.once
  state : p'.state = p.state
  todo : p'.isKilled = false → p.isKilled = false ∧ p'.todo = p.todo
  beforeLoop : p'.beforeLoop = true → p.beforeLoop = true
  atHead : p'.atHead = true → p.beforeLoop = true ∨ p.once = false
  inTurn : p'.inTurn = true → p.inTurn = true
  returned : p'.returnedOk = true → p.once = true

theorem Continues.history (hp : Continues p p') (h : History issued p snaps) : History issued p' snaps where
  state := by rw [hp.state, hp.cfg, hp.inv, h.state]
  issued := by
    obtain ⟨rest, hrest, htodo⟩ := h.issued
    refine ⟨rest, by rw [hp.cfg, hp.inv, hrest], fun hkilled => ?_⟩
    obtain ⟨hbefore, hsame⟩ := hp.todo hkilled
    rw [htodo hbefore, hsame]
  beforeLoop hbefore := h.beforeLoop (hp.beforeLoop hbefore)
  once honce := h.once (hp.once ▸ honce)
  onceAtHead honce hhead := by
    rw [hp.once] at honce
    rcases hp.atHead hhead with hbefore | hnot
    · exact h.beforeLoop hbefore
    · rw [honce] at hnot
      cases hnot
  onceInTurn honce hturn := by
    rw [hp.cfg, hp.inv]
    exact h.onceInTurn (hp.once ▸ honce) (hp.inTurn hturn)
  returned hreturned := hp.once ▸ hp.returned hreturned

theorem cyclesFrom_append (cfg : Config) (inv : Invocation) (state : SupState) (snaps : List Snapshot)
    (snap : Snapshot) : cyclesFrom cfg inv state (snaps ++ [snap]) = cyclesFrom cfg inv state snaps ++
      cyclesFrom cfg inv (snaps.foldl (cycleState cfg inv) state) [snap] := by
  induction snaps generalizing state with
  | nil => rfl
  | cons first rest ih =>
      rw [List.cons_append, cyclesFrom, cyclesFrom, List.foldl_cons]
      cases hpass : reconcile cfg inv first state with
      | ok pass =>
          have hstate : cycleState cfg inv state first = pass.state := by rw [cycleState, hpass]
          dsimp only
          rw [ih, hstate, List.cons_append]
      | error message =>
          have hstate : cycleState cfg inv state first = state := by rw [cycleState, hpass]
          dsimp only
          rw [ih, hstate]

theorem runState_append (cfg : Config) (inv : Invocation) (snaps : List Snapshot) (snap : Snapshot) :
    runState cfg inv (snaps ++ [snap]) = cycleState cfg inv (runState cfg inv snaps) snap := by
  rw [runState, List.foldl_append]
  rfl

theorem History.reconcile (h : History issued p snaps) (hphase : p.phase = .ready) (snap : Snapshot) :
    History issued (p.afterReconcile snap) (snaps ++ [snap]) := by
  obtain ⟨rest, hrest, htodo⟩ := h.issued
  have hnone : rest = [] := by simpa [SupervisorProcess.todo, hphase] using htodo (by
    simp [SupervisorProcess.isKilled, hphase])
  rw [hnone, List.append_nil] at hrest
  have hfirst : p.once = true → snaps = [] := fun honce =>
    h.onceAtHead honce (by simp [SupervisorProcess.atHead, hphase])
  have hlength : p.once = true → (snaps ++ [snap]).length ≤ 1 := fun honce => by simp [hfirst honce]
  have hcycles := cyclesFrom_append p.cfg p.inv {} snaps snap
  rw [← runState, ← h.state] at hcycles
  have hstate := runState_append p.cfg p.inv snaps snap
  rw [← h.state] at hstate
  rw [SupervisorProcess.afterReconcile]
  cases hpass : VmFleet.reconcile p.cfg p.inv snap p.state with
  | ok pass =>
      rw [cycleState, hpass] at hstate
      rw [cyclesFrom, hpass] at hcycles
      refine ⟨hstate.symm, ⟨pass.commands, ?_, fun _ => rfl⟩, by simp [SupervisorProcess.beforeLoop], hlength,
        by simp [SupervisorProcess.atHead], fun honce _ => ⟨snap, pass, by simp [hfirst honce], ?_⟩,
        by simp [SupervisorProcess.returnedOk]⟩
      · rw [hcycles, List.flatMap_append, ← hrest]
        simp [cyclesFrom]
      · have hempty : p.state = {} := by
          rw [h.state, hfirst honce]
          rfl
        rw [hempty] at hpass
        exact hpass
  | error message =>
      rw [cycleState, hpass] at hstate
      rw [cyclesFrom, hpass] at hcycles
      have hkept : issued ++ [] = (cyclesFrom p.cfg p.inv {} (snaps ++ [snap])).flatMap (·.pass.commands) := by
        rw [hcycles, List.append_nil, hrest]
        simp [cyclesFrom]
      dsimp only
      split
      · exact ⟨hstate.symm, ⟨[], hkept, fun _ => rfl⟩, by simp [SupervisorProcess.beforeLoop], hlength,
          by simp [SupervisorProcess.atHead], by simp [SupervisorProcess.inTurn],
          by simp [SupervisorProcess.returnedOk]⟩
      · rename_i honce
        exact ⟨hstate.symm, ⟨[], hkept, fun _ => rfl⟩, by simp [SupervisorProcess.beforeLoop], hlength,
          fun h => absurd h honce, by simp [SupervisorProcess.inTurn], by simp [SupervisorProcess.returnedOk]⟩

theorem History.command {c : Command} {cs : List Command} {report : Report} (h : History issued p snaps)
    (hphase : p.phase = .acting (c :: cs) report) :
    History (issued ++ [c]) { p with phase := .acting cs report } snaps where
  state := h.state
  issued := by
    obtain ⟨rest, hrest, htodo⟩ := h.issued
    have hcons : rest = c :: cs := by simpa [SupervisorProcess.todo, hphase] using htodo (by
      simp [SupervisorProcess.isKilled, hphase])
    refine ⟨cs, ?_, fun _ => rfl⟩
    rw [List.append_assoc, List.singleton_append, ← hcons, hrest]
  beforeLoop := by simp [SupervisorProcess.beforeLoop]
  once := h.once
  onceAtHead := by simp [SupervisorProcess.atHead]
  onceInTurn honce _ := h.onceInTurn honce (by simp [SupervisorProcess.inTurn, hphase])
  returned := by simp [SupervisorProcess.returnedOk]

/-! ### One step -/

def snapshotOf : ProcessEvent → List Snapshot
  | .reconcile snap => [snap]
  | _ => []

/-- A step of process `i`, which leaves the commands of the others alone. -/
structure Goes (s s' : SupervisorHost) (i : Nat) (p' : SupervisorProcess) (snaps : List Snapshot) : Prop where
  processes : s'.processes = s.processes.set i p'
  history : History (issuedBy s' i) p' snaps
  others : ∀ j, j ≠ i → issuedBy s' j = issuedBy s j

theorem goes_of_continues (h : History (issuedBy s i) p snaps) (hp : Continues p p')
    (hprocesses : s'.processes = s.processes.set i p') (hissued : s'.issued = s.issued) :
    Goes s s' i p' (snaps ++ []) := by
  have hsame : ∀ j, issuedBy s' j = issuedBy s j := fun j => by rw [issuedBy, hissued, issuedBy]
  refine ⟨hprocesses, ?_, fun j _ => hsame j⟩
  rw [hsame, List.append_nil]
  exact hp.history h

theorem continues_afterTurn {report : Report} {files : List (String × String)}
    (hphase : p.phase = .publishing report files) : Continues p (p.afterTurn json report) := by
  have hturn : p.inTurn = true := by simp [SupervisorProcess.inTurn, hphase]
  have hkilled : p.isKilled = false := by simp [SupervisorProcess.isKilled, hphase]
  have htodo : p.todo = [] := by simp [SupervisorProcess.todo, hphase]
  rw [SupervisorProcess.afterTurn]
  split
  · exact ⟨rfl, rfl, rfl, rfl, fun _ => ⟨hkilled, htodo.symm⟩, by simp [SupervisorProcess.beforeLoop],
      by simp [SupervisorProcess.atHead], fun _ => hturn, by simp [SupervisorProcess.returnedOk]⟩
  · split
    · rename_i honce
      exact ⟨rfl, rfl, rfl, rfl, fun _ => ⟨hkilled, htodo.symm⟩, by simp [SupervisorProcess.beforeLoop],
        by simp [SupervisorProcess.atHead], fun _ => hturn, fun _ => honce⟩
    · rename_i honce
      exact ⟨rfl, rfl, rfl, rfl, fun _ => ⟨hkilled, htodo.symm⟩, by simp [SupervisorProcess.beforeLoop],
        fun _ => Or.inr (by simpa using honce), fun _ => hturn, by simp [SupervisorProcess.returnedOk]⟩

/-- The part of a turn in which the files are written. -/
def onFiles : SupervisorPhase → Bool
  | .publishing _ _ | .writing _ _ _ => true
  | _ => false

theorem continues_onFiles {phase : SupervisorPhase} (hturn : p.inTurn = true) (htodo : p.todo = [])
    (hkilled : p.isKilled = false) (hphase : onFiles phase = true) :
    Continues p { p with phase := phase } := by
  cases phase with
  | publishing report files =>
      exact ⟨rfl, rfl, rfl, rfl, fun _ => ⟨hkilled, htodo.symm⟩, by simp [SupervisorProcess.beforeLoop],
        by simp [SupervisorProcess.atHead], fun _ => hturn, by simp [SupervisorProcess.returnedOk]⟩
  | writing report draft files =>
      exact ⟨rfl, rfl, rfl, rfl, fun _ => ⟨hkilled, htodo.symm⟩, by simp [SupervisorProcess.beforeLoop],
        by simp [SupervisorProcess.atHead], fun _ => hturn, by simp [SupervisorProcess.returnedOk]⟩
  | _ => cases hphase

theorem continues_of_onFiles {phase : SupervisorPhase} (hp : onFiles p.phase = true)
    (hphase : onFiles phase = true) : Continues p { p with phase := phase } := by
  unfold onFiles at hp
  split at hp
  · rename_i heq
    exact continues_onFiles (by simp [SupervisorProcess.inTurn, heq]) (by simp [SupervisorProcess.todo, heq])
      (by simp [SupervisorProcess.isKilled, heq]) hphase
  · rename_i heq
    exact continues_onFiles (by simp [SupervisorProcess.inTurn, heq]) (by simp [SupervisorProcess.todo, heq])
      (by simp [SupervisorProcess.isKilled, heq]) hphase
  · cases hp

/-- An end with an error, and what comes before the loop. -/
theorem continues_beforeLoop {phase : SupervisorPhase} (hp : p.beforeLoop = true)
    (hphase : ({ p with phase := phase } : SupervisorProcess).inTurn = false)
    (htodo : ({ p with phase := phase } : SupervisorProcess).todo = []) :
    Continues p { p with phase := phase } := by
  have hkilled : p.isKilled = false := by
    unfold SupervisorProcess.beforeLoop at hp
    unfold SupervisorProcess.isKilled
    split at hp <;> simp_all
  have hnone : p.todo = [] := by
    unfold SupervisorProcess.beforeLoop at hp
    unfold SupervisorProcess.todo
    split at hp <;> simp_all
  have hreturned : ({ p with phase := phase } : SupervisorProcess).returnedOk = false := by
    unfold SupervisorProcess.inTurn at hphase
    unfold SupervisorProcess.returnedOk
    split at hphase <;> simp_all
  exact ⟨rfl, rfl, rfl, rfl, fun _ => ⟨hkilled, htodo.trans hnone.symm⟩, fun _ => hp, fun _ => Or.inl hp,
    by simp [hphase], by simp [hreturned]⟩

theorem continues_killed (p : SupervisorProcess) : Continues p { p with phase := .killed } :=
  ⟨rfl, rfl, rfl, rfl, by simp [SupervisorProcess.isKilled], by simp [SupervisorProcess.beforeLoop],
    by simp [SupervisorProcess.atHead], by simp [SupervisorProcess.inTurn],
    by simp [SupervisorProcess.returnedOk]⟩

theorem goes_of_processStep {e : ProcessEvent} (hstep : processStep json showF64 s i p e = some s')
    (h : History (issuedBy s i) p snaps) : ∃ p', Goes s s' i p' (snaps ++ snapshotOf e) := by
  unfold processStep at hstep
  split at hstep
  · rename_i hphase
    have hbefore : p.beforeLoop = true := by simp [SupervisorProcess.beforeLoop, hphase]
    cases hstep
    rw [acquireSingleton]
    split
    · exact ⟨_, goes_of_continues h (continues_beforeLoop hbefore rfl rfl) rfl rfl⟩
    · split
      · exact ⟨_, goes_of_continues h (continues_beforeLoop hbefore rfl rfl) rfl rfl⟩
      · exact ⟨_, goes_of_continues h (continues_beforeLoop hbefore rfl rfl) rfl rfl⟩
  · rename_i hphase
    have hbefore : p.beforeLoop = true := by simp [SupervisorProcess.beforeLoop, hphase]
    cases hstep
    exact ⟨_, goes_of_continues h (continues_beforeLoop hbefore rfl rfl) rfl rfl⟩
  · rename_i hphase
    have hbefore : p.beforeLoop = true := by simp [SupervisorProcess.beforeLoop, hphase]
    cases hstep
    exact ⟨_, goes_of_continues h (continues_beforeLoop hbefore rfl rfl) rfl rfl⟩
  · rename_i hphase
    have hbefore : p.beforeLoop = true := by simp [SupervisorProcess.beforeLoop, hphase]
    cases hstep
    exact ⟨_, goes_of_continues h (continues_beforeLoop hbefore rfl rfl) rfl rfl⟩
  · -- `reconcile`
    rename_i snap hphase
    cases hstep
    exact ⟨_, rfl, h.reconcile hphase snap, fun _ _ => rfl⟩
  · -- `command`
    rename_i c cs report hphase
    cases hstep
    refine ⟨_, rfl, ?_, fun j hj => ?_⟩
    · have hissued : issuedBy { s.put i { p with phase := .acting cs report } with
          issued := s.issued ++ [(i, c)] } i = issuedBy s i ++ [c] := by simp [issuedBy]
      show History _ _ (snaps ++ [])
      rw [hissued, List.append_nil]
      exact h.command hphase
    · simp [issuedBy, Ne.symm hj]
  · rename_i hphase
    cases hstep
    refine ⟨_, goes_of_continues h (continues_onFiles ?_ ?_ ?_ rfl) rfl rfl⟩
    · simp [SupervisorProcess.inTurn, hphase]
    · simp [SupervisorProcess.todo, hphase]
    · simp [SupervisorProcess.isKilled, hphase]
  · rename_i hphase
    cases hstep
    exact ⟨_, goes_of_continues h (continues_of_onFiles (by rw [hphase]; rfl) rfl) rfl rfl⟩
  · rename_i hphase
    cases hstep
    exact ⟨_, goes_of_continues h (continues_of_onFiles (by rw [hphase]; rfl) rfl) rfl rfl⟩
  · rename_i hphase
    obtain ⟨_, hs⟩ := Option.ite_none_right_eq_some.mp hstep
    cases hs
    exact ⟨_, goes_of_continues h (continues_of_onFiles (by rw [hphase]; rfl) rfl) rfl rfl⟩
  · rename_i hphase
    cases hstep
    exact ⟨_, goes_of_continues h (continues_of_onFiles (by rw [hphase]; rfl) rfl) rfl rfl⟩
  · rename_i hphase
    obtain ⟨_, hs⟩ := Option.ite_none_right_eq_some.mp hstep
    obtain ⟨_, _, hs⟩ := Option.map_eq_some_iff.mp hs
    cases hs
    exact ⟨_, goes_of_continues h (continues_of_onFiles (by rw [hphase]; rfl) rfl) rfl rfl⟩
  · rename_i hphase
    obtain ⟨_, hs⟩ := Option.ite_none_right_eq_some.mp hstep
    cases hs
    exact ⟨_, goes_of_continues h (continues_of_onFiles (by rw [hphase]; rfl) rfl) rfl rfl⟩
  · rename_i hphase
    cases hstep
    exact ⟨_, goes_of_continues h (continues_afterTurn hphase) rfl rfl⟩
  · obtain ⟨_, hs⟩ := Option.ite_none_left_eq_some.mp hstep
    cases hs
    exact ⟨_, goes_of_continues h (continues_killed p) rfl rfl⟩
  · cases hstep

/-! ### Runs -/

variable {events : List SupervisorEvent}

/-- The histories of all processes. One that was never spawned has none. -/
structure Histories (events : List SupervisorEvent) (s : SupervisorHost) : Prop where
  history : ∀ (i : Nat) (p : SupervisorProcess), s.processes[i]? = some p →
    History (issuedBy s i) p (snapshotsOf i events)
  unborn : ∀ i, s.processes.length ≤ i → issuedBy s i = [] ∧ snapshotsOf i events = []

theorem snapshotsOf_append (i : Nat) (events : List SupervisorEvent) (e : SupervisorEvent) :
    snapshotsOf i (events ++ [e]) = snapshotsOf i events ++ snapshotsOf i [e] := List.filterMap_append

theorem snapshotsOf_process (i j : Nat) (e : ProcessEvent) :
    snapshotsOf j [.process i e] = if i = j then snapshotOf e else [] := by
  cases e <;> simp [snapshotsOf, snapshotOf]
  split <;> simp_all

/-- A step that is no step of a process. -/
theorem Histories.of_eq {e : SupervisorEvent} (h : Histories events s)
    (hprocesses : s'.processes = s.processes) (hissued : s'.issued = s.issued)
    (hnone : ∀ i, snapshotsOf i [e] = []) : Histories (events ++ [e]) s' := by
  have hsame : ∀ i, issuedBy s' i = issuedBy s i := fun i => by rw [issuedBy, hissued, issuedBy]
  refine ⟨fun i p hp => ?_, fun i hi => ?_⟩
  · rw [snapshotsOf_append, hnone, List.append_nil, hsame]
    exact h.history i p (hprocesses ▸ hp)
  · rw [snapshotsOf_append, hnone, List.append_nil, hsame]
    exact h.unborn i (hprocesses ▸ hi)

theorem Histories.spawn (h : Histories events s) (cfg : Config) (inv : Invocation) (once : Bool) :
    Histories (events ++ [.spawn cfg inv once])
      { s with processes := s.processes ++ [{ cfg := cfg, inv := inv, once := once }] } := by
  have hsame : ∀ i, issuedBy { s with processes := s.processes ++ [{ cfg, inv, once }] } i = issuedBy s i :=
    fun _ => rfl
  refine ⟨fun i p hp => ?_, fun i hi => ?_⟩
  · rw [snapshotsOf_append, show snapshotsOf i [.spawn cfg inv once] = [] from rfl, List.append_nil, hsame]
    rcases getElem?_concat_eq_some hp with hp | ⟨rfl, rfl⟩
    · exact h.history i p hp
    · obtain ⟨hissued, hsnaps⟩ := h.unborn s.processes.length (Nat.le_refl _)
      rw [hsnaps, hissued]
      exact ⟨rfl, ⟨[], rfl, fun _ => rfl⟩, fun _ => rfl, by simp, fun _ _ => rfl,
        by simp [SupervisorProcess.inTurn], by simp [SupervisorProcess.returnedOk]⟩
  · rw [snapshotsOf_append, show snapshotsOf i [.spawn cfg inv once] = [] from rfl, List.append_nil]
    exact h.unborn i (by simp only [List.length_append, List.length_singleton] at hi; omega)

theorem Histories.process {e : ProcessEvent} (h : Histories events s) (hp : s.processes[i]? = some p)
    (hstep : processStep json showF64 s i p e = some s') : Histories (events ++ [.process i e]) s' := by
  obtain ⟨p', hgoes⟩ := goes_of_processStep hstep (h.history i p hp)
  have hlen : i < s.processes.length := (List.getElem?_eq_some_iff.mp hp).1
  refine ⟨fun j q hq => ?_, fun j hj => ?_⟩
  · rw [hgoes.processes] at hq
    rw [snapshotsOf_append, snapshotsOf_process]
    rcases getElem?_set_eq_some hq with ⟨rfl, rfl⟩ | ⟨hj, hq⟩
    · rw [if_pos rfl]
      exact hgoes.history
    · rw [if_neg (Ne.symm hj), List.append_nil, hgoes.others j hj]
      exact h.history j q hq
  · rw [hgoes.processes, List.length_set] at hj
    have hji : j ≠ i := by omega
    rw [snapshotsOf_append, snapshotsOf_process, if_neg (Ne.symm hji), List.append_nil, hgoes.others j hji]
    exact h.unborn j hj

theorem Histories.step {e : SupervisorEvent} (h : Histories events s)
    (hstep : step json showF64 s e = some s') : Histories (events ++ [e]) s' := by
  cases e with
  | spawn cfg inv once =>
      cases hstep
      exact h.spawn cfg inv once
  | process i e =>
      rw [SupervisorHost.step] at hstep
      split at hstep
      · rename_i p hp
        exact h.process hp hstep
      · cases hstep
  | reader e =>
      obtain ⟨readers, _, rfl⟩ := Option.map_eq_some_iff.mp hstep
      exact h.of_eq rfl rfl fun _ => rfl

theorem histories_of_exec {store : Directory.Store String UInt8} {events : List SupervisorEvent}
    (hexec : Transition.exec (step json showF64) { store := store } events = some s) :
    Histories events s := by
  induction events using List.reverseRecOn generalizing s with
  | nil =>
      cases hexec
      exact ⟨by simp, fun _ _ => ⟨rfl, rfl⟩⟩
  | append_singleton events e ih =>
      obtain ⟨mid, hmid, hlast⟩ := Transition.exec_append_eq_some_iff.mp hexec
      obtain ⟨s'', hstep, hend⟩ := Transition.exec_cons_eq_some_iff.mp hlast
      cases hend
      exact (ih hmid).step hstep

/-- Process `i` beside the others as the loop of `run` on its own. -/
structure RunsAlone (events : List SupervisorEvent) (s : SupervisorHost) (i : Nat) (p : SupervisorProcess) :
    Prop where
  state : p.state = runState p.cfg p.inv (snapshotsOf i events)
  issued : issuedBy s i <+: (cyclesFrom p.cfg p.inv {} (snapshotsOf i events)).flatMap (·.pass.commands)
  /-- Outside the commands of a pass nothing is left to do, unless the process was killed in one. -/
  allIssued : p.isKilled = false → p.todo = [] →
    issuedBy s i = (cyclesFrom p.cfg p.inv {} (snapshotsOf i events)).flatMap (·.pass.commands)
  once : p.once = true → (snapshotsOf i events).length ≤ 1
  returned : p.phase = .returned true → p.once = true ∧ ∃ snap pass, snapshotsOf i events = [snap] ∧
    reconcile p.cfg p.inv snap {} = .ok pass

/-- **Every supervisor runs as if it were alone**, in every run with any number of processes. -/
theorem supervisors_run_alone {store : Directory.Store String UInt8} {events : List SupervisorEvent}
    (hexec : Transition.exec (step json showF64) { store := store } events = some s) :
    ∀ (i : Nat) (p : SupervisorProcess), s.processes[i]? = some p → RunsAlone events s i p := by
  intro i p hp
  have h := (histories_of_exec hexec).history i p hp
  obtain ⟨rest, hrest, htodo⟩ := h.issued
  refine ⟨h.state, ⟨rest, hrest⟩, fun hkilled hnone => ?_, h.once, fun hphase => ?_⟩
  · rw [htodo hkilled, hnone, List.append_nil] at hrest
    exact hrest
  · have honce : p.once = true := h.returned (by simp [SupervisorProcess.returnedOk, hphase])
    exact ⟨honce, h.onceInTurn honce (by simp [SupervisorProcess.inTurn, hphase])⟩

theorem supervisors_run_alone_handover : ∃ s,
    Transition.exec (step (fun _ => none) fun _ => "0") { store := .empty } handover = some s ∧
      ∀ (i : Nat) (p : SupervisorProcess), s.processes[i]? = some p → RunsAlone handover s i p := by
  obtain ⟨s, hs⟩ := Option.isSome_iff_exists.mp (show (Transition.exec (step (fun _ => none) fun _ => "0")
    { store := .empty } handover).isSome = true by decide +kernel)
  exact ⟨s, hs, supervisors_run_alone hs⟩

end SupervisorHost

end VmFleet
