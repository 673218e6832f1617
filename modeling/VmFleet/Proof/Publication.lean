import VmFleet.Proof.SupervisorHistory

/-!
# What readers of the state directory see

`status.json` and `vmfleet.prom` while supervisors are started and killed and passes fail to write: since
one supervisor writes at a time, and under another name, the two files behave as registers. Who reads one to
its end has the whole text that was last published before it was opened, and what a supervisor publishes is
the text for the report of its own last pass.
-/

namespace VmFleet

open Publication

/-- What a step of a process is to the writer of the two files. -/
def SupervisorProcess.fileEvents (p : SupervisorProcess) :
    ProcessEvent → List (Publication.Event String UInt8)
  | .create true =>
    match p.phase with
    | .publishing _ ((name, text) :: _) => [.create name (Utf8.encode text.toList)]
    | _ => []
  | .write k => [.write k]
  | .rename true => [.rename]
  | _ => []

/-- What a step of a process is to the registers: a file is published when it gets its name. -/
def SupervisorProcess.posts (p : SupervisorProcess) : ProcessEvent → List (Register.Event String (List UInt8))
  | .rename true => p.draft.toList.map fun d => .publish d.name d.text
  | _ => []

namespace SupervisorHost

variable {json : Report → Option String} {showF64 : F64 → String}
variable {s s' : SupervisorHost} {i : Nat} {p p' : SupervisorProcess} {P P' : Publication.State String UInt8}
variable {snaps : List Snapshot}

/-- The text that a process is writing is the one that is being written. -/
def Follows (P : Publication.State String UInt8) (p : SupervisorProcess) : Prop :=
  ∀ d, p.draft = some d → P.draft = some d

/-- A step of a process is a step of the writer, or none. -/
structure Mirrored (s s' : SupervisorHost) (i : Nat) (p : SupervisorProcess) (e : ProcessEvent)
    (P P' : Publication.State String UInt8) (p' : SupervisorProcess) : Prop where
  processes : s'.processes = s.processes.set i p'
  exec : Transition.exec (Publication.step publishedFiles) P (p.fileEvents e) = some P'
  store : P'.store = s'.store
  readers : P'.readers = P.readers
  follows : Follows P' p'
  alone : p.fileEvents e ≠ [] → p.running = true ∧ p.inv.dryRun = false
  posts : Transition.trace (Publication.step publishedFiles) Publication.view P (p.fileEvents e) = p.posts e

theorem mirrored_put {e : ProcessEvent} (hevents : p.fileEvents e = []) (hdraft : p'.draft = none)
    (hstore : P.store = s.store) : Mirrored s (s.put i p') i p e P P p' where
  processes := rfl
  exec := by rw [hevents]; rfl
  store := hstore
  readers := rfl
  follows d hd := by simp [hdraft] at hd
  alone h := absurd hevents h
  posts := by
    have hposts : p.posts e = [] := by
      unfold SupervisorProcess.posts
      split
      · cases hevents
      · rfl
    rw [hevents, hposts]
    rfl

section Writing

variable {report : Report} {files : List (String × String)} {d : Draft String UInt8}

theorem mirrored_create {name text : String} (hphase : p.phase = .publishing report ((name, text) :: files))
    (hwell : p.WellPhased) (hstore : P.store = s.store) :
    let opened := s.store.create (publishedFiles.temp name)
    let draft : Draft String UInt8 := { name := name, file := opened.1, text := Utf8.encode text.toList }
    Mirrored s { s.put i { p with phase := .writing report draft files } with store := opened.2 } i p
      (.create true) P { P with store := opened.2, draft := some draft }
      { p with phase := .writing report draft files } := by
  rw [SupervisorProcess.WellPhased, hphase] at hwell
  have hname : name ∈ publishedFiles.final := hwell.2 _ List.mem_cons_self
  intro opened draft
  refine ⟨rfl, ?_, rfl, rfl, fun d hd => hd, fun _ => ⟨by simp [SupervisorProcess.running, hphase], ?_⟩, ?_⟩
  · simp only [SupervisorProcess.fileEvents, hphase, Transition.exec, Publication.step, if_pos hname,
      Option.bind_some, hstore]
    rfl
  · simpa using hwell.1
  · simp [SupervisorProcess.fileEvents, hphase, Transition.trace, Publication.step, hname, Publication.view,
      SupervisorProcess.posts]

theorem mirrored_write (hphase : p.phase = .writing report d files) (hwell : p.WellPhased) {k : Nat}
    (hk : 0 < k ∧ d.written + k ≤ d.text.length) (hstore : P.store = s.store) (hfollows : Follows P p) :
    let draft := { d with written := d.written + k }
    let store := s.store.append d.file ((d.text.drop d.written).take k)
    Mirrored s { s.put i { p with phase := .writing report draft files } with store := store } i p (.write k)
      P { P with store := store, draft := some draft } { p with phase := .writing report draft files } := by
  rw [SupervisorProcess.WellPhased, hphase] at hwell
  have hdraft : P.draft = some d := hfollows d (by simp [SupervisorProcess.draft, hphase])
  intro draft store
  refine ⟨rfl, ?_, rfl, rfl, fun d hd => hd, fun _ => ⟨by simp [SupervisorProcess.running, hphase], hwell.1⟩, ?_⟩
  · simp only [SupervisorProcess.fileEvents, Transition.exec, Publication.step, hdraft, if_pos hk,
      Option.bind_some, hstore]
    rfl
  · simp [SupervisorProcess.fileEvents, Transition.trace, Publication.step, hdraft, hk, Publication.view,
      SupervisorProcess.posts]

theorem mirrored_rename (hphase : p.phase = .writing report d files) (hwell : p.WellPhased)
    (hall : d.written = d.text.length) {store : Directory.Store String UInt8}
    (hrename : s.store.rename (publishedFiles.temp d.name) d.name = some store) (hstore : P.store = s.store)
    (hfollows : Follows P p) :
    Mirrored s { s.put i { p with phase := .publishing report files } with store := store } i p (.rename true)
      P { P with store := store, draft := none } { p with phase := .publishing report files } := by
  rw [SupervisorProcess.WellPhased, hphase] at hwell
  have hdraft : P.draft = some d := hfollows d (by simp [SupervisorProcess.draft, hphase])
  refine ⟨rfl, ?_, rfl, rfl, by simp [Follows, SupervisorProcess.draft],
    fun _ => ⟨by simp [SupervisorProcess.running, hphase], hwell.1⟩, ?_⟩
  · simp only [SupervisorProcess.fileEvents, Transition.exec, Publication.step, hdraft, if_pos hall,
      Option.bind_some, hstore, hrename, Option.map_some]
  · simp [SupervisorProcess.fileEvents, Transition.trace, Publication.step, hdraft, hall, hstore, hrename,
      Publication.view, SupervisorProcess.posts, SupervisorProcess.draft, hphase]

end Writing

theorem draft_afterReconcile (p : SupervisorProcess) (snap : Snapshot) :
    (p.afterReconcile snap).draft = none := by
  rw [SupervisorProcess.afterReconcile]
  split
  · rfl
  · split <;> rfl

theorem draft_afterTurn (p : SupervisorProcess) (report : Report) : (p.afterTurn json report).draft = none := by
  rw [SupervisorProcess.afterTurn]
  split
  · rfl
  · split <;> rfl

theorem mirrored_of_processStep {e : ProcessEvent} (h : processStep json showF64 s i p e = some s')
    (hwell : p.WellPhased) (hstore : P.store = s.store) (hfollows : Follows P p) :
    ∃ p' P', Mirrored s s' i p e P P' p' := by
  unfold processStep at h
  split at h
  · cases h
    rw [acquireSingleton]
    split
    · exact ⟨_, P, mirrored_put rfl rfl hstore⟩
    · split
      · exact ⟨_, P, { mirrored_put rfl rfl hstore with }⟩
      · exact ⟨_, P, mirrored_put rfl rfl hstore⟩
  · cases h
    exact ⟨_, P, mirrored_put rfl rfl hstore⟩
  · cases h
    exact ⟨_, P, mirrored_put rfl rfl hstore⟩
  · cases h
    exact ⟨_, P, mirrored_put rfl rfl hstore⟩
  · cases h
    exact ⟨_, P, mirrored_put rfl (draft_afterReconcile p _) hstore⟩
  · cases h
    exact ⟨_, P, { mirrored_put rfl rfl hstore with }⟩
  · cases h
    exact ⟨_, P, mirrored_put rfl rfl hstore⟩
  · rename_i hphase
    cases h
    exact ⟨_, _, mirrored_create hphase hwell hstore⟩
  · cases h
    exact ⟨_, P, mirrored_put rfl rfl hstore⟩
  · rename_i hphase
    obtain ⟨hk, hs⟩ := Option.ite_none_right_eq_some.mp h
    cases hs
    exact ⟨_, _, mirrored_write hphase hwell hk hstore hfollows⟩
  · cases h
    exact ⟨_, P, mirrored_put rfl rfl hstore⟩
  · rename_i hphase
    obtain ⟨hall, hs⟩ := Option.ite_none_right_eq_some.mp h
    obtain ⟨store, hrename, hs⟩ := Option.map_eq_some_iff.mp hs
    cases hs
    exact ⟨_, _, mirrored_rename hphase hwell hall hrename hstore hfollows⟩
  · obtain ⟨_, hs⟩ := Option.ite_none_right_eq_some.mp h
    cases hs
    exact ⟨_, P, mirrored_put rfl rfl hstore⟩
  · cases h
    exact ⟨_, P, mirrored_put rfl (draft_afterTurn p _) hstore⟩
  · obtain ⟨_, hs⟩ := Option.ite_none_left_eq_some.mp h
    cases hs
    exact ⟨_, P, mirrored_put rfl rfl hstore⟩
  · cases h

/-! ### The registers -/

/-- What a step is to the registers. A file is read when it is opened. -/
def posts (s : SupervisorHost) : SupervisorEvent → List (Register.Event String (List UInt8))
  | .process i e =>
    match s.processes[i]? with
    | some p => p.posts e
    | none => []
  | .reader (.openFile name) => [.take name]
  | _ => []

/-- The files are those of a writer that is at most one text ahead of the registers. -/
structure Mirrors (s : SupervisorHost) (g : Register.State String (List UInt8)) : Prop where
  turns : TakingTurns s
  writer : ∃ P : Publication.State String UInt8, P.store = s.store ∧ P.readers = s.readers ∧
    (∀ (i : Nat) (p : SupervisorProcess), s.processes[i]? = some p → Follows P p) ∧ Atomic publishedFiles P g

theorem running_of_draft {d : Draft String UInt8} (hwell : p.WellPhased) (hd : p.draft = some d) :
    p.running = true ∧ p.inv.dryRun = false := by
  unfold SupervisorProcess.draft at hd
  split at hd
  · rename_i hphase
    rw [SupervisorProcess.WellPhased, hphase] at hwell
    exact ⟨by simp [SupervisorProcess.running, hphase], hwell.1⟩
  · cases hd

theorem Mirrors.process {g : Register.State String (List UInt8)} {e : ProcessEvent} (h : Mirrors s g)
    (hp : s.processes[i]? = some p) (hstep : processStep json showF64 s i p e = some s') :
    ∃ g', Transition.exec Register.step g (p.posts e) = some g' ∧ Mirrors s' g' := by
  obtain ⟨P, hstore, hreaders, hfollows, hatomic⟩ := h.writer
  obtain ⟨p', P', hmirrored⟩ := mirrored_of_processStep hstep (h.turns.wellPhased i p hp) hstore (hfollows i p hp)
  obtain ⟨q', hstepped⟩ := processStep_stepped hstep
  obtain ⟨g', hg, hatomic'⟩ := Transition.exec_simulation (fun _ _ _ _ h hstep => h.step hstep) hatomic
    hmirrored.exec
  rw [hmirrored.posts] at hg
  refine ⟨g', hg, hstepped.takingTurns h.turns hp, P', hmirrored.store, ?_, fun j q hq => ?_, hatomic'⟩
  · rw [hmirrored.readers, hreaders, hstepped.readers]
  · rw [hmirrored.processes] at hq
    rcases getElem?_set_eq_some hq with ⟨_, rfl⟩ | ⟨hj, hq⟩
    · exact hmirrored.follows
    · by_cases hevents : p.fileEvents e = []
      · have hexec := hmirrored.exec
        rw [hevents] at hexec
        cases hexec
        exact hfollows j q hq
      · -- Two processes that write would both hold the lock.
        intro d hd
        obtain ⟨hrun, hdry⟩ := hmirrored.alone hevents
        obtain ⟨hqrun, hqdry⟩ := running_of_draft (h.turns.wellPhased j q hq) hd
        have hi := h.turns.holder i p hp hdry hrun
        have hj' := h.turns.holder j q hq hqdry hqrun
        exact absurd (Option.some.inj (hj'.symm.trans hi)) hj

/-- What readers do they do whoever writes. -/
theorem Mirrors.reader {g : Register.State String (List UInt8)} {e : ReaderEvent String}
    {readers : List (Reader UInt8)} (h : Mirrors s g)
    (hreaders : readerStep publishedFiles s.store s.readers e = some readers) :
    ∃ g', Transition.exec Register.step g (posts s (.reader e)) = some g' ∧
      Mirrors { s with readers := readers } g' := by
  obtain ⟨P, hstore, hsame, hfollows, hatomic⟩ := h.writer
  have hstep : Publication.step publishedFiles P (.reader e) = some { P with readers := readers } := by
    rw [Publication.step, hstore, hsame, hreaders, Option.map_some]
  obtain ⟨g', hg, hatomic'⟩ := hatomic.step hstep
  have hposts : view P (.reader e) = posts s (.reader e) := by
    cases e <;> rfl
  rw [hposts] at hg
  exact ⟨g', hg, h.turns.of_eq rfl rfl rfl, { P with readers := readers }, hstore, rfl, hfollows, hatomic'⟩

theorem Mirrors.spawn {g : Register.State String (List UInt8)} (h : Mirrors s g) (cfg : Config)
    (inv : Invocation) (once : Bool) :
    Mirrors { s with processes := s.processes ++ [{ cfg := cfg, inv := inv, once := once }] } g := by
  obtain ⟨P, hstore, hreaders, hfollows, hatomic⟩ := h.writer
  refine ⟨h.turns.spawn cfg inv once, P, hstore, hreaders, fun i p hp => ?_, hatomic⟩
  rcases getElem?_concat_eq_some hp with hp | ⟨_, rfl⟩
  · exact hfollows i p hp
  · intro d hd
    cases hd

theorem Mirrors.step {g : Register.State String (List UInt8)} {e : SupervisorEvent} (h : Mirrors s g)
    (hstep : step json showF64 s e = some s') :
    ∃ g', Transition.exec Register.step g (posts s e) = some g' ∧ Mirrors s' g' := by
  cases e with
  | spawn cfg inv once =>
      cases hstep
      exact ⟨g, rfl, h.spawn cfg inv once⟩
  | process i e =>
      rw [SupervisorHost.step] at hstep
      split at hstep
      · rename_i p hp
        rw [posts, hp]
        exact h.process hp hstep
      · cases hstep
  | reader e =>
      obtain ⟨readers, hreaders, rfl⟩ := Option.map_eq_some_iff.mp hstep
      exact h.reader hreaders

theorem Mirrors.init (store : Directory.Store String UInt8) : Mirrors { store := store } ⟨store.content, []⟩ :=
  ⟨TakingTurns.init store, { store := store }, rfl, rfl, by simp, Atomic.init store⟩

/-! ### Where the texts come from -/

/-- The text belongs to this report of a pass. -/
def TextOf (json : Report → Option String) (showF64 : F64 → String) (report : Report) (name : String)
    (bytes : List UInt8) : Prop :=
  ∃ text, (name, text) ∈ publications json showF64 report ∧ bytes = Utf8.encode text.toList

/-- The report of the last of these passes of a process. -/
def LastReport (p : SupervisorProcess) (snaps : List Snapshot) (report : Report) : Prop :=
  (cyclesFrom p.cfg p.inv {} snaps).getLast?.map (·.pass.report) = some report

/-- What a process is about to publish is of its last pass. -/
def Sourced (json : Report → Option String) (showF64 : F64 → String) (snaps : List Snapshot)
    (p : SupervisorProcess) : Prop :=
  match p.phase with
  | .acting _ report => LastReport p snaps report
  | .publishing report files => LastReport p snaps report ∧ files ⊆ publications json showF64 report
  | .writing report d files => LastReport p snaps report ∧ files ⊆ publications json showF64 report ∧
      TextOf json showF64 report d.name d.text
  | _ => True

theorem sourced_afterReconcile {snap : Snapshot} (hstate : p.state = runState p.cfg p.inv snaps) :
    Sourced json showF64 (snaps ++ [snap]) (p.afterReconcile snap) := by
  rw [SupervisorProcess.afterReconcile]
  split
  · rename_i pass hpass
    have hlast : cyclesFrom p.cfg p.inv p.state [snap] = [⟨snap, pass⟩] := by
      simp [cyclesFrom, hpass]
    show Option.map _ (cyclesFrom p.cfg p.inv {} (snaps ++ [snap])).getLast? = _
    rw [cyclesFrom_append, ← runState, ← hstate, hlast, List.getLast?_concat, Option.map_some]
  · split <;> trivial

theorem sourced_afterTurn {report : Report} : Sourced json showF64 snaps (p.afterTurn json report) := by
  rw [SupervisorProcess.afterTurn]
  split
  · trivial
  · split <;> trivial

theorem sourced_of_processStep {e : ProcessEvent} (h : processStep json showF64 s i p e = some s')
    (hstate : p.state = runState p.cfg p.inv snaps) (hp : Sourced json showF64 snaps p) :
    ∃ p', s'.processes = s.processes.set i p' ∧ Sourced json showF64 (snaps ++ snapshotOf e) p' := by
  rw [← List.append_nil snaps] at hp
  unfold processStep at h
  split at h
  · cases h
    rw [acquireSingleton]
    split
    · exact ⟨_, rfl, trivial⟩
    · split
      · exact ⟨_, rfl, trivial⟩
      · exact ⟨_, rfl, trivial⟩
  · cases h
    exact ⟨_, rfl, trivial⟩
  · cases h
    exact ⟨_, rfl, trivial⟩
  · cases h
    exact ⟨_, rfl, trivial⟩
  · cases h
    exact ⟨_, rfl, sourced_afterReconcile hstate⟩
  · rename_i hphase
    cases h
    rw [Sourced, hphase] at hp
    exact ⟨_, rfl, hp⟩
  · rename_i hphase
    cases h
    rw [Sourced, hphase] at hp
    refine ⟨_, rfl, hp, ?_⟩
    split
    · exact List.nil_subset _
    · exact List.Subset.refl _
  · rename_i name text files hphase
    cases h
    rw [Sourced, hphase] at hp
    exact ⟨_, rfl, hp.1, fun f hf => hp.2 (List.mem_cons_of_mem _ hf), text, hp.2 List.mem_cons_self, rfl⟩
  · rename_i hphase
    cases h
    rw [Sourced, hphase] at hp
    exact ⟨_, rfl, hp.1, fun f hf => hp.2 (List.mem_cons_of_mem _ hf)⟩
  · rename_i hphase
    obtain ⟨_, hs⟩ := Option.ite_none_right_eq_some.mp h
    cases hs
    rw [Sourced, hphase] at hp
    exact ⟨_, rfl, hp⟩
  · rename_i hphase
    cases h
    rw [Sourced, hphase] at hp
    exact ⟨_, rfl, hp.1, hp.2.1⟩
  · rename_i hphase
    obtain ⟨_, hs⟩ := Option.ite_none_right_eq_some.mp h
    obtain ⟨_, _, hs⟩ := Option.map_eq_some_iff.mp hs
    cases hs
    rw [Sourced, hphase] at hp
    exact ⟨_, rfl, hp.1, hp.2.1⟩
  · rename_i hphase
    obtain ⟨_, hs⟩ := Option.ite_none_right_eq_some.mp h
    cases hs
    rw [Sourced, hphase] at hp
    exact ⟨_, rfl, hp.1, hp.2.1⟩
  · cases h
    exact ⟨_, rfl, sourced_afterTurn⟩
  · obtain ⟨_, hs⟩ := Option.ite_none_left_eq_some.mp h
    cases hs
    exact ⟨_, rfl, trivial⟩
  · cases h

theorem sourced_of_exec {store : Directory.Store String UInt8} {events : List SupervisorEvent}
    (hexec : Transition.exec (step json showF64) { store := store } events = some s) :
    ∀ (i : Nat) (p : SupervisorProcess), s.processes[i]? = some p →
      Sourced json showF64 (snapshotsOf i events) p := by
  induction events using List.reverseRecOn generalizing s with
  | nil =>
      cases hexec
      simp
  | append_singleton events e ih =>
      obtain ⟨mid, hmid, hlast⟩ := Transition.exec_append_eq_some_iff.mp hexec
      obtain ⟨s'', hstep, hend⟩ := Transition.exec_cons_eq_some_iff.mp hlast
      cases hend
      cases e with
      | spawn cfg inv once =>
          cases hstep
          intro i p hp
          rcases getElem?_concat_eq_some hp with hp | ⟨_, rfl⟩
          · rw [snapshotsOf_append, show snapshotsOf i [.spawn cfg inv once] = [] from rfl, List.append_nil]
            exact ih hmid i p hp
          · trivial
      | process i e =>
          rw [SupervisorHost.step] at hstep
          split at hstep
          · rename_i p hp
            have hstate := ((histories_of_exec hmid).history i p hp).state
            obtain ⟨p', hprocesses, hp'⟩ := sourced_of_processStep hstep hstate (ih hmid i p hp)
            intro j q hq
            rw [hprocesses] at hq
            rw [snapshotsOf_append, snapshotsOf_process]
            rcases getElem?_set_eq_some hq with ⟨rfl, rfl⟩ | ⟨hj, hq⟩
            · rw [if_pos rfl]
              exact hp'
            · rw [if_neg (Ne.symm hj), List.append_nil]
              exact ih hmid j q hq
          · cases hstep
      | reader e =>
          obtain ⟨readers, _, rfl⟩ := Option.map_eq_some_iff.mp hstep
          intro i p hp
          rw [snapshotsOf_append, show snapshotsOf i [.reader e] = [] from rfl, List.append_nil]
          exact ih hmid i p hp

/-- What a step publishes after a run is the whole text for the report of the pass its process made last,
and the process is no dry run. -/
def PublishesOwn (json : Report → Option String) (showF64 : F64 → String) (before : List SupervisorEvent)
    (s : SupervisorHost) (e : SupervisorEvent) : Prop :=
  ∀ name bytes, .publish name bytes ∈ posts s e → ∃ i p report, e = .process i (.rename true) ∧
    s.processes[i]? = some p ∧ p.inv.dryRun = false ∧ LastReport p (snapshotsOf i before) report ∧
      TextOf json showF64 report name bytes

theorem publishesOwn_of_exec {store : Directory.Store String UInt8} {before : List SupervisorEvent}
    (hexec : Transition.exec (step json showF64) { store := store } before = some s) (e : SupervisorEvent) :
    PublishesOwn json showF64 before s e := by
  intro name bytes hpublish
  unfold posts at hpublish
  split at hpublish
  · rename_i i e
    split at hpublish
    · rename_i p hp
      unfold SupervisorProcess.posts at hpublish
      split at hpublish
      · obtain ⟨d, hd, heq⟩ := List.mem_map.mp hpublish
        cases heq
        have hdraft : p.draft = some d := Option.mem_toList.mp hd
        have hdry := (running_of_draft ((takingTurns_of_exec hexec).wellPhased i p hp) hdraft).2
        have hsourced := sourced_of_exec hexec i p hp
        unfold SupervisorProcess.draft at hdraft
        split at hdraft
        · rename_i report d' files hphase
          cases hdraft
          rw [Sourced, hphase] at hsourced
          exact ⟨i, p, report, rfl, hp, hdry, hsourced.1, hsourced.2.2⟩
        · cases hdraft
      · cases hpublish
    · cases hpublish
  · cases List.mem_singleton.mp hpublish
  · cases hpublish

/-- The two files as registers: what was published, in order, and what each reader has when it is done. -/
structure AtomicFiles (json : Report → Option String) (showF64 : F64 → String)
    (store : Directory.Store String UInt8) (events : List SupervisorEvent) (s : SupervisorHost)
    (g : Register.State String (List UInt8)) : Prop where
  exec : Transition.exec Register.step ⟨store.content, []⟩
    (Transition.trace (step json showF64) posts { store := store } events) = some g
  fromPass : ∀ before e after mid, events = before ++ e :: after →
    Transition.exec (step json showF64) { store := store } before = some mid →
      PublishesOwn json showF64 before mid e
  content : ∀ name ∈ publishedFiles.final, s.store.content name = g.value name
  finished : ∀ (i : Nat) (r : Reader UInt8), s.readers[i]? = some r → r.finished = true →
    g.taken[i]? = some r.got

/-- **Readers see whole passes.** However supervisors, crashes, failures to write and readers interleave,
who reads `status.json` or `vmfleet.prom` to its end has what was last published before it was opened. -/
theorem files_are_registers {store : Directory.Store String UInt8} {events : List SupervisorEvent}
    (hexec : Transition.exec (step json showF64) { store := store } events = some s) :
    ∃ g, AtomicFiles json showF64 store events s g := by
  have hmirrors : Mirrors { store := store } _ := Mirrors.init store
  obtain ⟨g, hg, _, P, hstore, hreaders, _, hatomic⟩ :=
    Transition.exec_simulation (fun _ _ _ _ h hstep => h.step hstep) hmirrors hexec
  refine ⟨g, hg, fun before e after mid _ hmid => publishesOwn_of_exec hmid e, fun name hname => ?_,
    fun i r hr hfinished => ?_⟩
  · rw [hatomic.value name hname, hstore]
  · exact hatomic.taken_of_finished (hreaders ▸ hr) hfinished

/-- A supervisor publishes `status.json`, is read meanwhile, and is killed in the middle of the next text; its
successor begins over. -/
def crashRun : List SupervisorEvent :=
  let pass (i : Nat) : List SupervisorEvent :=
    [.process i .acquire, .process i .setUp, .process i (.reconcile (roomySnapshot [] [100, 101]))] ++
      List.replicate 2 (.process i .command) ++ [.process i .commandsDone]
  let publish (i k : Nat) : List SupervisorEvent :=
    [.process i (.create true), .process i (.write 1), .process i (.write (k - 1)), .process i (.rename true)]
  [.spawn (configWith [smallPool]) daemonCall false] ++ pass 0 ++ publish 0 6 ++
    [.reader (.openFile statusFile), .reader (.read 0 2), .process 0 (.create true), .process 0 (.write 3),
      .process 0 .kill, .spawn (configWith [smallPool]) daemonCall true] ++ pass 1 ++ publish 1 6 ++
    [.read 0 9, .endOfFile 0, .openFile statusFile, .read 1 9, .endOfFile 1].map .reader

theorem files_are_registers_crash : ∃ s g,
    Transition.exec (step (fun _ => some "report") fun _ => "0.5") { store := .empty } crashRun = some s ∧
      AtomicFiles (fun _ => some "report") (fun _ => "0.5") .empty crashRun s g := by
  obtain ⟨s, hs⟩ := Option.isSome_iff_exists.mp (show (Transition.exec (step (fun _ => some "report")
    fun _ => "0.5") { store := .empty } crashRun).isSome = true by decide +kernel)
  obtain ⟨g, hg⟩ := files_are_registers hs
  exact ⟨s, g, hs, hg⟩

end SupervisorHost

end VmFleet
