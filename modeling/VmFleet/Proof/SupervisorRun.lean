import VmFleet.Library.Sessions
import VmFleet.Proof.DryRun
import VmFleet.Source.SupervisorRun

/-!
# One supervisor at a time

However supervisors are started, killed and restarted, at most one that is no dry run is past
`acquire_singleton`, and the commands of two of them never interleave: the one that comes later begins when
the other has ended.
-/

namespace VmFleet

namespace SupervisorProcess

/-- The one command that changes nothing. -/
def query : Command := Systemd.listActiveCommand workerUnitGlob

/-- Its files are of those that are published. A dry run has none, and no command but the query. -/
def WellPhased (p : SupervisorProcess) : Prop :=
  match p.phase with
  | .acting commands _ => p.inv.dryRun = true → ∀ c ∈ commands, c = query
  | .publishing _ files => (p.inv.dryRun = true → files = []) ∧ ∀ f ∈ files, f.1 ∈ publishedFiles.final
  | .writing _ d files => p.inv.dryRun = false ∧ d.name ∈ publishedFiles.final ∧
      ∀ f ∈ files, f.1 ∈ publishedFiles.final
  | _ => True

end SupervisorProcess

namespace SupervisorHost

variable {json : Report → Option String} {showF64 : F64 → String}
variable {s s' : SupervisorHost} {i : Nat} {p : SupervisorProcess}

@[simp] theorem put_processes (s : SupervisorHost) (i : Nat) (p : SupervisorProcess) :
    (s.put i p).processes = s.processes.set i p := rfl

@[simp] theorem put_store (s : SupervisorHost) (i : Nat) (p : SupervisorProcess) :
    (s.put i p).store = s.store := rfl

@[simp] theorem put_issued (s : SupervisorHost) (i : Nat) (p : SupervisorProcess) :
    (s.put i p).issued = s.issued := rfl

@[simp] theorem put_readers (s : SupervisorHost) (i : Nat) (p : SupervisorProcess) :
    (s.put i p).readers = s.readers := rfl

@[simp] theorem put_lock (s : SupervisorHost) (i : Nat) (p : SupervisorProcess) :
    (s.put i p).lock = if p.ended ∧ s.lock = some i then none else s.lock := rfl

/-- What a step of process `i` may do, apart from the files. -/
structure Stepped (s : SupervisorHost) (i : Nat) (p p' : SupervisorProcess) (s' : SupervisorHost) : Prop where
  processes : s'.processes = s.processes.set i p'
  readers : s'.readers = s.readers
  cfg : p'.cfg = p.cfg
  inv : p'.inv = p.inv
  once : p'.once = p.once
  notEnded : p.ended = false
  /-- Who runs has been running, or has just got the lock. -/
  running : p'.running = true → p.inv.dryRun = false →
    p.running = true ∧ s'.lock = s.lock ∨ s.lock = none ∧ s'.lock = some i
  others : ∀ j, j ≠ i → s.lock = some j → s'.lock = some j
  started : p'.running = true ∨ p'.ended = true
  issued : s'.issued = s.issued ∨ ∃ c, s'.issued = s.issued ++ [(i, c)] ∧ p.running = true ∧
    (p.WellPhased → p.inv.dryRun = true → c = SupervisorProcess.query)
  wellPhased : p.WellPhased → p'.WellPhased

/-- A process that has not ended, and what it may become. -/
structure Becomes (p p' : SupervisorProcess) : Prop where
  cfg : p'.cfg = p.cfg
  inv : p'.inv = p.inv
  once : p'.once = p.once
  notEnded : p.ended = false
  started : p'.running = true ∨ p'.ended = true
  wellPhased : p.WellPhased → p'.WellPhased

theorem ended_of_running (h : p.running = true) : p.ended = false := by
  unfold SupervisorProcess.running at h
  unfold SupervisorProcess.ended
  split at h <;> simp_all

theorem put_others {p' : SupervisorProcess} {j : Nat} (hj : j ≠ i) (hlock : s.lock = some j) :
    (s.put i p').lock = some j := by
  have hne : s.lock ≠ some i := fun h => hj (Option.some.inj (hlock.symm.trans h))
  rw [put_lock, if_neg fun h => hne h.2, hlock]

theorem Becomes.stepped {p' : SupervisorProcess} (h : Becomes p p') (hrun : p'.running = true → p.running = true)
    (store : Directory.Store String UInt8) :
    Stepped s i p p' { s.put i p' with store := store } := by
  refine ⟨rfl, rfl, h.cfg, h.inv, h.once, h.notEnded, fun hp' _ => Or.inl ⟨hrun hp', ?_⟩,
    fun j hj hlock => put_others hj hlock, h.started, Or.inl rfl, h.wellPhased⟩
  simp [ended_of_running hp']

theorem publications_final {report : Report} {f : String × String}
    (hf : f ∈ publications json showF64 report) : f.1 ∈ publishedFiles.final := by
  rw [publications] at hf
  rcases List.mem_append.mp hf with hf | hf
  · obtain ⟨text, _, rfl⟩ := List.mem_map.mp hf
    exact List.mem_cons_self
  · rw [List.mem_singleton.mp hf]
    exact List.mem_cons_of_mem _ List.mem_cons_self

theorem commands_of_dryRun {cfg : Config} {inv : Invocation} {snap : Snapshot} {state : SupState}
    {pass : Pass} (hdry : inv.dryRun = true) (hpass : reconcile cfg inv snap state = .ok pass) :
    ∀ c ∈ pass.commands, c = SupervisorProcess.query := by
  obtain ⟨runners, _, hspec⟩ := reconcile_spec hpass
  rw [hspec.commands, hspec.pools, commands_dryRun hdry, List.append_nil, queryCommands, if_pos hdry]
  exact fun c hc => List.mem_singleton.mp hc

theorem afterReconcile_becomes {snap : Snapshot} (hphase : p.phase = .ready) :
    Becomes p (p.afterReconcile snap) := by
  have hended : p.ended = false := by simp [SupervisorProcess.ended, hphase]
  rw [SupervisorProcess.afterReconcile]
  split
  · rename_i pass hpass
    exact ⟨rfl, rfl, rfl, hended, Or.inl rfl, fun _ hdry => commands_of_dryRun hdry hpass⟩
  · split
    · exact ⟨rfl, rfl, rfl, hended, Or.inr rfl, fun _ => trivial⟩
    · exact ⟨rfl, rfl, rfl, hended, Or.inl rfl, fun _ => trivial⟩

theorem afterTurn_becomes {report : Report} (hended : p.ended = false) :
    Becomes p (p.afterTurn json report) := by
  rw [SupervisorProcess.afterTurn]
  split
  · exact ⟨rfl, rfl, rfl, hended, Or.inr rfl, fun _ => trivial⟩
  · split
    · exact ⟨rfl, rfl, rfl, hended, Or.inr rfl, fun _ => trivial⟩
    · exact ⟨rfl, rfl, rfl, hended, Or.inl rfl, fun _ => trivial⟩

theorem acquireSingleton_stepped (hphase : p.phase = .starting) :
    ∃ p', Stepped s i p p' (s.acquireSingleton i p) := by
  have hended : p.ended = false := by simp [SupervisorProcess.ended, hphase]
  rw [acquireSingleton]
  split
  · rename_i hdry
    exact ⟨_, rfl, rfl, rfl, rfl, rfl, hended, by simp [hdry], fun j hj hlock => put_others hj hlock,
      Or.inl rfl, Or.inl rfl, fun _ => trivial⟩
  · split
    · rename_i hfree
      exact ⟨_, rfl, rfl, rfl, rfl, rfl, hended, fun _ _ => Or.inr ⟨hfree, rfl⟩, by simp [hfree],
        Or.inl rfl, Or.inl rfl, fun _ => trivial⟩
    · refine ⟨_, Becomes.stepped ?_ (by simp [SupervisorProcess.running]) s.store⟩
      exact ⟨rfl, rfl, rfl, hended, Or.inr rfl, fun _ => trivial⟩

theorem command_stepped {c : Command} {cs : List Command} {report : Report}
    (hphase : p.phase = .acting (c :: cs) report) :
    Stepped s i p { p with phase := .acting cs report }
      { s.put i { p with phase := .acting cs report } with issued := s.issued ++ [(i, c)] } := by
  have hrun : p.running = true := by simp [SupervisorProcess.running, hphase]
  have hwell : p.WellPhased → p.inv.dryRun = true → ∀ c' ∈ c :: cs, c' = SupervisorProcess.query := by
    intro h
    rw [SupervisorProcess.WellPhased, hphase] at h
    exact h
  have hbecomes : Becomes p { p with phase := .acting cs report } :=
    ⟨rfl, rfl, rfl, ended_of_running hrun, Or.inl rfl,
      fun h hdry c' hc' => hwell h hdry c' (List.mem_cons_of_mem _ hc')⟩
  have hstepped : Stepped s i p _ _ := hbecomes.stepped (fun _ => hrun) s.store
  exact { hstepped with
    issued := Or.inr ⟨c, rfl, hrun, fun h hdry => hwell h hdry c List.mem_cons_self⟩ }

/-- Every other step of a process that is past `acquire_singleton` takes it on or ends it. -/
theorem becomes_of_phase {phase : SupervisorPhase} (hrun : p.running = true)
    (hphase : ({ p with phase := phase } : SupervisorProcess).running = true)
    (hwell : p.WellPhased → ({ p with phase := phase } : SupervisorProcess).WellPhased) :
    Becomes p { p with phase := phase } :=
  ⟨rfl, rfl, rfl, ended_of_running hrun, Or.inl hphase, hwell⟩

theorem processStep_stepped {e : ProcessEvent} (h : processStep json showF64 s i p e = some s') :
    ∃ p', Stepped s i p p' s' := by
  unfold processStep at h
  split at h
  · rename_i hphase
    cases h
    exact acquireSingleton_stepped hphase
  · -- `setUpFails`, before `acquire_singleton` and after it
    rename_i hphase
    cases h
    refine ⟨_, Becomes.stepped ?_ (by simp [SupervisorProcess.running]) s.store⟩
    exact ⟨rfl, rfl, rfl, by simp [SupervisorProcess.ended, hphase], Or.inr rfl, fun _ => trivial⟩
  · rename_i hphase
    cases h
    refine ⟨_, Becomes.stepped ?_ (by simp [SupervisorProcess.running]) s.store⟩
    exact ⟨rfl, rfl, rfl, by simp [SupervisorProcess.ended, hphase], Or.inr rfl, fun _ => trivial⟩
  · -- `setUp`
    rename_i hphase
    have hrun : p.running = true := by simp [SupervisorProcess.running, hphase]
    cases h
    refine ⟨_, Becomes.stepped ?_ (fun _ => hrun) s.store⟩
    exact becomes_of_phase hrun rfl fun _ => trivial
  · -- `reconcile`
    rename_i snap hphase
    have hrun : p.running = true := by simp [SupervisorProcess.running, hphase]
    cases h
    exact ⟨_, (afterReconcile_becomes hphase).stepped (fun _ => hrun) s.store⟩
  · rename_i hphase
    cases h
    exact ⟨_, command_stepped hphase⟩
  · -- `commandsDone`
    rename_i hphase
    have hrun : p.running = true := by simp [SupervisorProcess.running, hphase]
    cases h
    refine ⟨_, Becomes.stepped ?_ (fun _ => hrun) s.store⟩
    refine becomes_of_phase hrun rfl fun _ => ⟨fun hdry => if_pos hdry, fun f hf => ?_⟩
    split at hf
    · cases hf
    · exact publications_final hf
  · -- `create`
    rename_i name text files hphase
    have hrun : p.running = true := by simp [SupervisorProcess.running, hphase]
    cases h
    refine ⟨_, Becomes.stepped ?_ (fun _ => hrun) _⟩
    refine becomes_of_phase hrun rfl fun hwell => ?_
    rw [SupervisorProcess.WellPhased, hphase] at hwell
    refine ⟨?_, hwell.2 _ List.mem_cons_self, fun f hf => hwell.2 f (List.mem_cons_of_mem _ hf)⟩
    simpa using hwell.1
  · rename_i f files hphase
    have hrun : p.running = true := by simp [SupervisorProcess.running, hphase]
    cases h
    refine ⟨_, Becomes.stepped ?_ (fun _ => hrun) s.store⟩
    refine becomes_of_phase hrun rfl fun hwell => ?_
    rw [SupervisorProcess.WellPhased, hphase] at hwell
    exact ⟨fun hdry => absurd (hwell.1 hdry) (List.cons_ne_nil _ _),
      fun f hf => hwell.2 f (List.mem_cons_of_mem _ hf)⟩
  · -- `write`
    rename_i hphase
    have hrun : p.running = true := by simp [SupervisorProcess.running, hphase]
    obtain ⟨_, hs⟩ := Option.ite_none_right_eq_some.mp h
    cases hs
    refine ⟨_, Becomes.stepped ?_ (fun _ => hrun) _⟩
    refine becomes_of_phase hrun rfl fun hwell => ?_
    rw [SupervisorProcess.WellPhased, hphase] at hwell
    exact hwell
  · -- `writeFails`
    rename_i hphase
    have hrun : p.running = true := by simp [SupervisorProcess.running, hphase]
    cases h
    refine ⟨_, Becomes.stepped ?_ (fun _ => hrun) s.store⟩
    refine becomes_of_phase hrun rfl fun hwell => ?_
    rw [SupervisorProcess.WellPhased, hphase] at hwell
    exact ⟨by simp [hwell.1], hwell.2.2⟩
  · -- `rename`
    rename_i hphase
    have hrun : p.running = true := by simp [SupervisorProcess.running, hphase]
    obtain ⟨_, hs⟩ := Option.ite_none_right_eq_some.mp h
    obtain ⟨store, _, hs⟩ := Option.map_eq_some_iff.mp hs
    cases hs
    refine ⟨_, Becomes.stepped ?_ (fun _ => hrun) store⟩
    refine becomes_of_phase hrun rfl fun hwell => ?_
    rw [SupervisorProcess.WellPhased, hphase] at hwell
    exact ⟨by simp [hwell.1], hwell.2.2⟩
  · rename_i hphase
    have hrun : p.running = true := by simp [SupervisorProcess.running, hphase]
    obtain ⟨_, hs⟩ := Option.ite_none_right_eq_some.mp h
    cases hs
    refine ⟨_, Becomes.stepped ?_ (fun _ => hrun) s.store⟩
    refine becomes_of_phase hrun rfl fun hwell => ?_
    rw [SupervisorProcess.WellPhased, hphase] at hwell
    exact ⟨by simp [hwell.1], hwell.2.2⟩
  · -- `endTurn`
    rename_i hphase
    have hrun : p.running = true := by simp [SupervisorProcess.running, hphase]
    cases h
    exact ⟨_, (afterTurn_becomes (ended_of_running hrun)).stepped (fun _ => hrun) s.store⟩
  · -- `kill`
    obtain ⟨hended, hs⟩ := Option.ite_none_left_eq_some.mp h
    cases hs
    refine ⟨_, Becomes.stepped ?_ (by simp [SupervisorProcess.running]) s.store⟩
    exact ⟨rfl, rfl, rfl, by simpa using hended, Or.inr rfl, fun _ => trivial⟩
  · cases h

/-! ### Taking turns -/

/-- Who issued the commands that are more than the query, in order. -/
def changers (s : SupervisorHost) : List Nat :=
  (s.issued.filter fun e => e.2 ≠ SupervisorProcess.query).map (·.1)

structure TakingTurns (s : SupervisorHost) : Prop where
  holder : ∀ (i : Nat) (p : SupervisorProcess), s.processes[i]? = some p → p.inv.dryRun = false →
    p.running = true → s.lock = some i
  wellPhased : ∀ (i : Nat) (p : SupervisorProcess), s.processes[i]? = some p → p.WellPhased
  changer : ∀ i ∈ changers s, ∃ p, s.processes[i]? = some p ∧ p.inv.dryRun = false ∧
    (p.running = true ∨ p.ended = true)
  last : ∀ (i : Nat) (p : SupervisorProcess), s.processes[i]? = some p → p.running = true →
    i ∈ changers s → (changers s).getLast? = some i
  grouped : Sessions.Grouped (changers s)

theorem TakingTurns.init (store : Directory.Store String UInt8) : TakingTurns { store := store } :=
  ⟨by simp, by simp, by simp [changers], by simp, Sessions.grouped_nil⟩

theorem TakingTurns.of_eq (h : TakingTurns s) (hprocesses : s'.processes = s.processes)
    (hlock : s'.lock = s.lock) (hissued : s'.issued = s.issued) : TakingTurns s' := by
  have hchangers : changers s' = changers s := by rw [changers, changers, hissued]
  refine ⟨?_, ?_, ?_, ?_, ?_⟩
  · simpa only [hprocesses, hlock] using h.holder
  · simpa only [hprocesses] using h.wellPhased
  · simpa only [hprocesses, hchangers] using h.changer
  · simpa only [hprocesses, hchangers] using h.last
  · simpa only [hchangers] using h.grouped

theorem getElem?_concat_eq_some {α : Type} {xs : List α} {x y : α} {i : Nat}
    (h : (xs ++ [x])[i]? = some y) : xs[i]? = some y ∨ i = xs.length ∧ y = x := by
  rcases Nat.lt_or_ge i xs.length with hlt | hge
  · rw [List.getElem?_append_left hlt] at h
    exact Or.inl h
  · rw [List.getElem?_append_right hge] at h
    cases hi : i - xs.length with
    | zero =>
        rw [hi] at h
        exact Or.inr ⟨by omega, (Option.some.inj h).symm⟩
    | succ n =>
        rw [hi] at h
        cases h

theorem TakingTurns.spawn (h : TakingTurns s) (cfg : Config) (inv : Invocation) (once : Bool) :
    TakingTurns { s with processes := s.processes ++ [{ cfg := cfg, inv := inv, once := once }] } := by
  refine ⟨fun i p hp hdry hrun => ?_, fun i p hp => ?_, fun i hi => ?_, fun i p hp hrun hi => ?_, h.grouped⟩
  · rcases getElem?_concat_eq_some hp with hp | ⟨_, rfl⟩
    · exact h.holder i p hp hdry hrun
    · cases hrun
  · rcases getElem?_concat_eq_some hp with hp | ⟨_, rfl⟩
    · exact h.wellPhased i p hp
    · trivial
  · obtain ⟨p, hp, hdry, hstage⟩ := h.changer i hi
    refine ⟨p, ?_, hdry, hstage⟩
    rw [List.getElem?_append_left (List.getElem?_eq_some_iff.mp hp).1, hp]
  · rcases getElem?_concat_eq_some hp with hp | ⟨_, rfl⟩
    · exact h.last i p hp hrun hi
    · cases hrun

theorem getElem?_set_eq_some {α : Type} {xs : List α} {x y : α} {i j : Nat}
    (h : (xs.set i x)[j]? = some y) : j = i ∧ y = x ∨ j ≠ i ∧ xs[j]? = some y := by
  by_cases hij : j = i
  · subst hij
    obtain ⟨hj, hget⟩ := List.getElem?_eq_some_iff.mp h
    rw [List.getElem_set_self] at hget
    exact Or.inl ⟨rfl, hget.symm⟩
  · rw [List.getElem?_set_ne (Ne.symm hij)] at h
    exact Or.inr ⟨hij, h⟩

section Stepped

variable {p' : SupervisorProcess}

theorem Stepped.holder (hstep : Stepped s i p p' s') (h : TakingTurns s) (hp : s.processes[i]? = some p)
    (j : Nat) (q : SupervisorProcess) (hq : s'.processes[j]? = some q) (hdry : q.inv.dryRun = false)
    (hrun : q.running = true) : s'.lock = some j := by
  rw [hstep.processes] at hq
  rcases getElem?_set_eq_some hq with ⟨rfl, rfl⟩ | ⟨hj, hq⟩
  · rw [hstep.inv] at hdry
    rcases hstep.running hrun hdry with ⟨hbefore, hlock⟩ | ⟨_, hlock⟩
    · rw [hlock]
      exact h.holder j p hp hdry hbefore
    · exact hlock
  · exact hstep.others j hj (h.holder j q hq hdry hrun)

/-- No command is issued but the query. -/
theorem Stepped.turns_of_changers (hstep : Stepped s i p p' s') (h : TakingTurns s)
    (hp : s.processes[i]? = some p) (hchangers : changers s' = changers s) : TakingTurns s' := by
  have hlen : i < s.processes.length := (List.getElem?_eq_some_iff.mp hp).1
  refine ⟨hstep.holder h hp, fun j q hq => ?_, fun j hj => ?_, fun j q hq hrun hj => ?_, ?_⟩
  · rw [hstep.processes] at hq
    rcases getElem?_set_eq_some hq with ⟨rfl, rfl⟩ | ⟨_, hq⟩
    · exact hstep.wellPhased (h.wellPhased j p hp)
    · exact h.wellPhased j q hq
  · rw [hchangers] at hj
    obtain ⟨q, hq, hdry, hstage⟩ := h.changer j hj
    rw [hstep.processes]
    by_cases hji : j = i
    · subst hji
      rw [hp] at hq
      cases hq
      exact ⟨p', by simp [hlen], hstep.inv ▸ hdry, hstep.started⟩
    · exact ⟨q, by rw [List.getElem?_set_ne (Ne.symm hji), hq], hdry, hstage⟩
  · rw [hchangers] at hj ⊢
    rw [hstep.processes] at hq
    rcases getElem?_set_eq_some hq with ⟨rfl, rfl⟩ | ⟨_, hq⟩
    · -- A process that has issued a command was running before.
      obtain ⟨q, hq, _, hstage⟩ := h.changer j hj
      rw [hp] at hq
      cases hq
      rw [hstep.notEnded] at hstage
      exact h.last j p hp (by simpa using hstage) hj
    · exact h.last j q hq hrun hj
  · rw [hchangers]
    exact h.grouped

/-- Who issues one has the lock, so whoever issued one before has ended, unless it is the same. -/
theorem Stepped.turns_of_concat (hstep : Stepped s i p p' s') (h : TakingTurns s)
    (hp : s.processes[i]? = some p) (hdry : p.inv.dryRun = false) (hrun : p.running = true)
    (hchangers : changers s' = changers s ++ [i]) : TakingTurns s' := by
  have hlen : i < s.processes.length := (List.getElem?_eq_some_iff.mp hp).1
  have hlock : s.lock = some i := h.holder i p hp hdry hrun
  refine ⟨hstep.holder h hp, fun j q hq => ?_, fun j hj => ?_, fun j q hq hqrun hj => ?_, ?_⟩
  · rw [hstep.processes] at hq
    rcases getElem?_set_eq_some hq with ⟨rfl, rfl⟩ | ⟨_, hq⟩
    · exact hstep.wellPhased (h.wellPhased j p hp)
    · exact h.wellPhased j q hq
  · rw [hstep.processes]
    by_cases hji : j = i
    · subst hji
      exact ⟨p', by simp [hlen], hstep.inv ▸ hdry, hstep.started⟩
    · have hmem : j ∈ changers s := by simpa [hchangers, hji] using hj
      obtain ⟨q, hq, hqdry, hstage⟩ := h.changer j hmem
      exact ⟨q, by rw [List.getElem?_set_ne (Ne.symm hji), hq], hqdry, hstage⟩
  · rw [hstep.processes] at hq
    rcases getElem?_set_eq_some hq with ⟨rfl, rfl⟩ | ⟨hji, hq⟩
    · simp [hchangers]
    · have hmem : j ∈ changers s := by simpa [hchangers, hji] using hj
      obtain ⟨q', hq', hqdry, _⟩ := h.changer j hmem
      rw [hq] at hq'
      cases hq'
      exact absurd (Option.some.inj ((h.holder j q hq hqdry hqrun).symm.trans hlock)) hji
  · rw [hchangers]
    exact h.grouped.concat fun hi => h.last i p hp hrun hi

theorem Stepped.takingTurns (hstep : Stepped s i p p' s') (h : TakingTurns s)
    (hp : s.processes[i]? = some p) : TakingTurns s' := by
  rcases hstep.issued with hissued | ⟨c, hissued, hrun, hquery⟩
  · exact hstep.turns_of_changers h hp (by rw [changers, changers, hissued])
  · by_cases hc : c = SupervisorProcess.query
    · exact hstep.turns_of_changers h hp (by simp [changers, hissued, hc])
    · have hdry : p.inv.dryRun = false := by
        rw [← Bool.not_eq_true]
        exact fun hdry => hc (hquery (h.wellPhased i p hp) hdry)
      exact hstep.turns_of_concat h hp hdry hrun (by simp [changers, hissued, hc])

end Stepped

theorem TakingTurns.step {e : SupervisorEvent} (h : TakingTurns s)
    (hstep : step json showF64 s e = some s') : TakingTurns s' := by
  cases e with
  | spawn cfg inv once =>
      cases hstep
      exact h.spawn cfg inv once
  | process i e =>
      rw [SupervisorHost.step] at hstep
      split at hstep
      · rename_i p hp
        obtain ⟨p', hstepped⟩ := processStep_stepped hstep
        exact hstepped.takingTurns h hp
      · cases hstep
  | reader e =>
      obtain ⟨readers, _, rfl⟩ := Option.map_eq_some_iff.mp hstep
      exact h.of_eq rfl rfl rfl

theorem takingTurns_of_exec {store : Directory.Store String UInt8} {events : List SupervisorEvent}
    (hexec : Transition.exec (step json showF64) { store := store } events = some s) : TakingTurns s :=
  Transition.exec_invariant (fun _ _ _ h _ hstep => h.step hstep) (TakingTurns.init store)
    (Transition.meets_true _ _) hexec

/-- At most one supervisor that is no dry run is past `acquire_singleton`, dry runs issue the query only,
and after another one's turn a supervisor changes nothing any more. -/
structure OneAtATime (s : SupervisorHost) : Prop where
  atMostOne : ∀ (i j : Nat) (p q : SupervisorProcess), s.processes[i]? = some p → s.processes[j]? = some q →
    p.inv.dryRun = false → q.inv.dryRun = false → p.running = true → q.running = true → i = j
  dryRuns : ∀ e ∈ s.issued, ∀ p ∈ s.processes[e.1]?, p.inv.dryRun = true → e.2 = SupervisorProcess.query
  turns : Sessions.Grouped (changers s)

/-- **Supervisors take turns**, in every run with any number of them. -/
theorem supervisors_take_turns {store : Directory.Store String UInt8} {events : List SupervisorEvent}
    (hexec : Transition.exec (step json showF64) { store := store } events = some s) : OneAtATime s := by
  have h := takingTurns_of_exec hexec
  refine ⟨fun i j p q hp hq hpdry hqdry hprun hqrun => ?_, fun e he p hp hdry => ?_, h.grouped⟩
  · have hi := h.holder i p hp hpdry hprun
    have hj := h.holder j q hq hqdry hqrun
    exact Option.some.inj (hi.symm.trans hj)
  · by_contra hquery
    have hmem : e.1 ∈ changers s := List.mem_map_of_mem (List.mem_filter.mpr ⟨he, by simpa using hquery⟩)
    obtain ⟨q, hq, hqdry, _⟩ := h.changer e.1 hmem
    rw [Option.mem_def, hq] at hp
    cases hp
    rw [hdry] at hqdry
    cases hqdry

/-- A second supervisor is refused, a dry run goes on beside the first, and a third one begins when the first
is killed in the middle of a pass. -/
def handover : List SupervisorEvent :=
  let cfg := configWith [smallPool]
  let snap := roomySnapshot [] []
  [.spawn cfg daemonCall false, .spawn cfg daemonCall true, .spawn cfg { daemonCall with dryRun := true } true,
    .process 0 .acquire, .process 1 .acquire, .process 2 .acquire, .process 0 .setUp, .process 2 .setUp,
    .process 0 (.reconcile snap), .process 2 (.reconcile snap), .process 0 .command, .process 2 .command,
    .process 0 .command, .process 0 .command, .process 0 .kill, .spawn cfg daemonCall false,
    .process 3 .acquire, .process 3 .setUp, .process 3 (.reconcile snap), .process 3 .command,
    .process 3 .command, .process 3 .command]

theorem supervisors_take_turns_handover : ∃ s,
    Transition.exec (step (fun _ => none) fun _ => "0") { store := .empty } handover = some s ∧
      OneAtATime s := by
  obtain ⟨s, hs⟩ := Option.isSome_iff_exists.mp (show (Transition.exec (step (fun _ => none) fun _ => "0")
    { store := .empty } handover).isSome = true by decide +kernel)
  exact ⟨s, hs, supervisors_take_turns hs⟩

end SupervisorHost

end VmFleet
