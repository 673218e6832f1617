import VmFleet.Source.Gate
import VmFleet.Library.Transition
import VmFleet.Proof.CleanupRace

/-!
# One worker at a time behind the gate

The guard of the admission gate stands for the lock: it is held from before the reading on which the gate
is granted until after the start, on every path and whatever thread or process ends first. So the worker
that was granted last is the only one that clones and starts.
-/

namespace VmFleet

/-! ### Histories -/

theorem concat_eq_append_cons {α : Type} {h pre rest : List α} {d x : α}
    (heq : h ++ [d] = pre ++ x :: rest) :
    (rest = [] ∧ x = d ∧ h = pre) ∨ ∃ rest', rest = rest' ++ [d] ∧ h = pre ++ x :: rest' := by
  rcases List.eq_nil_or_concat rest with rfl | ⟨rest', last, rfl⟩
  · obtain ⟨hpre, hlast⟩ := List.append_inj' heq rfl
    exact Or.inl ⟨rfl, (List.cons.inj hlast).1.symm, hpre⟩
  · rw [List.concat_eq_append, ← List.cons_append, ← List.append_assoc] at heq
    obtain ⟨hpre, hlast⟩ := List.append_inj' heq rfl
    rw [List.concat_eq_append, (List.cons.inj hlast).1]
    exact Or.inr ⟨rest', rfl, hpre⟩

/-- Since the reading on which a worker was granted, no other worker has cloned or started a VM. -/
def Undisturbed (history : List Deed) (i : Nat) : Prop :=
  ∀ pre mid, history = pre ++ .clear i :: mid → ∀ j c, .did j c ∈ mid → c.launchesVm = true → j = i

theorem Undisturbed.concat {h : List Deed} {i : Nat} {d : Deed} (hh : Undisturbed h i)
    (hne : d ≠ .clear i) (hd : ∀ j c, d = .did j c → c.launchesVm = true → j = i) :
    Undisturbed (h ++ [d]) i := by
  intro pre mid heq j c hmem hlaunch
  obtain ⟨_, hclear, _⟩ | ⟨rest, rfl, hpre⟩ := concat_eq_append_cons heq
  · exact absurd hclear.symm hne
  · cases List.mem_append.mp hmem with
    | inl hmem => exact hh pre rest hpre j c hmem hlaunch
    | inr hmem => exact hd j c (List.mem_singleton.mp hmem).symm hlaunch

theorem Undisturbed.append {h more : List Deed} {i : Nat} (hh : Undisturbed h i)
    (hne : .clear i ∉ more) (hd : ∀ j c, .did j c ∈ more → c.launchesVm = true → j = i) :
    Undisturbed (h ++ more) i := by
  induction more generalizing h with
  | nil =>
      rw [List.append_nil]
      exact hh
  | cons d more ih =>
      rw [List.mem_cons, not_or] at hne
      rw [List.append_cons]
      have hfirst := hh.concat (fun heq => hne.1 heq.symm)
        fun j c heq => hd j c (heq ▸ List.mem_cons_self)
      exact ih hfirst hne.2 fun j c hmem => hd j c (List.mem_cons_of_mem _ hmem)

theorem undisturbed_clear {h : List Deed} {i : Nat} (hnot : .clear i ∉ h) : Undisturbed (h ++ [.clear i]) i := by
  intro pre mid heq j c hmem _
  obtain ⟨rfl, _, _⟩ | ⟨rest, _, hpre⟩ := concat_eq_append_cons heq
  · cases hmem
  · rw [hpre] at hnot
    exact absurd (List.mem_append_right _ List.mem_cons_self) hnot

/-- Every clone rests on a clear reading of its worker, and between the two no other worker clones or starts
a VM. -/
structure Spaced (history : List Deed) : Prop where
  rests : ∀ pre post i, history = pre ++ .did i .cloneFrom :: post → .clear i ∈ pre
  apart : ∀ pre mid post i, history = pre ++ .clear i :: (mid ++ .did i .cloneFrom :: post) →
    ∀ j c, .did j c ∈ mid → c.launchesVm = true → j = i

theorem spaced_nil : Spaced [] where
  rests := fun pre post i heq => by
    rw [List.nil_eq_append_iff] at heq
    cases heq.2
  apart := fun pre mid post i heq => by
    rw [List.nil_eq_append_iff] at heq
    cases heq.2

theorem Spaced.concat {h : List Deed} {d : Deed} (hh : Spaced h)
    (hd : ∀ i, d = .did i .cloneFrom → .clear i ∈ h ∧ Undisturbed h i) : Spaced (h ++ [d]) where
  rests := by
    intro pre post i heq
    obtain ⟨_, hclone, rfl⟩ | ⟨rest, _, hpre⟩ := concat_eq_append_cons heq
    · exact (hd i hclone.symm).1
    · exact hh.rests pre rest i hpre
  apart := by
    intro pre mid post i heq
    rw [← List.cons_append, ← List.append_assoc] at heq
    obtain ⟨_, hclone, hpre⟩ | ⟨rest, _, hpre⟩ := concat_eq_append_cons heq
    · exact (hd i hclone.symm).2 pre mid hpre
    · rw [List.append_assoc, List.cons_append] at hpre
      exact hh.apart pre mid rest i hpre

/-! ### The calls that hold the guard -/

/-- They come right after `acquire` and after one another. -/
theorem guarded_follows {useJit swap : Bool} {c : Call} {rest : List Call}
    (hsuffix : c :: rest <:+ lifecycle useJit swap) (hguarded : rest.head?.any Call.guarded = true) :
    c = .acquire ∨ c.guarded = true := by
  have hall : ∀ useJit swap, ∀ todo ∈ (lifecycle useJit swap).tails,
      todo.tail.head?.any Call.guarded = true →
      todo.head? = some .acquire ∨ todo.head?.any Call.guarded = true := by decide
  cases hall useJit swap _ ((List.mem_tails _ _).mpr hsuffix) hguarded with
  | inl h => exact Or.inl (Option.some.inj h)
  | inr h => exact Or.inr h

theorem head_lifecycle (useJit swap : Bool) : (lifecycle useJit swap).head?.any Call.guarded = false := by
  have hall : ∀ useJit swap, (lifecycle useJit swap).head?.any Call.guarded = false := by decide
  exact hall useJit swap

namespace WorkerThreads

variable {s s' : WorkerThreads}

/-- What a step does to the rest of `lifecycle`. -/
theorem step_todo {e : ThreadEvent} (h : s.step e = some s') :
    (∃ ok c rest, e = .call ok ∧ s.todo = c :: rest ∧ s'.todo = (if ok then rest else []) ∧
      s'.exitCode = none) ∨
    ((∀ ok, e ≠ .call ok) ∧ s'.todo = s.todo) := by
  obtain ⟨hnone, hstep⟩ := step_eq_some_iff.mp h
  have hpoll : e = .childAlive ∨ e = .pollAgain ∨ e = .childExits → s'.todo = s.todo := by
    intro he
    obtain ⟨polled, running, rfl, _⟩ := poll_cases he hstep
    rfl
  cases e with
  | call ok =>
      obtain ⟨c, rest, htodo, _, ⟨rfl, rfl⟩ | ⟨rfl, rfl⟩⟩ := call_cases hstep
      · exact Or.inl ⟨true, c, rest, rfl, htodo, rfl, (afterCall_frame c).2.2.2.2.2.1.trans hnone⟩
      · exact Or.inl ⟨false, c, rest, rfl, htodo, rfl, hnone⟩
  | deliver sig =>
      rw [liveStep] at hstep
      split at hstep <;> cases hstep
      exact Or.inr ⟨(fun _ he => by cases he), rfl⟩
  | childAlive => exact Or.inr ⟨(fun _ he => by cases he), hpoll (Or.inl rfl)⟩
  | pollAgain => exact Or.inr ⟨(fun _ he => by cases he), hpoll (Or.inr (Or.inl rfl))⟩
  | childExits => exact Or.inr ⟨(fun _ he => by cases he), hpoll (Or.inr (Or.inr rfl))⟩
  | cleanup t => exact Or.inr ⟨(fun _ he => by cases he), (move_of_cleanupStep hstep).frame.1⟩
  | exit t =>
      obtain ⟨_, rfl⟩ := exit_cases hstep
      exact Or.inr ⟨(fun _ he => by cases he), rfl⟩

end WorkerThreads

namespace Gate

variable {s s' : Gate} {i : Nat}

/-! ### The invariant -/

/-- What holds of a worker process, dead or alive. -/
structure Placed (s : Gate) (i : Nat) (c : Contender) : Prop where
  holds : c.alive = true → c.stage = .waiting ∨ c.stage = .granted → s.lock = some i
  todo : ∃ useJit swap, c.threads.todo <:+ lifecycle useJit swap
  guarded : c.alive = true → c.threads.todo.head?.any Call.guarded = true → c.stage = .granted
  unread : c.stage = .away ∨ c.stage = .opened ∨ c.stage = .waiting → .clear i ∉ s.history
  read : c.alive = true → c.stage = .granted → .clear i ∈ s.history ∧ Undisturbed s.history i

structure Inv (s : Gate) : Prop where
  placed : ∀ i c, s.workers i = some c → s.Placed i c
  unseen : ∀ i, s.workers i = none → .clear i ∉ s.history
  spaced : Spaced s.history

theorem inv_init : Inv init where
  placed := fun i c hc => by cases hc
  unseen := fun _ _ => List.not_mem_nil
  spaced := spaced_nil

theorem living_eq_some_iff {c : Contender} :
    s.living i = some c ↔ s.workers i = some c ∧ c.alive = true := by
  rw [living, Option.filter_eq_some_iff]

theorem Inv.eq_of_holding (h : Inv s) {j : Nat} {c d : Contender} (hc : s.living i = some c)
    (hd : s.living j = some d) (hci : c.stage = .waiting ∨ c.stage = .granted)
    (hdj : d.stage = .waiting ∨ d.stage = .granted) : i = j := by
  obtain ⟨hc, hcalive⟩ := living_eq_some_iff.mp hc
  obtain ⟨hd, hdalive⟩ := living_eq_some_iff.mp hd
  have hlock := (h.placed i c hc).holds hcalive hci
  rw [(h.placed j d hd).holds hdalive hdj] at hlock
  exact (Option.some.inj hlock).symm

/-- What a step of one worker must leave to the others. -/
theorem Inv.put (h : Inv s) {c' : Contender} (lock : Option Nat) (more : List Deed)
    (hplaced : Placed { s.put i c' with lock := lock, history := s.history ++ more } i c')
    (hlock : ∀ j, j ≠ i → s.lock = some j → lock = some j)
    (hclear : ∀ j, j ≠ i → .clear j ∉ more)
    (hquiet : ∀ j, j ≠ i → s.lock = some j → ∀ k call, .did k call ∈ more → call.launchesVm = false)
    (hspaced : Spaced (s.history ++ more)) :
    Inv { s.put i c' with lock := lock, history := s.history ++ more } where
  placed := by
    intro j d hd
    by_cases hj : j = i
    · have hdc : (if j = i then some c' else s.workers j) = some d := hd
      rw [if_pos hj] at hdc
      cases hdc
      rw [hj]
      exact hplaced
    · have hdold : (if j = i then some c' else s.workers j) = some d := hd
      rw [if_neg hj] at hdold
      have hold := h.placed j d hdold
      refine ⟨fun halive hstage => hlock j hj (hold.holds halive hstage), hold.todo, hold.guarded,
        fun hstage hmem => ?_, fun halive hstage => ?_⟩
      · cases List.mem_append.mp hmem with
        | inl hmem => exact hold.unread hstage hmem
        | inr hmem => exact hclear j hj hmem
      · obtain ⟨hread, hundisturbed⟩ := hold.read halive hstage
        refine ⟨List.mem_append_left _ hread, hundisturbed.append (hclear j hj) ?_⟩
        intro k call hmem hlaunch
        rw [hquiet j hj (hold.holds halive (Or.inr hstage)) k call hmem] at hlaunch
        cases hlaunch
  unseen := by
    intro j hnone hmem
    have hnone' : (if j = i then some c' else s.workers j) = none := hnone
    split at hnone'
    · cases hnone'
    · next hj =>
        cases List.mem_append.mp hmem with
        | inl hmem => exact h.unseen j hnone' hmem
        | inr hmem => exact hclear j hj hmem
  spaced := hspaced

/-- A step that is no deed. -/
theorem Inv.put_quiet (h : Inv s) {c' : Contender} (lock : Option Nat)
    (hplaced : Placed { s.put i c' with lock := lock } i c')
    (hlock : ∀ j, j ≠ i → s.lock = some j → lock = some j) :
    Inv { s.put i c' with lock := lock } := by
  have hnil : s.history ++ [] = s.history := List.append_nil _
  have hput : Inv { s.put i c' with lock := lock, history := s.history ++ [] } :=
    h.put lock [] (by rw [hnil]; exact hplaced) hlock (fun _ _ => List.not_mem_nil)
      (fun _ _ _ _ _ hmem => absurd hmem List.not_mem_nil) (by rw [hnil]; exact h.spaced)
  rw [hnil] at hput
  exact hput

theorem released_of_ne {j : Nat} (hne : j ≠ i) (hlock : s.lock = some j) : s.released i = some j := by
  rw [released, if_neg, hlock]
  rw [hlock]
  exact fun heq => hne (Option.some.inj heq)

/-! ### The steps -/

theorem Inv.launch (h : Inv s) {useJit swap : Bool} {cfg : Admission}
    (hstep : step s (.launch i useJit swap cfg) = some s') : Inv s' := by
  rw [step] at hstep
  split at hstep
  · next hnone =>
      cases hstep
      have hunseen := h.unseen i (Option.isNone_iff_eq_none.mp hnone)
      refine h.put_quiet s.lock ⟨fun _ hstage => ?_, ⟨useJit, swap, List.suffix_refl _⟩,
        fun _ hguarded => ?_, fun _ => hunseen, fun _ hstage => ?_⟩ (fun _ _ hj => hj)
      · cases hstage with
        | inl heq => cases heq
        | inr heq => cases heq
      · rw [show (WorkerThreads.init useJit swap).todo = lifecycle useJit swap from rfl,
          head_lifecycle] at hguarded
        cases hguarded
      · cases hstage
  · cases hstep

theorem Inv.openLock (h : Inv s) (hstep : step s (.openLock i) = some s') : Inv s' := by
  obtain ⟨c, hc, hstep⟩ := Option.bind_eq_some_iff.mp hstep
  obtain ⟨hc, halive⟩ := living_eq_some_iff.mp hc
  have hold := h.placed i c hc
  split at hstep
  · next hguard =>
      cases hstep
      refine h.put_quiet s.lock ⟨fun _ hstage => ?_, hold.todo, fun _ hguarded => ?_,
        fun _ => hold.unread (Or.inl hguard.2), fun _ hstage => ?_⟩ (fun _ _ hj => hj)
      · cases hstage with
        | inl heq => cases heq
        | inr heq => cases heq
      · have hgranted := hold.guarded halive hguarded
        rw [hguard.2] at hgranted
        cases hgranted
      · cases hstage
  · cases hstep

theorem Inv.tryLock (h : Inv s) (hstep : step s (.tryLock i) = some s') : Inv s' := by
  obtain ⟨c, hc, hstep⟩ := Option.bind_eq_some_iff.mp hstep
  obtain ⟨hc, halive⟩ := living_eq_some_iff.mp hc
  have hold := h.placed i c hc
  split at hstep
  · next hguard =>
      split at hstep
      · next hfree =>
          cases hstep
          refine h.put_quiet _ ⟨fun _ _ => rfl, hold.todo, fun _ hguarded => ?_,
            fun _ => hold.unread (Or.inr (Or.inl hguard.2)), fun _ hstage => ?_⟩ (fun j _ hj => ?_)
          · have hgranted := hold.guarded halive hguarded
            rw [hguard.2] at hgranted
            cases hgranted
          · cases hstage
          · rw [hfree] at hj
            cases hj
      · cases hstep
        exact h
  · cases hstep

/-- The gate is granted on this reading, with the lock held. -/
theorem Inv.probe (h : Inv s) {r : Resources} (hstep : step s (.probe i r) = some s') : Inv s' := by
  obtain ⟨c, hc, hstep⟩ := Option.bind_eq_some_iff.mp hstep
  obtain ⟨hc, halive⟩ := living_eq_some_iff.mp hc
  have hold := h.placed i c hc
  split at hstep
  · next hwaiting =>
      have hnot := hold.unread (Or.inr (Or.inr hwaiting))
      split at hstep
      · cases hstep
        refine h.put s.lock _ ⟨fun _ _ => hold.holds halive (Or.inl hwaiting), hold.todo,
          fun _ _ => rfl, fun hstage => ?_, fun _ _ => ⟨List.mem_append_right _ List.mem_cons_self,
            undisturbed_clear hnot⟩⟩ (fun _ _ hj => hj) (fun j hj hmem => ?_) (fun j _ _ k call hmem => ?_)
          (h.spaced.concat fun j heq => by cases heq)
        · rcases hstage with heq | heq | heq <;> cases heq
        · cases List.mem_singleton.mp hmem
          exact hj rfl
        · cases List.mem_singleton.mp hmem
      · cases hstep
        exact h
  · cases hstep

theorem deeds_cases (c : Contender) (e : ThreadEvent) :
    c.deeds i e = [] ∨ ∃ call, c.deeds i e = [.did i call] ∧ c.threads.todo.head? = some call := by
  unfold Contender.deeds
  split
  · cases hhead : c.threads.todo.head? with
    | none => exact Or.inl rfl
    | some call => exact Or.inr ⟨call, rfl, rfl⟩
  · exact Or.inl rfl

theorem mem_deeds {c : Contender} {e : ThreadEvent} {d : Deed} (h : d ∈ c.deeds i e) :
    ∃ call, d = .did i call ∧ c.threads.todo.head? = some call := by
  obtain hnil | ⟨call, hdeeds, hhead⟩ := deeds_cases (i := i) c e
  · rw [hnil] at h
    cases h
  · rw [hdeeds] at h
    exact ⟨call, List.mem_singleton.mp h, hhead⟩

/-- Who is about to clone or start holds the guard. -/
theorem Placed.granted {c : Contender} (h : s.Placed i c) (halive : c.alive = true) {call : Call}
    (hhead : c.threads.todo.head? = some call) (hlaunch : call.launchesVm = true) : c.stage = .granted := by
  refine h.guarded halive ?_
  rw [hhead]
  cases call <;> first | rfl | cases hlaunch

theorem Placed.thread {c : Contender} {e : ThreadEvent} {threads : WorkerThreads} {lock : Option Nat}
    (h : s.Placed i c) (halive : c.alive = true) (hallows : c.allows e = true)
    (hthreads : c.threads.step e = some threads)
    (hlock : threads.exitCode.isNone = true → lock = s.lock) :
    Placed { s.put i { c with threads := threads } with
      lock := lock, history := s.history ++ c.deeds i e } i { c with threads := threads } where
  holds := fun hrunning hstage => (hlock hrunning).trans (h.holds halive hstage)
  todo := by
    obtain ⟨useJit, swap, hsuffix⟩ := h.todo
    obtain ⟨ok, call, rest, _, htodo, hrest, _⟩ | ⟨_, hsame⟩ := WorkerThreads.step_todo hthreads
    · refine ⟨useJit, swap, ?_⟩
      show threads.todo <:+ _
      rw [hrest]
      split
      · exact (List.suffix_cons call rest).trans (htodo ▸ hsuffix)
      · exact List.nil_suffix
    · exact ⟨useJit, swap, hsame ▸ hsuffix⟩
  guarded := by
    intro _ hguarded
    obtain ⟨useJit, swap, hsuffix⟩ := h.todo
    obtain ⟨ok, call, rest, rfl, htodo, hrest, _⟩ | ⟨_, hsame⟩ := WorkerThreads.step_todo hthreads
    · cases ok with
      | false =>
          rw [show threads.todo = [] from hrest] at hguarded
          cases hguarded
      | true =>
          rw [show threads.todo = rest from hrest] at hguarded
          cases guarded_follows (htodo ▸ hsuffix) hguarded with
          | inl hacquire =>
              rw [Contender.allows, Contender.atAcquire, htodo, hacquire] at hallows
              exact beq_iff_eq.mp hallows
          | inr hcall => exact h.guarded halive (by rw [htodo]; exact hcall)
    · rw [show threads.todo = c.threads.todo from hsame] at hguarded
      exact h.guarded halive hguarded
  unread := by
    intro hstage hmem
    cases List.mem_append.mp hmem with
    | inl hmem => exact h.unread hstage hmem
    | inr hmem =>
        obtain ⟨call, heq, _⟩ := mem_deeds hmem
        cases heq
  read := by
    intro _ hstage
    obtain ⟨hread, hundisturbed⟩ := h.read halive hstage
    refine ⟨List.mem_append_left _ hread, hundisturbed.append (fun hmem => ?_) fun j call hmem _ => ?_⟩
    · obtain ⟨call, heq, _⟩ := mem_deeds hmem
      cases heq
    · obtain ⟨call', heq, _⟩ := mem_deeds hmem
      cases heq
      rfl

theorem Inv.thread (h : Inv s) {e : ThreadEvent} (hstep : step s (.thread i e) = some s') : Inv s' := by
  obtain ⟨c, hc, hstep⟩ := Option.bind_eq_some_iff.mp hstep
  obtain ⟨hc, halive⟩ := living_eq_some_iff.mp hc
  have hold := h.placed i c hc
  split at hstep
  · next hallows =>
      obtain ⟨threads, hthreads, hstep⟩ := Option.bind_eq_some_iff.mp hstep
      cases hstep
      refine h.put _ _ (hold.thread halive hallows hthreads fun hrunning => ?_) (fun j hj hheld => ?_)
        (fun j _ hmem => ?_) (fun j hj hheld k call hmem => ?_) ?_
      · rw [if_neg]
        rw [Option.isNone_iff_eq_none.mp hrunning]
        exact Bool.false_ne_true
      · split
        · exact released_of_ne hj hheld
        · exact hheld
      · obtain ⟨call, heq, _⟩ := mem_deeds hmem
        cases heq
      · obtain ⟨call', heq, hhead⟩ := mem_deeds hmem
        cases heq
        cases hlaunch : call.launchesVm with
        | false => rfl
        | true =>
            have hlock := hold.holds halive (Or.inr (hold.granted halive hhead hlaunch))
            rw [hheld] at hlock
            exact absurd (Option.some.inj hlock) hj
      · obtain hnil | ⟨call, hdeeds, hhead⟩ := deeds_cases (i := i) c e
        · rw [hnil, List.append_nil]
          exact h.spaced
        · rw [hdeeds]
          refine h.spaced.concat fun j heq => ?_
          cases heq
          exact hold.read halive (hold.granted halive hhead rfl)
  · cases hstep

theorem Inv.drop (h : Inv s) (hstep : step s (.drop i) = some s') : Inv s' := by
  obtain ⟨c, hc, hstep⟩ := Option.bind_eq_some_iff.mp hstep
  obtain ⟨hc, halive⟩ := living_eq_some_iff.mp hc
  have hold := h.placed i c hc
  split at hstep
  · next hguard =>
      cases hstep
      refine h.put_quiet _ ⟨fun _ hstage => ?_, hold.todo, fun _ hguarded => ?_, fun hstage => ?_,
        fun _ hstage => ?_⟩ (fun j hj hheld => released_of_ne hj hheld)
      · cases hstage with
        | inl heq => cases heq
        | inr heq => cases heq
      · have hpast := hguard.1
        rw [Contender.pastGuard, show c.threads.todo.head?.any Call.guarded = true from hguarded,
          Bool.not_true, Bool.and_false] at hpast
        cases hpast
      · rcases hstage with heq | heq | heq <;> cases heq
      · cases hstage
  · cases hstep

theorem Inv.kill (h : Inv s) (hstep : step s (.kill i) = some s') : Inv s' := by
  obtain ⟨c, hc, hstep⟩ := Option.bind_eq_some_iff.mp hstep
  cases hstep
  have hold := h.placed i c (living_eq_some_iff.mp hc).1
  exact h.put_quiet _ ⟨nofun, hold.todo, nofun, hold.unread, nofun⟩ fun j hj hheld => released_of_ne hj hheld

theorem Inv.step {e : GateEvent} (h : Inv s) (hstep : step s e = some s') : Inv s' := by
  cases e with
  | launch id useJit swap cfg => exact h.launch hstep
  | openLock id => exact h.openLock hstep
  | tryLock id => exact h.tryLock hstep
  | probe id r => exact h.probe hstep
  | thread id e => exact h.thread hstep
  | drop id => exact h.drop hstep
  | kill id => exact h.kill hstep

/-- **One worker at a time is between the grant of the gate and its release, and between the reading a
worker is granted on and its clone no other worker clones or starts a VM.** -/
theorem one_admitted {events : List GateEvent} (hexec : Transition.exec step init events = some s) :
    (∀ i j, s.Admitted i → s.Admitted j → i = j) ∧ Spaced s.history := by
  have hinv : Inv s := Transition.Reachable.invariant (fun _ _ _ hinv hstep => hinv.step hstep) inv_init
    ⟨events, hexec⟩
  refine ⟨fun i j hi hj => ?_, hinv.spaced⟩
  obtain ⟨c, hc, hci⟩ := hi
  obtain ⟨d, hd, hdj⟩ := hj
  exact hinv.eq_of_holding hc hd (Or.inr hci) (Or.inr hdj)

end Gate

def roomyReading : Resources := ⟨65536, .finite 0, .ok 500⟩

/-- The steps of a worker up to the gate. -/
def comesToGate (id : Nat) : List GateEvent :=
  .launch id true false {} :: List.replicate 5 (.thread id (.call true)) ++ [.openLock id, .tryLock id]

/-- The first worker waits for memory, is granted and killed after its clone; the second is granted then. -/
def killedBehindGate : List GateEvent :=
  comesToGate 1 ++ [.probe 1 ⟨1024, .finite 0, .ok 500⟩] ++ comesToGate 2 ++
    [.probe 1 roomyReading, .thread 1 (.call true), .thread 1 (.call true), .tryLock 2, .kill 1,
      .tryLock 2, .probe 2 roomyReading, .thread 2 (.call true), .thread 2 (.call true)]

theorem one_admitted_killed :
    ∃ s, Transition.exec Gate.step Gate.init killedBehindGate = some s ∧ s.lock = some 2 ∧
      (∀ i j, s.Admitted i → s.Admitted j → i = j) ∧ Spaced s.history := by
  have hlock : (Transition.exec Gate.step Gate.init killedBehindGate).map (·.lock) = some (some 2) := by
    decide
  obtain ⟨s, hexec, hs⟩ := Option.map_eq_some_iff.mp hlock
  exact ⟨s, hexec, hs, Gate.one_admitted hexec⟩

end VmFleet
