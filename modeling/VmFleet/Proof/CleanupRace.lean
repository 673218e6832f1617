import VmFleet.Source.WorkerThreads
import VmFleet.Library.Transition
import Mathlib.Data.List.Infix

/-!
# The two threads and the cleanup

`cleanup` returns at once when the other thread has begun it, and a thread that comes back from
`cleanup` ends the process. So the second call must not come while the first is at work:
`exit_after_cleanup` says that this is enough, `exit_cuts_cleanup` that it is needed.
-/

namespace VmFleet

def ThreadPc.begun : ThreadPc → Bool
  | .away | .swap => false
  | _ => true

/-- The steps of a cleanup that come before a point in it. -/
def stepsBefore : ThreadPc → List CleanupStep
  | .deregister => [.killChild]
  | .purge => [.killChild, .deregister]
  | .removeState => [.killChild, .deregister, .purge]
  | .finished => [.killChild, .deregister, .purge, .removeState]
  | _ => []

theorem head?_after_spawn {useJit swap : Bool} {rest : List Call}
    (h : Call.spawnRunSh :: rest <:+ lifecycle useJit swap) : rest.head? = some .storeChild := by
  have hall : ∀ useJit swap, ∀ todo ∈ (lifecycle useJit swap).tails,
      todo.head? = some .spawnRunSh → todo.tail.head? = some .storeChild := by decide
  exact hall useJit swap _ ((List.mem_tails _ _).mpr h) rfl

theorem head?_after_clone {useJit swap : Bool} {rest : List Call}
    (h : Call.cloneFrom :: rest <:+ lifecycle useJit swap) : rest.head? = some .storeCreated := by
  have hall : ∀ useJit swap, ∀ todo ∈ (lifecycle useJit swap).tails,
      todo.head? = some .cloneFrom → todo.tail.head? = some .storeCreated := by decide
  exact hall useJit swap _ ((List.mem_tails _ _).mpr h) rfl

namespace WorkerThreads

variable {s s' : WorkerThreads} {t u : ThreadId}

@[simp] theorem pc_setPc (s : WorkerThreads) (t u : ThreadId) (p : ThreadPc) :
    (s.setPc t p).pc u = if u = t then p else s.pc u := by
  cases t <;> cases u <;> rfl

@[simp] theorem setPc_cleaned (s : WorkerThreads) (t : ThreadId) (p : ThreadPc) :
    (s.setPc t p).cleaned = s.cleaned := by cases t <;> rfl

@[simp] theorem setPc_attempted (s : WorkerThreads) (t : ThreadId) (p : ThreadPc) :
    (s.setPc t p).attempted = s.attempted := by cases t <;> rfl

@[simp] theorem pc_record (s : WorkerThreads) (t u : ThreadId) (step : CleanupStep) (next : ThreadPc) :
    (s.record t step next).pc u = if u = t then next else s.pc u := by
  cases t <;> cases u <;> rfl

@[simp] theorem other_ne (t : ThreadId) : t.other ≠ t := by cases t <;> decide

theorem eq_or_eq_other (t u : ThreadId) : u = t ∨ u = t.other := by
  cases t <;> cases u <;> decide

/-! ### How far the cleanup is -/

/-- One thread is in the cleanup with the steps behind it done. The other has not come to it, or came
back from it at once. -/
def Underway (s : WorkerThreads) : Prop :=
  (s.cleaned = false ∧ s.attempted = [] ∧ ∀ t, (s.pc t).begun = false) ∨
    ∃ t, s.cleaned = true ∧ (s.pc t).begun = true ∧ s.attempted = stepsBefore (s.pc t) ∧
      ((s.pc t.other).begun = false ∨ s.pc t.other = .finished)

theorem Underway.of_same (h : s.Underway) (hcleaned : s'.cleaned = s.cleaned)
    (hattempted : s'.attempted = s.attempted)
    (hpc : ∀ t, s'.pc t = s.pc t ∨ (s.pc t).begun = false ∧ (s'.pc t).begun = false) : s'.Underway := by
  rcases h with ⟨hc, ha, hout⟩ | ⟨t, hc, hbegun, ha, hother⟩
  · refine Or.inl ⟨hcleaned.trans hc, hattempted.trans ha, fun t => ?_⟩
    cases hpc t with
    | inl heq => rw [heq, hout t]
    | inr hnot => exact hnot.2
  · have hself : s'.pc t = s.pc t := by
      cases hpc t with
      | inl heq => exact heq
      | inr hnot =>
          rw [hnot.1] at hbegun
          cases hbegun
    refine Or.inr ⟨t, hcleaned.trans hc, by rw [hself, hbegun], by rw [hattempted, ha, hself], ?_⟩
    cases hpc t.other with
    | inl heq => rwa [heq]
    | inr hnot => exact Or.inl hnot.2

theorem Underway.performs (h : s.Underway) (hbegun : (s.pc t).begun = true)
    (hunfinished : s.pc t ≠ .finished) :
    s.cleaned = true ∧ s.attempted = stepsBefore (s.pc t) ∧
      ((s.pc t.other).begun = false ∨ s.pc t.other = .finished) := by
  rcases h with ⟨_, _, hout⟩ | ⟨u, hc, _, ha, hother⟩
  · rw [hout t] at hbegun
    cases hbegun
  · rcases eq_or_eq_other u t with rfl | rfl
    · exact ⟨hc, ha, hother⟩
    · cases hother with
      | inl hother =>
          rw [hother] at hbegun
          cases hbegun
      | inr hfinished => exact absurd hfinished hunfinished

theorem Underway.advance (h : s.Underway) {p : ThreadPc} (hbegun : (s.pc t).begun = true)
    (hunfinished : s.pc t ≠ .finished) (hnext : p.begun = true) {m : WorkerThreads}
    (hcleaned : m.cleaned = s.cleaned) (hpc : ∀ u, m.pc u = s.pc u)
    (hattempted : m.attempted = stepsBefore p) : (m.setPc t p).Underway := by
  obtain ⟨hc, _, hother⟩ := h.performs hbegun hunfinished
  refine Or.inr ⟨t, ?_, ?_, ?_, ?_⟩
  · rw [setPc_cleaned, hcleaned, hc]
  · rw [pc_setPc, if_pos rfl, hnext]
  · rw [setPc_attempted, pc_setPc, if_pos rfl, hattempted]
  · rw [pc_setPc, if_neg (other_ne t), hpc]
    exact hother

theorem Underway.record (h : s.Underway) {step : CleanupStep} {next : ThreadPc}
    (hbegun : (s.pc t).begun = true) (hunfinished : s.pc t ≠ .finished) (hnext : next.begun = true)
    (hsteps : stepsBefore (s.pc t) ++ [step] = stepsBefore next) {m : WorkerThreads}
    (hcleaned : m.cleaned = s.cleaned) (hpc : ∀ u, m.pc u = s.pc u)
    (hattempted : m.attempted = s.attempted) : (m.record t step next).Underway := by
  refine h.advance hbegun hunfinished hnext hcleaned (fun u => ?_) ?_
  · rw [← hpc u]
    cases u <;> rfl
  · rw [← hsteps, ← (h.performs hbegun hunfinished).2.1, ← hattempted]

/-- One thread is in the cleanup, and the steps it has behind it are done. The other has not come to it,
or found it finished. -/
def Performs (s : WorkerThreads) (t : ThreadId) : Prop :=
  s.cleaned = true ∧ (s.pc t).begun = true ∧ s.attempted = stepsBefore (s.pc t) ∧
    ((s.pc t.other).begun = false ∨ s.pc t.other = .finished ∧ s.pc t = .finished)

def Progress (s : WorkerThreads) : Prop :=
  (s.cleaned = false ∧ s.attempted = [] ∧ ∀ t, (s.pc t).begun = false) ∨ ∃ t, s.Performs t

theorem Progress.underway (h : s.Progress) : s.Underway :=
  h.imp_right fun ⟨t, hc, hbegun, ha, hother⟩ => ⟨t, hc, hbegun, ha, hother.imp_right And.left⟩

/-- A thread that has come back from the cleanup leaves it complete. -/
theorem Progress.attempted_of_finished (h : s.Progress) (hfinished : s.pc t = .finished) :
    s.attempted = stepsBefore .finished := by
  rcases h with ⟨_, _, hout⟩ | ⟨u, _, _, ha, hother⟩
  · have hnot := hout t
    rw [hfinished] at hnot
    cases hnot
  · rcases eq_or_eq_other u t with rfl | rfl
    · rw [ha, hfinished]
    · rcases hother with hnot | ⟨_, hfinished'⟩
      · rw [hfinished] at hnot
        cases hnot
      · rw [ha, hfinished']

theorem eq_finished_of_stepsBefore {p : ThreadPc} (h : stepsBefore p = stepsBefore .finished) :
    p = .finished := by
  cases p <;> first | rfl | cases h

theorem Underway.progress (h : s.Underway)
    (hfinished : ∀ t, s.pc t = .finished → s.attempted = stepsBefore .finished) : s.Progress := by
  refine h.imp_right fun hperforms => ?_
  obtain ⟨t, hc, hbegun, ha, hother⟩ := hperforms
  refine ⟨t, hc, hbegun, ha, hother.imp_right fun hback => ⟨hback, ?_⟩⟩
  exact eq_finished_of_stepsBefore (ha.symm.trans (hfinished _ hback))

theorem Progress.of_same (h : s.Progress) (hcleaned : s'.cleaned = s.cleaned)
    (hattempted : s'.attempted = s.attempted)
    (hpc : ∀ t, s'.pc t = s.pc t ∨ (s.pc t).begun = false ∧ (s'.pc t).begun = false) : s'.Progress := by
  refine (h.underway.of_same hcleaned hattempted hpc).progress fun t hfinished => ?_
  rw [hattempted]
  cases hpc t with
  | inl heq => exact h.attempted_of_finished (heq.symm.trans hfinished)
  | inr hnot =>
      rw [hfinished] at hnot
      cases hnot.2

/-- A thread in the middle of the cleanup is the one that performs it. -/
theorem Progress.performs (h : s.Progress) (hbegun : (s.pc t).begun = true)
    (hunfinished : s.pc t ≠ .finished) :
    s.cleaned = true ∧ s.attempted = stepsBefore (s.pc t) ∧ (s.pc t.other).begun = false := by
  obtain ⟨hc, ha, hother⟩ := h.underway.performs hbegun hunfinished
  refine ⟨hc, ha, hother.resolve_right fun hback => hunfinished ?_⟩
  exact eq_finished_of_stepsBefore (ha.symm.trans (h.attempted_of_finished hback))

inductive Move (s : WorkerThreads) (t : ThreadId) : WorkerThreads → Prop
  | comeBack (hpc : s.pc t = .swap) (hcleaned : s.cleaned = true) : Move s t (s.setPc t .finished)
  | enter (hpc : s.pc t = .swap) (hcleaned : s.cleaned = false) :
      Move s t ({ s with cleaned := true }.setPc t .takeChild)
  | take (hpc : s.pc t = .takeChild) (hlock : s.lock.isSome = false) (hchild : s.runChild = true) :
      Move s t ({ s with runChild := false, lock := some t }.setPc t .killChild)
  | skip (hpc : s.pc t = .takeChild) (hlock : s.lock.isSome = false) (hchild : s.runChild = false) :
      Move s t ({ s with childMissed := s.childMissed || s.running }.record t .killChild .deregister)
  | kill (hpc : s.pc t = .killChild) :
      Move s t ({ s with running := false, lock := none }.record t .killChild .deregister)
  | deregister (hpc : s.pc t = .deregister) : Move s t (s.record t .deregister .purge)
  | purge (hpc : s.pc t = .purge) :
      Move s t ({ s with vmMissed := s.vmMissed || (s.cloned && !s.created) }.record t .purge .removeState)
  | removeState (hpc : s.pc t = .removeState) : Move s t (s.record t .removeState .finished)

theorem move_of_cleanupStep (h : s.cleanupStep t = some s') : s.Move t s' := by
  rw [cleanupStep] at h
  cases hpc : s.pc t with
  | away =>
      rw [hpc] at h
      cases h
  | finished =>
      rw [hpc] at h
      cases h
  | swap =>
      simp only [hpc] at h
      split at h
      · next hcleaned =>
          cases h
          exact .comeBack hpc hcleaned
      · next hcleaned =>
          cases h
          exact .enter hpc (Bool.eq_false_iff.mpr hcleaned)
  | takeChild =>
      simp only [hpc] at h
      split at h
      · cases h
      · next hlock =>
          split at h
          · next hchild =>
              cases h
              exact .take hpc (Bool.eq_false_iff.mpr hlock) hchild
          · next hchild =>
              cases h
              exact .skip hpc (Bool.eq_false_iff.mpr hlock) (Bool.eq_false_iff.mpr hchild)
  | killChild =>
      simp only [hpc] at h
      cases h
      exact .kill hpc
  | deregister =>
      simp only [hpc] at h
      cases h
      exact .deregister hpc
  | purge =>
      simp only [hpc] at h
      cases h
      exact .purge hpc
  | removeState =>
      simp only [hpc] at h
      cases h
      exact .removeState hpc

theorem Underway.move (h : s.Underway) (hmove : s.Move t s') : s'.Underway := by
  cases hmove with
  | comeBack hpc hcleaned =>
      rcases h with ⟨hc, _⟩ | ⟨u, hc, hbegun, ha, _⟩
      · rw [hc] at hcleaned
        cases hcleaned
      · -- the other thread performs the cleanup
        have hne : u ≠ t := by
          rintro rfl
          rw [hpc] at hbegun
          cases hbegun
        have hother : t = u.other := (eq_or_eq_other u t).resolve_left fun heq => hne heq.symm
        refine Or.inr ⟨u, ?_, ?_, ?_, Or.inr ?_⟩
        · rw [setPc_cleaned, hc]
        · rw [pc_setPc, if_neg hne, hbegun]
        · rw [setPc_attempted, pc_setPc, if_neg hne, ha]
        · rw [pc_setPc, if_pos hother.symm]
  | enter hpc hcleaned =>
      rcases h with ⟨_, hattempted, hout⟩ | ⟨u, hc, _⟩
      · refine Or.inr ⟨t, ?_, ?_, ?_, Or.inl ?_⟩
        · rw [setPc_cleaned]
        · rw [pc_setPc, if_pos rfl]
          rfl
        · rw [setPc_attempted, pc_setPc, if_pos rfl]
          exact hattempted
        · rw [pc_setPc, if_neg (other_ne t)]
          exact hout t.other
      · rw [hc] at hcleaned
        cases hcleaned
  | take hpc =>
      have hattempted := (h.performs (by rw [hpc]; rfl) (by rw [hpc]; nofun)).2.1
      exact h.advance (by rw [hpc]; rfl) (by rw [hpc]; nofun) rfl rfl (fun u => by cases u <;> rfl)
        (by rw [hattempted, hpc]; rfl)
  | skip hpc | kill hpc | deregister hpc | purge hpc | removeState hpc =>
      exact h.record (by rw [hpc]; rfl) (by rw [hpc]; nofun) rfl (by rw [hpc]; rfl) rfl
        (fun u => by cases u <;> rfl) rfl

/-! ### The condition -/

/-- A thread that calls `cleanup` when it has begun finds the other back from it. -/
def Alone (s : WorkerThreads) : ThreadEvent → Prop
  | .cleanup t => s.pc t = .swap → s.cleaned = true → s.pc t.other = .finished
  | _ => True

instance (s : WorkerThreads) : ∀ e, Decidable (s.Alone e)
  | .cleanup t => inferInstanceAs (Decidable (s.pc t = .swap → s.cleaned = true → _))
  | .call _ | .childAlive | .pollAgain | .childExits | .deliver _ | .exit _ => isTrue trivial

theorem Progress.move (h : s.Progress) (halone : s.Alone (.cleanup t)) (hmove : s.Move t s') :
    s'.Progress := by
  refine (h.underway.move hmove).progress fun u hfinished => ?_
  have hnone : (s.pc t).begun = true → s.pc t ≠ .finished → s.pc u ≠ .finished := by
    intro hbegun hunfinished
    rcases eq_or_eq_other t u with rfl | rfl
    · exact hunfinished
    · intro hback
      have hnot := (h.performs hbegun hunfinished).2.2
      rw [hback] at hnot
      cases hnot
  cases hmove with
  | comeBack hpc hcleaned =>
      -- the second call: the first has finished
      rw [setPc_attempted]
      exact h.attempted_of_finished (halone hpc hcleaned)
  | enter hpc hcleaned =>
      rw [pc_setPc] at hfinished
      rw [setPc_attempted]
      split at hfinished
      · cases hfinished
      · have hback : s.pc u = .finished := by cases u <;> exact hfinished
        exact h.attempted_of_finished hback
  | take hpc =>
      rw [pc_setPc] at hfinished
      split at hfinished
      · cases hfinished
      · exact absurd (by cases u <;> exact hfinished) (hnone (by rw [hpc]; rfl) (by rw [hpc]; nofun))
  | skip hpc | kill hpc | deregister hpc | purge hpc =>
      rw [pc_record] at hfinished
      split at hfinished
      · cases hfinished
      · exact absurd (by cases u <;> exact hfinished) (hnone (by rw [hpc]; rfl) (by rw [hpc]; nofun))
  | removeState hpc =>
      have hattempted := (h.performs (by rw [hpc]; rfl) (by rw [hpc]; nofun)).2.1
      rw [WorkerThreads.record, setPc_attempted]
      show s.attempted ++ [.removeState] = _
      rw [hattempted, hpc]
      rfl

/-! ### What a cleanup finds -/

/-- Neither does the first step of a cleanup come between the spawn of `run.sh` and the store of its
child, nor the purge between the clone and the store of the flag. -/
def HandedOver (s : WorkerThreads) : ThreadEvent → Prop
  | .cleanup t =>
    (s.pc t = .takeChild → s.todo.head? ≠ some .storeChild) ∧
      (s.pc t = .purge → s.todo.head? ≠ some .storeCreated)
  | _ => True

instance (s : WorkerThreads) : ∀ e, Decidable (s.HandedOver e)
  | .cleanup t => inferInstanceAs (Decidable ((s.pc t = .takeChild → _) ∧ (s.pc t = .purge → _)))
  | .call _ | .childAlive | .pollAgain | .childExits | .deliver _ | .exit _ => isTrue trivial

structure Inv (useJit swap : Bool) (s : WorkerThreads) : Prop where
  exit : s.exitCode.isSome = true → s.attempted = stepsBefore .finished
  progress : s.Progress
  away : s.todo ≠ [] → s.main = .away
  todo : s.todo <:+ lifecycle useJit swap
  child : s.running = true →
    s.runChild = true ∨ s.lock.isSome = true ∨ s.todo.head? = some .storeChild
  vm : s.cloned = true → s.created = true ∨ s.todo.head? = some .storeCreated

variable {useJit swap : Bool}

theorem inv_init : Inv useJit swap (init useJit swap) where
  exit := nofun
  progress := Or.inl ⟨rfl, rfl, fun t => by cases t <;> rfl⟩
  away := fun _ => rfl
  todo := List.suffix_refl _
  child := nofun
  vm := nofun

theorem step_eq_some_iff {e : ThreadEvent} :
    s.step e = some s' ↔ s.exitCode = none ∧ s.liveStep e = some s' := by
  rw [step]
  split
  · next hnone => exact ⟨fun h => ⟨hnone, h⟩, And.right⟩
  · next hsome => exact ⟨nofun, fun h => absurd h.1 hsome⟩

theorem call_cases {ok : Bool} (h : s.liveStep (.call ok) = some s') :
    ∃ c rest, s.todo = c :: rest ∧ s.returns c ok = true ∧
      (ok = true ∧ s' = (s.afterCall c).proceed rest ∨
        ok = false ∧ s' = { s with failed := true }.proceed []) := by
  rw [liveStep] at h
  split at h
  · cases h
  · next c rest htodo =>
      split at h
      · next hreturns =>
          refine ⟨c, rest, htodo, hreturns, ?_⟩
          split at h
          · next hok =>
              cases h
              exact Or.inl ⟨hok, rfl⟩
          · next hok =>
              cases h
              exact Or.inr ⟨Bool.eq_false_iff.mpr hok, rfl⟩
      · cases h

/-! ### The calls of `lifecycle` -/

theorem afterCall_running (c : Call) :
    (s.afterCall c).running = (s.running || decide (c = .spawnRunSh)) := by
  cases c <;> simp [afterCall]

theorem afterCall_runChild (c : Call) :
    (s.afterCall c).runChild = (s.runChild || decide (c = .storeChild)) := by
  cases c <;> simp [afterCall]

theorem afterCall_cloned (c : Call) :
    (s.afterCall c).cloned = (s.cloned || decide (c = .cloneFrom)) := by
  cases c <;> simp [afterCall]

theorem afterCall_created (c : Call) :
    (s.afterCall c).created = (s.created || decide (c = .storeCreated)) := by
  cases c <;> simp [afterCall]

theorem afterCall_frame (c : Call) :
    (s.afterCall c).main = s.main ∧ (s.afterCall c).signal = s.signal ∧
      (s.afterCall c).cleaned = s.cleaned ∧ (s.afterCall c).attempted = s.attempted ∧
      (s.afterCall c).lock = s.lock ∧ (s.afterCall c).exitCode = s.exitCode ∧
      (s.afterCall c).childMissed = s.childMissed ∧ (s.afterCall c).vmMissed = s.vmMissed := by
  cases c <;> exact ⟨rfl, rfl, rfl, rfl, rfl, rfl, rfl, rfl⟩

theorem pc_proceed {m : WorkerThreads} {todo : List Call} (haway : s.main = .away) (hmain : m.main = s.main)
    (hsignal : m.signal = s.signal) (t : ThreadId) :
    (m.proceed todo).pc t = s.pc t ∨ (s.pc t).begun = false ∧ ((m.proceed todo).pc t).begun = false := by
  cases t with
  | main =>
      refine Or.inr ⟨by rw [pc, haway]; rfl, ?_⟩
      show (if todo = [] then ThreadPc.swap else m.main).begun = false
      split
      · rfl
      · rw [hmain, haway]
        rfl
  | signal => exact Or.inl hsignal

/-- A signal is delivered: its thread comes to the cleanup. -/
theorem pc_deliver (haway : s.signal = .away) (hmain : s'.main = s.main) (hsignal : s'.signal = .swap)
    (t : ThreadId) : s'.pc t = s.pc t ∨ (s.pc t).begun = false ∧ (s'.pc t).begun = false := by
  cases t with
  | main => exact Or.inl hmain
  | signal =>
      refine Or.inr ⟨?_, ?_⟩
      · rw [pc, haway]
        rfl
      · rw [pc, hsignal]
        rfl

theorem Inv.call (h : Inv useJit swap s) {ok : Bool} (hnone : s.exitCode = none)
    (hstep : s.liveStep (.call ok) = some s') : Inv useJit swap s' := by
  obtain ⟨c, rest, htodo, hreturns, ⟨_, rfl⟩ | ⟨rfl, rfl⟩⟩ := call_cases hstep
  · obtain ⟨hmain, hsignal, hcleaned, hattempted, hlock, hexit, _⟩ := afterCall_frame (s := s) c
    have haway := h.away (by rw [htodo]; exact List.cons_ne_nil _ _)
    have hsuffix : c :: rest <:+ lifecycle useJit swap := htodo ▸ h.todo
    refine ⟨fun hexited => ?_, h.progress.of_same hcleaned hattempted (pc_proceed haway hmain hsignal),
      fun hrest => ?_, (List.suffix_cons c rest).trans hsuffix, fun hrunning => ?_, fun hcloned => ?_⟩
    · rw [WorkerThreads.proceed, hexit, hnone] at hexited
      cases hexited
    · show (if rest = [] then ThreadPc.swap else (s.afterCall c).main) = _
      exact (if_neg hrest).trans (hmain.trans haway)
    · show (s.afterCall c).runChild = true ∨ (s.afterCall c).lock.isSome = true ∨ rest.head? = _
      rw [WorkerThreads.proceed, afterCall_running, Bool.or_eq_true, decide_eq_true_eq] at hrunning
      rw [afterCall_runChild, Bool.or_eq_true, decide_eq_true_eq, hlock]
      rcases hrunning with hrunning | rfl
      · rcases h.child hrunning with hchild | hlocked | hhead
        · exact Or.inl (Or.inl hchild)
        · exact Or.inr (Or.inl hlocked)
        · rw [htodo] at hhead
          exact Or.inl (Or.inr (Option.some.inj hhead))
      · exact Or.inr (Or.inr (head?_after_spawn hsuffix))
    · show (s.afterCall c).created = true ∨ rest.head? = _
      rw [WorkerThreads.proceed, afterCall_cloned, Bool.or_eq_true, decide_eq_true_eq] at hcloned
      rw [afterCall_created, Bool.or_eq_true, decide_eq_true_eq]
      rcases hcloned with hcloned | rfl
      · cases h.vm hcloned with
        | inl hcreated => exact Or.inl (Or.inl hcreated)
        | inr hhead =>
            rw [htodo] at hhead
            exact Or.inl (Or.inr (Option.some.inj hhead))
      · exact Or.inr (head?_after_clone hsuffix)
  · have haway := h.away (by rw [htodo]; exact List.cons_ne_nil _ _)
    refine ⟨h.exit, h.progress.of_same rfl rfl (pc_proceed haway rfl rfl), fun hrest => absurd rfl hrest,
      List.nil_suffix, fun hrunning => ?_, fun hcloned => ?_⟩
    · rcases h.child hrunning with hchild | hlocked | hhead
      · exact Or.inl hchild
      · exact Or.inr (Or.inl hlocked)
      · -- the store of the child cannot fail
        rw [htodo] at hhead
        cases Option.some.inj hhead
        cases hreturns
    · cases h.vm hcloned with
      | inl hcreated => exact Or.inl hcreated
      | inr hhead =>
          rw [htodo] at hhead
          cases Option.some.inj hhead
          cases hreturns

/-! ### The other steps -/

theorem Move.frame (h : s.Move t s') :
    s'.todo = s.todo ∧ s'.exitCode = s.exitCode ∧ s'.cloned = s.cloned ∧ s'.created = s.created ∧
      s'.pc t.other = s.pc t.other := by
  cases h <;> cases t <;> exact ⟨rfl, rfl, rfl, rfl, rfl⟩

theorem Move.pc_ne_away (h : s.Move t s') : s.pc t ≠ .away := by
  cases h with
  | comeBack hpc | enter hpc | take hpc | skip hpc | kill hpc | deregister hpc | purge hpc
  | removeState hpc =>
      rw [hpc]
      nofun

theorem Inv.move (h : Inv useJit swap s) (hnone : s.exitCode = none) (halone : s.Alone (.cleanup t))
    (hmove : s.Move t s') : Inv useJit swap s' := by
  obtain ⟨htodo, hexit, hcloned, hcreated, hother⟩ := hmove.frame
  refine ⟨fun hexited => ?_, h.progress.move halone hmove, fun hne => ?_, htodo ▸ h.todo, ?_, ?_⟩
  · rw [hexit, hnone] at hexited
    cases hexited
  · have haway := h.away (htodo ▸ hne)
    cases t with
    | main => exact absurd haway hmove.pc_ne_away
    | signal => exact hother.trans haway
  · rw [htodo]
    cases hmove with
    | take => exact fun _ => Or.inr (Or.inl (by cases t <;> rfl))
    | kill =>
        intro hrunning
        cases t <;> cases hrunning
    | comeBack | enter | skip | deregister | purge | removeState =>
        cases t <;> exact h.child
  · rw [htodo, hcloned, hcreated]
    exact h.vm

theorem Inv.deliver (h : Inv useJit swap s) {sig : Signal}
    (hstep : s.liveStep (.deliver sig) = some s') : Inv useJit swap s' := by
  rw [liveStep] at hstep
  split at hstep
  · next haway =>
      cases hstep
      exact { h with progress := h.progress.of_same rfl rfl (pc_deliver haway rfl rfl) }
  · cases hstep

theorem poll_cases {e : ThreadEvent} (he : e = .childAlive ∨ e = .pollAgain ∨ e = .childExits)
    (hstep : s.liveStep e = some s') :
    ∃ polled running, s' = { s with polled := polled, running := running } ∧
      (running = true → s.running = true) := by
  rcases he with rfl | rfl | rfl
  · rw [liveStep] at hstep
    split at hstep
    · cases hstep
    · split at hstep
      · cases hstep
        exact ⟨_, _, rfl, id⟩
      · cases hstep
  · rw [liveStep] at hstep
    split at hstep
    · cases hstep
      exact ⟨_, _, rfl, id⟩
    · cases hstep
  · rw [liveStep] at hstep
    split at hstep
    · cases hstep
      exact ⟨_, _, rfl, nofun⟩
    · cases hstep

theorem exit_cases (hstep : s.liveStep (.exit t) = some s') :
    s.pc t = .finished ∧ s' = { s with exitCode := some (s.exitWith t) } := by
  rw [liveStep] at hstep
  split at hstep
  · next hfinished =>
      cases hstep
      exact ⟨hfinished, rfl⟩
  · cases hstep

theorem Inv.step {e : ThreadEvent} (h : Inv useJit swap s) (halone : s.Alone e)
    (hstep : s.step e = some s') : Inv useJit swap s' := by
  obtain ⟨hnone, hstep⟩ := step_eq_some_iff.mp hstep
  have hpoll : e = .childAlive ∨ e = .pollAgain ∨ e = .childExits → Inv useJit swap s' := by
    intro he
    obtain ⟨polled, running, rfl, hrunning⟩ := poll_cases he hstep
    exact ⟨h.exit, h.progress, h.away, h.todo, fun hr => h.child (hrunning hr), h.vm⟩
  cases e with
  | call ok => exact h.call hnone hstep
  | deliver sig => exact h.deliver hstep
  | childAlive => exact hpoll (Or.inl rfl)
  | pollAgain => exact hpoll (Or.inr (Or.inl rfl))
  | childExits => exact hpoll (Or.inr (Or.inr rfl))
  | cleanup t => exact h.move hnone halone (move_of_cleanupStep hstep)
  | exit t =>
      obtain ⟨hfinished, rfl⟩ := exit_cases hstep
      exact ⟨fun _ => h.progress.attempted_of_finished hfinished, h.progress, h.away, h.todo,
        h.child, h.vm⟩

def Thorough (s : WorkerThreads) : Prop := s.childMissed = false ∧ s.vmMissed = false

/-- Unless the child is about to be stored, a cleanup that finds none finds `run.sh` not running. -/
theorem Inv.stopped (h : Inv useJit swap s) (hlock : s.lock.isSome = false) (hchild : s.runChild = false)
    (hhead : s.todo.head? ≠ some .storeChild) : s.running = false := by
  refine Bool.eq_false_iff.mpr fun hrunning => ?_
  rcases h.child hrunning with hstored | hlocked | hstore
  · rw [hchild] at hstored
    cases hstored
  · rw [hlock] at hlocked
    cases hlocked
  · exact hhead hstore

/-- Unless the flag is about to be set, it is set when the clone has succeeded. -/
theorem Inv.flagged (h : Inv useJit swap s) (hhead : s.todo.head? ≠ some .storeCreated) :
    (s.cloned && !s.created) = false := by
  cases hcloned : s.cloned with
  | false => rfl
  | true =>
      cases h.vm hcloned with
      | inl hcreated =>
          rw [hcreated]
          rfl
      | inr hstore => exact absurd hstore hhead

theorem Thorough.step {e : ThreadEvent} (h : s.Thorough) (hinv : Inv useJit swap s)
    (hhanded : s.HandedOver e) (hstep : s.step e = some s') : s'.Thorough := by
  obtain ⟨_, hstep⟩ := step_eq_some_iff.mp hstep
  have hpoll : e = .childAlive ∨ e = .pollAgain ∨ e = .childExits → s'.Thorough := by
    intro he
    obtain ⟨polled, running, rfl, _⟩ := poll_cases he hstep
    exact h
  cases e with
  | call ok =>
      obtain ⟨c, rest, _, _, ⟨_, rfl⟩ | ⟨_, rfl⟩⟩ := call_cases hstep
      · obtain ⟨_, _, _, _, _, _, hchild, hvm⟩ := afterCall_frame (s := s) c
        exact ⟨hchild.trans h.1, hvm.trans h.2⟩
      · exact h
  | deliver sig =>
      rw [liveStep] at hstep
      split at hstep
      · cases hstep
        exact h
      · cases hstep
  | childAlive => exact hpoll (Or.inl rfl)
  | pollAgain => exact hpoll (Or.inr (Or.inl rfl))
  | childExits => exact hpoll (Or.inr (Or.inr rfl))
  | cleanup t =>
      cases move_of_cleanupStep hstep with
      | skip hpc hlock hchild =>
          have hstopped := hinv.stopped hlock hchild (hhanded.1 hpc)
          refine ⟨?_, ?_⟩
          · cases t <;> exact congrArg₂ or h.1 hstopped
          · cases t <;> exact h.2
      | purge hpc =>
          have hflagged := hinv.flagged (hhanded.2 hpc)
          refine ⟨?_, ?_⟩
          · cases t <;> exact h.1
          · cases t <;> exact congrArg₂ or h.2 hflagged
      | comeBack | enter | take | kill | deregister | removeState => cases t <;> exact h
  | exit t =>
      obtain ⟨_, rfl⟩ := exit_cases hstep
      exact h

/-- **When the second call of `cleanup` never comes before the first has finished, the process ends with
all steps of the cleanup attempted.** If besides no step comes within a hand-over, they have missed
neither a running child nor a cloned VM. -/
theorem exit_after_cleanup {events : List ThreadEvent}
    (hmeets : Transition.Meets WorkerThreads.step Alone (init useJit swap) events)
    (hexec : Transition.exec WorkerThreads.step (init useJit swap) events = some s)
    (hexit : s.exitCode.isSome = true) :
    s.attempted = [.killChild, .deregister, .purge, .removeState] ∧
      (Transition.Meets WorkerThreads.step HandedOver (init useJit swap) events →
        s.childMissed = false ∧ s.vmMissed = false) := by
  have hinv : Inv useJit swap s := Transition.exec_invariant
    (fun _ _ _ hinv halone hstep => hinv.step halone hstep) inv_init hmeets hexec
  refine ⟨hinv.exit hexit, fun hhanded => ?_⟩
  have hboth : Inv useJit swap s ∧ s.Thorough := Transition.exec_invariant
    (fun _ _ _ (hboth : Inv useJit swap _ ∧ Thorough _) hok hstep =>
      ⟨hboth.1.step hok.1 hstep, hboth.2.step hboth.1 hok.2 hstep⟩)
    ⟨inv_init, rfl, rfl⟩ (hmeets.and hhanded) hexec
  exact hboth.2

/-- The condition cannot be left out: a thread that calls `cleanup` while the other is at work on it can
end the process right away. -/
theorem exit_cuts_cleanup (h : Inv useJit swap s) (hnone : s.exitCode = none)
    (hbegun : (s.pc t).begun = true) (hunfinished : s.pc t ≠ .finished)
    (hcall : s.pc t.other = .swap) :
    ∃ s', Transition.exec WorkerThreads.step s [.cleanup t.other, .exit t.other] = some s' ∧
      s'.exitCode.isSome = true ∧ s'.attempted = stepsBefore (s.pc t) ∧
      .removeState ∉ s'.attempted := by
  obtain ⟨hcleaned, hattempted, _⟩ := h.progress.performs hbegun hunfinished
  have hback : s.step (.cleanup t.other) = some (s.setPc t.other .finished) := by
    refine step_eq_some_iff.mpr ⟨hnone, ?_⟩
    simp only [liveStep, cleanupStep, hcall, hcleaned, if_true]
  have hexit : (s.setPc t.other .finished).step (.exit t.other) =
      some { s.setPc t.other .finished with
        exitCode := some ((s.setPc t.other .finished).exitWith t.other) } := by
    refine step_eq_some_iff.mpr ⟨?_, ?_⟩
    · cases t <;> exact hnone
    · simp only [liveStep, pc_setPc, if_true]
  have hend : (s.setPc t.other .finished).attempted = stepsBefore (s.pc t) := by
    rw [setPc_attempted, hattempted]
  refine ⟨_, Transition.exec_cons_eq_some_iff.mpr ⟨_, hback,
    Transition.exec_cons_eq_some_iff.mpr ⟨_, hexit, rfl⟩⟩, rfl, hend, ?_⟩
  show .removeState ∉ (s.setPc t.other .finished).attempted
  rw [hend]
  cases hpc : s.pc t with
  | finished => exact absurd hpc hunfinished
  | away | swap | takeChild | killChild | deregister | purge | removeState => decide

end WorkerThreads

/-- The main thread comes to its health monitor, and SIGTERM arrives. -/
def termWhileHealthy : List ThreadEvent :=
  List.replicate 16 (.call true) ++ [.childAlive, .call true, .deliver .term]

/-- The signal thread goes through the whole cleanup before the main thread sees that `run.sh` is gone. -/
def termFirst : List ThreadEvent :=
  termWhileHealthy ++ List.replicate 6 (.cleanup .signal) ++
    [.childAlive, .call true, .cleanup .main, .exit .main]

theorem exit_after_cleanup_termFirst :
    ∃ s, Transition.exec WorkerThreads.step (WorkerThreads.init true false) termFirst = some s ∧
      s.exitCode = some 0 ∧ s.attempted = [.killChild, .deregister, .purge, .removeState] ∧
      s.childMissed = false ∧ s.vmMissed = false := by
  obtain ⟨s, hexec, hcode⟩ : ∃ s, Transition.exec WorkerThreads.step (WorkerThreads.init true false)
      termFirst = some s ∧ s.exitCode = some 0 := ⟨_, rfl, rfl⟩
  have hspec := WorkerThreads.exit_after_cleanup (by decide) hexec (by rw [hcode]; rfl)
  exact ⟨s, hexec, hcode, hspec.1, hspec.2 (by decide)⟩

/-- When the signal thread has killed `run.sh`, the main thread finds it gone and returns, and the process
ends with the VM neither deregistered nor purged. When SIGTERM arrives during the last cleanup of the main
thread, the signal thread ends the process in the middle of it. -/
theorem cleanup_cut_short :
    (∃ s, Transition.exec WorkerThreads.step (WorkerThreads.init true false)
        (termWhileHealthy ++ List.replicate 3 (.cleanup .signal) ++
          [.childAlive, .call true, .cleanup .main, .exit .main]) = some s ∧
      s.exitCode = some 0 ∧ s.created = true ∧ s.attempted = [.killChild]) ∧
    ∃ s, Transition.exec WorkerThreads.step (WorkerThreads.init true false)
        (List.replicate 16 (.call true) ++ [.childAlive, .call true, .childExits, .childAlive, .call true,
          .cleanup .main, .cleanup .main, .cleanup .main, .deliver .term, .cleanup .signal,
          .exit .signal]) = some s ∧
      s.exitCode = some 143 ∧ s.created = true ∧ .purge ∉ s.attempted := by
  refine ⟨⟨_, rfl, by decide, by decide, by decide⟩, ⟨_, rfl, by decide, by decide, by decide⟩⟩

end VmFleet
