import VmFleet.Source.HostedWorker
import VmFleet.Proof.CleanupRace

/-!
# What a cleanup on a signal leaves behind

`lifecycle` goes on while the signal thread cleans up. What it makes after the step that was to remove it
stays: a runner record registered after the runner list was read, a VM cloned after the purge was
skipped. A VM that multipass finishes after the clone was given up stays too, since `created` is never set.
`cleanup_leaves_nothing` shows that nothing else does.
-/

namespace VmFleet

namespace WorkerThreads

variable {s s' : WorkerThreads} {t : ThreadId} {useJit swap : Bool}

/-! ### A cleanup that may be cut short -/

structure Coherent (useJit swap : Bool) (s : WorkerThreads) : Prop where
  underway : s.Underway
  away : s.todo ≠ [] → s.main = .away
  todo : s.todo <:+ lifecycle useJit swap

theorem coherent_init : Coherent useJit swap (init useJit swap) where
  underway := Or.inl ⟨rfl, rfl, fun t => by cases t <;> rfl⟩
  away := fun _ => rfl
  todo := List.suffix_refl _

theorem Coherent.proceed (h : Coherent useJit swap s) {m : WorkerThreads} {c : Call} {rest todo : List Call}
    (htodo : s.todo = c :: rest) (hmain : m.main = s.main) (hsignal : m.signal = s.signal)
    (hcleaned : m.cleaned = s.cleaned) (hattempted : m.attempted = s.attempted) (hsuffix : todo <:+ rest) :
    Coherent useJit swap (m.proceed todo) := by
  have haway : s.main = .away := h.away (by rw [htodo]; exact List.cons_ne_nil _ _)
  refine ⟨h.underway.of_same hcleaned hattempted (pc_proceed haway hmain hsignal), fun hne => ?_, ?_⟩
  · show (if todo = [] then ThreadPc.swap else m.main) = _
    exact (if_neg (show ¬ todo = [] from hne)).trans (hmain.trans haway)
  · exact (hsuffix.trans (List.suffix_cons c rest)).trans (htodo ▸ h.todo)

theorem Coherent.step {e : ThreadEvent} (h : Coherent useJit swap s) (hstep : s.step e = some s') :
    Coherent useJit swap s' := by
  obtain ⟨_, hstep⟩ := step_eq_some_iff.mp hstep
  have hpoll : e = .childAlive ∨ e = .pollAgain ∨ e = .childExits → Coherent useJit swap s' := by
    intro he
    obtain ⟨polled, running, rfl, _⟩ := poll_cases he hstep
    exact ⟨h.underway, h.away, h.todo⟩
  cases e with
  | call ok =>
      obtain ⟨c, rest, htodo, _, ⟨_, rfl⟩ | ⟨_, rfl⟩⟩ := call_cases hstep
      · obtain ⟨hmain, hsignal, hcleaned, hattempted, _⟩ := afterCall_frame (s := s) c
        exact h.proceed htodo hmain hsignal hcleaned hattempted (List.suffix_refl _)
      · exact h.proceed htodo rfl rfl rfl rfl List.nil_suffix
  | deliver sig =>
      rw [liveStep] at hstep
      split at hstep
      · next haway =>
          cases hstep
          exact { h with underway := h.underway.of_same rfl rfl (pc_deliver haway rfl rfl) }
      · cases hstep
  | childAlive => exact hpoll (Or.inl rfl)
  | pollAgain => exact hpoll (Or.inr (Or.inl rfl))
  | childExits => exact hpoll (Or.inr (Or.inr rfl))
  | cleanup t =>
      have hmove := move_of_cleanupStep hstep
      obtain ⟨htodo, _, _, _, hother⟩ := hmove.frame
      refine ⟨h.underway.move hmove, fun hne => ?_, htodo ▸ h.todo⟩
      have haway := h.away (htodo ▸ hne)
      cases t with
      | main => exact absurd haway hmove.pc_ne_away
      | signal => exact hother.trans haway
  | exit t =>
      obtain ⟨_, rfl⟩ := exit_cases hstep
      exact ⟨h.underway, h.away, h.todo⟩

/-- The step a thread in the cleanup takes next, if it is one that is recorded. -/
def nextStep : ThreadPc → Option CleanupStep
  | .takeChild | .killChild => some .killChild
  | .deregister => some .deregister
  | .purge => some .purge
  | .removeState => some .removeState
  | _ => none

/-- Where a thread takes a step. -/
def place : CleanupStep → ThreadPc
  | .killChild => .killChild
  | .deregister => .deregister
  | .purge => .purge
  | .removeState => .removeState

theorem eq_place_of_nextStep {pc : ThreadPc} {step : CleanupStep} (hnext : nextStep pc = some step)
    (hstep : step ≠ .killChild) : pc = place step := by
  cases pc with
  | away | swap | finished => cases hnext
  | takeChild | killChild => exact absurd (Option.some.inj hnext).symm hstep
  | deregister | purge | removeState =>
      cases hnext
      rfl

theorem Move.mem_attempted (h : s.Move t s') {step : CleanupStep} (hmem : step ∈ s'.attempted) :
    step ∈ s.attempted ∨ nextStep (s.pc t) = some step := by
  cases h with
  | comeBack hpc | enter hpc | take hpc =>
      rw [setPc_attempted] at hmem
      exact Or.inl hmem
  | skip hpc | kill hpc | deregister hpc | purge hpc | removeState hpc =>
      rw [WorkerThreads.record, setPc_attempted, List.mem_append, List.mem_singleton] at hmem
      rw [hpc]
      exact hmem.imp id fun hstep => congrArg some hstep.symm

/-- A step that does not record the purge is none. -/
theorem Move.not_purged (h : s.Move t s') (hnot : .purge ∉ s'.attempted) :
    .purge ∉ s.attempted ∧ s.pc t ≠ .purge := by
  cases h with
  | comeBack hpc | enter hpc | take hpc =>
      rw [setPc_attempted] at hnot
      exact ⟨hnot, by rw [hpc]; decide⟩
  | skip hpc | kill hpc | deregister hpc | removeState hpc =>
      rw [WorkerThreads.record, setPc_attempted] at hnot
      exact ⟨fun hmem => hnot (List.mem_append_left _ hmem), by rw [hpc]; decide⟩
  | purge hpc =>
      rw [WorkerThreads.record, setPc_attempted] at hnot
      exact absurd (List.mem_append_right _ List.mem_cons_self) hnot

theorem attempted_of_not_cleanup {e : ThreadEvent} (he : ∀ t, e ≠ .cleanup t)
    (hstep : s.step e = some s') : s'.attempted = s.attempted := by
  obtain ⟨_, hstep⟩ := step_eq_some_iff.mp hstep
  have hpoll : e = .childAlive ∨ e = .pollAgain ∨ e = .childExits → s'.attempted = s.attempted := by
    intro he
    obtain ⟨polled, running, rfl, _⟩ := poll_cases he hstep
    rfl
  cases e with
  | call ok =>
      obtain ⟨c, rest, _, _, ⟨_, rfl⟩ | ⟨_, rfl⟩⟩ := call_cases hstep
      · exact (afterCall_frame (s := s) c).2.2.2.1
      · rfl
  | deliver sig =>
      rw [liveStep] at hstep
      split at hstep
      · cases hstep
        rfl
      · cases hstep
  | childAlive => exact hpoll (Or.inl rfl)
  | pollAgain => exact hpoll (Or.inr (Or.inl rfl))
  | childExits => exact hpoll (Or.inr (Or.inr rfl))
  | cleanup t => exact absurd rfl (he t)
  | exit t =>
      obtain ⟨_, rfl⟩ := exit_cases hstep
      rfl

end WorkerThreads

/-! ### Where the registration stands in `lifecycle` -/

/-- No registration, no clone either: the clone comes first. -/
theorem no_clone_of_no_registration {useJit swap : Bool} {todo : List Call}
    (hsuffix : todo <:+ lifecycle useJit swap) (hnone : ∀ c ∈ todo, c.registers = false) :
    .cloneFrom ∉ todo ∧ .storeCreated ∉ todo := by
  have hall : ∀ useJit swap, ∀ todo ∈ (lifecycle useJit swap).tails,
      (∀ c ∈ todo, c.registers = false) → .cloneFrom ∉ todo ∧ .storeCreated ∉ todo := by decide
  exact hall useJit swap todo ((List.mem_tails _ _).mpr hsuffix) hnone

/-- Up to the registration a call that succeeds can return at any time, and the VM is there when it needs
one. -/
theorem before_registration {useJit swap : Bool} {c : Call} {rest : List Call}
    (hsuffix : c :: rest <:+ lifecycle useJit swap) (hsome : (c :: rest).any Call.registers = true) :
    (∀ s : WorkerThreads, s.returns c true = true) ∧ (c.onVm = true → .cloneFrom ∉ c :: rest) := by
  have hnone : ∀ useJit swap, ∀ todo ∈ (lifecycle useJit swap).tails, todo.any Call.registers = true →
      ∀ c ∈ [Call.storeChild, .waitRegistration, .healthMonitor], todo.head? ≠ some c := by decide
  have hvm : ∀ useJit swap, ∀ todo ∈ (lifecycle useJit swap).tails, todo.head?.any Call.onVm = true →
      .cloneFrom ∉ todo := by decide
  have htails := (List.mem_tails _ _).mpr hsuffix
  refine ⟨fun s => ?_, hvm useJit swap _ htails⟩
  have hwaits := hnone useJit swap _ htails hsome c
  cases c <;> first | rfl | exact absurd rfl (hwaits (by decide))

theorem clone_not_after_store {useJit swap : Bool} {rest : List Call}
    (h : Call.storeCreated :: rest <:+ lifecycle useJit swap) : Call.cloneFrom ∉ rest := by
  have hall : ∀ useJit swap, ∀ todo ∈ (lifecycle useJit swap).tails,
      todo.head? = some .storeCreated → Call.cloneFrom ∉ todo.tail := by decide
  exact hall useJit swap _ ((List.mem_tails _ _).mpr h) rfl

/-! ### The worker and what it has made -/

namespace HostedWorker

variable {s s' : HostedWorker} {useJit swap : Bool}

theorem succeeds_call {c : Call} {rest : List Call} (htodo : s.threads.todo = c :: rest) :
    s.succeeds (.call true) = some c := by
  rw [succeeds, htodo]
  rfl

theorem recordAfter_call {c : Call} {rest : List Call} (htodo : s.threads.todo = c :: rest) :
    s.recordAfter (.call true) = (c.registers || s.record) := by
  unfold recordAfter
  rw [succeeds_call htodo]
  cases hregisters : c.registers with
  | true => exact if_pos hregisters
  | false =>
      have hno : ¬ (some c).any Call.registers = true := by
        rw [Option.any_some, hregisters]
        exact Bool.false_ne_true
      exact if_neg hno

theorem vmAfter_call {c : Call} {rest : List Call} (htodo : s.threads.todo = c :: rest) :
    s.vmAfter (.call true) = (decide (c = .cloneFrom) || s.vm) := by
  unfold vmAfter
  rw [succeeds_call htodo]
  by_cases hclone : c = .cloneFrom
  · rw [if_pos (congrArg some hclone), decide_eq_true hclone, Bool.true_or]
  · rw [if_neg fun heq => hclone (Option.some.inj heq), decide_eq_false hclone, Bool.false_or]
    rfl

theorem recordAfter_cleanup (s : HostedWorker) (t : ThreadId) :
    s.recordAfter (.cleanup t) = if s.threads.pc t = .deregister then false else s.record := by
  show (if some (s.threads.pc t) = some .deregister then false else s.record) = _
  by_cases hpc : s.threads.pc t = .deregister
  · rw [if_pos (congrArg some hpc), if_pos hpc]
  · rw [if_neg fun heq => hpc (Option.some.inj heq), if_neg hpc]

theorem vmAfter_cleanup (s : HostedWorker) (t : ThreadId) :
    s.vmAfter (.cleanup t) =
      if s.threads.pc t = .purge ∧ s.threads.created = true then false else s.vm := by
  show (if some (s.threads.pc t) = some .purge ∧ s.threads.created = true then false else s.vm) = _
  by_cases hpc : s.threads.pc t = .purge ∧ s.threads.created = true
  · rw [if_pos ⟨congrArg some hpc.1, hpc.2⟩, if_pos hpc]
  · rw [if_neg fun heq => hpc ⟨Option.some.inj heq.1, heq.2⟩, if_neg hpc]

theorem step_thread {e : ThreadEvent} (h : s.step (.thread e) = some s') :
    ((s.succeeds e).any Call.onVm = true → s.vm = true) ∧ s.threads.step e = some s'.threads ∧
      s'.vm = s.vmAfter e ∧ s'.record = s.recordAfter e := by
  rw [step] at h
  split at h
  · cases h
  · next hallowed =>
      obtain ⟨threads, hthreads, rfl⟩ := Option.map_eq_some_iff.mp h
      refine ⟨fun honVm => ?_, hthreads, rfl, rfl⟩
      rw [honVm, Bool.true_and, Bool.not_eq_true', Bool.not_eq_false] at hallowed
      exact hallowed

theorem late_thread {e : ThreadEvent} (h : s.step (.thread e) = some s') : s'.late = s.lateAfter e := by
  rw [step] at h
  split at h
  · cases h
  · obtain ⟨threads, _, rfl⟩ := Option.map_eq_some_iff.mp h
    rfl

theorem late_of_succeeds {e : ThreadEvent} (hno : e ≠ .call false) (h : s.step (.thread e) = some s') :
    s'.late = s.late := by
  rw [late_thread h, lateAfter]
  cases e with
  | call ok =>
      cases ok with
      | true => rfl
      | false => exact absurd rfl hno
  | childAlive | pollAgain | childExits | deliver sig | cleanup t | exit t => rfl

/-- The call that fails is added if it makes something. -/
theorem mem_late_of_fails {c d : Call} {rest : List Call} (htodo : s.threads.todo = c :: rest)
    (h : s.step (.thread (.call false)) = some s') (hd : d ∈ s'.late) :
    d ∈ s.late ∨ d = c ∧ c.makes = true := by
  have hgives : s.givesUp (.call false) = some c := by
    rw [givesUp, htodo]
    rfl
  rw [late_thread h, lateAfter, hgives, List.mem_append, Option.mem_toList, Option.filter_some] at hd
  cases hd with
  | inl hnew =>
      split at hnew
      · next hmakes => exact Or.inr ⟨(Option.some.inj hnew).symm, hmakes⟩
      · cases hnew
  | inr hold => exact Or.inl hold

theorem step_late {c : Call} (h : s.step (.late c) = some s') :
    c ∈ s.late ∧ s'.threads = s.threads ∧ s'.vm = (s.vm || c == .cloneFrom) ∧
      s'.record = (s.record || c.registers) ∧ s'.late = s.late.erase c := by
  rw [step] at h
  split at h
  · next hallowed =>
      cases h
      exact ⟨hallowed.1, rfl, rfl, rfl, rfl⟩
  · cases h

theorem coherent_step {e : HostedEvent} (h : s.threads.Coherent useJit swap) (hstep : s.step e = some s') :
    s'.threads.Coherent useJit swap := by
  cases e with
  | thread e => exact h.step (step_thread hstep).2.1
  | late c => exact (step_late hstep).2.1 ▸ h
  | jobDone =>
      cases hstep
      exact h

/-- When a cleanup comes to read the runner list, `lifecycle` will not register any more; a registration
that is carried out late comes before that, and a clone is never finished late. -/
def InTime (s : HostedWorker) : HostedEvent → Prop
  | .thread (.cleanup t) => s.threads.pc t = .deregister → ∀ c ∈ s.threads.todo, c.registers = false
  | .late c => c ≠ .cloneFrom ∧ .deregister ∉ s.threads.attempted
  | _ => True

instance (s : HostedWorker) : ∀ e, Decidable (s.InTime e)
  | .thread (.cleanup t) => inferInstanceAs (Decidable (s.threads.pc t = .deregister → _))
  | .late c => inferInstanceAs (Decidable (c ≠ .cloneFrom ∧ _))
  | .thread (.call _) | .thread .childAlive | .thread .pollAgain | .thread .childExits
  | .thread (.deliver _) | .thread (.exit _) | .jobDone => isTrue trivial

structure Inv (useJit swap : Bool) (s : HostedWorker) : Prop where
  coherent : s.threads.Coherent useJit swap
  deregistered : .deregister ∈ s.threads.attempted →
    s.record = false ∧ ∀ c ∈ s.threads.todo, c.registers = false
  purged : .purge ∈ s.threads.attempted → s.vm = false ∧ .cloneFrom ∉ s.threads.todo
  vm : s.vm = true → s.threads.created = true ∨ s.threads.todo.head? = some .storeCreated

theorem inv_init : Inv useJit swap (init useJit swap) where
  coherent := WorkerThreads.coherent_init
  deregistered := nofun
  purged := nofun
  vm := nofun

/-- The calls of `lifecycle`. -/
theorem Inv.call (h : Inv useJit swap s) {ok : Bool} (hstep : s.step (.thread (.call ok)) = some s') :
    Inv useJit swap s' := by
  obtain ⟨_, hthreads, hvm, hrecord⟩ := step_thread hstep
  have hcoherent := h.coherent.step hthreads
  have hattempted : s'.threads.attempted = s.threads.attempted :=
    WorkerThreads.attempted_of_not_cleanup (fun t heq => by cases heq) hthreads
  obtain ⟨c, rest, htodo, hreturns, hcases⟩ :=
    WorkerThreads.call_cases (WorkerThreads.step_eq_some_iff.mp hthreads).2
  have hsuffix : c :: rest <:+ lifecycle useJit swap := htodo ▸ h.coherent.todo
  have hhead : c ∈ s.threads.todo := htodo ▸ List.mem_cons_self
  have hrest : ∀ d ∈ rest, d ∈ s.threads.todo := fun d hd => htodo ▸ List.mem_cons_of_mem _ hd
  rcases hcases with ⟨rfl, hnext⟩ | ⟨rfl, hnext⟩
  · have htodo' : s'.threads.todo = rest := by
      rw [hnext]
      rfl
    rw [recordAfter_call htodo] at hrecord
    rw [vmAfter_call htodo] at hvm
    refine ⟨hcoherent, fun hdone => ?_, fun hdone => ?_, fun hsome => ?_⟩
    · rw [hattempted] at hdone
      obtain ⟨hnone, hall⟩ := h.deregistered hdone
      rw [hrecord, hall c hhead, hnone, htodo']
      exact ⟨rfl, fun d hd => hall d (hrest d hd)⟩
    · rw [hattempted] at hdone
      obtain ⟨hnone, hclone⟩ := h.purged hdone
      have hother : c ≠ .cloneFrom := by
        rintro rfl
        exact hclone hhead
      rw [hvm, decide_eq_false hother, hnone, htodo']
      exact ⟨rfl, fun hd => hclone (hrest _ hd)⟩
    · rw [htodo', hnext]
      show (s.threads.afterCall c).created = true ∨ rest.head? = some .storeCreated
      rw [WorkerThreads.afterCall_created, Bool.or_eq_true, decide_eq_true_eq]
      rw [hvm, Bool.or_eq_true, decide_eq_true_eq] at hsome
      rcases hsome with rfl | hsome
      · exact Or.inr (head?_after_clone hsuffix)
      · cases h.vm hsome with
        | inl hcreated => exact Or.inl (Or.inl hcreated)
        | inr hstore =>
            rw [htodo] at hstore
            exact Or.inl (Or.inr (Option.some.inj hstore))
  · have htodo' : s'.threads.todo = [] := by
      rw [hnext]
      rfl
    have hrecord' : s'.record = s.record := hrecord
    have hvm' : s'.vm = s.vm := hvm
    refine ⟨hcoherent, fun hdone => ?_, fun hdone => ?_, fun hsome => ?_⟩
    · rw [hattempted] at hdone
      rw [hrecord', htodo']
      exact ⟨(h.deregistered hdone).1, nofun⟩
    · rw [hattempted] at hdone
      rw [hvm', htodo']
      exact ⟨(h.purged hdone).1, List.not_mem_nil⟩
    · rw [hnext]
      cases h.vm (hvm' ▸ hsome) with
      | inl hcreated => exact Or.inl hcreated
      | inr hstore =>
          -- the store of the flag cannot fail
          rw [htodo] at hstore
          cases Option.some.inj hstore
          cases hreturns

/-- The steps of the cleanup. -/
theorem Inv.cleanup (h : Inv useJit swap s) {t : ThreadId}
    (hinTime : s.InTime (.thread (.cleanup t)))
    (hstep : s.step (.thread (.cleanup t)) = some s') : Inv useJit swap s' := by
  obtain ⟨_, hthreads, hvm, hrecord⟩ := step_thread hstep
  have hcoherent := h.coherent.step hthreads
  have hmove := WorkerThreads.move_of_cleanupStep (WorkerThreads.step_eq_some_iff.mp hthreads).2
  obtain ⟨htodo, _, _, hcreated, _⟩ := hmove.frame
  rw [recordAfter_cleanup] at hrecord
  rw [vmAfter_cleanup] at hvm
  refine ⟨hcoherent, fun hdone => ?_, fun hdone => ?_, fun hsome => ?_⟩
  · rw [htodo, hrecord]
    cases hmove.mem_attempted hdone with
    | inl hdone =>
        obtain ⟨hnone, hall⟩ := h.deregistered hdone
        refine ⟨?_, hall⟩
        rw [hnone, ite_self]
    | inr hnext =>
        have hpc : s.threads.pc t = .deregister := WorkerThreads.eq_place_of_nextStep hnext nofun
        rw [if_pos hpc]
        exact ⟨rfl, hinTime hpc⟩
  · rw [htodo, hvm]
    cases hmove.mem_attempted hdone with
    | inl hdone =>
        obtain ⟨hnone, hclone⟩ := h.purged hdone
        refine ⟨?_, hclone⟩
        rw [hnone, ite_self]
    | inr hnext =>
        have hpc : s.threads.pc t = .purge := WorkerThreads.eq_place_of_nextStep hnext nofun
        have hattempted : s.threads.attempted = stepsBefore (s.threads.pc t) :=
          (h.coherent.underway.performs (by rw [hpc]; rfl) (by rw [hpc]; nofun)).2.1
        have hderegistered : .deregister ∈ s.threads.attempted := by
          rw [hattempted, hpc]
          decide
        obtain ⟨hclone, hstore⟩ := no_clone_of_no_registration h.coherent.todo
          (h.deregistered hderegistered).2
        refine ⟨?_, hclone⟩
        cases hcr : s.threads.created with
        | true => exact if_pos ⟨hpc, rfl⟩
        | false =>
            rw [if_neg fun heq => nomatch heq.2]
            refine Bool.eq_false_iff.mpr fun hsome => ?_
            cases h.vm hsome with
            | inl hset =>
                rw [hcr] at hset
                cases hset
            | inr hhead => exact hstore (List.mem_of_mem_head? hhead)
  · rw [htodo, hcreated]
    rw [hvm] at hsome
    split at hsome
    · cases hsome
    · exact h.vm hsome

/-- The events that are neither a call nor a step of the cleanup. -/
theorem other_frame {e : ThreadEvent} (hcall : ∀ ok, e ≠ .call ok) (hcleanup : ∀ t, e ≠ .cleanup t)
    (hstep : s.step (.thread e) = some s') :
    s'.threads.todo = s.threads.todo ∧ s'.threads.created = s.threads.created ∧
      s'.threads.attempted = s.threads.attempted ∧ s'.vm = s.vm ∧ s'.record = s.record := by
  obtain ⟨_, hthreads, hvm, hrecord⟩ := step_thread hstep
  have hattempted := WorkerThreads.attempted_of_not_cleanup hcleanup hthreads
  have hlive := (WorkerThreads.step_eq_some_iff.mp hthreads).2
  cases e with
  | call ok => exact absurd rfl (hcall ok)
  | cleanup t => exact absurd rfl (hcleanup t)
  | childAlive | pollAgain | childExits =>
      obtain ⟨polled, running, hnext, _⟩ := WorkerThreads.poll_cases (by simp) hlive
      exact ⟨by rw [hnext], by rw [hnext], hattempted, hvm, hrecord⟩
  | deliver sig =>
      rw [WorkerThreads.liveStep] at hlive
      split at hlive
      · have hnext := (Option.some.inj hlive).symm
        exact ⟨by rw [hnext], by rw [hnext], hattempted, hvm, hrecord⟩
      · cases hlive
  | exit t =>
      obtain ⟨_, hnext⟩ := WorkerThreads.exit_cases hlive
      exact ⟨by rw [hnext], by rw [hnext], hattempted, hvm, hrecord⟩

theorem Inv.other (h : Inv useJit swap s) {e : ThreadEvent} (hcall : ∀ ok, e ≠ .call ok)
    (hcleanup : ∀ t, e ≠ .cleanup t) (hstep : s.step (.thread e) = some s') : Inv useJit swap s' := by
  obtain ⟨htodo, hcreated, hattempted, hvm, hrecord⟩ := other_frame hcall hcleanup hstep
  refine ⟨h.coherent.step (step_thread hstep).2.1, ?_, ?_, ?_⟩
  · rw [hattempted, htodo, hrecord]
    exact h.deregistered
  · rw [hattempted, htodo, hvm]
    exact h.purged
  · rw [htodo, hcreated, hvm]
    exact h.vm

theorem Inv.step {e : HostedEvent} (h : Inv useJit swap s) (hinTime : s.InTime e)
    (hstep : s.step e = some s') : Inv useJit swap s' := by
  cases e with
  | jobDone =>
      cases hstep
      exact ⟨h.coherent, fun hdone => ⟨rfl, (h.deregistered hdone).2⟩, h.purged, h.vm⟩
  | late c =>
      obtain ⟨hother, hbefore⟩ := hinTime
      obtain ⟨_, hthreads, hvm, _⟩ := step_late hstep
      rw [beq_eq_false_iff_ne.mpr hother, Bool.or_false] at hvm
      refine ⟨hthreads ▸ h.coherent, fun hdone => ?_, ?_, ?_⟩
      · rw [hthreads] at hdone
        exact absurd hdone hbefore
      · rw [hthreads, hvm]
        exact h.purged
      · rw [hthreads, hvm]
        exact h.vm
  | thread e =>
      cases e with
      | call ok => exact h.call hstep
      | cleanup t => exact h.cleanup hinTime hstep
      | childAlive | pollAgain | childExits | deliver sig | exit t =>
          exact h.other (fun ok heq => by cases heq) (fun t heq => by cases heq) hstep

/-! ### A registration that is still to come -/

/-- Unless it has been purged, the VM is there from the clone on. -/
structure Ready (useJit swap : Bool) (s : HostedWorker) : Prop where
  coherent : s.threads.Coherent useJit swap
  vm : .purge ∉ s.threads.attempted → s.threads.todo ≠ [] → s.vm = true ∨ .cloneFrom ∈ s.threads.todo
  late : .purge ∉ s.threads.attempted → ∀ c ∈ s.late, c.onVm = true → s.vm = true

theorem ready_init : Ready useJit swap (init useJit swap) where
  coherent := WorkerThreads.coherent_init
  vm := fun _ _ => Or.inr (by cases useJit <;> cases swap <;> decide)
  late := nofun

theorem Ready.call (h : Ready useJit swap s) {ok : Bool} (hstep : s.step (.thread (.call ok)) = some s') :
    Ready useJit swap s' := by
  obtain ⟨_, hthreads, hvm, _⟩ := step_thread hstep
  have hattempted : s'.threads.attempted = s.threads.attempted :=
    WorkerThreads.attempted_of_not_cleanup (fun t heq => by cases heq) hthreads
  obtain ⟨c, rest, htodo, _, ⟨rfl, hnext⟩ | ⟨rfl, hnext⟩⟩ :=
    WorkerThreads.call_cases (WorkerThreads.step_eq_some_iff.mp hthreads).2
  · rw [vmAfter_call htodo] at hvm
    refine ⟨h.coherent.step hthreads, fun hnot hne => ?_, fun hnot d hd honVm => ?_⟩
    · rw [hattempted] at hnot
      rw [hnext]
      show s'.vm = true ∨ Call.cloneFrom ∈ rest
      rw [hvm, Bool.or_eq_true, decide_eq_true_eq]
      cases h.vm hnot (by rw [htodo]; exact List.cons_ne_nil _ _) with
      | inl hvm => exact Or.inl (Or.inr hvm)
      | inr hclone =>
          rw [htodo] at hclone
          cases List.mem_cons.mp hclone with
          | inl heq => exact Or.inl (Or.inl heq.symm)
          | inr hrest => exact Or.inr hrest
    · rw [hattempted] at hnot
      rw [late_of_succeeds (by simp) hstep] at hd
      rw [hvm, h.late hnot d hd honVm, Bool.or_true]
  · have hsame : s'.vm = s.vm := hvm
    refine ⟨h.coherent.step hthreads, fun _ hne => ?_, fun hnot d hd honVm => ?_⟩
    · rw [hnext] at hne
      exact absurd rfl hne
    · rw [hattempted] at hnot
      rw [hsame]
      cases mem_late_of_fails htodo hstep hd with
      | inl hold => exact h.late hnot d hold honVm
      | inr hnew =>
          obtain ⟨rfl, hmakes⟩ := hnew
          have hregisters : d.registers = true := by
            cases d <;> first | rfl | exact hmakes | exact honVm
          have hbehind : .cloneFrom ∉ s.threads.todo := by
            have hsome : (d :: rest).any Call.registers = true := by
              rw [List.any_cons, hregisters, Bool.true_or]
            rw [htodo]
            exact (before_registration (htodo ▸ h.coherent.todo) hsome).2 honVm
          exact (h.vm hnot (by rw [htodo]; exact List.cons_ne_nil _ _)).resolve_right hbehind

theorem Ready.step {e : HostedEvent} (h : Ready useJit swap s) (hstep : s.step e = some s') :
    Ready useJit swap s' := by
  cases e with
  | jobDone =>
      cases hstep
      exact ⟨h.coherent, h.vm, h.late⟩
  | late c =>
      obtain ⟨_, hthreads, hvm, _, hlate⟩ := step_late hstep
      have hkept : s.vm = true → s'.vm = true := by
        intro hsome
        rw [hvm, hsome, Bool.true_or]
      refine ⟨hthreads ▸ h.coherent, ?_, ?_⟩
      · rw [hthreads]
        exact fun hnot hne => (h.vm hnot hne).imp_left hkept
      · rw [hthreads, hlate]
        exact fun hnot d hd honVm => hkept (h.late hnot d (List.mem_of_mem_erase hd) honVm)
  | thread e =>
      have hcoherent := h.coherent.step (step_thread hstep).2.1
      cases e with
      | call ok => exact h.call hstep
      | cleanup t =>
          obtain ⟨_, hthreads, hvm, _⟩ := step_thread hstep
          have hmove := WorkerThreads.move_of_cleanupStep (WorkerThreads.step_eq_some_iff.mp hthreads).2
          rw [vmAfter_cleanup] at hvm
          refine ⟨hcoherent, fun hnot hne => ?_, fun hnot => ?_⟩
          · obtain ⟨hkept, hpurge⟩ := hmove.not_purged hnot
            rw [hmove.frame.1] at hne ⊢
            rw [hvm, if_neg fun heq => hpurge heq.1]
            exact h.vm hkept hne
          · obtain ⟨hkept, hpurge⟩ := hmove.not_purged hnot
            rw [hvm, if_neg fun heq => hpurge heq.1, late_of_succeeds (by simp) hstep]
            exact h.late hkept
      | childAlive | pollAgain | childExits | deliver sig | exit t =>
          obtain ⟨htodo, _, hattempted, hvm, _⟩ :=
            other_frame (fun ok heq => by cases heq) (fun t heq => by cases heq) hstep
          refine ⟨hcoherent, ?_, ?_⟩
          · rw [hattempted, htodo, hvm]
            exact h.vm
          · rw [hattempted, hvm, late_of_succeeds (by simp) hstep]
            exact h.late

theorem ready_of_reachable (hreach : Transition.Reachable step (init useJit swap) s) :
    Ready useJit swap s :=
  hreach.invariant (fun _ _ _ hready hstep => hready.step hstep) ready_init

/-- The main thread can go on to its registration while the other is in the cleanup. -/
theorem exists_registration {todo : List Call} (h : Ready useJit swap s)
    (htodo : s.threads.todo = todo) (hnone : s.threads.exitCode = none)
    (hnot : .purge ∉ s.threads.attempted) (hsome : todo.any Call.registers = true) :
    ∃ events s', Transition.exec step s events = some s' ∧ s'.record = true ∧
      s'.threads.signal = s.threads.signal ∧ s'.threads.attempted = s.threads.attempted ∧
      s'.threads.exitCode = none := by
  induction todo generalizing s with
  | nil => cases hsome
  | cons c rest ih =>
      obtain ⟨hreturns, honVm⟩ := before_registration (htodo ▸ h.coherent.todo) hsome
      have hthreads : s.threads.step (.call true) = some ((s.threads.afterCall c).proceed rest) := by
        refine WorkerThreads.step_eq_some_iff.mpr ⟨hnone, ?_⟩
        simp only [WorkerThreads.liveStep, htodo, hreturns, if_true]
      have hallowed : ¬ ((s.succeeds (.call true)).any Call.onVm && !s.vm) = true := by
        rw [succeeds_call htodo, Option.any_some, Bool.and_eq_true, Bool.not_eq_true']
        intro hvm
        cases h.vm hnot (by rw [htodo]; exact List.cons_ne_nil _ _) with
        | inl hsome => exact Bool.false_ne_true (hvm.2.symm.trans hsome)
        | inr hclone => exact honVm hvm.1 (htodo ▸ hclone)
      obtain ⟨s1, hstep⟩ : ∃ s1, s.step (.thread (.call true)) = some s1 := by
        rw [step, if_neg hallowed, hthreads]
        exact ⟨_, rfl⟩
      obtain ⟨_, hthreads1, _, hrecord⟩ := step_thread hstep
      rw [hthreads] at hthreads1
      obtain ⟨_, hsignal, _, hattempted, _, hexit, _⟩ := WorkerThreads.afterCall_frame (s := s.threads) c
      have hnext := Option.some.inj hthreads1
      have hsignal1 : s1.threads.signal = s.threads.signal := hnext ▸ hsignal
      have hattempted1 : s1.threads.attempted = s.threads.attempted := hnext ▸ hattempted
      have hexit1 : s1.threads.exitCode = none := hnext ▸ hexit.trans hnone
      cases hregisters : c.registers with
      | true =>
          rw [recordAfter_call htodo, hregisters, Bool.true_or] at hrecord
          exact ⟨[.thread (.call true)], s1, Transition.exec_cons_eq_some_iff.mpr ⟨s1, hstep, rfl⟩,
            hrecord, hsignal1, hattempted1, hexit1⟩
      | false =>
          rw [List.any_cons, hregisters, Bool.false_or] at hsome
          obtain ⟨events, s', hexec, hrecord', hsignal', hattempted', hexit'⟩ :=
            ih (h.call hstep) (by rw [← hnext]; rfl) hexit1 (hattempted1 ▸ hnot) hsome
          exact ⟨.thread (.call true) :: events, s',
            Transition.exec_cons_eq_some_iff.mpr ⟨s1, hstep, hexec⟩, hrecord',
            hsignal'.trans hsignal1, hattempted'.trans hattempted1, hexit'⟩

theorem step_cleanup {t : ThreadId} {m : WorkerThreads} (hnone : s.threads.exitCode = none)
    (hstep : s.threads.cleanupStep t = some m) :
    s.step (.thread (.cleanup t)) =
      some ⟨m, s.vmAfter (.cleanup t), s.recordAfter (.cleanup t), s.late⟩ := by
  have hthreads : s.threads.step (.cleanup t) = some m :=
    WorkerThreads.step_eq_some_iff.mpr ⟨hnone, hstep⟩
  have hnocall : ¬ ((s.succeeds (.cleanup t)).any Call.onVm && !s.vm) = true := Bool.false_ne_true
  rw [step, if_neg hnocall, hthreads]
  rfl

/-- Where a thread is after a step of the cleanup that takes no lock. -/
def pcAfter : CleanupStep → ThreadPc
  | .killChild => .deregister
  | .deregister => .purge
  | .purge => .removeState
  | .removeState => .finished

/-- The signal thread takes its next step, which needs no lock. -/
theorem exists_cleanup (step : CleanupStep) (hnone : s.threads.exitCode = none)
    (hstep : step ≠ .killChild) (hpc : s.threads.signal = WorkerThreads.place step) :
    ∃ s', s.step (.thread (.cleanup .signal)) = some s' ∧
      s'.record = (if step = .deregister then false else s.record) ∧
      s'.threads.attempted = s.threads.attempted ++ [step] ∧ s'.threads.signal = pcAfter step ∧
      s'.threads.exitCode = none ∧ s'.threads.todo = s.threads.todo := by
  obtain ⟨m, hm, hattempted, hsignal, hexit, htodo, hrecord⟩ : ∃ m,
      s.threads.cleanupStep .signal = some m ∧ m.attempted = s.threads.attempted ++ [step] ∧
      m.signal = pcAfter step ∧ m.exitCode = none ∧ m.todo = s.threads.todo ∧
      s.recordAfter (.cleanup .signal) = if step = .deregister then false else s.record := by
    rw [recordAfter_cleanup, WorkerThreads.cleanupStep, WorkerThreads.pc, hpc]
    cases step with
    | killChild => exact absurd rfl hstep
    | deregister | purge | removeState => exact ⟨_, rfl, rfl, rfl, hnone, rfl, rfl⟩
  exact ⟨_, step_cleanup hnone hm, hrecord, hattempted, hsignal, hexit, htodo⟩

/-- From the purge on the signal thread comes to its exit, and no record is removed any more. -/
theorem exists_exit (hnone : s.threads.exitCode = none) (hsignal : s.threads.signal = .purge) :
    ∃ events s', Transition.exec step s events = some s' ∧ s'.record = s.record ∧
      s'.threads.exitCode.isSome = true ∧
      s'.threads.attempted = s.threads.attempted ++ [.purge, .removeState] := by
  obtain ⟨s1, hstep1, hrecord1, hattempted1, hsignal1, hnone1, _⟩ :=
    exists_cleanup .purge hnone nofun hsignal
  obtain ⟨s2, hstep2, hrecord2, hattempted2, hsignal2, hnone2, _⟩ :=
    exists_cleanup .removeState hnone1 nofun hsignal1
  have hexit : s2.step (.thread (.exit .signal)) =
      some { s2 with threads :=
        { s2.threads with exitCode := some (s2.threads.exitWith .signal) } } := by
    have hthreads : s2.threads.step (.exit .signal) =
        some { s2.threads with exitCode := some (s2.threads.exitWith .signal) } := by
      refine WorkerThreads.step_eq_some_iff.mpr ⟨hnone2, ?_⟩
      simp only [WorkerThreads.liveStep, WorkerThreads.pc, hsignal2, pcAfter, if_true]
    have hnocall : ¬ ((s2.succeeds (.exit .signal)).any Call.onVm && !s2.vm) = true := Bool.false_ne_true
    rw [step, if_neg hnocall, hthreads]
    rfl
  refine ⟨[.thread (.cleanup .signal), .thread (.cleanup .signal), .thread (.exit .signal)], _,
    Transition.exec_cons_eq_some_iff.mpr ⟨s1, hstep1, Transition.exec_cons_eq_some_iff.mpr ⟨s2, hstep2,
      Transition.exec_cons_eq_some_iff.mpr ⟨_, hexit, rfl⟩⟩⟩, ?_, rfl, ?_⟩
  · exact hrecord2.trans hrecord1
  · show s2.threads.attempted = _
    rw [hattempted2, hattempted1, List.append_assoc]
    rfl

/-! ### A clone that is finished late -/

/-- What only a call of `lifecycle` changes. -/
theorem step_keeps {e : HostedEvent} (hcall : ∀ ok, e ≠ .thread (.call ok)) (hstep : s.step e = some s') :
    s'.threads.todo = s.threads.todo ∧ s'.threads.created = s.threads.created ∧
      (∀ c ∈ s'.late, c ∈ s.late) ∧ (s.threads.created = false → s.vm = true → s'.vm = true) := by
  cases e with
  | jobDone =>
      cases hstep
      exact ⟨rfl, rfl, fun c hc => hc, fun _ hvm => hvm⟩
  | late c =>
      obtain ⟨_, hthreads, hvm, _, hlate⟩ := step_late hstep
      refine ⟨by rw [hthreads], by rw [hthreads], fun d hd => ?_, fun _ hsome => ?_⟩
      · rw [hlate] at hd
        exact List.mem_of_mem_erase hd
      · rw [hvm, hsome, Bool.true_or]
  | thread e =>
      have hlate : ∀ d, e ≠ .call d := fun d heq => hcall d (heq ▸ rfl)
      have hsame : s'.late = s.late := late_of_succeeds (hlate false) hstep
      rw [hsame]
      by_cases hcleanup : ∃ t, e = .cleanup t
      · obtain ⟨t, rfl⟩ := hcleanup
        obtain ⟨_, hthreads, hvm, _⟩ := step_thread hstep
        have hmove := WorkerThreads.move_of_cleanupStep (WorkerThreads.step_eq_some_iff.mp hthreads).2
        obtain ⟨htodo, _, _, hcreated, _⟩ := hmove.frame
        refine ⟨htodo, hcreated, fun d hd => hd, fun hunset hsome => ?_⟩
        rw [hvm, vmAfter_cleanup, hunset, if_neg fun heq => Bool.false_ne_true heq.2]
        exact hsome
      · obtain ⟨htodo, hcreated, _, hvm, _⟩ := other_frame hlate (fun t heq => hcleanup ⟨t, heq⟩) hstep
        exact ⟨htodo, hcreated, fun d hd => hd, fun _ hsome => hvm.trans hsome⟩

/-- `lifecycle` has returned without having set `created`. -/
def Abandoned (s : HostedWorker) : Prop := s.threads.todo = [] ∧ s.threads.created = false

theorem Abandoned.not_call (h : s.Abandoned) {e : HostedEvent} (hstep : s.step e = some s') :
    ∀ ok, e ≠ .thread (.call ok) := by
  rintro ok rfl
  obtain ⟨c, rest, htodo, _⟩ :=
    WorkerThreads.call_cases (WorkerThreads.step_eq_some_iff.mp (step_thread hstep).2.1).2
  rw [h.1] at htodo
  cases htodo

theorem Abandoned.step (h : s.Abandoned ∧ s.vm = true) {e : HostedEvent} (hstep : s.step e = some s') :
    s'.Abandoned ∧ s'.vm = true := by
  obtain ⟨htodo, hcreated, _, hvm⟩ := step_keeps (h.1.not_call hstep) hstep
  exact ⟨⟨htodo.trans h.1.1, hcreated.trans h.1.2⟩, hvm h.1.2 h.2⟩

/-- `created` is set after the clone, and never once the clone has failed. -/
structure Unclaimed (useJit swap : Bool) (s : HostedWorker) : Prop where
  coherent : s.threads.Coherent useJit swap
  before : .cloneFrom ∈ s.threads.todo → s.threads.created = false
  late : .cloneFrom ∈ s.late → s.Abandoned

theorem unclaimed_init : Unclaimed useJit swap (init useJit swap) where
  coherent := WorkerThreads.coherent_init
  before := fun _ => rfl
  late := nofun

theorem Unclaimed.call (h : Unclaimed useJit swap s) {ok : Bool}
    (hstep : s.step (.thread (.call ok)) = some s') : Unclaimed useJit swap s' := by
  obtain ⟨_, hthreads, _⟩ := step_thread hstep
  obtain ⟨c, rest, htodo, _, ⟨rfl, hnext⟩ | ⟨rfl, hnext⟩⟩ :=
    WorkerThreads.call_cases (WorkerThreads.step_eq_some_iff.mp hthreads).2
  · refine ⟨h.coherent.step hthreads, fun hclone => ?_, fun hlate => ?_⟩
    · rw [hnext] at hclone ⊢
      show (s.threads.afterCall c).created = false
      have hother : c ≠ .storeCreated := by
        rintro rfl
        exact clone_not_after_store (htodo ▸ h.coherent.todo) hclone
      rw [WorkerThreads.afterCall_created, decide_eq_false hother, Bool.or_false]
      exact h.before (htodo ▸ List.mem_cons_of_mem c hclone)
    · rw [late_of_succeeds (by simp) hstep] at hlate
      rw [(h.late hlate).1] at htodo
      cases htodo
  · refine ⟨h.coherent.step hthreads, fun hclone => ?_, fun hlate => ?_⟩
    · rw [hnext] at hclone
      cases hclone
    · rw [Abandoned, hnext]
      refine ⟨rfl, ?_⟩
      cases mem_late_of_fails htodo hstep hlate with
      | inl hold => exact (h.late hold).2
      | inr hnew => exact h.before (by rw [htodo, hnew.1]; exact List.mem_cons_self)

theorem Unclaimed.step {e : HostedEvent} (h : Unclaimed useJit swap s) (hstep : s.step e = some s') :
    Unclaimed useJit swap s' := by
  by_cases hcall : ∃ ok, e = .thread (.call ok)
  · obtain ⟨ok, rfl⟩ := hcall
    exact h.call hstep
  · obtain ⟨htodo, hcreated, hlate, _⟩ := step_keeps (fun ok heq => hcall ⟨ok, heq⟩) hstep
    refine ⟨coherent_step h.coherent hstep, ?_, fun hclone => ?_⟩
    · rw [htodo, hcreated]
      exact h.before
    · rw [Abandoned, htodo, hcreated]
      exact h.late (hlate _ hclone)

/-- A VM that multipass finishes after its clone has failed is there for good. -/
theorem vm_of_late_clone {events : List HostedEvent}
    (hexec : Transition.exec step (init useJit swap) events = some s)
    (hlate : HostedEvent.late .cloneFrom ∈ events) : s.vm = true := by
  obtain ⟨pre, post, rfl⟩ := List.append_of_mem hlate
  obtain ⟨s1, hexec1, hrest⟩ := Transition.exec_append_eq_some_iff.mp hexec
  obtain ⟨s2, hstep, hexec2⟩ := Transition.exec_cons_eq_some_iff.mp hrest
  have hunclaimed : Unclaimed useJit swap s1 := Transition.exec_invariant
    (fun _ _ _ h _ hstep => h.step hstep) unclaimed_init (Transition.meets_true _ _) hexec1
  obtain ⟨hmem, hthreads, hvm, _⟩ := step_late hstep
  have hthere : s2.Abandoned ∧ s2.vm = true := by
    rw [Abandoned, hthreads, hvm, beq_self_eq_true, Bool.or_true]
    exact ⟨hunclaimed.late hmem, rfl⟩
  have hkept : s.Abandoned ∧ s.vm = true := Transition.exec_invariant
    (fun _ _ _ h _ hstep => Abandoned.step h hstep) hthere (Transition.meets_true _ _) hexec2
  exact hkept.2

/-! ### What is left, and when -/

/-- The signal thread takes its last steps after a record has been made that it will not see. -/
theorem exists_leftover {s1 s2 : HostedWorker} {events : List HostedEvent}
    (hstep : s.step (.thread (.cleanup .signal)) = some s1)
    (hexec : Transition.exec step s1 events = some s2) (hnone : s2.threads.exitCode = none)
    (hsignal : s2.threads.signal = .purge)
    (hattempted : s2.threads.attempted = [.killChild, .deregister]) (hrecord : s2.record = true) :
    ∃ events s', Transition.exec step s events = some s' ∧ s'.threads.exitCode.isSome = true ∧
      s'.threads.attempted = [.killChild, .deregister, .purge, .removeState] ∧ s'.record = true := by
  obtain ⟨last, s3, hexec3, hrecord3, hexit3, hattempted3⟩ := exists_exit hnone hsignal
  refine ⟨.thread (.cleanup .signal) :: events ++ last, s3, ?_, hexit3, ?_, hrecord3.trans hrecord⟩
  · exact Transition.exec_append_eq_some_iff.mpr
      ⟨s2, Transition.exec_cons_eq_some_iff.mpr ⟨s1, hstep, hexec⟩, hexec3⟩
  · rw [hattempted3, hattempted]
    rfl

/-- **A cleanup that comes to its end leaves neither VM nor record, if the registration was behind when it
read the runner list and no clone is finished late.** Where the registration was not behind, or one that
failed may yet be carried out, the record may be left. A VM that is finished late is left always. -/
theorem cleanup_leaves_nothing (useJit swap : Bool) :
    (∀ events s, Transition.Meets step InTime (init useJit swap) events →
      Transition.exec step (init useJit swap) events = some s → s.threads.exitCode.isSome = true →
      s.threads.attempted = [.killChild, .deregister, .purge, .removeState] →
      s.vm = false ∧ s.record = false) ∧
    (∀ s, Transition.Reachable step (init useJit swap) s → s.threads.exitCode = none →
      s.threads.signal = .deregister →
      (¬ s.InTime (.thread (.cleanup .signal)) ∨ ∃ c ∈ s.late, c.registers = true) →
      ∃ events s', Transition.exec step s events = some s' ∧ s'.threads.exitCode.isSome = true ∧
        s'.threads.attempted = [.killChild, .deregister, .purge, .removeState] ∧ s'.record = true) ∧
    ∀ events s, Transition.exec step (init useJit swap) events = some s →
      HostedEvent.late .cloneFrom ∈ events → s.vm = true := by
  refine ⟨fun events s hmeets hexec _ hattempted => ?_, fun s hreach hnone hsignal hlate => ?_,
    fun events s hexec hclone => vm_of_late_clone hexec hclone⟩
  · have hinv : Inv useJit swap s := Transition.exec_invariant
      (fun _ _ _ hinv hinTime hstep => hinv.step hinTime hstep) inv_init hmeets hexec
    exact ⟨(hinv.purged (by rw [hattempted]; decide)).1,
      (hinv.deregistered (by rw [hattempted]; decide)).1⟩
  · have hready := ready_of_reachable hreach
    have hbefore : s.threads.attempted = [.killChild] := by
      have hperforms := (hready.coherent.underway.performs (t := .signal)
        (by rw [WorkerThreads.pc, hsignal]; rfl) (by rw [WorkerThreads.pc, hsignal]; decide)).2.1
      rw [hperforms, WorkerThreads.pc, hsignal]
      rfl
    obtain ⟨s1, hstep1, _, hattempted1, hsignal1, hnone1, htodo1⟩ :=
      exists_cleanup .deregister hnone (by decide) hsignal
    rw [hbefore] at hattempted1
    have hready1 := hready.step hstep1
    have hnot : .purge ∉ s1.threads.attempted := by
      rw [hattempted1]
      decide
    cases hlate with
    | inl hahead =>
        have hsome : s.threads.todo.any Call.registers = true := by
          rw [List.any_eq_true]
          by_contra hnever
          apply hahead
          intro _ c hc
          rw [Bool.eq_false_iff]
          exact fun hregisters => hnever ⟨c, hc, hregisters⟩
        obtain ⟨events, s2, hexec2, hrecord2, hsignal2, hattempted2, hnone2⟩ :=
          exists_registration hready1 htodo1 hnone1 hnot hsome
        exact exists_leftover hstep1 hexec2 hnone2 (hsignal2.trans hsignal1)
          (hattempted2.trans hattempted1) hrecord2
    | inr hgiven =>
        obtain ⟨c, hc, hregisters⟩ := hgiven
        have hc1 : c ∈ s1.late := by
          rw [late_of_succeeds (by simp) hstep1]
          exact hc
        obtain ⟨s2, hstep2⟩ : ∃ s2, s1.step (.late c) = some s2 :=
          ⟨_, if_pos ⟨hc1, hready1.late hnot c hc1⟩⟩
        obtain ⟨_, hthreads, _, hrecord, _⟩ := step_late hstep2
        have hexec2 : Transition.exec step s1 [.late c] = some s2 :=
          Transition.exec_cons_eq_some_iff.mpr ⟨s2, hstep2, rfl⟩
        rw [← hthreads] at hnone1 hsignal1 hattempted1
        apply exists_leftover hstep1 hexec2 hnone1 hsignal1 hattempted1
        rw [hrecord, hregisters, Bool.or_true]

end HostedWorker

/-- SIGTERM comes while the worker waits for the gate. The cleanup finds nothing to remove, and the gate
is granted before the process ends. -/
def termAtGate : List HostedEvent :=
  List.replicate 5 (.thread (.call true)) ++ [.thread (.deliver .term)] ++
    List.replicate 4 (.thread (.cleanup .signal)) ++ List.replicate 10 (.thread (.call true)) ++
    [.thread (.cleanup .signal), .thread (.exit .signal)]

theorem term_at_gate_leaves_vm :
    ∃ s, Transition.exec HostedWorker.step (HostedWorker.init true false) termAtGate = some s ∧
      s.threads.exitCode = some 143 ∧
      s.threads.attempted = [.killChild, .deregister, .purge, .removeState] ∧
      s.vm = true ∧ s.record = true := by
  refine ⟨_, rfl, ?_, ?_, ?_, ?_⟩ <;> decide

/-- The worker is in its health monitor when SIGTERM comes. -/
def termAfterRegistration : List HostedEvent :=
  (termWhileHealthy ++ List.replicate 6 (ThreadEvent.cleanup .signal) ++ [ThreadEvent.exit .signal]).map
    .thread

theorem term_after_registration_leaves_nothing :
    ∃ s, Transition.exec HostedWorker.step (HostedWorker.init true false) termAfterRegistration = some s ∧
      s.threads.exitCode = some 143 ∧ s.vm = false ∧ s.record = false := by
  obtain ⟨s, hexec, hcode, hattempted⟩ : ∃ s, Transition.exec HostedWorker.step
      (HostedWorker.init true false) termAfterRegistration = some s ∧ s.threads.exitCode = some 143 ∧
      s.threads.attempted = [.killChild, .deregister, .purge, .removeState] := by
    refine ⟨_, rfl, ?_, ?_⟩ <;> decide
  exact ⟨s, hexec, hcode, (HostedWorker.cleanup_leaves_nothing true false).1 _ s (by decide) hexec
    (by rw [hcode]; rfl) hattempted⟩

end VmFleet
