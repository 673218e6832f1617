import VmFleet.Source.UpdateWatch
import VmFleet.Library.Transition
import VmFleet.Proof.LaunchSafety

/-!
# What the background checks amount to

A check is started only when no receiver is held, and a receiver is given up only when the thread behind it
has ended. So all checks but the newest have ended, and the newest has too unless its receiver is held.
-/

namespace VmFleet

/-! ### What a cycle does with the fields of the check -/

/-- The states agree on what `maybe_update_check` reads and writes. -/
structure SameUpdates (s s' : SupState) : Prop where
  updateRx : s.updateRx = s'.updateRx
  lastUpdateCheck : s.lastUpdateCheck = s'.lastUpdateCheck
  latestVersion : s.latestVersion = s'.latestVersion

section Fields

variable {cfg : Config} {inv : Invocation} {snap : Snapshot} {s s' : SupState}

theorem sameUpdates_applyUpdateResult (h : SameUpdates s s') :
    SameUpdates (applyUpdateResult snap s) (applyUpdateResult snap s') := by
  rw [applyUpdateResult, applyUpdateResult, h.updateRx]
  split
  · split
    · exact ⟨rfl, h.lastUpdateCheck, rfl⟩
    · exact ⟨rfl, h.lastUpdateCheck, h.latestVersion⟩
    · exact ⟨rfl, h.lastUpdateCheck, h.latestVersion⟩
    · exact h
  · exact h

theorem sameUpdates_maybeUpdateCheck (h : SameUpdates s s') :
    SameUpdates (maybeUpdateCheck cfg snap s).1 (maybeUpdateCheck cfg snap s').1 := by
  have happlied : SameUpdates (applyUpdateResult snap s) (applyUpdateResult snap s') :=
    sameUpdates_applyUpdateResult h
  have hdue : updateDue cfg snap (applyUpdateResult snap s) =
      updateDue cfg snap (applyUpdateResult snap s') := by
    rw [updateDue, updateDue, happlied.lastUpdateCheck]
  rw [maybeUpdateCheck, maybeUpdateCheck, hdue, happlied.updateRx]
  split
  · exact ⟨rfl, rfl, happlied.latestVersion⟩
  · exact happlied

theorem sameUpdates_cycleState :
    SameUpdates (cycleState cfg inv s snap)
      (if checksForUpdates cfg inv snap then (maybeUpdateCheck cfg snap s).1 else s) := by
  rw [checksForUpdates, cycleState, reconcile]
  cases hrunners : snap.runners with
  | error message =>
      simp only [Except.isOk, Except.toBool, Bool.and_false, Bool.false_eq_true, if_false]
      exact ⟨rfl, rfl, rfl⟩
  | ok runners =>
      simp only [Except.isOk, Except.toBool, Bool.and_true, bind, Except.bind, pure, Except.pure]
      split
      · exact sameUpdates_maybeUpdateCheck ⟨rfl, rfl, rfl⟩
      · exact ⟨rfl, rfl, rfl⟩

/-- A thread is spawned exactly where no receiver is held and the interval is over. -/
theorem maybeUpdateCheck_cases (cfg : Config) (snap : Snapshot) (s : SupState) :
    ((applyUpdateResult snap s).updateRx = false ∧ updateDue cfg snap (applyUpdateResult snap s) = true ∧
        maybeUpdateCheck cfg snap s =
          ({ applyUpdateResult snap s with
              lastUpdateCheck := some (snap.clock .updateStarted), updateRx := true }, true)) ∨
      maybeUpdateCheck cfg snap s = (applyUpdateResult snap s, false) := by
  rw [maybeUpdateCheck]
  split
  · rename_i hstarts
    obtain ⟨hrx, hdue⟩ := Bool.and_eq_true_iff.mp hstarts
    exact Or.inl ⟨by simpa using hrx, hdue, rfl⟩
  · exact Or.inr rfl

end Fields

/-! ### The invariant -/

namespace Watch

variable {cfg : Config} {inv : Invocation} {snap : Snapshot} {w w' : Watch}

structure Inv (cfg : Config) (w : Watch) : Prop where
  older : ∀ c ∈ w.checks.tail, c.stage = .ended
  newest : w.sup.updateRx = false → ∀ c ∈ w.checks, c.stage = .ended
  received : ∀ c ∈ w.checks, c.received.length ≤ 1 ∧ (c.stage ≠ .ended → c.received = [])
  started : w.sup.lastUpdateCheck = w.checks.head?.map (·.startedAt)
  past : ∀ c ∈ w.checks, c.startedAt ≤ w.now
  spaced : w.checks.Pairwise fun newer older => older.startedAt + updateInterval cfg ≤ newer.startedAt
  latest : ∀ v, w.sup.latestVersion = some v →
    updateAvailable v = true ∧ ∃ c ∈ w.checks, some v ∈ c.received

theorem Inv.init : Inv cfg init := by
  constructor <;> simp [Watch.init]

theorem Inv.congr (h : Inv cfg w) (hsup : SameUpdates w'.sup w.sup) (hchecks : w'.checks = w.checks)
    (hnow : w.now ≤ w'.now) : Inv cfg w' where
  older := hchecks ▸ h.older
  newest := by rw [hchecks, hsup.updateRx]; exact h.newest
  received := hchecks ▸ h.received
  started := by rw [hchecks, hsup.lastUpdateCheck]; exact h.started
  past c hc := (h.past c (hchecks ▸ hc)).trans hnow
  spaced := hchecks ▸ h.spaced
  latest v hv := by rw [hchecks]; exact h.latest v (hsup.latestVersion ▸ hv)

/-- A check that has not ended is the newest. -/
theorem Inv.eq_newest (h : Inv cfg w) {i : Nat} {c : UpdateCheck} (hc : w.checks[i]? = some c)
    (hstage : c.stage ≠ .ended) : i = 0 ∧ w.sup.updateRx = true := by
  refine ⟨?_, ?_⟩
  · cases i with
    | zero => rfl
    | succ i =>
        have htail : c ∈ w.checks.tail := by
          rw [← List.getElem?_tail] at hc
          exact List.mem_of_getElem? hc
        exact absurd (h.older c htail) hstage
  · cases hrx : w.sup.updateRx with
    | true => rfl
    | false => exact absurd (h.newest hrx c (List.mem_of_getElem? hc)) hstage

/-- The end of a thread changes only where the newest check is. -/
theorem Inv.endThread (h : Inv cfg w) {i : Nat} {stage : CheckStage}
    (hstep : w.endThread i stage = some w') : Inv cfg w' := by
  rw [Watch.endThread] at hstep
  split at hstep
  · rename_i c hc
    split at hstep
    · rename_i hrunning
      cases hstep
      have hstage : c.stage ≠ .ended := by rw [hrunning]; simp
      obtain ⟨rfl, hrx⟩ := h.eq_newest hc hstage
      obtain ⟨older, hchecks⟩ : ∃ older, w.checks = c :: older := by
        cases hchecks : w.checks with
        | nil => rw [hchecks] at hc; cases hc
        | cons newest older => rw [hchecks] at hc; cases hc; exact ⟨older, rfl⟩
      obtain ⟨holder, hnewest, hreceived, hstarted, hpast, hspaced, hlatest⟩ := h
      rw [hchecks] at holder hreceived hstarted hpast hspaced hlatest
      have hnone : c.received = [] := (hreceived c List.mem_cons_self).2 hstage
      simp only [List.forall_mem_cons, List.pairwise_cons, List.exists_mem_cons_iff] at *
      constructor <;> simp only [hchecks, List.set_cons_zero, List.tail_cons, List.forall_mem_cons,
        List.pairwise_cons, List.exists_mem_cons_iff]
      · exact holder
      · intro hfalse
        rw [hrx] at hfalse
        cases hfalse
      · exact ⟨⟨hreceived.1.1, fun _ => hnone⟩, hreceived.2⟩
      · exact hstarted
      · exact hpast
      · exact hspaced
      · exact hlatest
    · cases hstep
  · cases hstep

theorem polledChecks_of_not_held (hrx : w.sup.updateRx = false) : w.polledChecks = w.checks := by
  rw [polledChecks, hrx]

theorem polledChecks_cons (hrx : w.sup.updateRx = true) {newest : UpdateCheck} {older : List UpdateCheck}
    (hchecks : w.checks = newest :: older) : w.polledChecks = newest.polled :: older := by
  rw [polledChecks, hrx, hchecks]

/-- The result of the newest check is taken from its channel. -/
theorem Inv.receive (h : Inv cfg w) {newest : UpdateCheck} {older : List UpdateCheck} {result : Option String}
    {latest : Option String} (hchecks : w.checks = newest :: older) (hstage : newest.stage = .sent result)
    (hlatest : ∀ v, latest = some v →
      updateAvailable v = true ∧ (result = some v ∨ w.sup.latestVersion = some v)) :
    Inv cfg ⟨{ w.sup with latestVersion := latest, updateRx := false }, w.now, newest.polled :: older⟩ := by
  have hpolled : newest.polled =
      { newest with stage := .ended, received := newest.received ++ [result] } := by
    rw [UpdateCheck.polled, hstage]
  obtain ⟨holder, _, hreceived, hstarted, hpast, hspaced, hfound⟩ := h
  rw [hchecks] at holder hreceived hstarted hpast hspaced hfound
  have hnone : newest.received = [] := (hreceived newest List.mem_cons_self).2 (by rw [hstage]; simp)
  simp only [List.forall_mem_cons, List.pairwise_cons] at hreceived hpast hspaced
  rw [hpolled, hnone]
  constructor <;> simp only [List.tail_cons, List.forall_mem_cons, List.pairwise_cons]
  · exact holder
  · exact fun _ => ⟨trivial, holder⟩
  · exact ⟨⟨le_rfl, fun hne => absurd rfl hne⟩, hreceived.2⟩
  · exact hstarted
  · exact hpast
  · exact hspaced
  · intro v hv
    obtain ⟨hnewer, rfl | hkept⟩ := hlatest v hv
    · exact ⟨hnewer, _, List.mem_cons_self, List.mem_cons_self⟩
    · obtain ⟨_, c, hc, hmem⟩ := hfound v hkept
      refine ⟨hnewer, c, ?_, hmem⟩
      rcases List.mem_cons.mp hc with rfl | hc
      · rw [hnone] at hmem
        cases hmem
      · exact List.mem_cons_of_mem _ hc

/-- The first step of `maybe_update_check`. -/
theorem Inv.polled (h : Inv cfg w) (hreads : w.Reads snap) :
    Inv cfg ⟨applyUpdateResult snap w.sup, w.now, w.polledChecks⟩ := by
  cases hrx : w.sup.updateRx with
  | false =>
      rw [applyUpdateResult, hrx, polledChecks_of_not_held hrx]
      exact h.congr ⟨rfl, rfl, rfl⟩ rfl le_rfl
  | true =>
      have hchannel : snap.updateChannel = w.tryRecv := hreads.2.2 hrx
      rw [applyUpdateResult, hrx, hchannel, Watch.tryRecv]
      cases hchecks : w.checks with
      | nil =>
          have hempty : w.polledChecks = w.checks := by rw [polledChecks, hrx, hchecks]
          rw [hempty]
          exact ⟨h.older, fun _ => by simp [hchecks], h.received, h.started, h.past, h.spaced, h.latest⟩
      | cons newest older =>
          rw [polledChecks_cons hrx hchecks]
          cases hstage : newest.stage with
          | running =>
              simp only [UpdateCheck.polled, UpdateCheck.tryRecv, hstage, ← hchecks]
              exact h
          | ended =>
              simp only [UpdateCheck.polled, UpdateCheck.tryRecv, hstage, ← hchecks]
              refine ⟨h.older, fun _ => ?_, h.received, h.started, h.past, h.spaced, h.latest⟩
              have holder := h.older
              rw [hchecks] at holder ⊢
              exact List.forall_mem_cons.mpr ⟨hstage, holder⟩
          | sent result =>
              simp only [UpdateCheck.tryRecv, hstage]
              cases result with
              | none => exact h.receive hchecks hstage fun v hv => ⟨(h.latest v hv).1, Or.inr hv⟩
              | some latest =>
                  refine h.receive hchecks hstage fun v hv => ?_
                  obtain ⟨hnewer, hv⟩ := Option.ite_none_right_eq_some.mp hv
                  cases hv
                  exact ⟨hnewer, Or.inl rfl⟩

/-- The second step. -/
theorem Inv.start (h : Inv cfg w) (hrx : w.sup.updateRx = false) (hdue : updateDue cfg snap w.sup = true)
    (hnow : w.now ≤ snap.clock .updateElapsed)
    (hclock : snap.clock .updateElapsed ≤ snap.clock .updateStarted) :
    Inv cfg ⟨{ w.sup with lastUpdateCheck := some (snap.clock .updateStarted), updateRx := true },
      snap.clock .updateStarted, { startedAt := snap.clock .updateStarted } :: w.checks⟩ := by
  have hspace : ∀ c ∈ w.checks, c.startedAt + updateInterval cfg ≤ snap.clock .updateStarted := by
    cases hchecks : w.checks with
    | nil => simp
    | cons newest older =>
        have hnewest : newest.startedAt + updateInterval cfg ≤ snap.clock .updateStarted := by
          rw [updateDue, h.started, hchecks] at hdue
          have hinterval : updateInterval cfg ≤ snap.clock .updateElapsed - newest.startedAt :=
            of_decide_eq_true hdue
          have hpast : newest.startedAt ≤ w.now := h.past newest (hchecks ▸ List.mem_cons_self)
          exact (Nat.add_le_of_le_sub' (hpast.trans hnow) hinterval).trans hclock
        have hspaced := h.spaced
        rw [hchecks, List.pairwise_cons] at hspaced
        intro c hc
        rcases List.mem_cons.mp hc with rfl | hc
        · exact hnewest
        · exact (hspaced.1 c hc).trans ((Nat.le_add_right _ _).trans hnewest)
  constructor
  · exact h.newest hrx
  · intro hfalse
    cases hfalse
  · exact List.forall_mem_cons.mpr ⟨⟨Nat.zero_le _, fun _ => rfl⟩, h.received⟩
  · rfl
  · simp only [List.forall_mem_cons]
    exact ⟨le_rfl, fun c hc => (h.past c hc).trans (hnow.trans hclock)⟩
  · exact List.pairwise_cons.mpr ⟨hspace, h.spaced⟩
  · intro v hv
    obtain ⟨hnewer, c, hc, hreceived⟩ := h.latest v hv
    exact ⟨hnewer, c, List.mem_cons_of_mem _ hc, hreceived⟩

theorem Inv.cycle (h : Inv cfg w) (hstep : w.cycle cfg inv snap = some w') : Inv cfg w' := by
  have hsup : SameUpdates (cycleState cfg inv w.sup snap) _ := sameUpdates_cycleState
  rw [Watch.cycle] at hstep
  split at hstep
  · rename_i hchecks
    rw [if_pos hchecks] at hsup
    split at hstep
    · rename_i hreads
      cases hstep
      have hpolled := h.polled hreads
      have hclock : w.now ≤ snap.clock .updateStarted := hreads.1.trans hreads.2.1
      obtain ⟨hrx, hdue, hstarts⟩ | hstarts :=
        maybeUpdateCheck_cases cfg snap w.sup
      · rw [hstarts] at hsup
        exact (hpolled.start hrx hdue hreads.1 hreads.2.1).congr hsup (by simp [hstarts]) le_rfl
      · rw [hstarts] at hsup
        exact hpolled.congr hsup (by simp [hstarts]) hclock
    · cases hstep
  · rename_i hchecks
    rw [if_neg hchecks] at hsup
    cases hstep
    exact h.congr hsup rfl le_rfl

theorem Inv.step {e : WatchEvent} (h : Inv cfg w) (hstep : w.step cfg inv e = some w') : Inv cfg w' := by
  cases e with
  | cycle snap => exact h.cycle hstep
  | finish i result => exact h.endThread hstep
  | die i => exact h.endThread hstep

theorem Inv.running_le_one (h : Inv cfg w) : w.checks.countP (·.stage = .running) ≤ 1 := by
  cases hchecks : w.checks with
  | nil => simp
  | cons newest older =>
      have holder := h.older
      rw [hchecks] at holder
      have hnone : older.countP (·.stage = .running) = 0 := by
        rw [List.countP_eq_zero]
        intro c hc
        simp [holder c hc]
      rw [List.countP_cons, hnone]
      split <;> simp

end Watch

/-! ### The result -/

/-- What holds of the background checks whatever the order in which their threads end. -/
structure PassiveChecks (cfg : Config) (w : Watch) : Prop where
  inFlight : w.checks.countP (·.stage = .running) ≤ 1
  appliedOnce : ∀ c ∈ w.checks, c.received.length ≤ 1
  spaced : w.checks.Pairwise fun newer older => older.startedAt + updateInterval cfg ≤ newer.startedAt
  latest : w.sup.latestVersion = none ∨ ∃ v, w.sup.latestVersion = some v ∧
    cmpVersions v currentVersion = .gt ∧ ∃ c ∈ w.checks, some v ∈ c.received

theorem passiveChecks_of_exec {cfg : Config} {inv : Invocation} {w : Watch} {events : List WatchEvent}
    (hexec : Transition.exec (Watch.step cfg inv) Watch.init events = some w) : PassiveChecks cfg w := by
  have hinv : w.Inv cfg :=
    Transition.Reachable.invariant (fun _ _ _ h hstep => h.step hstep) Watch.Inv.init ⟨events, hexec⟩
  refine ⟨hinv.running_le_one, fun c hc => (hinv.received c hc).1, hinv.spaced, ?_⟩
  cases hlatest : w.sup.latestVersion with
  | none => exact Or.inl rfl
  | some v =>
      obtain ⟨hnewer, hreceived⟩ := hinv.latest v hlatest
      exact Or.inr ⟨v, rfl, eq_of_beq hnewer, hreceived⟩

def watchSnapshot (t : Instant) (channel : TryRecv) : Snapshot :=
  { roomySnapshot [] [] with clock := fun _ => t, updateChannel := channel }

/-- The first check dies. The second, a day later, finds a release. -/
def twoChecks : List WatchEvent :=
  [.cycle (watchSnapshot 0 .empty), .cycle (watchSnapshot 15000000000 .empty), .die 0,
    .cycle (watchSnapshot 30000000000 .disconnected), .cycle (watchSnapshot 86400000000000 .empty),
    .finish 0 (some "0.2.0"), .cycle (watchSnapshot 86415000000000 (.received (some "0.2.0")))]

def twoChecksWatch : Watch :=
  (Transition.exec (Watch.step (configWith [smallPool]) daemonCall) Watch.init twoChecks).getD Watch.init

theorem passiveChecks_twoChecks :
    Transition.exec (Watch.step (configWith [smallPool]) daemonCall) Watch.init twoChecks =
      some twoChecksWatch ∧
    twoChecksWatch.sup.latestVersion = some "0.2.0" ∧
    twoChecksWatch.checks =
      [⟨86400000000000, .ended, [some "0.2.0"]⟩, ⟨0, .ended, []⟩] ∧
    PassiveChecks (configWith [smallPool]) twoChecksWatch := by
  have hsome : (Transition.exec (Watch.step (configWith [smallPool]) daemonCall)
      Watch.init twoChecks).isSome = true := by decide +kernel
  have hexec : Transition.exec (Watch.step (configWith [smallPool]) daemonCall) Watch.init twoChecks =
      some twoChecksWatch := by
    obtain ⟨w, hw⟩ := Option.isSome_iff_exists.mp hsome
    rw [twoChecksWatch, hw, Option.getD_some]
  exact ⟨hexec, by decide +kernel, by decide +kernel, passiveChecks_of_exec hexec⟩

end VmFleet
