import VmFleet.Source.Queue
import VmFleet.Library.Counting
import VmFleet.Library.Transition
import VmFleet.Proof.LaunchSafety

/-!
# How old the queue is

The busy count is that of the cycle, the queue count that of the last cycle that scanned the queue. A
job that is picked up in between is in both, so the desired count keeps to the jobs that run now and
those that were queued at the last scan. In a cycle that scans the queue itself no job is in both.
-/

namespace VmFleet

/-! ### What `queued_labels` counts -/

theorem bump_getD (out : String → Option UInt32) (l k : String) :
    (bump out l k).getD 0 = (out k).getD 0 + if k = l then 1 else 0 := by
  rw [bump]
  split
  · rfl
  · rw [UInt32.add_zero]

theorem foldl_bump_toNat (labels : List String) (out : String → Option UInt32) (k : String) :
    ((labels.foldl bump out k).getD 0).toNat = (((out k).getD 0).toNat + labels.count k) % 2 ^ 32 := by
  induction labels generalizing out with
  | nil =>
      rw [List.foldl_nil, List.count_nil, Nat.add_zero, Nat.mod_eq_of_lt (UInt32.toNat_lt _)]
  | cons l ls ih =>
      rw [List.foldl_cons, ih, bump_getD, List.count_cons, UInt32.toNat_add]
      by_cases hkl : k = l
      · subst hkl
        rw [if_pos rfl, if_pos (beq_self_eq_true k)]
        have hone : (1 : UInt32).toNat = 1 := rfl
        omega
      · rw [if_neg hkl, if_neg (by rw [beq_iff_eq]; exact fun h => hkl h.symm)]
        have hzero : (0 : UInt32).toNat = 0 := rfl
        omega

/-- The labels a job adds to the counts. -/
def Job.counted (job : Job) : List String := if job.status = "queued" then job.labels else []

theorem countJob_eq (out : String → Option UInt32) (job : Job) :
    countJob out job = job.counted.foldl bump out := by
  rw [countJob, Job.counted]
  split
  · rfl
  · rfl

/-- The labels the jobs of a run add to the counts. -/
def countedIn (jobs : UInt64 → Except String (List Job)) (run : UInt64) : List String :=
  match jobs run with
  | .ok js => js.flatMap Job.counted
  | .error _ => []

theorem countRun_eq (jobs : UInt64 → Except String (List Job)) (out : String → Option UInt32)
    (run : UInt64) : countRun jobs out run = (countedIn jobs run).foldl bump out := by
  rw [countRun, countedIn]
  cases jobs run with
  | error message => rfl
  | ok js =>
      dsimp only
      rw [List.foldl_flatMap]
      congr
      funext out job
      exact countJob_eq out job

theorem queuedLabels_toNat (rs : List UInt64) (jobs : UInt64 → Except String (List Job)) (l : String) :
    ((queuedLabels true (.ok rs) jobs l).getD 0).toNat =
      (rs.map fun run => (countedIn jobs run).count l).sum % 2 ^ 32 := by
  have hfold : queuedLabels true (.ok rs) jobs =
      (rs.flatMap (countedIn jobs)).foldl bump fun _ => none := by
    rw [List.foldl_flatMap]
    show rs.foldl (countRun jobs) (fun _ => none) = _
    congr
    funext out run
    exact countRun_eq jobs out run
  have hzero : ((none : Option UInt32).getD 0).toNat = 0 := rfl
  rw [hfold, foldl_bump_toNat, hzero, Nat.zero_add, List.count_flatMap]
  rfl

theorem queuedLabels_le (isRepo : Bool) (runs : Except String (List UInt64))
    (jobs : UInt64 → Except String (List Job)) (l : String) {n : Nat}
    (hle : ∀ rs, runs = .ok rs → (rs.map fun run => (countedIn jobs run).count l).sum ≤ n) :
    ((queuedLabels isRepo runs jobs l).getD 0).toNat ≤ n := by
  cases isRepo with
  | false => exact Nat.zero_le _
  | true =>
      cases runs with
      | error message => exact Nat.zero_le _
      | ok rs =>
          rw [queuedLabels_toNat]
          exact (Nat.mod_le _ _).trans (hle rs rfl)

/-! ### The jobs of a pool -/

/-- The jobs of a list that are queued for one of the pool's labels. -/
def Pool.queuedFor (p : Pool) (jobs : List HubJob) : List Nat :=
  (jobs.filter fun j => j.queued && p.labels.any (· ∈ j.labels)).map (·.id)

/-- The jobs that run on one of the pool's runners. -/
def Pool.runningOn (p : Pool) (h : Hub) : List Nat :=
  (h.jobs.filter fun j => (p.mine h.runners).any fun r => j.runner == some r.name).map (·.id)

theorem Hub.map_name_runners (h : Hub) : h.runners.map (·.name) = h.records.map (·.name) := by
  rw [Hub.runners, List.map_map]
  rfl

theorem Hub.exists_job_of_busy {h : Hub} {r : Runner} (hr : r ∈ h.runners) (hbusy : r.busy = true) :
    ∃ j ∈ h.jobs, j.runner = some r.name := by
  obtain ⟨record, _, rfl⟩ := List.mem_map.mp hr
  obtain ⟨j, hj, hrunner⟩ := List.any_eq_true.mp (show h.busyOn record.name = true from hbusy)
  exact ⟨j, hj, beq_iff_eq.mp hrunner⟩

/-- Every busy runner of the pool has a job of its own. -/
theorem length_busyRunners_le {p : Pool} {h : Hub} (hnames : (h.records.map (·.name)).Nodup) :
    (p.busyRunners h.runners).length ≤ (p.runningOn h).length := by
  have hnodup : ((p.busyRunners h.runners).map fun r => some r.name).Nodup := by
    have hsome : ((h.runners.map (·.name)).map some).Nodup := by
      apply List.Nodup.map (Option.some_injective _)
      rw [Hub.map_name_runners]
      exact hnames
    rw [List.map_map] at hsome
    refine hsome.sublist (List.Sublist.map _ ?_)
    exact List.filter_sublist.trans List.filter_sublist
  have hsub : ((p.busyRunners h.runners).map fun r => some r.name) ⊆
      (h.jobs.filter fun j => (p.mine h.runners).any fun r => j.runner == some r.name).map (·.runner) := by
    intro name hname
    obtain ⟨r, hr, rfl⟩ := List.mem_map.mp hname
    obtain ⟨hmine, hflags⟩ := List.mem_filter.mp hr
    have hbusy : r.busy = true := by
      rw [Bool.and_eq_true] at hflags
      exact hflags.2
    obtain ⟨j, hj, hrunner⟩ := Hub.exists_job_of_busy (List.mem_filter.mp hmine).1 hbusy
    refine List.mem_map.mpr ⟨j, List.mem_filter.mpr ⟨hj, ?_⟩, hrunner⟩
    exact List.any_eq_true.mpr ⟨r, hmine, beq_iff_eq.mpr hrunner⟩
  have hlength := (List.subperm_of_subset hnodup hsub).length_le
  rw [List.length_map, List.length_map] at hlength
  rw [Pool.runningOn, List.length_map]
  exact hlength

/-- A job that names each of its labels once is counted once for a label. -/
theorem count_labels_le {p : Pool} {jobs : List HubJob} {l : String} (hl : l ∈ p.labels)
    (hqueued : ∀ j ∈ jobs, j.queued = true) (honce : ∀ j ∈ jobs, j.labels.Nodup) :
    (jobs.flatMap (·.labels)).count l ≤ (p.queuedFor jobs).length := by
  rw [Pool.queuedFor, List.length_map, ← List.countP_eq_length_filter, List.count_flatMap]
  induction jobs with
  | nil => exact le_rfl
  | cons j js ih =>
      have hrest := ih (fun j hj => hqueued j (List.mem_cons_of_mem _ hj))
        (fun j hj => honce j (List.mem_cons_of_mem _ hj))
      rw [List.map_cons, List.sum_cons, List.countP_cons, Function.comp_apply]
      by_cases hmem : l ∈ j.labels
      · have hcounted : (j.queued && p.labels.any (· ∈ j.labels)) = true := by
          rw [Bool.and_eq_true]
          refine ⟨hqueued j List.mem_cons_self, List.any_eq_true.mpr ⟨l, hl, ?_⟩⟩
          exact decide_eq_true hmem
        have hone := List.nodup_iff_count_le_one.mp (honce j List.mem_cons_self) l
        rw [if_pos hcounted]
        omega
      · rw [List.count_eq_zero_of_not_mem hmem]
        omega

theorem queuedFor_filter_queued (p : Pool) (jobs : List HubJob) :
    p.queuedFor (jobs.filter HubJob.queued) = p.queuedFor jobs := by
  rw [Pool.queuedFor, Pool.queuedFor, List.filter_filter]
  congr 2
  funext j
  cases j.queued <;> simp

/-- No job is both queued and running. -/
theorem nodup_queued_append_running {p : Pool} {h : Hub} (hids : (h.jobs.map (·.id)).Nodup) :
    (p.queuedFor h.jobs ++ p.runningOn h).Nodup := by
  have hinj : ∀ a ∈ h.jobs, ∀ b ∈ h.jobs, a.id = b.id → a = b :=
    fun a ha b hb => List.inj_on_of_nodup_map hids ha hb
  rw [Pool.queuedFor, Pool.runningOn, List.nodup_append]
  refine ⟨hids.sublist (List.filter_sublist.map _), hids.sublist (List.filter_sublist.map _), ?_⟩
  intro id hq id' hr heq
  obtain ⟨j, hj, rfl⟩ := List.mem_map.mp hq
  obtain ⟨j', hj', rfl⟩ := List.mem_map.mp hr
  obtain ⟨hmem, hflags⟩ := List.mem_filter.mp hj
  obtain ⟨hmem', hruns⟩ := List.mem_filter.mp hj'
  have hsame : j = j' := hinj j hmem j' hmem' heq
  rw [Bool.and_eq_true, HubJob.queued, Option.isNone_iff_eq_none, hsame] at hflags
  obtain ⟨r, _, hrunner⟩ := List.any_eq_true.mp hruns
  rw [hflags.1] at hrunner
  cases hrunner

/-! ### One scan -/

theorem counted_listing (j : HubJob) : j.listing.counted = if j.queued = true then j.labels else [] := by
  rw [HubJob.listing, Job.counted]
  by_cases hqueued : j.queued = true
  · rw [if_pos hqueued, if_pos rfl, if_pos hqueued]
  · rw [if_neg hqueued, if_neg (show ¬ "in_progress" = "queued" by decide), if_neg hqueued]

theorem sum_count_listing (jobs : List HubJob) (l : String) :
    (jobs.map fun j => j.listing.counted.count l).sum =
      ((jobs.filter HubJob.queued).flatMap (·.labels)).count l := by
  rw [List.count_flatMap]
  induction jobs with
  | nil => rfl
  | cons j js ih =>
      rw [List.map_cons, List.sum_cons, ih, List.filter_cons, counted_listing]
      by_cases hqueued : j.queued = true
      · rw [if_pos hqueued, if_pos hqueued, List.map_cons, List.sum_cons]
        rfl
      · rw [if_neg hqueued, if_neg hqueued, List.count_nil, Nat.zero_add]

/-- Whether the answer for a run shows the job. -/
def Reading.shows (read : Reading) (run : UInt64) (j : HubJob) : Bool :=
  match read.shown run with
  | .ok ids => decide (j.run = run ∧ j.id ∈ ids)
  | .error _ => false

theorem Reading.run_eq_of_shows {read : Reading} {run : UInt64} {j : HubJob}
    (h : read.shows run j = true) : j.run = run := by
  rw [Reading.shows] at h
  split at h
  · exact (of_decide_eq_true h).1
  · cases h

theorem count_countedIn (read : Reading) (h : Hub) (run : UInt64) (l : String) :
    (countedIn (fun run => (read.shown run).map fun ids =>
        (h.jobsOf run ids).map HubJob.listing) run).count l =
      ((h.jobs.filter (read.shows run)).map fun j => j.listing.counted.count l).sum := by
  unfold countedIn Reading.shows
  cases hshown : read.shown run with
  | error message =>
      simp only [Except.map, hshown]
      rw [List.filter_false]
      rfl
  | ok ids =>
      simp only [Except.map, hshown]
      rw [List.flatMap_map, List.count_flatMap]
      rfl

/-- What a scan adds up for a label is at most how often the queued jobs name it. -/
theorem scan_le (cfg : Config) (read : Reading) (h : Hub) (l : String) :
    (((read.snapshot cfg h).queuedLabels l).getD 0).toNat ≤
      ((h.jobs.filter HubJob.queued).flatMap (·.labels)).count l := by
  apply queuedLabels_le
  intro rs hrs
  have hnodup : rs.Nodup := by
    cases hruns : read.runs with
    | error message =>
        rw [hruns] at hrs
        cases hrs
    | ok runs =>
        rw [hruns] at hrs
        cases hrs
        exact List.nodup_dedup _
  have hone : ∀ j ∈ h.jobs, (rs.countP fun run => read.shows run j) ≤ 1 := by
    intro j _
    apply Counting.countP_le_one hnodup
    intro run _ hshows
    exact (Reading.run_eq_of_shows hshows).symm
  rw [List.map_congr_left fun run _ => count_countedIn read h run l, ← sum_count_listing]
  exact Counting.sum_sum_filter_le read.shows _ hone

/-! ### What holds between the cycles -/

/-- The number of cycles from one scan to the next. -/
def scanEvery (cfg : Config) : Nat := max cfg.supervisor.queuedPollEvery.toNat 1

theorem toNat_scanEvery (cfg : Config) :
    (max cfg.supervisor.queuedPollEvery 1).toUInt64.toNat = scanEvery cfg := by
  rw [UInt32.toNat_toUInt64, scanEvery]
  show (if cfg.supervisor.queuedPollEvery ≤ 1 then (1 : UInt32) else _).toNat = _
  have hone : (1 : UInt32).toNat = 1 := rfl
  split
  · next h =>
      have hle := UInt32.le_iff_toNat_le.mp h
      omega
  · next h =>
      have hlt := UInt32.lt_iff_toNat_lt.mp (UInt32.not_le.mp h)
      omega

theorem scansQueue_iff {cfg : Config} {state : SupState} :
    scansQueue cfg state ↔ state.cycle.toNat % scanEvery cfg = 0 := by
  rw [scansQueue, ← UInt64.toNat_inj, UInt64.toNat_mod, toNat_scanEvery]
  rfl

/-- The cached counts are those of the last scan, which is not older than the interval. -/
structure ControlPlane.Inv (cfg : Config) (s : ControlPlane) : Prop where
  ids : (s.hub.jobs.map (·.id)).Nodup
  names : (s.hub.records.map (·.name)).Nodup
  scannedIds : (s.scanned.map (·.id)).Nodup
  scannedQueued : ∀ j ∈ s.scanned, j.queued = true
  cached : ∀ l, ((s.sup.cachedQueued l).getD 0).toNat ≤ (s.scanned.flatMap (·.labels)).count l
  age : s.sup.cycle.toNat = 0 ∨ s.age = (s.sup.cycle.toNat - 1) % scanEvery cfg

/-- An update of some elements that keeps what `f` reads. -/
theorem map_map_update {α β : Type} {f : α → β} {p : α → Prop} [DecidablePred p] {g : α → α}
    (hkept : ∀ a, f (g a) = f a) (xs : List α) :
    (xs.map fun a => if p a then g a else a).map f = xs.map f := by
  rw [List.map_map]
  apply List.map_congr_left
  intro a _
  rw [Function.comp_apply]
  split
  · exact hkept a
  · rfl

theorem Hub.step_nodup {h h' : Hub} {e : HubEvent} (hstep : h.step e = some h')
    (hids : (h.jobs.map (·.id)).Nodup) (hnames : (h.records.map (·.name)).Nodup) :
    (h'.jobs.map (·.id)).Nodup ∧ (h'.records.map (·.name)).Nodup := by
  cases e with
  | queue id run labels =>
      rw [Hub.step] at hstep
      split at hstep
      · next hfresh =>
          cases hstep
          refine ⟨List.nodup_cons.mpr ⟨fun hmem => ?_, hids⟩, hnames⟩
          obtain ⟨j, hj, heq⟩ := List.mem_map.mp hmem
          exact of_decide_eq_true (List.all_eq_true.mp hfresh j hj) heq
      · cases hstep
  | pickUp id name =>
      rw [Hub.step] at hstep
      split at hstep
      · cases hstep
      · cases hstep
        refine ⟨?_, hnames⟩
        dsimp only
        rwa [map_map_update]
        exact fun _ => rfl
  | finish id =>
      cases hstep
      exact ⟨hids.sublist (List.filter_sublist.map _), hnames⟩
  | register record =>
      rw [Hub.step] at hstep
      split at hstep
      · next hfresh =>
          cases hstep
          refine ⟨hids, List.nodup_cons.mpr ⟨fun hmem => ?_, hnames⟩⟩
          obtain ⟨r, hr, heq⟩ := List.mem_map.mp hmem
          exact of_decide_eq_true (List.all_eq_true.mp hfresh r hr) heq
      · cases hstep
  | setStatus name status =>
      cases hstep
      refine ⟨hids, ?_⟩
      dsimp only
      rwa [map_map_update]
      exact fun _ => rfl
  | remove name =>
      cases hstep
      exact ⟨hids, hnames.sublist (List.filter_sublist.map _)⟩

section

variable {cfg : Config} {inv : Invocation} {s s' : ControlPlane}

theorem ControlPlane.inv_init : ControlPlane.init.Inv cfg where
  ids := List.nodup_nil
  names := List.nodup_nil
  scannedIds := List.nodup_nil
  scannedQueued := fun _ hj => absurd hj List.not_mem_nil
  cached := fun _ => Nat.zero_le _
  age := Or.inl rfl

theorem refreshQueued_eq (snap : Snapshot) (state : SupState) :
    refreshQueued cfg snap state =
      if scansQueue cfg state then snap.queuedLabels else state.cachedQueued := rfl

/-- A cycle that reads the runner records. -/
theorem ControlPlane.step_cycle {read : Reading} {pass : Pass}
    (hpass : reconcile cfg inv (read.snapshot cfg s.hub) s.sup = .ok pass) :
    s.step cfg inv (.cycle read) = some { s with
      sup := pass.state
      scanned := if scansQueue cfg s.sup then s.hub.jobs.filter HubJob.queued else s.scanned
      age := if scansQueue cfg s.sup then 0 else s.age + 1 } := by
  rw [ControlPlane.step, hpass]

theorem pred_mod_add_one {c every : Nat} (hevery : 0 < every) (hne : c % every ≠ 0) :
    (c - 1) % every + 1 = c % every := by
  have hlt := Nat.mod_lt c hevery
  have hsplit : c - 1 = c % every - 1 + every * (c / every) := by
    have hdiv := Nat.mod_add_div c every
    omega
  rw [hsplit, Nat.add_mul_mod_self_left, Nat.mod_eq_of_lt (by omega)]
  omega

/-- The age a cycle leaves is where its number stands in the interval. -/
theorem age_of_cycle {c age every : Nat} (hevery : 0 < every)
    (hage : c = 0 ∨ age = (c - 1) % every) :
    (if c % every = 0 then 0 else age + 1) = c % every := by
  split
  · next h => exact h.symm
  · next h =>
      cases hage with
      | inl hzero =>
          rw [hzero, Nat.zero_mod] at h
          exact absurd rfl h
      | inr hage =>
          rw [hage]
          exact pred_mod_add_one hevery h

theorem scanEvery_pos (cfg : Config) : 0 < scanEvery cfg := by
  rw [scanEvery]
  omega

theorem ControlPlane.Inv.age_step (hinv : s.Inv cfg) :
    (if scansQueue cfg s.sup then 0 else s.age + 1) = s.sup.cycle.toNat % scanEvery cfg := by
  rw [← age_of_cycle (scanEvery_pos cfg) hinv.age]
  by_cases hscans : scansQueue cfg s.sup
  · rw [if_pos hscans, if_pos (scansQueue_iff.mp hscans)]
  · rw [if_neg hscans, if_neg (fun h => hscans (scansQueue_iff.mpr h))]

theorem ControlPlane.inv_cycle {read : Reading} {pass : Pass} (hinv : s.Inv cfg)
    (hpass : reconcile cfg inv (read.snapshot cfg s.hub) s.sup = .ok pass) :
    ControlPlane.Inv cfg { s with
      sup := pass.state
      scanned := if scansQueue cfg s.sup then s.hub.jobs.filter HubJob.queued else s.scanned
      age := if scansQueue cfg s.sup then 0 else s.age + 1 } := by
  obtain ⟨runners, _, hspec⟩ := reconcile_spec hpass
  refine ⟨hinv.ids, hinv.names, ?_, ?_, ?_, ?_⟩
  · dsimp only
    split
    · exact hinv.ids.sublist (List.filter_sublist.map _)
    · exact hinv.scannedIds
  · dsimp only
    split
    · intro j hj
      exact (List.mem_filter.mp hj).2
    · exact hinv.scannedQueued
  · intro l
    dsimp only
    rw [hspec.cachedQueued, refreshQueued_eq]
    by_cases hscans : scansQueue cfg s.sup
    · rw [if_pos hscans, if_pos hscans]
      exact scan_le cfg read s.hub l
    · rw [if_neg hscans, if_neg hscans]
      exact hinv.cached l
  · dsimp only
    rw [hspec.cycle, hinv.age_step, UInt64.toNat_add]
    have hone : (1 : UInt64).toNat = 1 := rfl
    have hlt := s.sup.cycle.toNat_lt
    by_cases hwrap : s.sup.cycle.toNat + 1 = 2 ^ 64
    · left
      rw [hone, hwrap, Nat.mod_self]
    · right
      have hnext : (s.sup.cycle.toNat + 1) % 2 ^ 64 = s.sup.cycle.toNat + 1 := Nat.mod_eq_of_lt (by omega)
      rw [hone, hnext, Nat.add_sub_cancel]

theorem ControlPlane.inv_step {e : ControlEvent} (hinv : s.Inv cfg)
    (hstep : s.step cfg inv e = some s') : s'.Inv cfg := by
  cases e with
  | hub e =>
      obtain ⟨hub, hhub, rfl⟩ := Option.map_eq_some_iff.mp hstep
      obtain ⟨hids, hnames⟩ := Hub.step_nodup hhub hinv.ids hinv.names
      exact ⟨hids, hnames, hinv.scannedIds, hinv.scannedQueued, hinv.cached, hinv.age⟩
  | cycle read =>
      cases hpass : reconcile cfg inv (read.snapshot cfg s.hub) s.sup with
      | ok pass =>
          rw [ControlPlane.step_cycle hpass] at hstep
          cases hstep
          exact ControlPlane.inv_cycle hinv hpass
      | error message =>
          rw [ControlPlane.step, hpass] at hstep
          cases hstep
          exact hinv

theorem ControlPlane.inv_of_reachable
    (hreach : Transition.Reachable (ControlPlane.step cfg inv) .init s) : s.Inv cfg :=
  hreach.invariant (fun _ _ _ hinv hstep => ControlPlane.inv_step hinv hstep) ControlPlane.inv_init

end

/-! ### The desired count -/

theorem saturatingAdd_toNat_le (a b : UInt32) : (saturatingAdd a b).toNat ≤ a.toNat + b.toNat := by
  rw [saturatingAdd]
  split
  · rw [UInt32.toNat_add]
    exact Nat.mod_le _ _
  · next h =>
      have hmax : (0xffffffff : UInt32).toNat = 2 ^ 32 - 1 := rfl
      omega

theorem desired_toNat_le {busy queued minWarm max : UInt32} (hmin : minWarm.toNat ≤ max.toNat) :
    (desired busy queued minWarm max).toNat ≤
      min max.toNat (minWarm.toNat + (busy.toNat + queued.toNat)) := by
  have hwant := saturatingAdd_toNat_le (saturatingAdd busy queued) minWarm
  have hsum := saturatingAdd_toNat_le busy queued
  rw [desired]
  split
  · omega
  · split
    · next h =>
        have hlt := UInt32.lt_iff_toNat_lt.mp h
        omega
    · next h =>
        have hle := UInt32.le_iff_toNat_le.mp (UInt32.not_lt.mp h)
        omega

theorem max_eq_or (a b : UInt32) : max a b = a ∨ max a b = b := by
  show (if a ≤ b then b else a) = a ∨ (if a ≤ b then b else a) = b
  split
  · exact Or.inr rfl
  · exact Or.inl rfl

theorem queuedDemand_toNat_le {p : Pool} {queued : String → Option UInt32} {n : Nat}
    (hle : ∀ l ∈ p.labels, ((queued l).getD 0).toNat ≤ n) : (p.queuedDemand queued).toNat ≤ n := by
  rw [Pool.queuedDemand]
  cases hmax : (p.labels.map fun l => (queued l).getD 0).max? with
  | none => exact Nat.zero_le _
  | some m =>
      have : Std.MaxEqOr UInt32 := ⟨max_eq_or⟩
      obtain ⟨l, hl, rfl⟩ := List.mem_map.mp (List.max?_mem hmax)
      exact hle l hl

/-- The runners a pass reads are those GitHub has. -/
theorem Reading.runners_eq {cfg : Config} {read : Reading} {h : Hub} {runners : List Runner}
    (hrunners : (read.snapshot cfg h).runners = .ok runners) : runners = h.runners := by
  cases hread : read.listed with
  | error message =>
      rw [Reading.snapshot, hread] at hrunners
      cases hrunners
  | ok _ =>
      rw [Reading.snapshot, hread] at hrunners
      cases hrunners
      rfl

/-- **The desired count follows the jobs that run and those of the last scan.** -/
theorem desired_le_of_queue_age {cfg : Config} {inv : Invocation} {s s' : ControlPlane} {read : Reading}
    {pass : Pass} {p : Pool} {pp : PoolPass} (hvalid : cfg.validate = .ok ())
    (hreach : Transition.Reachable (ControlPlane.step cfg inv) .init s)
    (hstep : s.step cfg inv (.cycle read) = some s')
    (hpass : reconcile cfg inv (read.snapshot cfg s.hub) s.sup = .ok pass)
    (hpp : (p, pp) ∈ cfg.pools.zip pass.pools) (honce : ∀ j ∈ s'.scanned, j.labels.Nodup) :
    pp.report.desired.toNat ≤ min p.max.toNat (p.minWarm.toNat +
        ((p.runningOn s.hub).dedup.length + (p.queuedFor s'.scanned).dedup.length)) ∧
      s'.age < max cfg.supervisor.queuedPollEvery.toNat 1 ∧
      (s'.age = 0 → pp.report.desired.toNat ≤ min p.max.toNat (p.minWarm.toNat +
        (p.queuedFor s.hub.jobs ++ p.runningOn s.hub).dedup.length)) := by
  have hinv := ControlPlane.inv_of_reachable hreach
  have hage := hinv.age_step
  rw [ControlPlane.step_cycle hpass] at hstep
  cases hstep
  have hnext := ControlPlane.inv_cycle hinv hpass
  obtain ⟨runners, hrunners, hspec⟩ := reconcile_spec hpass
  have hlisted : runners = s.hub.runners := Reading.runners_eq hrunners
  have hp := (List.of_mem_zip hpp).1
  rw [hspec.pools] at hpp
  obtain ⟨_, _, _, rfl⟩ := mem_zip_poolLoop hpp
  have hmin := (Config.valid_of_validate hvalid).minWarm_le p hp
  have hbusy : (p.busy runners).toNat ≤ (p.runningOn s.hub).length := by
    rw [Pool.busy, UInt32.toNat_ofNat', hlisted]
    exact (Nat.mod_le _ _).trans (length_busyRunners_le hinv.names)
  have hqueued : (p.queuedDemand (refreshQueued cfg (read.snapshot cfg s.hub) s.sup)).toNat ≤
      (p.queuedFor (if scansQueue cfg s.sup then s.hub.jobs.filter HubJob.queued else s.scanned)).length := by
    apply queuedDemand_toNat_le
    intro l hl
    rw [← hspec.cachedQueued]
    exact (hnext.cached l).trans (count_labels_le hl hnext.scannedQueued honce)
  have hdesired : (p.want runners (refreshQueued cfg (read.snapshot cfg s.hub) s.sup)).toNat ≤
      min p.max.toNat (p.minWarm.toNat + ((p.busy runners).toNat +
        (p.queuedDemand (refreshQueued cfg (read.snapshot cfg s.hub) s.sup)).toNat)) :=
    desired_toNat_le hmin
  have hrunning : (p.runningOn s.hub).Nodup := hinv.ids.sublist (List.filter_sublist.map _)
  have hscanned : (p.queuedFor (if scansQueue cfg s.sup then s.hub.jobs.filter HubJob.queued
      else s.scanned)).Nodup := hnext.scannedIds.sublist (List.filter_sublist.map _)
  refine ⟨?_, ?_, fun hzero => ?_⟩
  · show (p.want runners (refreshQueued cfg (read.snapshot cfg s.hub) s.sup)).toNat ≤ _
    rw [hrunning.dedup, hscanned.dedup]
    omega
  · dsimp only
    rw [hage]
    exact Nat.mod_lt _ (scanEvery_pos cfg)
  · show (p.want runners (refreshQueued cfg (read.snapshot cfg s.hub) s.sup)).toNat ≤ _
    have hscans : scansQueue cfg s.sup := by
      rw [scansQueue_iff, ← hage]
      exact hzero
    rw [if_pos hscans, queuedFor_filter_queued] at hqueued
    rw [(nodup_queued_append_running hinv.ids).dedup, List.length_append]
    omega

/-! ### A job that is picked up between two scans -/

def spareRecord : Runner :=
  { id := 1, name := vmName "ci" 100 1700000000 4242, status := "online", labels := [⟨"linux"⟩] }

/-- Everything is answered: the run 1 with its job 7. -/
def fullReading : Reading where
  rest := roomySnapshot [] [100]
  listed := .ok ()
  runs := .ok [1]
  shown := fun _ => .ok [7]

/-- The job 7 is queued, seen by the first cycle, and picked up before the second. -/
def pickedUpBetween : List ControlEvent :=
  [.hub (.register spareRecord), .hub (.queue 7 1 ["linux"]), .cycle fullReading,
    .hub (.pickUp 7 spareRecord.name)]

theorem picked_up_job_counted_twice :
    ∃ s pass pp, Transition.exec (ControlPlane.step (configWith [smallPool]) daemonCall) .init
        pickedUpBetween = some s ∧
      reconcile (configWith [smallPool]) daemonCall (fullReading.snapshot (configWith [smallPool]) s.hub)
        s.sup = .ok pass ∧
      (smallPool, pp) ∈ (configWith [smallPool]).pools.zip pass.pools ∧
      ¬ pp.report.desired.toNat ≤ min smallPool.max.toNat (smallPool.minWarm.toNat +
        (smallPool.queuedFor s.hub.jobs ++ smallPool.runningOn s.hub).dedup.length) := by
  refine ⟨_, _, _, rfl, rfl, List.mem_cons_self, ?_⟩
  decide

theorem exists_pickedUpBetween :
    ∃ (s s' : ControlPlane) (pass : Pass) (pp : PoolPass),
      Transition.exec (ControlPlane.step (configWith [smallPool]) daemonCall) .init pickedUpBetween =
          some s ∧
        s.step (configWith [smallPool]) daemonCall (.cycle fullReading) = some s' ∧
        reconcile (configWith [smallPool]) daemonCall
          (fullReading.snapshot (configWith [smallPool]) s.hub) s.sup = .ok pass ∧
        (smallPool, pp) ∈ (configWith [smallPool]).pools.zip pass.pools ∧
        ∀ j ∈ s'.scanned, j.labels.Nodup :=
  ⟨_, _, _, _, rfl, rfl, rfl, List.mem_cons_self, by decide⟩

theorem desired_after_pick_up :
    ∃ (s s' : ControlPlane) (pp : PoolPass),
      s.step (configWith [smallPool]) daemonCall (.cycle fullReading) = some s' ∧
        pp.report.desired.toNat ≤ min smallPool.max.toNat (smallPool.minWarm.toNat +
          ((smallPool.runningOn s.hub).dedup.length + (smallPool.queuedFor s'.scanned).dedup.length)) := by
  obtain ⟨s, s', pass, pp, hexec, hstep, hpass, hpp, honce⟩ := exists_pickedUpBetween
  have hbound := desired_le_of_queue_age (by decide) ⟨pickedUpBetween, hexec⟩ hstep hpass hpp honce
  exact ⟨s, s', pp, hstep, hbound.1⟩

end VmFleet
