import VmFleet.Proof.QueueAge

/-!
# The queued demand of a pool

A scan counts for each label how often the queued jobs name it, and a pool reports the largest count of
its labels. That is the number of jobs its runners could take when the jobs that name a label of the pool
are jobs for the pool, and one label is common to all of them.
-/

namespace VmFleet

/-! ### The jobs a scan gets to see -/

/-- The queued jobs in the answer for a run. -/
def queuedIn (jobs : UInt64 → Except String (List Job)) (run : UInt64) : List Job :=
  match jobs run with
  | .ok js => js.filter fun job => job.status = "queued"
  | .error _ => []

/-- The queued jobs of a scan, those of all runs listed. -/
def queuedJobs (runs : Except String (List UInt64)) (jobs : UInt64 → Except String (List Job)) :
    List Job :=
  match runs with
  | .ok rs => rs.flatMap (queuedIn jobs)
  | .error _ => []

/-- How often the jobs name a label. -/
def namings (js : List Job) (l : String) : Nat := (js.map fun job => job.labels.count l).sum

/-- Every label of the job is one of the pool's, or one of those that GitHub adds to every runner. -/
def Pool.canTake (p : Pool) (added : String → Bool) (job : Job) : Bool :=
  job.labels.all fun l => decide (l ∈ p.labels) || added l

@[simp] theorem namings_nil (l : String) : namings [] l = 0 := rfl

@[simp] theorem namings_cons (job : Job) (js : List Job) (l : String) :
    namings (job :: js) l = job.labels.count l + namings js l := by
  rw [namings, List.map_cons, List.sum_cons]
  rfl

theorem namings_append (js js' : List Job) (l : String) :
    namings (js ++ js') l = namings js l + namings js' l := by
  rw [namings, List.map_append, List.sum_append]
  rfl

theorem namings_flatMap (rs : List UInt64) (f : UInt64 → List Job) (l : String) :
    namings (rs.flatMap f) l = (rs.map fun run => namings (f run) l).sum := by
  induction rs with
  | nil => rfl
  | cons run rs ih =>
      rw [List.flatMap_cons, namings_append, ih, List.map_cons, List.sum_cons]

theorem count_flatMap_counted (js : List Job) (l : String) :
    (js.flatMap Job.counted).count l = namings (js.filter fun job => job.status = "queued") l := by
  induction js with
  | nil => rfl
  | cons job js ih =>
      rw [List.flatMap_cons, List.count_append, ih, Job.counted, List.filter_cons]
      by_cases hqueued : job.status = "queued"
      · simp [hqueued]
      · simp [hqueued]

theorem count_countedIn_eq (jobs : UInt64 → Except String (List Job)) (run : UInt64) (l : String) :
    (countedIn jobs run).count l = namings (queuedIn jobs run) l := by
  unfold countedIn queuedIn
  cases jobs run with
  | error message => rfl
  | ok js => exact count_flatMap_counted js l

/-- The counter of a label is a `u32`. -/
theorem queuedLabels_toNat_eq (runs : Except String (List UInt64))
    (jobs : UInt64 → Except String (List Job)) (l : String) :
    ((queuedLabels true runs jobs l).getD 0).toNat = namings (queuedJobs runs jobs) l % 2 ^ 32 := by
  cases runs with
  | error message => rfl
  | ok rs =>
      have hruns : namings (queuedJobs (.ok rs) jobs) l =
          (rs.map fun run => namings (queuedIn jobs run) l).sum := namings_flatMap rs (queuedIn jobs) l
      rw [queuedLabels_toNat, hruns]
      simp only [count_countedIn_eq]

/-! ### The largest count -/

theorem exists_queuedDemand_eq {p : Pool} (hlabels : p.labels ≠ []) (queued : String → Option UInt32) :
    ∃ l ∈ p.labels, p.queuedDemand queued = (queued l).getD 0 := by
  rw [Pool.queuedDemand]
  cases hmax : (p.labels.map fun l => (queued l).getD 0).max? with
  | none =>
      rw [List.max?_eq_none_iff, List.map_eq_nil_iff] at hmax
      exact absurd hmax hlabels
  | some m =>
      have : Std.MaxEqOr UInt32 := ⟨max_eq_or⟩
      obtain ⟨l, hl, rfl⟩ := List.mem_map.mp (List.max?_mem hmax)
      exact ⟨l, hl, rfl⟩

theorem u32_max_le_iff (a b c : UInt32) : max a b ≤ c ↔ a ≤ c ∧ b ≤ c := by
  show (if a ≤ b then b else a) ≤ c ↔ _
  simp only [UInt32.le_iff_toNat_le]
  split
  · omega
  · omega

theorem le_queuedDemand {p : Pool} {l : String} (hl : l ∈ p.labels) (queued : String → Option UInt32) :
    (queued l).getD 0 ≤ p.queuedDemand queued := by
  rw [Pool.queuedDemand]
  cases hmax : (p.labels.map fun l => (queued l).getD 0).max? with
  | none =>
      rw [List.max?_eq_none_iff, List.map_eq_nil_iff] at hmax
      exact absurd hl (hmax ▸ List.not_mem_nil)
  | some m =>
      have : Std.LawfulOrderSup UInt32 := ⟨u32_max_le_iff⟩
      exact (List.max?_le_iff hmax).mp (UInt32.le_refl m) _ (List.mem_map_of_mem hl)

/-- The demand is the count of a label whose count no other label of the pool exceeds. -/
theorem queuedDemand_toNat_eq {p : Pool} {queued : String → Option UInt32} {n : Nat} {l : String}
    (hl : l ∈ p.labels) (heq : ((queued l).getD 0).toNat = n)
    (hle : ∀ l ∈ p.labels, ((queued l).getD 0).toNat ≤ n) : (p.queuedDemand queued).toNat = n := by
  have hreached := UInt32.le_iff_toNat_le.mp (le_queuedDemand hl queued)
  have hbound := queuedDemand_toNat_le hle
  omega

/-! ### Counting the jobs of a pool -/

section

variable {p : Pool} {added : String → Bool} {js : List Job}

theorem namings_le_countP {l : String}
    (hown : ∀ job ∈ js, l ∈ job.labels → job.labels.count l = 1 ∧ p.canTake added job) :
    namings js l ≤ js.countP (p.canTake added) := by
  induction js with
  | nil => exact le_rfl
  | cons job js ih =>
      have hrest := ih fun job hjob => hown job (List.mem_cons_of_mem _ hjob)
      rw [namings_cons, List.countP_cons]
      by_cases hl : l ∈ job.labels
      · obtain ⟨hcount, htake⟩ := hown job List.mem_cons_self hl
        rw [hcount, if_pos htake]
        omega
      · rw [List.count_eq_zero_of_not_mem hl]
        omega

theorem countP_le_namings {l : String} (hshared : ∀ job ∈ js, p.canTake added job → l ∈ job.labels) :
    js.countP (p.canTake added) ≤ namings js l := by
  induction js with
  | nil => exact le_rfl
  | cons job js ih =>
      have hrest := ih fun job hjob => hshared job (List.mem_cons_of_mem _ hjob)
      rw [namings_cons, List.countP_cons]
      split
      · next htake =>
          have hcount := List.count_pos_iff.mpr (hshared job List.mem_cons_self htake)
          omega
      · omega

end

/-! ### The demand a pass reports -/

/-- **What the queued demand of a pool is.** -/
theorem queued_demand_largest {cfg : Config} {inv : Invocation} {snap : Snapshot} {state : SupState}
    {pass : Pass} {p : Pool} {pp : PoolPass} {runs : Except String (List UInt64)}
    {jobs : UInt64 → Except String (List Job)} (added : String → Bool) (hvalid : cfg.validate = .ok ())
    (hrepo : cfg.github.repo.isSome)
    (hqueued : snap.queuedLabels = queuedLabels cfg.github.repo.isSome runs jobs)
    (hscans : scansQueue cfg state) (hpass : reconcile cfg inv snap state = .ok pass)
    (hpp : (p, pp) ∈ cfg.pools.zip pass.pools) :
    (∃ l ∈ p.labels, pp.report.queued.toNat = namings (queuedJobs runs jobs) l % 2 ^ 32) ∧
      (∀ l ∈ p.labels, namings (queuedJobs runs jobs) l % 2 ^ 32 ≤ pp.report.queued.toNat) ∧
      ((queuedJobs runs jobs).countP (p.canTake added) < 2 ^ 32 →
        (∀ l ∈ p.labels, ∀ job ∈ queuedJobs runs jobs, l ∈ job.labels →
          job.labels.count l = 1 ∧ p.canTake added job) →
        (∃ l ∈ p.labels, ∀ job ∈ queuedJobs runs jobs, p.canTake added job → l ∈ job.labels) →
        pp.report.queued.toNat = (queuedJobs runs jobs).countP (p.canTake added)) := by
  obtain ⟨runners, _, hspec⟩ := reconcile_spec hpass
  have hlabels := (Config.valid_of_validate hvalid).labels_ne_nil p (List.of_mem_zip hpp).1
  rw [hspec.pools] at hpp
  obtain ⟨_, _, _, rfl⟩ := mem_zip_poolLoop hpp
  have hfresh : refreshQueued cfg snap state = queuedLabels true runs jobs := by
    rw [refreshQueued_eq, if_pos hscans, hqueued, hrepo]
  have hreported : ∀ l, ((refreshQueued cfg snap state l).getD 0).toNat =
      namings (queuedJobs runs jobs) l % 2 ^ 32 := by
    intro l
    rw [hfresh]
    exact queuedLabels_toNat_eq runs jobs l
  change (∃ l ∈ p.labels, (p.queuedDemand (refreshQueued cfg snap state)).toNat = _) ∧
    (∀ l ∈ p.labels, _ ≤ (p.queuedDemand (refreshQueued cfg snap state)).toNat) ∧
    (_ → _ → _ → (p.queuedDemand (refreshQueued cfg snap state)).toNat = _)
  refine ⟨?_, ?_, ?_⟩
  · obtain ⟨l, hl, heq⟩ := exists_queuedDemand_eq hlabels (refreshQueued cfg snap state)
    exact ⟨l, hl, by rw [heq, hreported]⟩
  · intro l hl
    rw [← hreported]
    exact UInt32.le_iff_toNat_le.mp (le_queuedDemand hl _)
  · intro hfits hown hshared
    obtain ⟨l, hl, hall⟩ := hshared
    have hsame : namings (queuedJobs runs jobs) l = (queuedJobs runs jobs).countP (p.canTake added) :=
      Nat.le_antisymm (namings_le_countP (hown l hl)) (countP_le_namings hall)
    apply queuedDemand_toNat_eq hl
    · rw [hreported, hsame, Nat.mod_eq_of_lt hfits]
    · intro l' hl'
      rw [hreported]
      exact (Nat.mod_le _ _).trans (namings_le_countP (hown l' hl'))

/-! ### Jobs that differ in their labels -/

def twoLabelPool : Pool := { smallPool with labels := ["linux", "x64"] }

/-- Every runner has the label `self-hosted`. -/
def selfHosted (l : String) : Bool := l == "self-hosted"

/-- One run, with one queued job for each list of labels. -/
def jobsNaming (labels : List (List String)) (_ : UInt64) : Except String (List Job) :=
  .ok (labels.map fun ls => ⟨"queued", ls⟩)

def queueSnapshot (labels : List (List String)) : Snapshot :=
  { roomySnapshot [] [] with queuedLabels := queuedLabels true (.ok [1]) (jobsNaming labels) }

/-- Two jobs that a runner of the pool could take, each by a label of its own. -/
theorem queued_demand_undercounts :
    (configWith [twoLabelPool]).validate = .ok () ∧ (configWith [twoLabelPool]).github.repo.isSome ∧
      scansQueue (configWith [twoLabelPool]) {} ∧
      ∃ (pass : Pass) (pp : PoolPass),
        reconcile (configWith [twoLabelPool]) daemonCall
          (queueSnapshot [["self-hosted", "linux"], ["self-hosted", "x64"]]) {} = .ok pass ∧
        (twoLabelPool, pp) ∈ (configWith [twoLabelPool]).pools.zip pass.pools ∧
        pp.report.queued = 1 ∧
        (queuedJobs (.ok [1]) (jobsNaming [["self-hosted", "linux"], ["self-hosted", "x64"]])).countP
          (twoLabelPool.canTake selfHosted) = 2 := by
  refine ⟨by decide, rfl, rfl, _, _, rfl, List.mem_cons_self, ?_, ?_⟩
  · decide
  · decide

/-- A runner could take either job, and both name the label `linux`. -/
def commonLabel : List (List String) := [["self-hosted", "linux"], ["linux", "x64"]]

theorem queued_demand_largest_common :
    ∃ (pass : Pass) (pp : PoolPass),
      reconcile (configWith [twoLabelPool]) daemonCall (queueSnapshot commonLabel) {} = .ok pass ∧
        pp.report.queued.toNat =
          (queuedJobs (.ok [1]) (jobsNaming commonLabel)).countP (twoLabelPool.canTake selfHosted) := by
  obtain ⟨pass, hpass⟩ : ∃ pass, reconcile (configWith [twoLabelPool]) daemonCall
      (queueSnapshot commonLabel) {} = .ok pass := reconcile_ok rfl
  have hqueued : (queueSnapshot commonLabel).queuedLabels =
      queuedLabels (configWith [twoLabelPool]).github.repo.isSome (.ok [1]) (jobsNaming commonLabel) := rfl
  have hscans : scansQueue (configWith [twoLabelPool]) {} := rfl
  have hdemand := queued_demand_largest selfHosted (by decide) rfl hqueued hscans hpass
    (mem_zip_configWith rfl hpass)
  exact ⟨pass, _, hpass, hdemand.2.2 (by decide) (by decide) (by decide)⟩

end VmFleet
