import VmFleet.Library.Timeline
import VmFleet.Source.WorkerLife

/-!
# How long a runner must be unhealthy

The monitor keeps the time of the first unhealthy reading since the runner was last online. It measures
the grace from there by the clock, so that the time in which GitHub could not be asked is counted with the
rest as soon as the next reading is unhealthy.
-/

namespace VmFleet

namespace WorkerLife

open Timeline

/-! ### Readings -/

def isOnline (own : String) (round : HealthRound) : Bool :=
  match runnerState own round.listed with
  | .online => true
  | .offline | .absent | .unknown => false

def isUnhealthy (own : String) (round : HealthRound) : Bool :=
  match runnerState own round.listed with
  | .online | .unknown => false
  | .offline | .absent => true

/-- What the monitor sees while the child runs. Each reading has one time. -/
structure Watched where
  rounds : List HealthRound
  alive : ∀ r ∈ rounds, r.childRuns = true
  atOnce : ∀ r ∈ rounds, r.compared = r.found
  ordered : rounds.Pairwise fun a b => a.found ≤ b.found

section

variable (own : String) (grace : UInt64) (rounds : List HealthRound)

/-- The readings after the last that finds the runner online. -/
def sinceOnline : List HealthRound := rounds.rtakeWhile fun r => !isOnline own r

/-- Of these, the ones from the first unhealthy one on. -/
def spell : List HealthRound := (sinceOnline own rounds).dropWhile fun r => !isUnhealthy own r

/-- The time between neighbours that are both unhealthy, since the runner was last online. -/
def countedTime : Nat :=
  between HealthRound.found (fun a b => isUnhealthy own a && isUnhealthy own b) (sinceOnline own rounds)

/-- The time between the other neighbours, from the first unhealthy reading on: one of the two could not
ask GitHub. -/
def unknownTime : Nat :=
  between HealthRound.found (fun a b => !(isUnhealthy own a && isUnhealthy own b)) (spell own rounds)

/-- The time since the first unhealthy reading. -/
def unhealthyFor : Nat := span HealthRound.found (spell own rounds)

/-- The last reading is unhealthy, and the grace has passed since the first such one. -/
def Overdue : Prop :=
  ∃ r ∈ rounds.getLast?, isUnhealthy own r = true ∧ fromSecs grace ≤ unhealthyFor own rounds

/-- The readings are the first overdue ones. -/
def FirstOverdue : Prop :=
  Overdue own grace rounds ∧ ∀ l, l <+: rounds → l ≠ rounds → ¬ Overdue own grace l

/-- How the monitor ends on these readings. -/
def monitored : Except Stop Unit :=
  (StateT.run (ExceptT.run (healthMonitor own grace none rounds)) { runChild := true }).1

/-- It ends at the last of them. -/
def Recycles : Prop :=
  monitored own grace rounds = .ok () ∧
    ∀ l, l <+: rounds → l ≠ rounds → monitored own grace l = .error .waiting

end

/-! ### The one timestamp -/

variable {own : String} {grace : UInt64} {pre rounds : List HealthRound} {r : HealthRound}

theorem isOnline_of_isUnhealthy (h : isUnhealthy own r = true) : isOnline own r = false := by
  rw [isUnhealthy] at h
  rw [isOnline]
  cases hstate : runnerState own r.listed with
  | online => rw [hstate] at h; cases h
  | unknown => rfl
  | offline => rfl
  | absent => rfl

theorem sinceOnline_concat : sinceOnline own (pre ++ [r]) =
    if isOnline own r then [] else sinceOnline own pre ++ [r] := by
  rw [sinceOnline, List.rtakeWhile_concat]
  cases isOnline own r with
  | true => rfl
  | false => rfl

theorem spell_of_online (h : isOnline own r = true) : spell own (pre ++ [r]) = [] := by
  rw [spell, sinceOnline_concat, h]
  rfl

theorem spell_of_not_online (h : isOnline own r = false) : spell own (pre ++ [r]) =
    if (spell own pre).isEmpty then (if isUnhealthy own r then [r] else []) else spell own pre ++ [r] := by
  rw [spell, sinceOnline_concat, h, if_neg (by decide), List.dropWhile_append, ← spell]
  congr 1
  cases hr : isUnhealthy own r with
  | true => rw [List.dropWhile_cons_of_neg (by simp [hr])]; rfl
  | false => rw [List.dropWhile_cons_of_pos (by simp [hr])]; rfl

/-- The timestamp of the monitor. -/
def unhealthySince (own : String) (rounds : List HealthRound) : Option Instant :=
  rounds.foldl (unhealthyAfter own) none

theorem unhealthySince_concat :
    unhealthySince own (pre ++ [r]) = unhealthyAfter own (unhealthySince own pre) r := by
  rw [unhealthySince, List.foldl_append]
  rfl

theorem unhealthyAfter_eq (since : Option Instant) : unhealthyAfter own since r =
    if isOnline own r then none else if isUnhealthy own r then some (since.getD r.found) else since := by
  rw [unhealthyAfter, isOnline, isUnhealthy]
  cases runnerState own r.listed with
  | online => rfl
  | unknown => rfl
  | offline => rfl
  | absent => rfl

theorem recycles_eq (since : Option Instant) : recycles own grace since r =
    (isUnhealthy own r && decide (fromSecs grace ≤ r.compared - since.getD r.found)) := by
  rw [recycles, isUnhealthy]
  cases runnerState own r.listed with
  | online => exact (Bool.false_and _).symm
  | unknown => exact (Bool.false_and _).symm
  | offline => exact (Bool.true_and _).symm
  | absent => exact (Bool.true_and _).symm

/-- **The timestamp is the time of the first unhealthy reading since the runner was last online.** -/
theorem unhealthySince_eq (own : String) (rounds : List HealthRound) :
    unhealthySince own rounds = (spell own rounds).head?.map HealthRound.found := by
  induction rounds using List.reverseRecOn with
  | nil => rfl
  | append_singleton pre r ih =>
      rw [unhealthySince_concat, unhealthyAfter_eq, ih]
      cases honline : isOnline own r with
      | true =>
          rw [spell_of_online honline]
          rfl
      | false =>
          rw [spell_of_not_online honline]
          cases hspell : spell own pre with
          | nil =>
              cases isUnhealthy own r with
              | true => rfl
              | false => rfl
          | cons first rest =>
              cases isUnhealthy own r with
              | true => rfl
              | false => rfl

/-- A reading is compared with the grace exactly where it is overdue. -/
theorem recycles_iff_overdue (hatOnce : r.compared = r.found) :
    recycles own grace (unhealthySince own pre) r = true ↔ Overdue own grace (pre ++ [r]) := by
  have hlast : Overdue own grace (pre ++ [r]) ↔
      isUnhealthy own r = true ∧ fromSecs grace ≤ unhealthyFor own (pre ++ [r]) := by
    rw [Overdue, List.getLast?_concat]
    simp
  rw [hlast, recycles_eq, Bool.and_eq_true, decide_eq_true_iff, hatOnce, unhealthySince_eq]
  refine and_congr_right fun hunhealthy => ?_
  have hspan : unhealthyFor own (pre ++ [r]) =
      r.found - ((spell own pre).head?.map HealthRound.found).getD r.found := by
    rw [unhealthyFor, spell_of_not_online (isOnline_of_isUnhealthy hunhealthy), hunhealthy]
    cases hspell : spell own pre with
    | nil => rfl
    | cons first rest => exact span_concat first rfl
  rw [hspan]

/-! ### The loop -/

theorem healthMonitor_cons (since : Option Instant) (rest : List HealthRound) (s : LifeState)
    (hchild : s.runChild = true) (halive : r.childRuns = true) :
    StateT.run (ExceptT.run (healthMonitor own grace since (r :: rest))) s =
      if recycles own grace since r then (.ok (), s)
      else StateT.run (ExceptT.run (healthMonitor own grace (unhealthyAfter own since r) rest)) s := by
  have hruns : StateT.run (ExceptT.run (childAlive r.childRuns)) s = (.ok true, s) := by
    show ((Except.ok (s.runChild && r.childRuns) : Except Stop Bool), s) = _
    rw [hchild, halive]
    rfl
  rw [healthMonitor, ExceptT.run_bind, StateT.run_bind, hruns]
  show StateT.run (ExceptT.run (if recycles own grace since r then pure () else
    healthMonitor own grace (unhealthyAfter own since r) rest)) s = _
  cases recycles own grace since r with
  | true => rfl
  | false => rfl

/-- Some reading ends the loop that is entered with this timestamp. -/
def EndsIn (own : String) (grace : UInt64) (since : Option Instant) (rounds : List HealthRound) : Prop :=
  ∃ pre r, pre ++ [r] <+: rounds ∧ recycles own grace (pre.foldl (unhealthyAfter own) since) r = true

theorem endsIn_cons (since : Option Instant) (rest : List HealthRound) :
    EndsIn own grace since (r :: rest) ↔
      recycles own grace since r = true ∨ EndsIn own grace (unhealthyAfter own since r) rest := by
  constructor
  · rintro ⟨pre, r', hfront, hrecycles⟩
    cases pre with
    | nil =>
        rw [List.nil_append, List.cons_prefix_cons] at hfront
        rw [hfront.1] at hrecycles
        exact .inl hrecycles
    | cons first pre =>
        rw [List.cons_append, List.cons_prefix_cons] at hfront
        obtain ⟨rfl, hfront⟩ := hfront
        exact .inr ⟨pre, r', hfront, hrecycles⟩
  · rintro (hrecycles | ⟨pre, r', hfront, hrecycles⟩)
    · exact ⟨[], r, List.cons_prefix_cons.mpr ⟨rfl, List.nil_prefix⟩, hrecycles⟩
    · exact ⟨r :: pre, r', List.cons_prefix_cons.mpr ⟨rfl, hfront⟩, hrecycles⟩

theorem healthMonitor_cases (since : Option Instant) (s : LifeState) (hchild : s.runChild = true)
    (halive : ∀ r ∈ rounds, r.childRuns = true) :
    ((StateT.run (ExceptT.run (healthMonitor own grace since rounds)) s).1 = .ok () ∧
      EndsIn own grace since rounds) ∨
    ((StateT.run (ExceptT.run (healthMonitor own grace since rounds)) s).1 = .error .waiting ∧
      ¬ EndsIn own grace since rounds) := by
  induction rounds generalizing since with
  | nil =>
      refine .inr ⟨rfl, ?_⟩
      rintro ⟨pre, r, hfront, -⟩
      exact List.concat_ne_nil _ _ (List.prefix_nil.mp hfront)
  | cons r rest ih =>
      obtain ⟨hr, hrest⟩ := List.forall_mem_cons.mp halive
      rw [healthMonitor_cons since rest s hchild hr, endsIn_cons]
      cases hrecycles : recycles own grace since r with
      | true => exact .inl ⟨rfl, .inl rfl⟩
      | false =>
          have hnot : (false = true ∨ EndsIn own grace (unhealthyAfter own since r) rest) ↔
              EndsIn own grace (unhealthyAfter own since r) rest := or_iff_right Bool.false_ne_true
          rw [hnot]
          exact ih (unhealthyAfter own since r) hrest

theorem endsIn_iff_overdue (hatOnce : ∀ r ∈ rounds, r.compared = r.found) :
    EndsIn own grace none rounds ↔ ∃ l, l <+: rounds ∧ Overdue own grace l := by
  constructor
  · rintro ⟨pre, r, hfront, hrecycles⟩
    have hr : r ∈ rounds := hfront.subset List.mem_concat_self
    exact ⟨pre ++ [r], hfront, (recycles_iff_overdue (hatOnce r hr)).mp hrecycles⟩
  · rintro ⟨l, hfront, hoverdue⟩
    rcases List.eq_nil_or_concat l with rfl | ⟨pre, r, rfl⟩
    · obtain ⟨r, hlast, -⟩ := hoverdue
      cases hlast
    · rw [List.concat_eq_append] at hfront hoverdue
      have hr : r ∈ rounds := hfront.subset List.mem_concat_self
      exact ⟨pre, r, hfront, (recycles_iff_overdue (hatOnce r hr)).mpr hoverdue⟩

namespace Watched

variable (w : Watched) {l : List HealthRound}

theorem monitored_cases (own : String) (grace : UInt64) (hl : l <+: w.rounds) :
    (monitored own grace l = .ok () ∧ ∃ l', l' <+: l ∧ Overdue own grace l') ∨
      (monitored own grace l = .error .waiting ∧ ¬ ∃ l', l' <+: l ∧ Overdue own grace l') := by
  have hatOnce : ∀ r ∈ l, r.compared = r.found := fun r hr => w.atOnce r (hl.subset hr)
  rw [← endsIn_iff_overdue hatOnce]
  exact healthMonitor_cases none _ rfl fun r hr => w.alive r (hl.subset hr)

/-- The monitor recycles at the first overdue reading. -/
theorem recycles_iff_firstOverdue (hl : l <+: w.rounds) :
    Recycles own grace l ↔ FirstOverdue own grace l := by
  constructor
  · rintro ⟨hends, hwaits⟩
    have hbefore : ∀ l', l' <+: l → l' ≠ l → ¬ Overdue own grace l' := by
      intro l' hfront hne hoverdue
      rcases w.monitored_cases own grace (hfront.trans hl) with ⟨hok, -⟩ | ⟨-, hnone⟩
      · rw [hwaits l' hfront hne] at hok
        cases hok
      · exact hnone ⟨l', List.prefix_rfl, hoverdue⟩
    rcases w.monitored_cases own grace hl with ⟨-, l', hfront, hoverdue⟩ | ⟨hwaiting, -⟩
    · by_cases heq : l' = l
      · rw [heq] at hoverdue
        exact ⟨hoverdue, hbefore⟩
      · exact absurd hoverdue (hbefore l' hfront heq)
    · rw [hends] at hwaiting
      cases hwaiting
  · rintro ⟨hoverdue, hbefore⟩
    refine ⟨?_, fun l' hfront hne => ?_⟩
    · rcases w.monitored_cases own grace hl with ⟨hok, -⟩ | ⟨-, hnone⟩
      · exact hok
      · exact absurd ⟨l, List.prefix_rfl, hoverdue⟩ hnone
    · rcases w.monitored_cases own grace (hfront.trans hl) with ⟨-, l'', hfront', hearlier⟩ | ⟨hwaiting, -⟩
      · have hne' : l'' ≠ l := by
          rintro rfl
          exact hne (hfront.eq_of_length_le hfront'.length_le)
        exact absurd hearlier (hbefore l'' (hfront'.trans hfront) hne')
      · exact hwaiting

theorem counted_add_unknown (hl : l <+: w.rounds) :
    countedTime own l + unknownTime own l = unhealthyFor own l := by
  have hsub : (spell own l).Sublist w.rounds :=
    (List.dropWhile_sublist _).trans ((List.rtakeWhile_suffix _ _).sublist.trans hl.sublist)
  have hcounted : countedTime own l =
      between HealthRound.found (fun a b => isUnhealthy own a && isUnhealthy own b) (spell own l) := by
    refine (between_dropWhile (fun a b ha => ?_) _).symm
    rw [Bool.not_eq_true'] at ha
    rw [ha, Bool.false_and]
  rw [hcounted]
  exact between_add_between _ (w.ordered.sublist hsub)

/-- **When the monitor recycles no runner before its grace.** -/
theorem recycles_after_grace_iff (own : String) (grace : UInt64) :
    (∀ l, l <+: w.rounds → Recycles own grace l → fromSecs grace ≤ countedTime own l) ↔
      ∀ l, l <+: w.rounds → FirstOverdue own grace l →
        fromSecs grace + unknownTime own l ≤ unhealthyFor own l := by
  refine forall_congr' fun l => forall_congr' fun hl => ?_
  rw [w.recycles_iff_firstOverdue hl, ← w.counted_add_unknown hl, Nat.add_le_add_iff_right]

end Watched

/-! ### An outage between two readings -/

def readAt (listed : Except String (List Runner)) (t : Instant) : HealthRound := ⟨true, listed, t, t⟩

/-- GitHub cannot be asked for 90 seconds, and the runner is absent before and after. -/
def outage : Watched where
  rounds := [readAt (.ok []) 0, readAt (.error "timed out") 30000000000,
    readAt (.error "timed out") 60000000000, readAt (.ok []) 90000000000]
  alive := by decide
  atOnce := by decide
  ordered := by decide

theorem outage_recycled : ¬ ∀ l, l <+: outage.rounds → Recycles "vmfleet-ci-100-1700000000-4242" 90 l →
    fromSecs 90 ≤ countedTime "vmfleet-ci-100-1700000000-4242" l := by
  intro h
  have hwaits : ∀ n < 4, monitored "vmfleet-ci-100-1700000000-4242" 90 (outage.rounds.take n) =
      .error .waiting := by
    intro n hn
    obtain rfl | rfl | rfl | rfl : n = 0 ∨ n = 1 ∨ n = 2 ∨ n = 3 := by omega
    all_goals rfl
  have hrecycles : Recycles "vmfleet-ci-100-1700000000-4242" 90 outage.rounds := by
    refine ⟨rfl, fun l hfront hne => ?_⟩
    have hlength : l.length < 4 := by
      refine lt_of_le_of_ne hfront.length_le fun heq => hne (hfront.eq_of_length heq)
    rw [List.prefix_iff_eq_take.mp hfront]
    exact hwaits l.length hlength
  exact absurd (h outage.rounds List.prefix_rfl hrecycles) (by decide +kernel)

end WorkerLife

end VmFleet
