import VmFleet.Proof.Pass

/-!
# What a pass launches is safe

Which slots a pass may launch into, how many, and with how much memory left. Only the bound by the desired
count needs something of the answers: it rests on `present`, which the source adds up in `u32`, and the
sum fits because the active units are listed by a command.
-/

namespace VmFleet

def Pass.launches (pass : Pass) (cfg : Config) (inv : Invocation) (snap : Snapshot) : Nat :=
  ((cfg.pools.zip pass.pools).map fun x => (x.2.started inv snap x.1).length).sum

def Pool.activeAfter (p : Pool) (activeSlots started : List Nat) : List Nat :=
  (p.active activeSlots ++ started).dedup

/-- What a pass owes the fleet for the workers it launches. -/
structure SafeLaunches (cfg : Config) (inv : Invocation) (snap : Snapshot) (inp : PoolInput)
    (pass : Pass) : Prop where
  distinct : (pass.pools.flatMap (·.attempted)).Nodup
  own : ∀ p pp, (p, pp) ∈ cfg.pools.zip pass.pools → ∀ slot ∈ pp.attempted,
    slot ∈ p.slots ∧ slot ∉ inp.activeSlots
  gate : inp.blocked ≠ none → pass.pools.flatMap (·.attempted) = []
  capped : ∀ p pp, (p, pp) ∈ cfg.pools.zip pass.pools →
    (p.activeAfter inp.activeSlots (pp.started inv snap p)).length ≤
      max (p.active inp.activeSlots).length (p.want inp.runners inp.queued).toNat
  cappedByMax : ∀ p pp, (p, pp) ∈ cfg.pools.zip pass.pools →
    (p.activeAfter inp.activeSlots (pp.started inv snap p)).length ≤ p.max.toNat
  count : pass.launches cfg inv snap ≤ cfg.supervisor.maxLaunchPerPoll.toNat
  memory : 0 < pass.launches cfg inv snap →
    cfg.admission.minAvailMib.toNat +
      pass.launches cfg inv snap * max 1 cfg.supervisor.busyReserveMib.toNat ≤
        snap.resources.availMib.toNat

section OnePass

variable {cfg : Config} {inv : Invocation} {snap : Snapshot} {inp : PoolInput} {p : Pool} {b : Budget}

/-! ### Slots -/

theorem mem_attempted_passOf {slot : Nat} (h : slot ∈ (passOf cfg inv snap inp p b).attempted) :
    slot ∈ slotsToTry cfg inp p b := by
  rw [attempted_passOf] at h
  cases hdry : inv.dryRun with
  | true =>
      rw [hdry] at h
      exact absurd h List.not_mem_nil
  | false =>
      rw [hdry] at h
      exact h

theorem attempted_passOf_nodup : (passOf cfg inv snap inp p b).attempted.Nodup := by
  rw [attempted_passOf]
  split
  · exact List.nodup_nil
  · exact slotsToTry_nodup

theorem mem_attempted_poolLoop {pools : List Pool} {slot : Nat}
    (h : slot ∈ (poolLoop cfg inv snap inp pools b).flatMap (·.attempted)) :
    ∃ p ∈ pools, slot ∈ p.slots := by
  induction pools generalizing b with
  | nil => exact absurd h List.not_mem_nil
  | cons q qs ih =>
      rw [poolLoop_cons, List.flatMap_cons, List.mem_append] at h
      cases h with
      | inl h => exact ⟨q, List.mem_cons_self, (mem_slotsToTry (mem_attempted_passOf h)).1⟩
      | inr h =>
          obtain ⟨p, hp, hslot⟩ := ih h
          exact ⟨p, List.mem_cons_of_mem _ hp, hslot⟩

/-- Pools with disjoint slot ranges never launch into the same slot. -/
theorem attempted_poolLoop_nodup {pools : List Pool} (happart : pools.Pairwise Pool.Apart) :
    ((poolLoop cfg inv snap inp pools b).flatMap (·.attempted)).Nodup := by
  induction pools generalizing b with
  | nil => exact List.nodup_nil
  | cons q qs ih =>
      rw [List.pairwise_cons] at happart
      rw [poolLoop_cons, List.flatMap_cons, List.nodup_append]
      refine ⟨attempted_passOf_nodup, ih happart.2, ?_⟩
      intro slot hslot slot' hslot' heq
      subst heq
      obtain ⟨p, hp, hmem⟩ := mem_attempted_poolLoop hslot'
      exact (happart.1 p hp).disjoint (mem_slotsToTry (mem_attempted_passOf hslot)).1 hmem

theorem attempted_passOf_of_blocked (hblocked : inp.blocked ≠ none) :
    (passOf cfg inv snap inp p b).attempted = [] := by
  rw [attempted_passOf, slotsToTry, if_neg hblocked, ite_self]

theorem attempted_poolLoop_of_blocked (pools : List Pool) (hblocked : inp.blocked ≠ none) :
    (poolLoop cfg inv snap inp pools b).flatMap (·.attempted) = [] := by
  induction pools generalizing b with
  | nil => rfl
  | cons q qs ih =>
      rw [poolLoop_cons, List.flatMap_cons, ih, attempted_passOf_of_blocked hblocked,
        List.append_nil]

/-! ### The active slots after the pass -/

theorem length_activeAfter {pp : PoolPass} (hnodup : inp.activeSlots.Nodup)
    (hpp : pp = passOf cfg inv snap inp p b) :
    (p.activeAfter inp.activeSlots (pp.started inv snap p)).length =
      (p.active inp.activeSlots).length + (pp.started inv snap p).length := by
  have hboth : (p.active inp.activeSlots ++ pp.started inv snap p).Nodup := by
    rw [List.nodup_append]
    refine ⟨Pool.active_nodup hnodup, ?_, ?_⟩
    · rw [hpp]
      exact attempted_passOf_nodup.filter _
    · intro slot hslot slot' hslot' heq
      subst heq
      rw [hpp] at hslot'
      have htried := mem_attempted_passOf (List.mem_filter.mp hslot').1
      exact (mem_slotsToTry htried).2 (Pool.mem_active.mp hslot).1
  rw [Pool.activeAfter, hboth.dedup, List.length_append]

theorem length_started_le :
    ((passOf cfg inv snap inp p b).started inv snap p).length ≤
      min (min (p.deficit inp.runners inp.activeSlots inp.queued).toNat (b.left cfg))
        (p.freeSlots inp.activeSlots).length := by
  refine (List.length_filter_le _ _).trans ?_
  rw [attempted_passOf]
  split
  · exact Nat.zero_le _
  · rw [slotsToTry]
    split
    · rw [List.length_take]
    · exact Nat.zero_le _

theorem activeAfter_le_max {pp : PoolPass} (hnodup : inp.activeSlots.Nodup)
    (hpp : pp = passOf cfg inv snap inp p b) :
    (p.activeAfter inp.activeSlots (pp.started inv snap p)).length ≤ p.max.toNat := by
  have hstarted : (pp.started inv snap p).length ≤ (p.freeSlots inp.activeSlots).length := by
    rw [hpp]
    exact length_started_le.trans (Nat.min_le_right _ _)
  have hslots := Pool.length_freeSlots_add (p := p) hnodup
  have hmax := p.length_slots_le
  rw [length_activeAfter hnodup hpp]
  omega

/-- **The active slots stay within the desired count.** -/
theorem activeAfter_le_desired {pp : PoolPass} (hnodup : inp.activeSlots.Nodup)
    (hfits : p.headcount inp.runners inp.activeSlots < 2 ^ 32)
    (hpp : pp = passOf cfg inv snap inp p b) :
    (p.activeAfter inp.activeSlots (pp.started inv snap p)).length ≤
      max (p.active inp.activeSlots).length (p.want inp.runners inp.queued).toNat := by
  have hstarted : (pp.started inv snap p).length ≤
      min (min (p.deficit inp.runners inp.activeSlots inp.queued).toNat (b.left cfg))
        (p.freeSlots inp.activeSlots).length := by
    rw [hpp]
    exact length_started_le
  have hactive : (p.active inp.activeSlots).length ≤ p.headcount inp.runners inp.activeSlots :=
    Pool.length_active_le hnodup
  rw [Pool.deficit_toNat, Nat.mod_eq_of_lt hfits] at hstarted
  rw [length_activeAfter hnodup hpp]
  omega

end OnePass

/-! ### Every pass, whatever the launches answer -/

section AllOutcomes

variable {cfg : Config} {inv : Invocation} {snap : Snapshot} {state : SupState} {runners : List Runner}
  {pass : Pass}

/-- **Every pass is safe.** -/
theorem reconcile_launches_safe (hvalid : cfg.validate = .ok ()) (hrunners : snap.runners = .ok runners)
    (hfew : runners.length < 2 ^ 31)
    (hunits : SystemRunner.Answers (Systemd.listActiveCommand workerUnitGlob) snap.activeUnits)
    (hpass : reconcile cfg inv snap state = .ok pass) :
    SafeLaunches cfg inv snap (poolInput cfg snap state runners) pass := by
  have hpools := (reconciled_of_ok hrunners hpass).pools
  have hnodup : (poolInput cfg snap state runners).activeSlots.Nodup := activeSlotsOf_nodup _
  have hpassOf : ∀ p pp, (p, pp) ∈ cfg.pools.zip pass.pools →
      ∃ b, pp = passOf cfg inv snap (poolInput cfg snap state runners) p b := by
    intro p pp hmem
    rw [hpools] at hmem
    obtain ⟨pre, post, _, hpp⟩ := mem_zip_poolLoop hmem
    exact ⟨_, hpp⟩
  have hlaunches : pass.launches cfg inv snap ≤ (startBudget cfg snap).left cfg := by
    rw [Pass.launches, hpools]
    exact sum_started_le cfg.pools
  rw [left_startBudget] at hlaunches
  refine ⟨?_, ?_, ?_, ?_, ?_, ?_, ?_⟩
  · rw [hpools]
    exact attempted_poolLoop_nodup (Config.valid_of_validate hvalid).apart
  · intro p pp hmem slot hslot
    obtain ⟨b, rfl⟩ := hpassOf p pp hmem
    exact mem_slotsToTry (mem_attempted_passOf hslot)
  · intro hblocked
    rw [hpools]
    exact attempted_poolLoop_of_blocked cfg.pools hblocked
  · intro p pp hmem
    obtain ⟨b, hpp⟩ := hpassOf p pp hmem
    exact activeAfter_le_desired hnodup (Pool.headcount_lt_of_answers hfew hunits) hpp
  · intro p pp hmem
    obtain ⟨b, hpp⟩ := hpassOf p pp hmem
    exact activeAfter_le_max hnodup hpp
  · omega
  · intro hpos
    exact memory_of_le_headroom hpos (by omega)

end AllOutcomes

def roomySnapshot (runners : List Runner) (slots : List Nat) : Snapshot where
  runners := .ok runners
  failedUnits := .ok ⟨0, "", ""⟩
  queuedLabels := fun _ => none
  activeUnits := .ok ⟨0, unitTable slots, ""⟩
  resources := ⟨65536, .finite 0, .ok 500⟩
  gateResources := ⟨65536, .finite 0, .ok 500⟩
  systemdRun := fun _ _ => .ok ⟨0, "", ""⟩
  clock := fun _ => 0
  updateChannel := .empty
  wallClock := 1700000000

def daemonCall : Invocation := ⟨"/usr/local/bin/vmfleet", "/etc/vmfleet/vmfleet.toml", false⟩

/-- The slots of a pass are those its table of units was made of. -/
theorem poolInput_of_unitTable {cfg : Config} {snap : Snapshot} {state : SupState} {runners : List Runner}
    {slots : List Nat} (htable : snap.activeUnits = .ok ⟨0, unitTable slots, ""⟩) (hnodup : slots.Nodup)
    (hlt : ∀ slot ∈ slots, slot < 2 ^ 32) :
    poolInput cfg snap state runners = { poolInput cfg snap state runners with activeSlots := slots } := by
  have hactive : activeSlotsOf snap.activeUnits = slots := by
    rw [htable]
    exact activeSlotsOf_unitTable hnodup hlt 0 ""
  show { poolInput cfg snap state runners with activeSlots := activeSlotsOf snap.activeUnits } = _
  rw [hactive]

/-- The one pool of a config, and what a pass has done for it. -/
theorem mem_zip_configWith {inv : Invocation} {snap : Snapshot} {state : SupState} {runners : List Runner}
    {pass : Pass} {p : Pool} (hrunners : snap.runners = .ok runners)
    (hpass : reconcile (configWith [p]) inv snap state = .ok pass) :
    (p, passOf (configWith [p]) inv snap (poolInput (configWith [p]) snap state runners) p
      (startBudget (configWith [p]) snap)) ∈ (configWith [p]).pools.zip pass.pools := by
  rw [(reconciled_of_ok hrunners hpass).pools]
  exact List.mem_cons_self

/-- A command that prints a text and is done a second later. -/
def printing (text : String) : Child where
  script := ⟨[⟨0, .stdout, Utf8.encode text.toList⟩], 1000000000⟩
  code := some 0

theorem answers_printing {text : String}
    (hfits : (Utf8.encode text.toList).length ≤ SystemRunner.pipeCapacity) :
    SystemRunner.Answers (Systemd.listActiveCommand workerUnitGlob) (.ok ⟨0, text, ""⟩) := by
  refine ⟨SystemRunner.evenPolls, .ok (printing text), (SystemRunner.run_of_text rfl ?_ ?_ rfl hfits ?_).symm⟩
  · intro k hpast
    have hlate : 0 + 15 * 1000000000 ≤ k * 100001000 + 1000 := hpast
    show 0 + 0 + 1000000000 ≤ k * 100001000
    omega
  · exact List.append_nil _
  · exact Nat.zero_le _

theorem answers_unitTable_101 :
    SystemRunner.Answers (Systemd.listActiveCommand workerUnitGlob) (.ok ⟨0, unitTable [101], ""⟩) :=
  answers_printing (by decide)

theorem reconcile_launches_safe_small :
    ∃ pass, reconcile (configWith [smallPool]) daemonCall (roomySnapshot [] [101]) {} = .ok pass ∧
      SafeLaunches (configWith [smallPool]) daemonCall (roomySnapshot [] [101])
        (poolInput (configWith [smallPool]) (roomySnapshot [] [101]) {} []) pass :=
  ⟨_, rfl, reconcile_launches_safe (by decide) rfl (by decide) answers_unitTable_101 rfl⟩

end VmFleet
