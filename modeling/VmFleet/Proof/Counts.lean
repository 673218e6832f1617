import VmFleet.Source.Supervisor
import VmFleet.Proof.Config
import VmFleet.Proof.Naming
import VmFleet.Proof.SystemRunner
import Mathlib.Data.List.Dedup

/-!
# The counts of a pool

`idle`, `busy` and `pending` come from different sources: two from GitHub's runner records and one from
systemd's units. What ties them together is that every active slot is either pending or has an online
runner of the pool, so the three never add up to less than the active slots (`length_active_le`). The
source adds them in `u32`, so `present` is that sum only as long as it fits. It does for every list of units
that comes through a pipe (`headcount_lt_of_answers`).
-/

namespace VmFleet

theorem activeSlotsOf_nodup (answer : Answer) : (activeSlotsOf answer).Nodup := by
  rw [activeSlotsOf]
  split
  · exact List.nodup_dedup _
  · exact List.nodup_nil

/-- A unit that the answer lists makes its slot active. -/
theorem mem_activeSlotsOf_of_unit {o : CmdOut} {slot : Nat} (hslot : slot < 2 ^ 32)
    (hunit : workerUnit slot ∈ Systemd.serviceNames o.stdout) : slot ∈ activeSlotsOf (.ok o) := by
  change slot ∈ ((Systemd.serviceNames o.stdout).filterMap slotFromUnit).dedup
  rw [List.mem_dedup, List.mem_filterMap]
  exact ⟨workerUnit slot, hunit, slotFromUnit_workerUnit hslot⟩

/-- What the query for active units prints when the worker units of some slots are running. -/
def unitTable (slots : List Nat) : String :=
  slots.foldr (fun slot rest => workerUnit slot ++ " " ++ "loaded active running" ++ "\n" ++ rest) ""

theorem mem_workerUnit {slot : Nat} {c : Char} (hc : c ∈ (workerUnit slot).toList) :
    c ∈ "vmfleet-worker-.service".toList ∨ c.isDigit = true := by
  rw [workerUnit_eq, String.toList_append, String.toList_append, List.mem_append, List.mem_append] at hc
  have hhead : ∀ c ∈ "vmfleet-worker-".toList, c ∈ "vmfleet-worker-.service".toList :=
    Text.forall_mem_of_all (by decide)
  have htail : ∀ c ∈ ".service".toList, c ∈ "vmfleet-worker-.service".toList :=
    Text.forall_mem_of_all (by decide)
  rcases hc with hc | hc | hc
  · exact Or.inl (hhead c hc)
  · exact Or.inr (Text.isDigit_of_mem_repr hc)
  · exact Or.inl (htail c hc)

theorem serviceNames_unitTable (slots : List Nat) :
    Systemd.serviceNames (unitTable slots) = slots.map workerUnit := by
  induction slots with
  | nil => decide
  | cons slot rest ih =>
      have hletters : ∀ c ∈ "vmfleet-worker-.service".toList, Text.isWhitespace c = false :=
        Text.forall_mem_of_all (by decide)
      have hword : ∀ c ∈ (workerUnit slot).toList, Text.isWhitespace c = false := by
        intro c hc
        cases mem_workerUnit hc with
        | inl hc => exact hletters c hc
        | inr hc => exact Text.isWhitespace_of_isDigit hc
      have hne : (workerUnit slot).toList ≠ [] := by
        rw [workerUnit_eq, String.toList_append]
        exact List.cons_ne_nil _ _
      have hline : '\n' ∉ (workerUnit slot ++ " " ++ "loaded active running").toList := by
        rw [String.toList_append, String.toList_append, List.mem_append, List.mem_append]
        intro hmem
        rcases hmem with (hmem | hmem) | hmem
        · have hblank := hword _ hmem
          revert hblank
          decide
        · revert hmem
          decide
        · revert hmem
          decide
      have hend : (workerUnit slot ++ " " ++ "loaded active running").toList.getLast? ≠ some '\r' := by
        have hlast : "loaded active running".toList.getLast? = some 'g' := by decide
        rw [String.toList_append, List.getLast?_append, hlast, Option.some_or]
        decide
      have hservice : Text.endsWith (workerUnit slot) ".service" = true := by
        rw [Text.endsWith, List.isSuffixOf_iff_suffix, workerUnit_eq, ← String.append_assoc,
          String.toList_append]
        exact List.suffix_append _ _
      have htable : unitTable (slot :: rest) =
          workerUnit slot ++ " " ++ "loaded active running" ++ "\n" ++ unitTable rest := rfl
      rw [Systemd.serviceNames] at ih ⊢
      rw [htable, Text.lines_append_newline hline hend, List.filterMap_cons_some
        (Text.firstWord_append hword hne), List.filter_cons, if_pos hservice, ih, List.map_cons]

theorem activeSlotsOf_unitTable {slots : List Nat} (hnodup : slots.Nodup)
    (hlt : ∀ slot ∈ slots, slot < 2 ^ 32) (status : Int) (stderr : String) :
    activeSlotsOf (.ok ⟨status, unitTable slots, stderr⟩) = slots := by
  show ((Systemd.serviceNames (unitTable slots)).filterMap slotFromUnit).dedup = slots
  have hread : ∀ slot ∈ slots, (slotFromUnit ∘ workerUnit) slot = some slot :=
    fun slot hslot => slotFromUnit_workerUnit (hlt slot hslot)
  rw [serviceNames_unitTable, List.filterMap_map, List.filterMap_congr hread, List.filterMap_some,
    hnodup.dedup]

/-- Each active slot has its line in the answer. -/
theorem length_activeSlotsOf_le {answer : Answer} {n : Nat}
    (hstdout : ∀ o, answer = .ok o → o.stdout.toList.length ≤ n) :
    (activeSlotsOf answer).length ≤ n + 1 := by
  cases answer with
  | error e => exact Nat.zero_le _
  | ok o =>
      calc (activeSlotsOf (.ok o)).length
          ≤ ((Systemd.serviceNames o.stdout).filterMap slotFromUnit).length :=
            (List.dedup_sublist _).length_le
        _ ≤ (Systemd.serviceNames o.stdout).length := List.length_filterMap_le _ _
        _ ≤ ((Text.lines o.stdout).filterMap Text.firstWord).length := List.length_filter_le _ _
        _ ≤ (Text.lines o.stdout).length := List.length_filterMap_le _ _
        _ ≤ o.stdout.toList.length + 1 := Text.length_lines_le _
        _ ≤ n + 1 := Nat.succ_le_succ (hstdout o rfl)

/-- The query for active units, as a run of `systemctl` can answer it. -/
theorem length_activeSlotsOf_of_answers {pattern : String} {answer : Answer}
    (hunits : SystemRunner.Answers (Systemd.listActiveCommand pattern) answer) :
    (activeSlotsOf answer).length ≤ SystemRunner.pipeCapacity + 1 := by
  apply length_activeSlotsOf_le
  intro o hok
  obtain ⟨clock, spawned, hrun⟩ := hunits
  exact SystemRunner.length_stdout_le (hrun.symm.trans hok)

namespace Pool

variable {p : Pool} {runners : List Runner} {activeSlots : List Nat} {queued : String → Option UInt32}

theorem mem_active {slot : Nat} : slot ∈ p.active activeSlots ↔ slot ∈ activeSlots ∧ slot ∈ p.slots := by
  simp [active]

theorem active_nodup (hnodup : activeSlots.Nodup) : (p.active activeSlots).Nodup :=
  hnodup.filter _

/-! ### Free slots -/

theorem freeSlots_perm : (p.freeSlots activeSlots).Perm (p.slots.filter (· ∉ p.active activeSlots)) :=
  List.perm_insertionSort _ _

theorem mem_freeSlots {slot : Nat} :
    slot ∈ p.freeSlots activeSlots ↔ slot ∈ p.slots ∧ slot ∉ activeSlots := by
  rw [freeSlots_perm.mem_iff, List.mem_filter, decide_eq_true_eq, mem_active]
  exact ⟨fun h => ⟨h.1, fun hact => h.2 ⟨hact, h.1⟩⟩, fun h => ⟨h.1, fun hact => h.2 hact.1⟩⟩

theorem freeSlots_nodup : (p.freeSlots activeSlots).Nodup :=
  freeSlots_perm.nodup_iff.mpr (p.slots_nodup.filter _)

theorem length_freeSlots_add (hnodup : activeSlots.Nodup) :
    (p.freeSlots activeSlots).length + (p.active activeSlots).length = p.slots.length := by
  have hactive : (p.active activeSlots).length = (p.slots.filter (· ∈ p.active activeSlots)).length := by
    apply List.Perm.length_eq
    rw [List.perm_ext_iff_of_nodup (active_nodup hnodup) (p.slots_nodup.filter _)]
    intro slot
    rw [List.mem_filter, decide_eq_true_eq, mem_active]
    exact ⟨fun h => ⟨h.2, h⟩, fun h => h.2⟩
  have hsplit : p.slots.length = (p.slots.filter (· ∈ p.active activeSlots)).length +
      (p.slots.filter fun slot => !decide (slot ∈ p.active activeSlots)).length :=
    List.length_eq_length_filter_add _
  rw [freeSlots_perm.length_eq, hactive]
  simp only [decide_not]
  omega

/-! ### The headcount -/

def headcount (p : Pool) (runners : List Runner) (activeSlots : List Nat) : Nat :=
  (p.idleRunners runners).length + (p.busyRunners runners).length +
    (p.pendingSlots runners activeSlots).length

theorem present_toNat :
    (p.present runners activeSlots).toNat = p.headcount runners activeSlots % 2 ^ 32 := by
  simp only [present, idle, busy, pending, headcount, UInt32.toNat_add, UInt32.toNat_ofNat']
  omega

theorem length_online :
    ((p.mine runners).filter (·.online)).length =
      (p.idleRunners runners).length + (p.busyRunners runners).length := by
  rw [idleRunners, busyRunners]
  induction p.mine runners with
  | nil => rfl
  | cons r rest ih =>
      cases honline : r.online <;> cases hbusy : r.busy <;>
        simp only [List.filter_cons, honline, hbusy, Bool.not_true, Bool.not_false, Bool.and_true,
          Bool.and_false, if_true, if_false, Bool.false_eq_true, List.length_cons] <;> omega

theorem length_onlineSlots_le :
    (p.onlineSlots runners).length ≤ (p.idleRunners runners).length + (p.busyRunners runners).length := by
  rw [← length_online, onlineSlots]
  exact (List.dedup_sublist _).length_le.trans (List.length_filterMap_le _ _)

/-- **No active slot goes uncounted.** -/
theorem length_active_le (hnodup : activeSlots.Nodup) :
    (p.active activeSlots).length ≤ p.headcount runners activeSlots := by
  have hsplit : (p.active activeSlots).length =
      ((p.active activeSlots).filter (· ∈ p.onlineSlots runners)).length +
        ((p.active activeSlots).filter fun slot => !decide (slot ∈ p.onlineSlots runners)).length :=
    List.length_eq_length_filter_add _
  have honline : ((p.active activeSlots).filter (· ∈ p.onlineSlots runners)).length ≤
      (p.onlineSlots runners).length := by
    apply List.Subperm.length_le
    apply List.subperm_of_subset ((active_nodup hnodup).filter _)
    intro slot hslot
    exact of_decide_eq_true (List.mem_filter.mp hslot).2
  have hle : (p.onlineSlots runners).length ≤ (p.idleRunners runners).length +
      (p.busyRunners runners).length := length_onlineSlots_le
  rw [headcount, pendingSlots]
  simp only [decide_not]
  omega

theorem headcount_le : p.headcount runners activeSlots ≤ runners.length + activeSlots.length := by
  have honline : ((p.mine runners).filter (·.online)).length ≤ runners.length :=
    (List.length_filter_le _ _).trans (List.length_filter_le _ _)
  have hpending : (p.pendingSlots runners activeSlots).length ≤ activeSlots.length :=
    (List.length_filter_le _ _).trans (List.length_filter_le _ _)
  rw [length_online] at honline
  rw [headcount]
  omega

/-- **The sum fits.** A list of units has to come through a pipe that nobody empties while it is written. -/
theorem headcount_lt_of_answers {pattern : String} {answer : Answer} (hfew : runners.length < 2 ^ 31)
    (hunits : SystemRunner.Answers (Systemd.listActiveCommand pattern) answer) :
    p.headcount runners (activeSlotsOf answer) < 2 ^ 32 := by
  have hcount : p.headcount runners (activeSlotsOf answer) ≤
      runners.length + (activeSlotsOf answer).length := headcount_le
  have hslots := length_activeSlotsOf_of_answers hunits
  rw [SystemRunner.pipeCapacity] at hslots
  omega

/-! ### The desired count -/

theorem want_le_max (hmin : p.minWarm.toNat ≤ p.max.toNat) :
    (p.want runners queued).toNat ≤ p.max.toNat := by
  rw [want, desired]
  split
  · exact hmin
  · split
    · exact le_rfl
    · next hmax => exact UInt32.le_iff_toNat_le.mp (UInt32.not_lt.mp hmax)

/-- What a pool is short of, counted without a bound. -/
def demand (p : Pool) (runners : List Runner) (activeSlots : List Nat)
    (queued : String → Option UInt32) : Nat :=
  (p.want runners queued).toNat - p.headcount runners activeSlots

theorem deficit_toNat :
    (p.deficit runners activeSlots queued).toNat =
      (p.want runners queued).toNat - p.headcount runners activeSlots % 2 ^ 32 := by
  rw [deficit, present_toNat]
  omega

theorem deficit_toNat_lt : (p.deficit runners activeSlots queued).toNat < 2 ^ 32 := by
  have hlt := (p.want runners queued).toNat_lt
  rw [deficit_toNat]
  omega

/-- **There is room for the demand.** -/
theorem demand_le_length_freeSlots (hmin : p.minWarm.toNat ≤ p.max.toNat) (hwrap : p.NoWrap)
    (hnodup : activeSlots.Nodup) :
    p.demand runners activeSlots queued ≤ (p.freeSlots activeSlots).length := by
  have hwant : (p.want runners queued).toNat ≤ p.max.toNat := want_le_max hmin
  have hslots := length_slots_of_noWrap hwrap
  have hsplit : (p.freeSlots activeSlots).length + (p.active activeSlots).length = p.slots.length :=
    length_freeSlots_add hnodup
  have hcount : (p.active activeSlots).length ≤ p.headcount runners activeSlots :=
    length_active_le hnodup
  rw [demand]
  omega

end Pool

end VmFleet
