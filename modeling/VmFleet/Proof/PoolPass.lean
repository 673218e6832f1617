import VmFleet.Proof.Counts
import Mathlib.Logic.Function.Iterate

/-!
# What a pass does for one pool

The loop over the free slots and the loop over the stop candidates in closed form. The two counters the
pools share matter through one number only, `Budget.left`: the launches they still allow. A launch that
succeeds takes one from it, and one that fails takes none.
-/

namespace VmFleet

/-! ### Counters -/

theorem saturatingSub_toNat (a b : UInt32) : (saturatingSub a b).toNat = a.toNat - b.toNat := by
  rw [saturatingSub]
  split
  · next h => exact UInt32.toNat_sub_of_le _ _ h
  · next h =>
      have hlt := UInt32.lt_iff_toNat_lt.mp (UInt32.not_le.mp h)
      show 0 = _
      omega

theorem min_toNat (a b : UInt32) : (min a b).toNat = min a.toNat b.toNat := by
  show (if a ≤ b then a else b).toNat = _
  split
  · next h =>
      have hle := UInt32.le_iff_toNat_le.mp h
      omega
  · next h =>
      have hlt := UInt32.lt_iff_toNat_lt.mp (UInt32.not_le.mp h)
      omega

namespace Budget

variable (cfg : Config)

/-- The launches the counters still allow. -/
def left (b : Budget) : Nat :=
  min (cfg.supervisor.maxLaunchPerPoll.toNat - b.launched.toNat) b.headroom.toNat

theorem left_spend {b : Budget} (hpos : 0 < b.left cfg) : b.spend.left cfg = b.left cfg - 1 := by
  have hmax := cfg.supervisor.maxLaunchPerPoll.toNat_lt
  simp only [left, spend, saturatingSub_toNat, UInt32.toNat_add] at hpos ⊢
  have hone : (1 : UInt32).toNat = 1 := rfl
  have hroom : b.launched.toNat + 1 < 2 ^ 32 := by omega
  rw [hone, Nat.mod_eq_of_lt hroom]
  omega

theorem left_iterate_spend {k : Nat} {b : Budget} (hk : k ≤ b.left cfg) :
    (spend^[k] b).left cfg = b.left cfg - k := by
  induction k generalizing b with
  | zero => rfl
  | succ k ih =>
      have hspend := left_spend cfg (b := b) (by omega)
      rw [Function.iterate_succ_apply, ih (by omega), hspend]
      omega

end Budget

theorem launchable_toNat (cfg : Config) (b : Budget) {deficit : Int} (hdeficit : deficit.toNat < 2 ^ 32) :
    (launchable cfg b deficit).toNat = min deficit.toNat (b.left cfg) := by
  have hcast : deficit.toNat.toUInt32.toNat = deficit.toNat := by
    rw [Nat.toUInt32_eq, UInt32.toNat_ofNat', Nat.mod_eq_of_lt hdeficit]
  rw [launchable, min_toNat, min_toNat, saturatingSub_toNat, hcast, Budget.left]
  omega

/-! ### The loops over slots -/

theorem launchOk_of_ok {inv : Invocation} {snap : Snapshot} {p : Pool} {slot : Nat} {o : CmdOut}
    (h : snap.systemdRun p.name slot = .ok o) : launchOk inv snap p slot = o.ok := by
  rw [launchOk, h, checked]
  cases hok : o.ok <;> simp [hok, bind, Except.bind, pure, Except.pure, throw, throwThe,
    MonadExceptOf.throw]

/-- Whether a launch counts: it succeeded, or it is only previewed. -/
def launchCounts (inv : Invocation) (snap : Snapshot) (p : Pool) (slot : Nat) : Bool :=
  inv.dryRun || launchOk inv snap p slot

theorem launchSlots_eq (inv : Invocation) (snap : Snapshot) (p : Pool) (slots : List Nat) (b : Budget) :
    launchSlots inv snap p slots b =
      ⟨Budget.spend^[(slots.filter (launchCounts inv snap p)).length] b,
        (slots.filter (launchCounts inv snap p)).map .launch,
        if inv.dryRun then [] else slots.flatMap (launchCommands inv p)⟩ := by
  induction slots generalizing b with
  | nil => simp [launchSlots]
  | cons slot rest ih =>
      rw [launchSlots, List.filter_cons, launchCounts]
      cases hdry : inv.dryRun with
      | true => simp [ih, hdry]
      | false =>
          cases hok : launchOk inv snap p slot with
          | true => simp [ih, hdry]
          | false => simp [ih, hdry]

def stopped (isLongIdle : Runner → Bool) (candidates : List (Runner × Nat)) (excess : Nat) :
    List (Runner × Nat) :=
  (candidates.filter fun c => isLongIdle c.1).take excess

theorem stopSlots_eq (inv : Invocation) (isLongIdle : Runner → Bool) (candidates : List (Runner × Nat))
    (excess : UInt32) :
    stopSlots inv isLongIdle candidates excess =
      ((stopped isLongIdle candidates excess.toNat).map fun c => .stop c.2,
        if inv.dryRun then []
        else (stopped isLongIdle candidates excess.toNat).flatMap fun c =>
          Systemd.stop (workerUnit c.2)) := by
  induction candidates generalizing excess with
  | nil => simp [stopSlots, stopped]
  | cons c rest ih =>
      obtain ⟨r, slot⟩ := c
      rw [stopSlots]
      by_cases hexcess : excess = 0
      · simp [hexcess, stopped]
      · rw [if_neg hexcess]
        have hne : excess.toNat ≠ 0 := fun h => hexcess (UInt32.toNat_inj.mp h)
        have hpred : (excess - 1).toNat = excess.toNat - 1 := by
          apply UInt32.toNat_sub_of_le
          rw [UInt32.le_iff_toNat_le]
          exact Nat.one_le_iff_ne_zero.mpr hne
        obtain ⟨k, hk⟩ := Nat.exists_eq_succ_of_ne_zero hne
        cases hlong : isLongIdle r with
        | true =>
            cases hdry : inv.dryRun <;> simp [ih, stopped, hlong, hpred, hk, hdry]
        | false => simp [ih, stopped, hlong]

/-! ### What the commands do -/

namespace Command

def startedSlot (c : Command) : Option Nat :=
  if c.program = "systemd-run" then
    c.args.findSome? fun arg => (Text.stripPrefix arg "--unit=").bind slotFromUnit
  else none

def stoppedSlot (c : Command) : Option Nat :=
  if c.program = "systemctl" then
    match c.args with
    | ["--user", "stop", unit] => slotFromUnit unit
    | _ => none
  else none

theorem systemctl_ne_systemdRun : "systemctl" ≠ "systemd-run" := by decide

theorem startedSlot_systemdRun {slot : Nat} (hslot : slot < 2 ^ 32) (setenvs : List (String × String))
    (program : String) (args : List String) :
    (Systemd.systemdRun (workerUnit slot) setenvs program args).startedSlot = some slot := by
  have huser : Text.stripPrefix "--user" "--unit=" = none := by decide
  refine (if_pos rfl).trans ?_
  simp only [Systemd.systemdRun, List.cons_append, List.findSome?_cons, huser, Text.stripPrefix_append,
    Option.bind_none, Option.bind_some, slotFromUnit_workerUnit hslot]

theorem startedSlot_resetFailed (unit : String) : (Systemd.resetFailed unit).startedSlot = none :=
  if_neg systemctl_ne_systemdRun

theorem startedSlot_stopUnit (unit : String) : (Systemd.stopUnit unit).startedSlot = none :=
  if_neg systemctl_ne_systemdRun

theorem stoppedSlot_stopUnit {slot : Nat} (hslot : slot < 2 ^ 32) :
    (Systemd.stopUnit (workerUnit slot)).stoppedSlot = some slot :=
  (if_pos rfl).trans (slotFromUnit_workerUnit hslot)

theorem stoppedSlot_resetFailed (unit : String) : (Systemd.resetFailed unit).stoppedSlot = none :=
  (if_pos rfl).trans rfl

theorem stoppedSlot_systemdRun (unit : String) (setenvs : List (String × String)) (program : String)
    (args : List String) : (Systemd.systemdRun unit setenvs program args).stoppedSlot = none :=
  if_neg systemctl_ne_systemdRun.symm

theorem filterMap_startedSlot_launchCommands (inv : Invocation) (p : Pool) {slots : List Nat}
    (hslots : ∀ slot ∈ slots, slot < 2 ^ 32) :
    (slots.flatMap (launchCommands inv p)).filterMap startedSlot = slots := by
  induction slots with
  | nil => rfl
  | cons slot rest ih =>
      have hslot := hslots slot List.mem_cons_self
      have hrest := ih fun s hs => hslots s (List.mem_cons_of_mem _ hs)
      rw [List.flatMap_cons, List.filterMap_append, hrest, launchCommands, Systemd.runTransient,
        List.filterMap_cons_none (startedSlot_resetFailed _),
        List.filterMap_cons_some (startedSlot_systemdRun hslot _ _ _)]
      rfl

theorem filterMap_startedSlot_stop (slots : List Nat) :
    (slots.flatMap fun slot => Systemd.stop (workerUnit slot)).filterMap startedSlot = [] := by
  rw [List.filterMap_eq_nil_iff]
  intro c hc
  obtain ⟨slot, _, hc⟩ := List.mem_flatMap.mp hc
  simp only [Systemd.stop, List.mem_cons, List.not_mem_nil, or_false] at hc
  rcases hc with rfl | rfl
  · exact startedSlot_stopUnit _
  · exact startedSlot_resetFailed _

theorem filterMap_stoppedSlot_launchCommands (inv : Invocation) (p : Pool) (slots : List Nat) :
    (slots.flatMap (launchCommands inv p)).filterMap stoppedSlot = [] := by
  rw [List.filterMap_eq_nil_iff]
  intro c hc
  obtain ⟨slot, _, hc⟩ := List.mem_flatMap.mp hc
  simp only [launchCommands, Systemd.runTransient, List.mem_cons, List.not_mem_nil, or_false] at hc
  rcases hc with rfl | rfl
  · exact stoppedSlot_resetFailed _
  · exact stoppedSlot_systemdRun _ _ _ _

theorem filterMap_stoppedSlot_stop {slots : List Nat} (hslots : ∀ slot ∈ slots, slot < 2 ^ 32) :
    (slots.flatMap fun slot => Systemd.stop (workerUnit slot)).filterMap stoppedSlot = slots := by
  induction slots with
  | nil => rfl
  | cons slot rest ih =>
      have hslot := hslots slot List.mem_cons_self
      have hrest := ih fun s hs => hslots s (List.mem_cons_of_mem _ hs)
      rw [List.flatMap_cons, List.filterMap_append, hrest, Systemd.stop,
        List.filterMap_cons_some (stoppedSlot_stopUnit hslot),
        List.filterMap_cons_none (stoppedSlot_resetFailed _)]
      rfl

end Command

def PoolPass.attempted (pp : PoolPass) : List Nat := pp.commands.filterMap Command.startedSlot

def PoolPass.stopped (pp : PoolPass) : List Nat := pp.commands.filterMap Command.stoppedSlot

/-! ### One pool in closed form -/

section ClosedForm

variable (cfg : Config) (inv : Invocation) (snap : Snapshot) (inp : PoolInput) (p : Pool) (b : Budget)

def slotsToTry : List Nat :=
  if inp.blocked = none then
    (p.freeSlots inp.activeSlots).take
      (min (p.deficit inp.runners inp.activeSlots inp.queued).toNat (b.left cfg))
  else []

def slotsToStop : List Nat :=
  (stopped (longIdle cfg snap inp.idleSince p)
    (stopCandidates snap inp.idleSince p inp.runners inp.activeSlots)
    (-p.deficit inp.runners inp.activeSlots inp.queued).toNat).map (·.2)

def slotsCounted : List Nat := (slotsToTry cfg inp p b).filter (launchCounts inv snap p)

variable {cfg inv snap inp p b}

theorem slotsToTry_eq_nil_of_deficit_le
    (hdeficit : p.deficit inp.runners inp.activeSlots inp.queued ≤ 0) : slotsToTry cfg inp p b = [] := by
  rw [slotsToTry, Int.toNat_of_nonpos hdeficit, Nat.zero_min, List.take_zero, ite_self]

theorem slotsToStop_eq_nil_of_le_deficit
    (hdeficit : 0 ≤ p.deficit inp.runners inp.activeSlots inp.queued) :
    slotsToStop cfg snap inp p = [] := by
  rw [slotsToStop, stopped, Int.toNat_of_nonpos (by omega), List.take_zero, List.map_nil]

/-- **What is done for one pool.** -/
theorem actOn_eq :
    actOn cfg inv snap inp p b =
      ⟨Budget.spend^[(slotsCounted cfg inv snap inp p b).length] b,
        (slotsCounted cfg inv snap inp p b).map .launch ++ (slotsToStop cfg snap inp p).map .stop,
        if inv.dryRun then []
        else (slotsToTry cfg inp p b).flatMap (launchCommands inv p) ++
          (slotsToStop cfg snap inp p).flatMap fun slot => Systemd.stop (workerUnit slot)⟩ := by
  have hfits : (-p.deficit inp.runners inp.activeSlots inp.queued).toNat < 2 ^ 32 := by
    have hlt := (p.present inp.runners inp.activeSlots).toNat_lt
    rw [Pool.deficit]
    omega
  have hcast : (-p.deficit inp.runners inp.activeSlots inp.queued).toNat.toUInt32.toNat =
      (-p.deficit inp.runners inp.activeSlots inp.queued).toNat := by
    rw [Nat.toUInt32_eq, UInt32.toNat_ofNat', Nat.mod_eq_of_lt hfits]
  rw [actOn]
  dsimp only
  split
  · next h =>
      rw [launchable_toNat cfg b Pool.deficit_toNat_lt,
        slotsToStop_eq_nil_of_le_deficit (by omega)]
      rw [launchSlots_eq, slotsCounted, slotsToTry, if_pos h.2]
      simp
  · next hlaunch =>
      split
      · next hneg =>
          rw [slotsCounted, slotsToTry_eq_nil_of_deficit_le (by omega), stopSlots_eq, hcast,
            slotsToStop]
          simp [List.flatMap_map]
      · next hneg =>
          have hnone : slotsToTry cfg inp p b = [] := by
            by_cases hblocked : inp.blocked = none
            · apply slotsToTry_eq_nil_of_deficit_le
              by_contra hpos
              exact hlaunch ⟨by omega, hblocked⟩
            · rw [slotsToTry, if_neg hblocked]
          rw [slotsCounted, hnone, slotsToStop_eq_nil_of_le_deficit (by omega)]
          simp

end ClosedForm

end VmFleet
