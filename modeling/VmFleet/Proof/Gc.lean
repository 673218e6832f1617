import VmFleet.Source.Gc
import VmFleet.Proof.Counts

/-!
# What `gc` purges

A VM is purged when it is listed, is no base, and the slot read from its name is not active. The slot is
what the first pool that can read one reads, and that pool need not be the one that made the VM: pool
names may contain hyphens. `gc_spares_live_iff` says for which fleets the reading is good enough.
-/

namespace VmFleet

section

variable {cfg : Config} {read : GcRead} {name : String}

theorem mem_gcPurges_iff {active : List Nat} {vms : List (String × VmState)} :
    name ∈ gcPurges cfg active vms ↔
      name ∈ vms.map (·.1) ∧ isBase cfg name = false ∧ gcOrphan cfg active name = true := by
  rw [gcPurges, List.mem_map, List.mem_map]
  refine ⟨fun h => ?_, fun h => ?_⟩
  · obtain ⟨vm, hvm, rfl⟩ := h
    obtain ⟨hmem, hkeep⟩ := List.mem_filter.mp hvm
    have hflags := (Bool.and_eq_true _ _).mp hkeep
    exact ⟨⟨vm, hmem, rfl⟩, by simpa using hflags.1, hflags.2⟩
  · obtain ⟨⟨vm, hmem, rfl⟩, hbase, horphan⟩ := h
    exact ⟨vm, List.mem_filter.mpr ⟨hmem, by rw [hbase, horphan]; rfl⟩, rfl⟩

theorem mem_prefixed_iff {pre : String} {vms : List (String × VmState)} :
    name ∈ (vms.filter fun vm => Text.startsWith vm.1 pre).map (·.1) ↔
      name ∈ vms.map (·.1) ∧ Text.startsWith name pre = true := by
  rw [List.mem_map, List.mem_map]
  refine ⟨fun h => ?_, fun h => ?_⟩
  · obtain ⟨vm, hvm, rfl⟩ := h
    obtain ⟨hmem, hstart⟩ := List.mem_filter.mp hvm
    exact ⟨⟨vm, hmem, rfl⟩, hstart⟩
  · obtain ⟨⟨vm, hvm, rfl⟩, hstart⟩ := h
    exact ⟨vm, List.mem_filter.mpr ⟨hvm, hstart⟩, rfl⟩

theorem listPrefixed_ok {pre : String} {answer : Answer} {vms : List (String × VmState)}
    (h : Multipass.list answer = .ok vms) :
    Multipass.listPrefixed pre answer = .ok (vms.filter fun vm => Text.startsWith vm.1 pre) := by
  rw [Multipass.listPrefixed, h]
  rfl

theorem listPrefixed_error {pre : String} {answer : Answer} {message : String}
    (h : Multipass.list answer = .error message) :
    Multipass.listPrefixed pre answer = .error message := by
  rw [Multipass.listPrefixed, h]
  rfl

theorem purged_of_ok {vms : List (String × VmState)} (h : Multipass.list read.vmList = .ok vms) :
    (gc cfg read).purged =
      gcPurges cfg (activeSlotsOf read.activeUnits)
        (vms.filter fun vm => Text.startsWith vm.1 vmPrefix) := by
  rw [gc, listPrefixed_ok h]
  cases read.token <;> rfl

theorem purged_of_error {message : String} (h : Multipass.list read.vmList = .error message) :
    (gc cfg read).purged = [] := by
  rw [gc, listPrefixed_error h]

/-- **What is purged.** -/
theorem mem_purged_iff :
    name ∈ (gc cfg read).purged ↔
      ∃ vms, Multipass.list read.vmList = .ok vms ∧ name ∈ vms.map (·.1) ∧
        Text.startsWith name vmPrefix = true ∧ isBase cfg name = false ∧
        gcOrphan cfg (activeSlotsOf read.activeUnits) name = true := by
  cases hlist : Multipass.list read.vmList with
  | error message =>
      rw [purged_of_error hlist]
      refine ⟨fun h => absurd h List.not_mem_nil, fun h => ?_⟩
      obtain ⟨vms, hvms, _⟩ := h
      cases hvms
  | ok vms =>
      rw [purged_of_ok hlist, mem_gcPurges_iff, mem_prefixed_iff]
      refine ⟨fun h => ⟨vms, rfl, h.1.1, h.1.2, h.2⟩, fun h => ?_⟩
      obtain ⟨vms', hvms', hmem, hstart, hrest⟩ := h
      cases hvms'
      exact ⟨⟨hmem, hstart⟩, hrest⟩

theorem gcOrphan_eq_false_iff {active : List Nat} :
    gcOrphan cfg active name = false ↔ ∃ slot ∈ active, gcSlot cfg name = some slot := by
  rw [gcOrphan]
  cases gcSlot cfg name with
  | none => simp
  | some slot => simp

theorem isBase_eq_true_iff : isBase cfg name = true ↔ ∃ b ∈ cfg.bases, b.name = name := by
  rw [isBase, List.any_eq_true]
  exact exists_congr fun b => and_congr_right fun _ => beq_iff_eq

end

/-! ### Live VMs -/

section

variable (cfg : Config) (read : GcRead) (p : Pool) (s : Nat) (ts : UInt64) (pid : UInt32)

/-- A worker's VM is listed, and the unit of its slot is reported active. -/
structure LiveVm : Prop where
  pool : p ∈ cfg.pools
  slot : s ∈ p.slots
  listed : ∃ vms, Multipass.list read.vmList = .ok vms ∧ vmName p.name s ts pid ∈ vms.map (·.1)
  unit : ∃ units, Systemd.listActive read.activeUnits = .ok units ∧ workerUnit s ∈ units

/-- The first pool in config order that reads a slot from the VM's name reads `t`. -/
def FirstReading (t : Nat) : Prop :=
  ∃ pre q post, cfg.pools = pre ++ q :: post ∧ ReadsAs q.name p.name s ts pid t ∧
    ∀ q' ∈ pre, ∀ t', ¬ ReadsAs q'.name p.name s ts pid t'

variable {cfg read p s ts pid}

theorem gcSlot_vmName_iff {t : Nat} (hs : s < 2 ^ 32) :
    gcSlot cfg (vmName p.name s ts pid) = some t ↔ FirstReading cfg p s ts pid t := by
  rw [gcSlot, List.findSome?_eq_some_iff]
  simp only [slotOfVm_vmName_iff hs, Option.eq_none_iff_forall_ne_some, ne_eq]
  rfl

theorem startsWith_vmPrefix_vmName (pool : String) (s : Nat) (ts : UInt64) (pid : UInt32) :
    Text.startsWith (vmName pool s ts pid) vmPrefix = true := by
  rw [Text.startsWith_iff]
  exact ⟨pool ++ "-" ++ toString s ++ "-" ++ toString ts.toNat ++ "-" ++ toString pid.toNat, by
    simp only [vmName, String.append_assoc]⟩

theorem LiveVm.not_purged_iff (hlive : LiveVm cfg read p s ts pid) :
    vmName p.name s ts pid ∉ (gc cfg read).purged ↔
      (∃ b ∈ cfg.bases, b.name = vmName p.name s ts pid) ∨
        ∃ t ∈ activeSlotsOf read.activeUnits, FirstReading cfg p s ts pid t := by
  obtain ⟨vms, hvms, hlisted⟩ := hlive.listed
  have hs := Pool.lt_of_mem_slots hlive.slot
  have hpurged : vmName p.name s ts pid ∈ (gc cfg read).purged ↔
      isBase cfg (vmName p.name s ts pid) = false ∧
        gcOrphan cfg (activeSlotsOf read.activeUnits) (vmName p.name s ts pid) = true := by
    rw [mem_purged_iff]
    refine ⟨fun h => ?_, fun h => ⟨vms, hvms, hlisted, startsWith_vmPrefix_vmName _ _ _ _, h⟩⟩
    obtain ⟨_, _, _, _, h⟩ := h
    exact h
  have hread : (∃ t ∈ activeSlotsOf read.activeUnits, FirstReading cfg p s ts pid t) ↔
      gcOrphan cfg (activeSlotsOf read.activeUnits) (vmName p.name s ts pid) = false := by
    rw [gcOrphan_eq_false_iff]
    exact exists_congr fun t => and_congr_right fun _ => (gcSlot_vmName_iff hs).symm
  rw [hpurged, hread, ← isBase_eq_true_iff]
  cases isBase cfg (vmName p.name s ts pid) <;>
    cases gcOrphan cfg (activeSlotsOf read.activeUnits) (vmName p.name s ts pid) <;> simp

/-- **When no live VM is purged.** -/
theorem gc_spares_live_iff :
    (∀ p s ts pid, LiveVm cfg read p s ts pid → vmName p.name s ts pid ∉ (gc cfg read).purged) ↔
      ∀ p s ts pid, LiveVm cfg read p s ts pid →
        (∃ b ∈ cfg.bases, b.name = vmName p.name s ts pid) ∨
          ∃ t ∈ activeSlotsOf read.activeUnits, FirstReading cfg p s ts pid t :=
  forall_congr' fun _ => forall_congr' fun _ => forall_congr' fun _ => forall_congr' fun _ =>
    forall_congr' fun hlive => hlive.not_purged_iff

theorem LiveVm.active (hlive : LiveVm cfg read p s ts pid) : s ∈ activeSlotsOf read.activeUnits := by
  obtain ⟨units, hunits, hmem⟩ := hlive.unit
  cases hanswer : read.activeUnits with
  | error message =>
      rw [hanswer] at hunits
      cases hunits
  | ok o =>
      rw [hanswer] at hunits
      cases hunits
      exact mem_activeSlotsOf_of_unit (Pool.lt_of_mem_slots hlive.slot) hmem

/-- With pool names without hyphens, as the documentation of the config asks for, every pool reads the
slot that was meant. -/
theorem gcSlot_of_no_hyphens (hnames : ∀ q ∈ cfg.pools, '-' ∉ q.name.toList) (hp : p ∈ cfg.pools)
    (hslot : s ∈ p.slots) : gcSlot cfg (vmName p.name s ts pid) = some s := by
  have hs := Pool.lt_of_mem_slots hslot
  have honly : ∀ q ∈ cfg.pools, ∀ t, ReadsAs q.name p.name s ts pid t → t = s := by
    intro q hq t hreads
    have hfields : ∀ q ∈ cfg.pools, Text.fields '-' q.name = [q.name.toList] :=
      fun q hq => Text.fields_of_not_mem (hnames q hq)
    rcases hreads with ⟨_, rfl⟩ | ⟨field, rest, hpool, _⟩ | ⟨hpool, _⟩ | ⟨hpool, _⟩
    · rfl
    · rw [hfields p hp, hfields q hq] at hpool
      have hlength := congrArg List.length hpool
      simp at hlength
    · exact absurd (by rw [hpool]; simp) (hnames q hq)
    · exact absurd (by rw [hpool]; simp) (hnames q hq)
  have hsome : gcSlot cfg (vmName p.name s ts pid) ≠ none := by
    rw [gcSlot, Ne, List.findSome?_eq_none_iff]
    intro h
    have hown := h p hp
    rw [slotOfVm_vmName hs] at hown
    cases hown
  obtain ⟨t, ht⟩ := Option.ne_none_iff_exists'.mp hsome
  obtain ⟨pre, q, post, hpools, hreads, _⟩ := (gcSlot_vmName_iff hs).mp ht
  have hq : q ∈ cfg.pools := by
    rw [hpools]
    exact List.mem_append_right _ List.mem_cons_self
  rw [ht, honly q hq t hreads]

theorem not_purged_of_no_hyphens (hnames : ∀ q ∈ cfg.pools, '-' ∉ q.name.toList)
    (hlive : LiveVm cfg read p s ts pid) : vmName p.name s ts pid ∉ (gc cfg read).purged := by
  rw [hlive.not_purged_iff]
  exact Or.inr ⟨s, hlive.active, (gcSlot_vmName_iff (Pool.lt_of_mem_slots hlive.slot)).mp
    (gcSlot_of_no_hyphens hnames hlive.pool hlive.slot)⟩

end

/-- The pool whose VM names the pool `ci` reads as those of its own slot 5. -/
def hyphenPool : Pool :=
  { name := "ci-5", labels := ["arm"], cpus := 2, memory := "4G", minWarm := 1, max := 4, slotBase := 200 }

def hyphenRead : GcRead where
  activeUnits := .ok ⟨0, "vmfleet-worker-200.service loaded active running\n", ""⟩
  vmList := .ok ⟨0, "Name,State,IPv4,IPv6,Release,AllIPv4\nvmfleet-ci-5-200-1700000000-4242,Running,,,,\n", ""⟩
  deletions := fun _ => (.ok ⟨0, "", ""⟩, .ok ⟨0, "", ""⟩)
  token := .ok "token"
  runners := .ok []

/-- The VM is purged although its worker is running. -/
theorem gc_purges_live_vm :
    (configWith [smallPool, hyphenPool]).validate = .ok () ∧
      LiveVm (configWith [smallPool, hyphenPool]) hyphenRead hyphenPool 200 1700000000 4242 ∧
      vmName hyphenPool.name 200 1700000000 4242 ∈
        (gc (configWith [smallPool, hyphenPool]) hyphenRead).purged := by
  refine ⟨by decide, ⟨List.mem_cons_of_mem _ List.mem_cons_self, by decide, ?_, ?_⟩, by decide +kernel⟩
  · exact ⟨_, rfl, by decide +kernel⟩
  · exact ⟨_, rfl, by decide +kernel⟩

end VmFleet
