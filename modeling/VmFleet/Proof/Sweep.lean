import VmFleet.Source.Sweep
import VmFleet.Proof.Gc

/-!
# Whose VMs a sweep reaps

A sweep goes by the start of a name, `vmfleet-<pool>-<slot>-`. Three things other than the slot's own
VMs can start like that: VMs of a pool whose name goes on where `<pool>-<slot>` ends, VMs of a pool and
slot that together spell `<pool>`, and base VMs. `sweep_reaps_own_iff` shows that there is nothing else.
-/

namespace VmFleet

/-- What a sweep owes the other slots and the bases: it reaps by the slot's prefix, and what it reaps is
no VM of another pool or slot and no base. -/
structure ReapsOwn (cfg : Config) (p : Pool) (s : Nat) (reaps : List Reap) : Prop where
  prefixed : ∀ r ∈ reaps, Text.startsWith r.name (slotVmPrefix p.name s) = true
  own : ∀ r ∈ reaps, ∀ q ∈ cfg.pools, ∀ t ∈ q.slots, ∀ ts pid, r.name = vmName q.name t ts pid →
    q = p ∧ t = s
  noBase : ∀ r ∈ reaps, ∀ b ∈ cfg.bases, r.name ≠ b.name

/-- No name the fleet gives to anything else starts like the names of the slot's VMs. -/
structure PrefixFree (cfg : Config) (own : String) (p : Pool) (s : Nat) : Prop where
  longer : ∀ q ∈ cfg.pools, q.slots ≠ [] → q.name ≠ p.name ++ "-" ++ toString s ∧
    Text.startsWith q.name (p.name ++ "-" ++ toString s ++ "-") = false
  shorter : ∀ q ∈ cfg.pools, ∀ t ∈ q.slots, p.name ≠ q.name ++ "-" ++ toString t
  base : ∀ b ∈ cfg.bases, Text.startsWith b.name (slotVmPrefix p.name s) = true → b.name = own

section

variable {cfg : Config} {p : Pool} {s : Nat} {own : String} {read : SweepRead}

theorem mem_sweepLeftovers {r : Reap} (h : r ∈ sweepLeftovers own p.name s read) :
    Text.startsWith r.name (slotVmPrefix p.name s) = true ∧ r.name ≠ own := by
  obtain ⟨name, hname, rfl⟩ := List.mem_map.mp h
  cases List.mem_append.mp hname with
  | inl hname =>
      cases hfile : read.stateFile with
      | none =>
          rw [hfile] at hname
          exact absurd hname List.not_mem_nil
      | some text =>
          rw [hfile] at hname
          simp only [stateFileVm] at hname
          split at hname
          · next hcond =>
              rw [List.mem_singleton.mp hname]
              exact ⟨hcond.2.2, hcond.2.1⟩
          · exact absurd hname List.not_mem_nil
  | inr hname =>
      rw [listedVms] at hname
      split at hname
      · next vms hvms =>
          obtain ⟨hmem, hown⟩ := List.mem_filter.mp hname
          obtain ⟨vm, hvm, rfl⟩ := List.mem_map.mp hmem
          refine ⟨?_, of_decide_eq_true hown⟩
          cases hlist : Multipass.list read.vmList with
          | error message =>
              rw [listPrefixed_error hlist] at hvms
              cases hvms
          | ok all =>
              rw [listPrefixed_ok hlist] at hvms
              cases hvms
              exact (List.mem_filter.mp hvm).2
      · exact absurd hname List.not_mem_nil

theorem sweepLeftovers_of_stateFile {name : String} (htrim : Text.trim name = name) (hne : name ≠ "")
    (hown : name ≠ own) (hstart : Text.startsWith name (slotVmPrefix p.name s) = true)
    (hread : read.stateFile = some name) : ∃ r ∈ sweepLeftovers own p.name s read, r.name = name := by
  refine ⟨reap read name, List.mem_map_of_mem (List.mem_append_left _ ?_), rfl⟩
  rw [hread, stateFileVm]
  simp only [htrim]
  rw [if_pos ⟨hne, hown, hstart⟩]
  exact List.mem_singleton_self _

/-! ### Names without white space -/

theorem not_isWhitespace_of_validName {name : String} (hname : validName name = true) :
    ∀ c ∈ name.toList, Text.isWhitespace c = false := by
  intro c hc
  have hall := (List.all_eq_true.mp ((Bool.and_eq_true _ _).mp hname).2) c hc
  rw [Bool.or_eq_true, Bool.or_eq_true] at hall
  rcases hall with (hlower | hdigit) | hdash
  · have hbounds : (decide (c.val ≥ 'a'.val) && decide (c.val ≤ 'z'.val)) = true := hlower
    have hrange : 97 ≤ c.toNat ∧ c.toNat ≤ 122 := by
      simpa [UInt32.le_iff_toNat_le] using hbounds
    simp only [Text.isWhitespace, Bool.or_eq_false_iff, Bool.and_eq_false_iff,
      decide_eq_false_iff_not, beq_eq_false_iff_ne]
    omega
  · exact Text.isWhitespace_of_isDigit hdigit
  · rw [beq_iff_eq.mp hdash]
    decide

/-- The names of the VMs are made of the characters that pool names are made of. -/
theorem validName_vmName {pool : String} (hpool : validName pool = true) (slot : Nat) (ts : UInt64)
    (pid : UInt32) : validName (vmName pool slot ts pid) = true := by
  have hnumber : ∀ n : Nat, ∀ c ∈ (toString n).toList, (c.isLower || c.isDigit || c == '-') = true := by
    intro n c hc
    rw [Text.isDigit_of_mem_repr hc, Bool.or_true, Bool.true_or]
  have hfixed : ∀ c ∈ vmPrefix.toList ++ "-".toList, (c.isLower || c.isDigit || c == '-') = true :=
    Text.forall_mem_of_all (by decide)
  have hpools := List.all_eq_true.mp ((Bool.and_eq_true _ _).mp hpool).2
  rw [validName, Bool.and_eq_true, List.all_eq_true]
  refine ⟨?_, fun c hc => ?_⟩
  · simp [vmName, vmPrefix]
  · simp only [vmName, String.toList_append, List.mem_append] at hc hfixed
    rcases hc with ((((((hc | hc) | hc) | hc) | hc) | hc) | hc) | hc
    · exact hfixed c (Or.inl hc)
    · exact hpools c hc
    · exact hfixed c (Or.inr hc)
    · exact hnumber _ c hc
    · exact hfixed c (Or.inr hc)
    · exact hnumber _ c hc
    · exact hfixed c (Or.inr hc)
    · exact hnumber _ c hc

theorem not_isWhitespace_vmName {pool : String} (hpool : validName pool = true) (slot : Nat) (ts : UInt64)
    (pid : UInt32) : ∀ c ∈ (vmName pool slot ts pid).toList, Text.isWhitespace c = false :=
  not_isWhitespace_of_validName (validName_vmName hpool slot ts pid)

/-! ### The exact condition -/

def stateFileRead (name : String) : SweepRead where
  stateFile := some name
  vmList := .error "multipass list failed"
  runners := fun _ => .error "GitHub not reachable"
  deletions := fun _ => (.ok ⟨0, "", ""⟩, .ok ⟨0, "", ""⟩)

theorem vmName_ne_empty (pool : String) (slot : Nat) (ts : UInt64) (pid : UInt32) :
    vmName pool slot ts pid ≠ "" := by
  intro h
  have hlist := congrArg String.toList h
  simp only [vmName, String.toList_append] at hlist
  simp [vmPrefix] at hlist

theorem ne_of_longer {a b rest : String} (h : a = b ++ "-" ++ rest) : a ≠ b := by
  intro heq
  have hlength := congrArg (fun s : String => s.toList.length) (heq ▸ h : b = b ++ "-" ++ rest)
  simp only [String.toList_append, List.length_append] at hlength
  have hone : "-".toList.length = 1 := rfl
  omega

/-- A VM of another pool whose name starts with the slot's prefix can end up being reaped. -/
theorem reaps_of_startsWith {q : Pool} {t : Nat} {ts : UInt64} {pid : UInt32} (ts' : UInt64)
    (pid' : UInt32) (hvalid : cfg.Valid) (hq : q ∈ cfg.pools) (ht : t ∈ q.slots) (hne : q.name ≠ p.name)
    (hstart : Text.startsWith (vmName q.name t ts' pid') (slotVmPrefix p.name s) = true)
    (hown : ∀ read, ReapsOwn cfg p s (sweepLeftovers (vmName p.name s ts pid) p.name s read)) : False := by
  obtain ⟨r, hr, hname⟩ := sweepLeftovers_of_stateFile
    (Text.trim_eq_self (not_isWhitespace_vmName (hvalid.pool_validName q hq) t ts' pid'))
    (vmName_ne_empty _ _ _ _) (fun heq => hne (vmName_injective heq).1) hstart
    (rfl : (stateFileRead (vmName q.name t ts' pid')).stateFile = _)
  exact hne (congrArg Pool.name ((hown _).own r hr q hq t ht ts' pid' hname).1)

theorem name_ne_of_longer {q : Pool}
    (h : q.name = p.name ++ "-" ++ toString s ∨
      Text.startsWith q.name (p.name ++ "-" ++ toString s ++ "-") = true) : q.name ≠ p.name := by
  cases h with
  | inl h => exact ne_of_longer h
  | inr h =>
      obtain ⟨rest, hrest⟩ := Text.startsWith_iff.mp h
      have hlong : q.name = p.name ++ "-" ++ (toString s ++ "-" ++ rest) := by
        rw [hrest]
        simp only [String.append_assoc]
      exact ne_of_longer hlong

theorem prefixFree_of_reapsOwn {ts : UInt64} {pid : UInt32} (hvalid : cfg.Valid) (hs : s ∈ p.slots)
    (h : ∀ read, ReapsOwn cfg p s (sweepLeftovers (vmName p.name s ts pid) p.name s read)) :
    PrefixFree cfg (vmName p.name s ts pid) p s where
  longer := by
    intro q hq hslots
    obtain ⟨t, ht⟩ := List.exists_mem_of_ne_nil _ hslots
    have hlonger : ¬ (q.name = p.name ++ "-" ++ toString s ∨
        Text.startsWith q.name (p.name ++ "-" ++ toString s ++ "-") = true) := fun hlonger =>
      reaps_of_startsWith 0 0 hvalid hq ht (name_ne_of_longer hlonger)
        (startsWith_slotVmPrefix_vmName_iff.mpr (Or.inr (Or.inl hlonger))) h
    rw [not_or, Bool.not_eq_true] at hlonger
    exact hlonger
  shorter := by
    intro q hq t ht hname
    have hstamp : (UInt64.ofNat s).toNat = s := by
      have hlt := Pool.lt_of_mem_slots hs
      rw [UInt64.toNat_ofNat', Nat.mod_eq_of_lt (by omega)]
    exact reaps_of_startsWith (UInt64.ofNat s) 0 hvalid hq ht
      (fun heq => ne_of_longer hname heq.symm)
      (startsWith_slotVmPrefix_vmName_iff.mpr (Or.inr (Or.inr ⟨hname, hstamp⟩))) h
  base := by
    intro b hb hstart
    by_contra hne
    have hbase := hvalid.base_validName b hb
    have hnonempty : b.name ≠ "" := by
      intro hempty
      rw [hempty] at hbase
      cases hbase
    obtain ⟨r, hr, hname⟩ := sweepLeftovers_of_stateFile
      (Text.trim_eq_self (not_isWhitespace_of_validName hbase)) hnonempty hne hstart
      (rfl : (stateFileRead b.name).stateFile = _)
    exact (h _).noBase r hr b hb hname

theorem reapsOwn_of_prefixFree {ts : UInt64} {pid : UInt32} (hvalid : cfg.Valid) (hp : p ∈ cfg.pools)
    (h : PrefixFree cfg (vmName p.name s ts pid) p s) :
    ReapsOwn cfg p s (sweepLeftovers (vmName p.name s ts pid) p.name s read) where
  prefixed := fun r hr => (mem_sweepLeftovers hr).1
  own := by
    intro r hr q hq t ht ts' pid' hname
    have hstart := (mem_sweepLeftovers hr).1
    rw [hname] at hstart
    rcases startsWith_slotVmPrefix_vmName_iff.mp hstart with hown | hlonger | hshorter
    · exact ⟨hvalid.name_injective hq hp hown.1, hown.2⟩
    · obtain ⟨hne, hnot⟩ := h.longer q hq (List.ne_nil_of_mem ht)
      cases hlonger with
      | inl heq => exact absurd heq hne
      | inr hlonger =>
          rw [hnot] at hlonger
          cases hlonger
    · exact absurd hshorter.1 (h.shorter q hq t ht)
  noBase := by
    intro r hr b hb hname
    obtain ⟨hstart, hne⟩ := mem_sweepLeftovers hr
    rw [hname] at hstart hne
    exact hne (h.base b hb hstart)

/-- **When a sweep reaps nothing but the slot's own.** -/
theorem sweep_reaps_own_iff {ts : UInt64} {pid : UInt32} (hvalid : cfg.validate = .ok ())
    (hp : p ∈ cfg.pools) (hs : s ∈ p.slots) :
    (∀ read, ReapsOwn cfg p s (sweepLeftovers (vmName p.name s ts pid) p.name s read)) ↔
      PrefixFree cfg (vmName p.name s ts pid) p s := by
  have hvalid := Config.valid_of_validate hvalid
  exact ⟨prefixFree_of_reapsOwn hvalid hs, fun h _ => reapsOwn_of_prefixFree hvalid hp h⟩

end

/-- A pool whose VM names start like those of slot 100 of the pool `ci`. -/
def slotNamedPool : Pool := { hyphenPool with name := "ci-100" }

def sweptRead : SweepRead where
  stateFile := none
  vmList := .ok ⟨0, "Name,State,IPv4,IPv6,Release,AllIPv4\nvmfleet-ci-100-200-1700000000-4243,Running,,,,\n",
    ""⟩
  runners := fun _ => .ok []
  deletions := fun _ => (.ok ⟨0, "", ""⟩, .ok ⟨0, "", ""⟩)

theorem sweep_reaps_own_smallPool :
    ReapsOwn (configWith [smallPool]) smallPool 100
      (sweepLeftovers (vmName smallPool.name 100 1700000000 4242) smallPool.name 100 sweptRead) := by
  refine (sweep_reaps_own_iff (by decide) List.mem_cons_self (by decide)).mpr ⟨?_, ?_, by decide⟩ sweptRead
  · intro q hq _
    obtain rfl := List.mem_singleton.mp hq
    decide
  · intro q hq
    obtain rfl := List.mem_singleton.mp hq
    decide

/-- A worker of slot 100 of `ci` reaps the running VM of slot 200 of `ci-100`. -/
theorem sweep_reaps_other_pool :
    (configWith [smallPool, slotNamedPool]).validate = .ok () ∧ 200 ∈ slotNamedPool.slots ∧
      (sweepLeftovers (vmName smallPool.name 100 1700000000 4242) smallPool.name 100 sweptRead).map
        (·.name) = [vmName slotNamedPool.name 200 1700000000 4243] ∧
      ¬ ReapsOwn (configWith [smallPool, slotNamedPool]) smallPool 100
        (sweepLeftovers (vmName smallPool.name 100 1700000000 4242) smallPool.name 100 sweptRead) := by
  have hnames : (sweepLeftovers (vmName smallPool.name 100 1700000000 4242) smallPool.name 100
      sweptRead).map (·.name) = [vmName slotNamedPool.name 200 1700000000 4243] := by decide
  refine ⟨by decide, by decide, hnames, fun h => ?_⟩
  obtain ⟨r, hr, hname⟩ : ∃ r ∈ sweepLeftovers (vmName smallPool.name 100 1700000000 4242) smallPool.name 100
      sweptRead, r.name = vmName slotNamedPool.name 200 1700000000 4243 := by
    rw [← List.mem_map, hnames]
    exact List.mem_singleton_self _
  have hown := h.own r hr slotNamedPool (List.mem_cons_of_mem _ List.mem_cons_self) 200 (by decide) _ _ hname
  exact absurd hown.2 (by decide)

end VmFleet
