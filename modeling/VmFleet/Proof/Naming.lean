import VmFleet.Source.Naming

/-!
# What a name says

A worker's VM and unit names carry its slot, and both read back. Which pool a VM belongs to is another
matter: pool names may contain the hyphen that separates the fields of a VM name, so the start of one
pool's VM names can be the start of another's. `startsWith_slotVmPrefix_vmName_iff` lists every case.
-/

namespace VmFleet

theorem dash_eq : "-" = String.singleton '-' := rfl

theorem vmPrefix_eq : vmPrefix = "vmfleet" ++ String.singleton '-' := by decide

/-- A slot number in a name is followed by a hyphen, so reading it stops there. -/
theorem slotOfVm_vmHead_append {pool rest : String} {slot : Nat} (hslot : slot < 2 ^ 32) :
    slotOfVm pool (vmHead pool ++ (toString slot ++ "-" ++ rest)) = some slot := by
  simp only [slotOfVm, Text.stripPrefix_append, Option.bind_eq_bind, Option.bind_some, dash_eq]
  rw [Text.firstField_append (Text.not_mem_repr (by decide))]
  exact Text.parseUnsigned_toString hslot

theorem slotVmPrefix_eq (pool : String) (slot : Nat) :
    slotVmPrefix pool slot = vmHead pool ++ toString slot ++ "-" := by
  rw [slotVmPrefix, vmHead]

theorem vmName_eq (pool : String) (slot : Nat) (ts : UInt64) (pid : UInt32) :
    vmName pool slot ts pid =
      slotVmPrefix pool slot ++ (toString ts.toNat ++ "-" ++ toString pid.toNat) := by
  simp only [vmName, slotVmPrefix, String.append_assoc]

theorem slotOfVm_vmName {pool : String} {slot : Nat} {ts : UInt64} {pid : UInt32}
    (hslot : slot < 2 ^ 32) : slotOfVm pool (vmName pool slot ts pid) = some slot := by
  have hname : vmName pool slot ts pid =
      vmHead pool ++ (toString slot ++ "-" ++ (toString ts.toNat ++ "-" ++ toString pid.toNat)) := by
    rw [vmName_eq, slotVmPrefix_eq]
    simp only [String.append_assoc]
  rw [hname]
  exact slotOfVm_vmHead_append hslot

theorem workerUnit_eq (slot : Nat) : workerUnit slot = "vmfleet-worker-" ++ (toString slot ++ ".service") :=
  String.append_assoc

theorem slotFromUnit_workerUnit {slot : Nat} (hslot : slot < 2 ^ 32) :
    slotFromUnit (workerUnit slot) = some slot := by
  rw [workerUnit_eq]
  simp only [slotFromUnit, Text.stripPrefix_append, Text.stripSuffix_append, Option.bind_eq_bind,
    Option.bind_some]
  exact Text.parseUnsigned_toString hslot

/-! ### The fields of a name -/

theorem fields_vmPrefix_append (s : String) :
    Text.fields '-' (vmPrefix ++ s) = "vmfleet".toList :: Text.fields '-' s := by
  rw [vmPrefix_eq, Text.fields_append]
  rfl

theorem fields_dash_toString (a : String) (n : Nat) :
    Text.fields '-' (a ++ "-" ++ toString n) = Text.fields '-' a ++ [(toString n).toList] := by
  rw [dash_eq, Text.fields_append, Text.fields_toString _ (by decide)]

theorem fields_vmName (pool : String) (slot : Nat) (ts : UInt64) (pid : UInt32) :
    Text.fields '-' (vmName pool slot ts pid) = "vmfleet".toList :: (Text.fields '-' pool ++
      [(toString slot).toList, (toString ts.toNat).toList, (toString pid.toNat).toList]) := by
  rw [vmName, fields_dash_toString, fields_dash_toString, fields_dash_toString, fields_vmPrefix_append]
  simp only [List.cons_append, List.append_assoc, List.nil_append]

/-- Pool, slot, time stamp and process id can all be read off a VM name: the last three fields are
numbers, and what is before them is the pool. -/
theorem vmName_injective {p q : String} {s t : Nat} {ts ts' : UInt64} {pid pid' : UInt32}
    (h : vmName p s ts pid = vmName q t ts' pid') : p = q ∧ s = t ∧ ts = ts' ∧ pid = pid' := by
  have hfields := congrArg (Text.fields '-') h
  rw [fields_vmName, fields_vmName, List.cons.injEq] at hfields
  obtain ⟨hpool, hnumbers⟩ := List.append_inj' hfields.2 rfl
  simp only [List.cons.injEq, and_true] at hnumbers
  obtain ⟨hslot, hts, hpid⟩ := hnumbers
  exact ⟨Text.fields_injective hpool, Text.toString_injective hslot,
    UInt64.toNat_inj.mp (Text.toString_injective hts), UInt32.toNat_inj.mp (Text.toString_injective hpid)⟩

private theorem append_three_eq_iff {α : Type} {Q P rest : List α} {a b c x : α} :
    Q ++ [a, b, c] = P ++ x :: rest ↔
      (Q = P ∧ a = x ∧ rest = [b, c]) ∨ (∃ mid, Q = P ++ x :: mid ∧ rest = mid ++ [a, b, c]) ∨
        (P = Q ++ [a] ∧ b = x ∧ rest = [c]) ∨ (P = Q ++ [a, b] ∧ c = x ∧ rest = []) := by
  refine ⟨fun h => ?_, fun h => ?_⟩
  · rcases List.append_eq_append_iff.mp h with ⟨front, hP, htail⟩ | ⟨back, hQ, htail⟩
    · -- `P` reaches into the three entries: by none of them, by one, by two, or too far
      rcases front with _ | ⟨f, _ | ⟨g, _ | ⟨k, front⟩⟩⟩
      · simp only [List.nil_append, List.cons.injEq] at htail
        exact Or.inl ⟨by simpa using hP.symm, htail.1, htail.2.symm⟩
      · simp only [List.cons_append, List.nil_append, List.cons.injEq] at htail
        exact Or.inr (Or.inr (Or.inl ⟨by rw [hP, htail.1], htail.2.1, htail.2.2.symm⟩))
      · simp only [List.cons_append, List.nil_append, List.cons.injEq] at htail
        exact Or.inr (Or.inr (Or.inr ⟨by rw [hP, htail.1, htail.2.1], htail.2.2.1, htail.2.2.2.symm⟩))
      · have hlength := congrArg List.length htail
        simp only [List.length_cons, List.length_nil, List.length_append] at hlength
        omega
    · rcases back with _ | ⟨y, mid⟩
      · simp only [List.nil_append, List.cons.injEq] at htail
        exact Or.inl ⟨by simpa using hQ, htail.1.symm, htail.2⟩
      · simp only [List.cons_append, List.cons.injEq] at htail
        exact Or.inr (Or.inl ⟨mid, by rw [hQ, htail.1], htail.2⟩)
  · rcases h with ⟨rfl, rfl, rfl⟩ | ⟨mid, rfl, rfl⟩ | ⟨rfl, rfl, rfl⟩ | ⟨rfl, rfl, rfl⟩ <;> simp

/-! ### Reading a slot -/

/-- A slot is read from the first field after the pool's name. -/
theorem slotOfVm_eq_some_iff {pool vm : String} {slot : Nat} :
    slotOfVm pool vm = some slot ↔ ∃ field rest,
      Text.fields '-' vm = "vmfleet".toList :: (Text.fields '-' pool ++ field :: rest) ∧
        Text.parseU32 (String.ofList field) = some slot := by
  have hhead : ∀ rest, Text.fields '-' (vmHead pool ++ rest) =
      "vmfleet".toList :: (Text.fields '-' pool ++ Text.fields '-' rest) := by
    intro rest
    rw [vmHead, dash_eq, Text.fields_append, fields_vmPrefix_append, List.cons_append]
  have hread : slotOfVm pool vm = some slot ↔
      ∃ rest, vm = vmHead pool ++ rest ∧ Text.parseU32 (Text.firstField '-' rest) = some slot := by
    rw [slotOfVm, Option.bind_eq_bind, Option.bind_eq_some_iff]
    exact exists_congr fun rest => and_congr_left fun _ => Text.stripPrefix_eq_some_iff
  rw [hread]
  refine ⟨fun h => ?_, fun h => ?_⟩
  · obtain ⟨rest, rfl, hparse⟩ := h
    obtain ⟨field, tail, hfields⟩ := List.exists_cons_of_ne_nil (Text.fields_ne_nil '-' rest)
    refine ⟨field, tail, by rw [hhead, hfields], ?_⟩
    rw [← Text.firstField_of_fields hfields]
    exact hparse
  · obtain ⟨field, tail, hfields, hparse⟩ := h
    have hstart : Text.startsWith vm (vmPrefix ++ pool ++ String.singleton '-') = true := by
      rw [Text.startsWith_sep_iff, fields_vmPrefix_append]
      exact ⟨field :: tail, List.cons_ne_nil _ _, hfields⟩
    obtain ⟨rest, hrest⟩ := Text.startsWith_iff.mp hstart
    refine ⟨rest, hrest, ?_⟩
    have htail : Text.fields '-' rest = field :: tail := by
      rw [show vm = vmHead pool ++ rest from hrest, hhead, List.cons.injEq] at hfields
      exact List.append_cancel_left hfields.2
    rw [Text.firstField_of_fields htail]
    exact hparse

/-- What the pool named `q` reads from the name of a VM of the pool named `p`: its slot, if they are the
same; the number that follows `q` in `p`; or, if `q` is `p` with the VM's slot or its slot and time stamp
behind it, the number that comes next. -/
def ReadsAs (q p : String) (s : Nat) (ts : UInt64) (pid : UInt32) (t : Nat) : Prop :=
  (p = q ∧ s = t) ∨
  (∃ field rest, Text.fields '-' p = Text.fields '-' q ++ field :: rest ∧
    Text.parseU32 (String.ofList field) = some t) ∨
  (q = p ++ "-" ++ toString s ∧ ts.toNat = t ∧ t < 2 ^ 32) ∨
  (q = p ++ "-" ++ toString s ++ "-" ++ toString ts.toNat ∧ pid.toNat = t)

theorem parseU32_digits {m t : Nat} :
    Text.parseU32 (String.ofList (toString m).toList) = some t ↔ m = t ∧ t < 2 ^ 32 := by
  rw [String.ofList_toList]
  exact Text.parseUnsigned_toString_eq_some_iff

theorem eq_append_slot_iff {p q : String} {s : Nat} :
    q = p ++ "-" ++ toString s ↔ Text.fields '-' q = Text.fields '-' p ++ [(toString s).toList] := by
  rw [← fields_dash_toString]
  exact ⟨fun h => h ▸ rfl, Text.fields_injective⟩

/-- **What a pool reads from another's VM name.** -/
theorem slotOfVm_vmName_iff {q p : String} {s t : Nat} {ts : UInt64} {pid : UInt32} (hs : s < 2 ^ 32) :
    slotOfVm q (vmName p s ts pid) = some t ↔ ReadsAs q p s ts pid t := by
  have hstamp : q = p ++ "-" ++ toString s ++ "-" ++ toString ts.toNat ↔
      Text.fields '-' q = Text.fields '-' p ++ [(toString s).toList, (toString ts.toNat).toList] := by
    rw [eq_append_slot_iff, fields_dash_toString, List.append_assoc]
    rfl
  rw [slotOfVm_eq_some_iff, ReadsAs, eq_append_slot_iff, hstamp, fields_vmName]
  simp only [List.cons.injEq, true_and]
  refine ⟨fun h => ?_, fun h => ?_⟩
  · obtain ⟨field, rest, heq, hparse⟩ := h
    rcases append_three_eq_iff.mp heq with
      ⟨hpool, rfl, _⟩ | ⟨mid, hpool, _⟩ | ⟨hpool, rfl, _⟩ | ⟨hpool, rfl, _⟩
    · exact Or.inl ⟨Text.fields_injective hpool, (parseU32_digits.mp hparse).1⟩
    · exact Or.inr (Or.inl ⟨field, mid, hpool, hparse⟩)
    · exact Or.inr (Or.inr (Or.inl ⟨hpool, parseU32_digits.mp hparse⟩))
    · exact Or.inr (Or.inr (Or.inr ⟨hpool, (parseU32_digits.mp hparse).1⟩))
  · rcases h with ⟨rfl, rfl⟩ | ⟨field, rest, hpool, hparse⟩ | ⟨hpool, rfl, hlt⟩ | ⟨hpool, rfl⟩
    · exact ⟨_, _, rfl, parseU32_digits.mpr ⟨rfl, hs⟩⟩
    · exact ⟨field, rest ++ [(toString s).toList, (toString ts.toNat).toList, (toString pid.toNat).toList],
        append_three_eq_iff.mpr (Or.inr (Or.inl ⟨rest, hpool, rfl⟩)), hparse⟩
    · exact ⟨_, _, append_three_eq_iff.mpr (Or.inr (Or.inr (Or.inl ⟨hpool, rfl, rfl⟩))),
        parseU32_digits.mpr ⟨rfl, hlt⟩⟩
    · exact ⟨_, _, append_three_eq_iff.mpr (Or.inr (Or.inr (Or.inr ⟨hpool, rfl, rfl⟩))),
        parseU32_digits.mpr ⟨rfl, pid.toNat_lt⟩⟩

/-- **When a pool and slot's name pattern matches a VM name.** Either the VM is one of theirs, or the
pool that made it is named `<p>-<s>` or `<p>-<s>-...`, or it is the VM with time stamp `s` of slot `t`
of a pool `q` and the pool `p` is named `<q>-<t>`. -/
theorem startsWith_slotVmPrefix_vmName_iff {p q : String} {s t : Nat} {ts : UInt64} {pid : UInt32} :
    Text.startsWith (vmName q t ts pid) (slotVmPrefix p s) = true ↔
      (q = p ∧ t = s) ∨
      (q = p ++ "-" ++ toString s ∨ Text.startsWith q (p ++ "-" ++ toString s ++ "-") = true) ∨
      (p = q ++ "-" ++ toString t ∧ ts.toNat = s) := by
  have hq' : Text.startsWith q (p ++ "-" ++ toString s ++ "-") = true ↔ ∃ mid, mid ≠ [] ∧
      Text.fields '-' q = Text.fields '-' p ++ (toString s).toList :: mid := by
    rw [show p ++ "-" ++ toString s ++ "-" = p ++ "-" ++ toString s ++ String.singleton '-' from rfl,
      Text.startsWith_sep_iff]
    simp only [fields_dash_toString, List.append_assoc, List.cons_append, List.nil_append]
  have hmatch : Text.startsWith (vmName q t ts pid) (slotVmPrefix p s) = true ↔ ∃ rest, rest ≠ [] ∧
      Text.fields '-' q ++
        [(toString t).toList, (toString ts.toNat).toList, (toString pid.toNat).toList] =
        Text.fields '-' p ++ (toString s).toList :: rest := by
    rw [slotVmPrefix, dash_eq, Text.startsWith_sep_iff, fields_vmName, ← dash_eq]
    simp only [fields_dash_toString, fields_vmPrefix_append, List.cons_append, List.cons.injEq,
      true_and, List.append_assoc, List.nil_append]
  rw [hmatch, hq', eq_append_slot_iff, eq_append_slot_iff]
  refine ⟨fun h => ?_, fun h => ?_⟩
  · obtain ⟨rest, hrest, heq⟩ := h
    rcases append_three_eq_iff.mp heq with
      ⟨hQ, hslot, _⟩ | ⟨mid, hQ, _⟩ | ⟨hP, hslot, _⟩ | ⟨_, _, hnil⟩
    · exact Or.inl ⟨Text.fields_injective hQ, Text.toString_injective hslot⟩
    · rcases eq_or_ne mid [] with rfl | hmid
      · exact Or.inr (Or.inl (Or.inl hQ))
      · exact Or.inr (Or.inl (Or.inr ⟨mid, hmid, hQ⟩))
    · exact Or.inr (Or.inr ⟨hP, Text.toString_injective hslot⟩)
    · exact absurd hnil hrest
  · rcases h with ⟨rfl, rfl⟩ | (hQ | ⟨mid, _, hQ⟩) | ⟨hP, rfl⟩
    · exact ⟨_, List.cons_ne_nil _ _, rfl⟩
    · exact ⟨_, List.cons_ne_nil _ _, by
        rw [hQ]
        simp only [List.append_assoc, List.cons_append, List.nil_append]
        rfl⟩
    · exact ⟨mid ++ [(toString t).toList, (toString ts.toNat).toList, (toString pid.toNat).toList],
        by simp, by rw [hQ]; simp only [List.append_assoc, List.cons_append]⟩
    · exact ⟨[(toString pid.toNat).toList], List.cons_ne_nil _ _, by
        rw [hP]
        simp only [List.append_assoc, List.cons_append, List.nil_append]⟩

/-! ### One pool, any slots

A pool's own name is too short to carry a slot number behind itself, so within one pool the patterns of
two slots match no VM in common. -/

theorem startsWith_slotVmPrefix_append_eq_false {p : String} {s : Nat} :
    Text.startsWith p (p ++ "-" ++ toString s ++ "-") = false := by
  rw [Bool.eq_false_iff]
  intro hstart
  obtain ⟨rest, hrest⟩ := Text.startsWith_iff.mp hstart
  have hlength := congrArg String.length hrest
  simp only [String.length_append] at hlength
  have hdash : "-".length = 1 := by decide
  omega

theorem ne_append_slot {p : String} {s : Nat} : p ≠ p ++ "-" ++ toString s := by
  intro h
  have hlength := congrArg String.length h
  simp only [String.length_append] at hlength
  have hdash : "-".length = 1 := by decide
  omega

/-- **A slot comes back from both names it is written into, and its pattern matches no other slot's VM.** -/
theorem names_carry_slot (p : String) (s t : UInt32) (ts : UInt64) (pid : UInt32) :
    slotOfVm p (vmName p s.toNat ts pid) = some s.toNat ∧
      slotFromUnit (workerUnit s.toNat) = some s.toNat ∧
      (Text.startsWith (vmName p s.toNat ts pid) (slotVmPrefix p t.toNat) = true ↔ s = t) := by
  refine ⟨slotOfVm_vmName s.toNat_lt, slotFromUnit_workerUnit s.toNat_lt, ?_⟩
  rw [startsWith_slotVmPrefix_vmName_iff, startsWith_slotVmPrefix_append_eq_false]
  simp only [ne_append_slot, true_and, false_and, or_false, Bool.false_eq_true]
  exact UInt32.toNat_inj

end VmFleet
