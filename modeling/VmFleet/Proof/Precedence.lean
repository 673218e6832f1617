import VmFleet.Proof.VersionOrder
import VmFleet.Library.SemVer

/-!
# Versions and their precedence

What `cmp_versions` makes of valid version strings. It reads them as they are written, and it gives their
precedence, but for numeric identifiers that do not fit into `u64`: those it takes for words.
-/

namespace VmFleet

open Std Comparison

variable {v w : SemVer.Version} {x y : SemVer.Identifier}

/-! ### Reading -/

/-- The core numbers can be read. -/
structure Fits (v : SemVer.Version) : Prop where
  major : v.major < 2 ^ 64
  minor : v.minor < 2 ^ 64
  patch : v.patch < 2 ^ 64

/-- With or without a leading `v`. -/
def tagged (leading : Bool) (s : String) : String := if leading then "v" ++ s else s

theorem trim_tagged (leading : Bool) : Text.trim (tagged leading v.text) = tagged leading v.text := by
  apply Text.trim_eq_self
  intro c hc
  cases leading with
  | false => exact SemVer.Version.isWhitespace_of_mem_text hc
  | true =>
      rw [tagged, if_pos rfl, String.toList_append, List.mem_append] at hc
      rcases hc with hc | hc
      · rw [List.mem_singleton.mp hc]
        rfl
      · exact SemVer.Version.isWhitespace_of_mem_text hc

theorem trimV_tagged (leading : Bool) : trimV (tagged leading v.text) = v.text := by
  obtain ⟨c, cs, hcons, hdigit⟩ := v.exists_text_eq_cons
  have hkeep : v.text.toList.dropWhile (· == 'v') = v.text.toList := by
    have hne : (c == 'v') = false := by
      rw [beq_eq_false_iff_ne]
      rintro rfl
      cases hdigit
    rw [hcons, List.dropWhile_cons, hne, if_neg Bool.false_ne_true]
  cases leading with
  | false =>
      show String.ofList (v.text.toList.dropWhile (· == 'v')) = v.text
      rw [hkeep, String.ofList_toList]
  | true =>
      rw [tagged, if_pos rfl, trimV, String.toList_append]
      show String.ofList (v.text.toList.dropWhile (· == 'v')) = v.text
      rw [hkeep, String.ofList_toList]

theorem splitHyphen_unbuilt :
    splitHyphen v.unbuilt = (v.core, if v.pre = [] then none else some v.preText) := by
  have hcore : ∀ c ∈ v.core.toList, (c != '-') = true := by
    intro c hc
    rw [bne_iff_ne]
    rintro rfl
    exact SemVer.Version.hyphen_not_mem_core hc
  rw [splitHyphen, SemVer.Version.unbuilt]
  split
  · have hfields := Text.fields_of_not_mem (SemVer.Version.hyphen_not_mem_core (v := v))
    rw [Text.firstField_of_fields hfields, String.ofList_toList,
      List.dropWhile_eq_nil_iff.mpr hcore]
  · have hfirst : Text.firstField '-' (v.core ++ "-" ++ v.preText) = v.core :=
      Text.firstField_append SemVer.Version.hyphen_not_mem_core
    rw [hfirst, String.toList_append, String.toList_append, List.append_assoc,
      List.dropWhile_append_of_pos hcore]
    show (v.core, some (String.ofList v.preText.toList)) = _
    rw [String.ofList_toList]

theorem parseVersionFull_tagged (hv : Fits v) (leading : Bool) :
    parseVersionFull (tagged leading v.text) =
      some ⟨v.major, v.minor, v.patch, v.pre.map SemVer.Identifier.text⟩ := by
  have hnumbers : (Text.fields '.' v.core).map String.ofList =
      [toString v.major, toString v.minor, toString v.patch] := by
    rw [SemVer.Version.fields_core, List.map_cons, List.map_cons, List.map_cons, List.map_nil,
      String.ofList_toList, String.ofList_toList, String.ofList_toList]
  have hread : ∀ {n : Nat}, n < 2 ^ 64 → Text.parseU64 n.repr = some n := by
    intro n hn
    rw [← Nat.toString_eq_repr]
    exact Text.parseUnsigned_toString hn
  unfold parseVersionFull
  simp only [trim_tagged, trimV_tagged, SemVer.Version.firstField_text, splitHyphen_unbuilt, hnumbers]
  by_cases hnil : v.pre = []
  · simp [hread hv.major, hread hv.minor, hread hv.patch, hnil]
  · simp [hread hv.major, hread hv.minor, hread hv.patch, hnil, SemVer.Version.preText_ne_empty hnil,
      SemVer.Version.fields_preText hnil]

/-! ### Identifiers -/

/-- A numeric identifier that `parse::<u64>` does not read. -/
def Oversized : SemVer.Identifier → Prop
  | .numeric n => 2 ^ 64 ≤ n
  | .alphanumeric _ => False

/-- A number that is read. -/
def readIdentifier : SemVer.Identifier → Option Nat
  | .numeric n => if n < 2 ^ 64 then some n else none
  | .alphanumeric _ => none

/-- Taken for words, the two are in another order: one is an oversized number, the other is no number that
is read. -/
def Misordered (x y : SemVer.Identifier) : Prop :=
  (Oversized x ∧ readIdentifier y = none ∨ Oversized y ∧ readIdentifier x = none) ∧
    compare x.text y.text ≠ SemVer.Identifier.compare x y

theorem parseU64_text (x : SemVer.Identifier) : Text.parseU64 x.text = readIdentifier x := by
  cases x with
  | numeric n => exact Text.parseUnsigned_toString_eq (2 ^ 64) n
  | alphanumeric s =>
      obtain ⟨c, hc, hdigit⟩ := s.nonDigit
      exact Text.parseUnsigned_eq_none (fun hplus => absurd (s.chars _ hplus) (by decide)) hc hdigit

theorem cmpIdentifier_text (x y : SemVer.Identifier) :
    cmpIdentifier x.text y.text =
      byReading .lt readIdentifier compare (fun x y => compare x.text y.text) x y := by
  rw [cmpIdentifier_eq, byReading, byReading, parseU64_text, parseU64_text]

theorem eq_of_readIdentifier {n : Nat} (h : readIdentifier x = some n) : x = .numeric n := by
  cases x with
  | numeric m =>
      rw [readIdentifier] at h
      split at h
      · cases h
        rfl
      · cases h
  | alphanumeric s => cases h

theorem oversized_or_alphanumeric (h : readIdentifier x = none) :
    Oversized x ∨ ∃ s, x = .alphanumeric s := by
  cases x with
  | numeric n =>
      rw [readIdentifier] at h
      split at h
      · cases h
      · next hbig => exact Or.inl (Nat.le_of_not_lt hbig)
  | alphanumeric s => exact Or.inr ⟨s, rfl⟩

theorem eq_of_cmpIdentifier_text (h : cmpIdentifier x.text y.text = .eq) : x = y := by
  rw [cmpIdentifier_text, byReading] at h
  cases hx : readIdentifier x <;> cases hy : readIdentifier y <;> simp only [hx, hy] at h
  case none.none => exact SemVer.Identifier.text_injective (LawfulEqOrd.eq_of_compare h)
  case some.some m n => rw [eq_of_readIdentifier hx, eq_of_readIdentifier hy, Nat.compare_eq_eq.mp h]
  all_goals cases h

theorem not_oversized_of_read {n : Nat} (h : readIdentifier x = some n) : ¬ Oversized x := by
  intro hover
  rw [eq_of_readIdentifier h] at hover h
  rw [readIdentifier, if_neg (Nat.not_lt.mpr hover)] at h
  cases h

/-- A number that is read comes before everything that is not. -/
theorem compare_of_read_left {n : Nat} (hx : readIdentifier x = some n) (hy : readIdentifier y = none) :
    SemVer.Identifier.compare x y = .lt := by
  have hn : n < 2 ^ 64 := Nat.lt_of_not_le (by
    have hnot := not_oversized_of_read hx
    rwa [eq_of_readIdentifier hx] at hnot)
  rw [eq_of_readIdentifier hx]
  obtain hover | ⟨s, rfl⟩ := oversized_or_alphanumeric hy
  · cases y with
    | numeric m =>
        have hm : 2 ^ 64 ≤ m := hover
        exact Nat.compare_eq_lt.mpr (by omega)
    | alphanumeric s => cases hover
  · rfl

theorem compare_swap (x y : SemVer.Identifier) :
    SemVer.Identifier.compare x y = (SemVer.Identifier.compare y x).swap := by
  cases x with
  | numeric m =>
      cases y with
      | numeric n => exact OrientedOrd.eq_swap
      | alphanumeric t => rfl
  | alphanumeric s =>
      cases y with
      | numeric n => rfl
      | alphanumeric t => exact OrientedOrd.eq_swap

theorem cmpIdentifier_eq_compare_iff (x y : SemVer.Identifier) :
    cmpIdentifier x.text y.text = SemVer.Identifier.compare x y ↔ ¬ Misordered x y := by
  rw [cmpIdentifier_text, byReading]
  cases hx : readIdentifier x with
  | none =>
      cases hy : readIdentifier y with
      | none =>
          show compare x.text y.text = _ ↔ _
          refine ⟨fun heq hmis => hmis.2 heq, fun hmis => ?_⟩
          obtain hover | ⟨s, rfl⟩ := oversized_or_alphanumeric hx
          · exact Classical.not_not.mp fun hne => hmis ⟨Or.inl ⟨hover, hy⟩, hne⟩
          · obtain hover | ⟨t, rfl⟩ := oversized_or_alphanumeric hy
            · exact Classical.not_not.mp fun hne => hmis ⟨Or.inr ⟨hover, rfl⟩, hne⟩
            · rfl
      | some n =>
          have hmis : ¬ Misordered x y := by
            rintro ⟨⟨_, hread⟩ | ⟨hover, _⟩, _⟩
            · rw [hy] at hread
              cases hread
            · exact not_oversized_of_read hy hover
          rw [compare_swap, compare_of_read_left hy hx]
          exact ⟨fun _ => hmis, fun _ => rfl⟩
  | some m =>
      have hmis : readIdentifier y = none ∨ ¬ Oversized y := by
        cases hy : readIdentifier y with
        | none => exact Or.inl rfl
        | some n => exact Or.inr (not_oversized_of_read hy)
      have hnot : ¬ Misordered x y := by
        rintro ⟨⟨hover, _⟩ | ⟨_, hread⟩, _⟩
        · exact not_oversized_of_read hx hover
        · rw [hx] at hread
          cases hread
      cases hy : readIdentifier y with
      | none =>
          rw [compare_of_read_left hx hy]
          exact ⟨fun _ => hnot, fun _ => rfl⟩
      | some n =>
          rw [eq_of_readIdentifier hx, eq_of_readIdentifier hy] at hnot ⊢
          exact ⟨fun _ => hnot, fun _ => rfl⟩

/-! ### Versions -/

theorem cmpPrerelease_eq_comparePre_iff (xs ys : List SemVer.Identifier) :
    cmpPrerelease (xs.map SemVer.Identifier.text) (ys.map SemVer.Identifier.text) =
        SemVer.comparePre xs ys ↔
      ∀ x y, firstDifference xs ys = some (x, y) → ¬ Misordered x y := by
  have htexts : TransCmp fun x y : SemVer.Identifier => cmpIdentifier x.text y.text :=
    transCmp_comap SemVer.Identifier.text
  cases xs with
  | nil => cases ys <;> exact ⟨fun _ x y h => (nomatch h), fun _ => rfl⟩
  | cons x xs =>
      cases ys with
      | nil => exact ⟨fun _ x y h => (nomatch h), fun _ => rfl⟩
      | cons y ys =>
          show cmpIdentifiers ((x :: xs).map _) ((y :: ys).map _) = List.compareLex _ _ _ ↔ _
          rw [cmpIdentifiers_eq, compareLex_map, compareLex_eq_iff (fun _ _ => eq_of_cmpIdentifier_text)
            fun _ _ => SemVer.Identifier.eq_of_compare]
          exact forall₂_congr fun x y => imp_congr_right fun _ => cmpIdentifier_eq_compare_iff x y

/-- **Valid versions are compared by precedence, unless it is for an oversized number to decide.** -/
theorem cmpVersions_eq_precedence_iff (hv : Fits v) (hw : Fits w) (leading leading' : Bool) :
    cmpVersions (tagged leading v.text) (tagged leading' w.text) = v.precedence w ↔
      (v.major = w.major → v.minor = w.minor → v.patch = w.patch →
        ∀ x y, firstDifference v.pre w.pre = some (x, y) → ¬ Misordered x y) := by
  have hcmp : cmpVersions (tagged leading v.text) (tagged leading' w.text) =
      (compare v.major w.major).then ((compare v.minor w.minor).then ((compare v.patch w.patch).then
        (cmpPrerelease (v.pre.map SemVer.Identifier.text) (w.pre.map SemVer.Identifier.text)))) := by
    unfold cmpVersions
    rw [parseVersionFull_tagged hv, parseVersionFull_tagged hw]
  rw [hcmp, SemVer.Version.precedence, then_eq_then_iff, then_eq_then_iff, then_eq_then_iff,
    cmpPrerelease_eq_comparePre_iff, Nat.compare_eq_eq, Nat.compare_eq_eq, Nat.compare_eq_eq]

/-- `0.2.0-rc.<n>` -/
def candidate (n : Nat) : SemVer.Version where
  major := 0
  minor := 2
  patch := 0
  pre := [.alphanumeric ⟨"rc", Text.forall_mem_of_all (by decide), 'r', by decide, rfl⟩, .numeric n]

theorem fits_candidate (n : Nat) : Fits (candidate n) where
  major := Nat.two_pow_pos 64
  minor := (by decide : 2 < 2 ^ 64)
  patch := Nat.two_pow_pos 64

theorem cmpVersions_candidates :
    cmpVersions (tagged true (candidate 11).text) (tagged false (candidate 2).text) =
      (candidate 11).precedence (candidate 2) := by
  refine (cmpVersions_eq_precedence_iff (fits_candidate 11) (fits_candidate 2) true false).mpr ?_
  intro _ _ _ x y hdiff hmis
  have hpair : (x, y) = (.numeric 11, .numeric 2) := (Option.some.inj hdiff).symm
  cases hpair
  obtain ⟨_, hread⟩ | ⟨_, hread⟩ := hmis.1
  · cases hread
  · cases hread

theorem text_candidate (n : Nat) : (candidate n).text = "0.2.0-rc." ++ toString n := by
  have hcore : (candidate n).core = "0.2.0" := (by decide : (candidate 0).core = "0.2.0")
  have hpre : (candidate n).preText = "rc." ++ toString n := by
    show ".".intercalate ["rc", toString n] = _
    rw [String.intercalate_cons_cons, String.intercalate_singleton]
    rfl
  have hunbuilt : (candidate n).unbuilt = (candidate n).core ++ "-" ++ (candidate n).preText :=
    if_neg (List.cons_ne_nil _ _)
  have htext : (candidate n).text = (candidate n).unbuilt := if_pos rfl
  rw [htext, hunbuilt, hcore, hpre, ← String.append_assoc]
  rfl

/-- The smaller of two numbers that `u64` does not hold, and the greater in ASCII order. -/
theorem cmpVersions_oversized :
    Fits (candidate 18446744073709551616) ∧ Fits (candidate 100000000000000000000) ∧
    cmpVersions (candidate 18446744073709551616).text (candidate 100000000000000000000).text = .gt ∧
    (candidate 18446744073709551616).precedence (candidate 100000000000000000000) = .lt := by
  refine ⟨fits_candidate _, fits_candidate _, ?_, ?_⟩
  · have hsmall : toString 18446744073709551616 = "18446744073709551616" := by decide +kernel
    have hlarge : toString 100000000000000000000 = "100000000000000000000" := by decide +kernel
    rw [text_candidate, text_candidate, hsmall, hlarge]
    decide +kernel
  · decide +kernel

end VmFleet
