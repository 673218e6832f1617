import VmFleet.Source.SelfUpdate
import VmFleet.Library.Comparison

/-!
# The order of versions

`cmp_versions` compares any two strings, those that are no versions among them. It is put together from
comparisons that read their arguments first, so it is a total preorder, and `pick_newest` finds a greatest
element for it whatever the order of the releases.
-/

namespace VmFleet

open Std Comparison

/-! ### Layers -/

theorem cmpIdentifier_eq : cmpIdentifier = byReading .lt Text.parseU64 compare compare := by
  funext x y
  rw [cmpIdentifier, byReading]
  cases Text.parseU64 x <;> cases Text.parseU64 y <;> rfl

theorem cmpIdentifiers_eq : cmpIdentifiers = List.compareLex cmpIdentifier := by
  funext xs ys
  induction xs generalizing ys with
  | nil => cases ys <;> rfl
  | cons x xs ih =>
      cases ys with
      | nil => rfl
      | cons y ys => rw [cmpIdentifiers, List.compareLex_cons_cons, ih]

/-- The identifiers of a prerelease; a stable release has none. -/
def identifiers? : List String → Option (List String)
  | [] => none
  | x :: xs => some (x :: xs)

theorem cmpPrerelease_eq :
    cmpPrerelease = byReading .lt identifiers? (List.compareLex cmpIdentifier) fun _ _ => .eq := by
  funext xs ys
  rw [← cmpIdentifiers_eq]
  cases xs <;> cases ys <;> rfl

def cmpVersion : Version → Version → Ordering :=
  compareLex (compareOn (·.major)) <| compareLex (compareOn (·.minor)) <|
    compareLex (compareOn (·.patch)) fun v w => cmpPrerelease v.pre w.pre

theorem cmpVersion_apply (v w : Version) :
    cmpVersion v w = (compare v.major w.major).then ((compare v.minor w.minor).then
      ((compare v.patch w.patch).then (cmpPrerelease v.pre w.pre))) := rfl

theorem cmpVersions_eq : cmpVersions = byReading .gt parseVersionFull cmpVersion fun _ _ => .eq := by
  funext a b
  unfold cmpVersions byReading
  cases parseVersionFull a with
  | none => cases parseVersionFull b <;> rfl
  | some v =>
      cases parseVersionFull b with
      | none => rfl
      | some w => exact (cmpVersion_apply v w).symm

/-! ### Total preorders -/

instance : TransCmp cmpIdentifier := by
  rw [cmpIdentifier_eq]
  exact transCmp_byReading nofun

instance : TransCmp cmpPrerelease := by
  rw [cmpPrerelease_eq]
  exact transCmp_byReading nofun

instance : TransCmp cmpVersion := by
  have hpre : TransCmp fun v w : Version => cmpPrerelease v.pre w.pre := transCmp_comap Version.pre
  exact inferInstanceAs (TransCmp (compareLex _ (compareLex _ (compareLex _ _))))

instance : TransCmp cmpVersions := by
  rw [cmpVersions_eq]
  exact transCmp_byReading nofun

/-! ### The newest release -/

def cmpReleases (a b : Release) : Ordering := cmpVersions a.tagName b.tagName

instance : TransCmp cmpReleases := transCmp_comap Release.tagName

theorem pickNewest_eq_none_iff {releases : List Release} :
    pickNewest releases = none ↔ ∀ r ∈ releases, r.draft = true := by
  have hempty : pickNewest releases = none ↔ releases.filter (!·.draft) = [] := by
    rw [pickNewest]
    split
    · next hnil => simp [hnil]
    · next hcons => simp [hcons]
  rw [hempty, List.filter_eq_nil_iff]
  simp

theorem greatest_of_pickNewest {releases : List Release} {r : Release} (h : pickNewest releases = some r) :
    Greatest cmpReleases (releases.filter (!·.draft)) r := by
  rw [pickNewest] at h
  split at h
  · cases h
  · next first rest hcons =>
      cases h
      rw [hcons]
      exact greatest_foldl_later first rest

/-- **Any two strings compare, and consistently, so the newest release is one.** -/
theorem cmpVersions_preorder :
    (∀ a, cmpVersions a a = .eq) ∧ (∀ a b, cmpVersions b a = (cmpVersions a b).swap) ∧
    (∀ a b c, cmpVersions a b ≠ .gt → cmpVersions b c ≠ .gt → cmpVersions a c ≠ .gt) ∧
    ∀ releases : List Release,
      (pickNewest releases = none ↔ ∀ r ∈ releases, r.draft = true) ∧
      (∀ r, pickNewest releases = some r → r ∈ releases ∧ r.draft = false ∧
        ∀ other ∈ releases, other.draft = false → cmpVersions other.tagName r.tagName ≠ .gt) ∧
      ∀ permuted, releases.Perm permuted → ∀ r, pickNewest releases = some r →
        ∃ s, pickNewest permuted = some s ∧ cmpVersions r.tagName s.tagName = .eq := by
  refine ⟨fun a => ReflCmp.compare_self, fun a b => OrientedCmp.eq_swap, fun a b c hab hbc => ?_,
    fun releases => ⟨pickNewest_eq_none_iff, fun r hr => ?_, fun permuted hperm r hr => ?_⟩⟩
  · have hle := Ordering.isLE_iff_ne_gt.mpr hab
    exact Ordering.isLE_iff_ne_gt.mp (TransCmp.isLE_trans hle (Ordering.isLE_iff_ne_gt.mpr hbc))
  · have hgreatest := greatest_of_pickNewest hr
    have hmem := List.mem_filter.mp hgreatest.mem
    refine ⟨hmem.1, by simpa using hmem.2, fun other hother hdraft => ?_⟩
    exact hgreatest.top other (List.mem_filter.mpr ⟨hother, by rw [hdraft]; rfl⟩)
  · have hgreatest := greatest_of_pickNewest hr
    cases hs : pickNewest permuted with
    | none =>
        have hdraft := pickNewest_eq_none_iff.mp hs r (hperm.subset (List.mem_filter.mp hgreatest.mem).1)
        have hkept := (List.mem_filter.mp hgreatest.mem).2
        rw [hdraft] at hkept
        cases hkept
    | some s =>
        exact ⟨s, rfl, hgreatest.eq_of_perm (greatest_of_pickNewest hs) (hperm.filter _)⟩

/-- The later of two tags for one version is taken. -/
example : pickNewest [⟨"v0.2.0", false, []⟩, ⟨"v0.2.0+musl", false, []⟩, ⟨"v0.3.0", true, []⟩] =
    some ⟨"v0.2.0+musl", false, []⟩ := by decide

end VmFleet
