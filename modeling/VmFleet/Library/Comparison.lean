import Mathlib.Data.List.Basic

/-!
# Comparisons

A comparison that looks at what a reader makes of its arguments first, and greatest elements. Two elements
may compare equal without being equal, so a list can have more than one greatest element, and which of them
a search ends at depends on the order of the list.
-/

namespace Comparison

open Std

variable {α β : Type}

/-! ### Reading before comparing -/

/-- What `read` makes of two elements is compared by `cmp`, two elements that it makes nothing of by
`other`, and `rank` says how the former stand to the latter. -/
def byReading (rank : Ordering) (read : α → Option β) (cmp : β → β → Ordering) (other : α → α → Ordering)
    (x y : α) : Ordering :=
  match read x, read y with
  | some a, some b => cmp a b
  | some _, none => rank
  | none, some _ => rank.swap
  | none, none => other x y

theorem transCmp_byReading {rank : Ordering} {read : α → Option β} {cmp : β → β → Ordering}
    {other : α → α → Ordering} [TransCmp cmp] [TransCmp other] (hrank : rank ≠ .eq) :
    TransCmp (byReading rank read cmp other) where
  eq_swap := by
    intro x y
    simp only [byReading]
    cases read x with
    | none =>
        cases read y with
        | none => exact OrientedCmp.eq_swap
        | some b => rfl
    | some a =>
        cases read y with
        | none => exact (Ordering.swap_swap).symm
        | some b => exact OrientedCmp.eq_swap
  isLE_trans := by
    intro x y z hxy hyz
    rw [byReading] at hxy hyz ⊢
    cases hx : read x <;> cases hy : read y <;> cases hz : read z <;> simp only [hx, hy, hz] at hxy hyz ⊢
    case none.none.none => exact TransCmp.isLE_trans hxy hyz
    case some.some.some => exact TransCmp.isLE_trans hxy hyz
    -- one is read, one is not, and the same is between them: the rank decides twice
    case none.none.some => exact hyz
    case none.some.some => exact hxy
    case some.none.none => exact hxy
    case some.some.none => exact hyz
    -- from one kind to the other and back
    case none.some.none => cases rank <;> simp at hrank hxy hyz
    case some.none.some => cases rank <;> simp at hrank hxy hyz

theorem transCmp_comap {cmp : β → β → Ordering} [TransCmp cmp] (f : α → β) :
    TransCmp fun x y => cmp (f x) (f y) where
  eq_swap := OrientedCmp.eq_swap
  isLE_trans := TransCmp.isLE_trans

instance transCmp_eq : TransCmp fun _ _ : α => Ordering.eq where
  eq_swap := rfl
  isLE_trans := fun h _ => h

/-! ### Lexicographic comparisons -/

/-- The elements at the first place where two lists have different ones. -/
def firstDifference [DecidableEq α] : List α → List α → Option (α × α)
  | x :: xs, y :: ys => if x = y then firstDifference xs ys else some (x, y)
  | _, _ => none

theorem then_eq_then_iff {o a b : Ordering} : o.then a = o.then b ↔ (o = .eq → a = b) := by
  cases o <;> simp

theorem compareLex_map {cmp : β → β → Ordering} (f : α → β) (xs ys : List α) :
    List.compareLex cmp (xs.map f) (ys.map f) = List.compareLex (fun x y => cmp (f x) (f y)) xs ys := by
  induction xs generalizing ys with
  | nil => cases ys <;> rfl
  | cons x xs ih =>
      cases ys with
      | nil => rfl
      | cons y ys =>
          rw [List.map_cons, List.map_cons, List.compareLex_cons_cons, List.compareLex_cons_cons, ih]

/-- Only the first difference counts. -/
theorem compareLex_eq_iff [DecidableEq α] {cmp cmp' : α → α → Ordering} [ReflCmp cmp] [ReflCmp cmp']
    (hcmp : ∀ x y, cmp x y = .eq → x = y) (hcmp' : ∀ x y, cmp' x y = .eq → x = y) (xs ys : List α) :
    List.compareLex cmp xs ys = List.compareLex cmp' xs ys ↔
      ∀ x y, firstDifference xs ys = some (x, y) → cmp x y = cmp' x y := by
  induction xs generalizing ys with
  | nil =>
      refine ⟨fun _ x y h => (nomatch h), fun _ => ?_⟩
      cases ys <;> rfl
  | cons x xs ih =>
      cases ys with
      | nil => exact ⟨fun _ x y h => (nomatch h), fun _ => rfl⟩
      | cons y ys =>
          rw [List.compareLex_cons_cons, List.compareLex_cons_cons, firstDifference]
          by_cases hxy : x = y
          · have hself : cmp y y = .eq := ReflCmp.compare_self
            have hself' : cmp' y y = .eq := ReflCmp.compare_self
            rw [if_pos hxy, ← ih ys, hxy, hself, hself']
            rfl
          · have hthen : ∀ o o' : Ordering, o ≠ .eq → o.then o' = o := by
              intro o o' ho
              cases o <;> simp at ho ⊢
            rw [if_neg hxy, hthen _ _ fun h => hxy (hcmp x y h), hthen _ _ fun h => hxy (hcmp' x y h)]
            refine ⟨fun h x' y' heq => ?_, fun h => h x y rfl⟩
            cases heq
            exact h

/-! ### Greatest elements -/

variable {cmp : α → α → Ordering}

structure Greatest (cmp : α → α → Ordering) (xs : List α) (x : α) : Prop where
  mem : x ∈ xs
  top : ∀ y ∈ xs, cmp y x ≠ .gt

/-- The second of two, unless the first is greater. -/
def later (cmp : α → α → Ordering) (x y : α) : α := if cmp x y = .gt then x else y

theorem isLE_later_left [TransCmp cmp] (x y : α) : (cmp x (later cmp x y)).isLE := by
  rw [later]
  split
  · exact ReflCmp.isLE_rfl
  · next hle => exact Ordering.isLE_iff_ne_gt.mpr hle

theorem isLE_later_right [TransCmp cmp] (x y : α) : (cmp y (later cmp x y)).isLE := by
  rw [later]
  split
  · next hgt => exact Ordering.isLE_of_eq_lt (OrientedCmp.lt_of_gt hgt)
  · exact ReflCmp.isLE_rfl

theorem later_eq_or (cmp : α → α → Ordering) (x y : α) : later cmp x y = x ∨ later cmp x y = y := by
  rw [later]
  split
  · exact Or.inl rfl
  · exact Or.inr rfl

/-- A fold that keeps the later one ends at a greatest element. -/
theorem greatest_foldl_later [TransCmp cmp] (x : α) (xs : List α) :
    Greatest cmp (x :: xs) (xs.foldl (later cmp) x) := by
  induction xs generalizing x with
  | nil =>
      have hself : cmp x x = .eq := ReflCmp.compare_self
      refine ⟨List.mem_singleton_self x, fun y hy => ?_⟩
      rw [List.mem_singleton.mp hy, List.foldl_nil, hself]
      exact nofun
  | cons y ys ih =>
      rw [List.foldl_cons]
      have hrest := ih (later cmp x y)
      have hbest := Ordering.isLE_iff_ne_gt.mpr (hrest.top _ List.mem_cons_self)
      refine ⟨?_, fun z hz => ?_⟩
      · rcases List.mem_cons.mp hrest.mem with heq | hmem
        · rw [heq]
          rcases later_eq_or cmp x y with heq | heq
          · rw [heq]
            exact List.mem_cons_self
          · rw [heq]
            exact List.mem_cons_of_mem _ List.mem_cons_self
        · exact List.mem_cons_of_mem _ (List.mem_cons_of_mem _ hmem)
      · rcases List.mem_cons.mp hz with rfl | hz
        · exact Ordering.isLE_iff_ne_gt.mp (TransCmp.isLE_trans (isLE_later_left z y) hbest)
        · rcases List.mem_cons.mp hz with rfl | hz
          · exact Ordering.isLE_iff_ne_gt.mp (TransCmp.isLE_trans (isLE_later_right x z) hbest)
          · exact hrest.top z (List.mem_cons_of_mem _ hz)

/-- Greatest elements of the same elements compare equal. -/
theorem Greatest.eq_of_perm [OrientedCmp cmp] {xs ys : List α} {x y : α} (hx : Greatest cmp xs x)
    (hy : Greatest cmp ys y) (hperm : xs.Perm ys) : cmp x y = .eq := by
  have hle : (cmp x y).isLE := Ordering.isLE_iff_ne_gt.mpr (hy.top x (hperm.subset hx.mem))
  have hge : (cmp y x).isLE := Ordering.isLE_iff_ne_gt.mpr (hx.top y (hperm.symm.subset hy.mem))
  exact OrientedCmp.isLE_antisymm hle hge

end Comparison
