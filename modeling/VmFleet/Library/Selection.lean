import Mathlib.Data.List.Sort
import Mathlib.Data.List.Count
import Mathlib.Order.Defs.LinearOrder

/-!
# The first by some key

Sorting a list and taking its first `k` elements picks those with less than `k` others before them, where
the one with the smaller key comes before and, of two with the same key, the one that stands first.
Leaving some elements out before the sort or after it makes no difference.
-/

namespace Selection

variable {α : Type}

/-! ### Sorting what is left -/

section Filter

variable (r : α → α → Prop) [DecidableRel r]

theorem orderedInsert_of_forall {a : α} {xs : List α} (h : ∀ b ∈ xs, r a b) :
    xs.orderedInsert r a = a :: xs := by
  cases xs with
  | nil => rfl
  | cons b xs => exact List.orderedInsert_cons_of_le r xs (h b List.mem_cons_self)

theorem filter_orderedInsert [IsTrans α r] (p : α → Bool) (a : α) {xs : List α}
    (hsorted : xs.Pairwise r) :
    (xs.orderedInsert r a).filter p =
      if p a then (xs.filter p).orderedInsert r a else xs.filter p := by
  induction xs with
  | nil =>
      rw [List.orderedInsert_nil, List.filter_cons]
      rfl
  | cons b xs ih =>
      obtain ⟨hhead, htail⟩ := List.pairwise_cons.mp hsorted
      by_cases hab : r a b
      · have hall : ∀ c ∈ (b :: xs).filter p, r a c := by
          intro c hc
          rcases List.mem_cons.mp (List.mem_of_mem_filter hc) with rfl | hc
          · exact hab
          · exact IsTrans.trans _ _ _ hab (hhead c hc)
        rw [List.orderedInsert_cons_of_le r xs hab, List.filter_cons, orderedInsert_of_forall r hall]
      · rw [List.orderedInsert_of_not_le r xs hab, List.filter_cons, List.filter_cons, ih htail]
        cases p a with
        | false => rfl
        | true =>
            cases p b with
            | false => rfl
            | true => exact (List.orderedInsert_of_not_le r _ hab).symm

theorem filter_insertionSort [Std.Total r] [IsTrans α r] (p : α → Bool) (xs : List α) :
    (xs.insertionSort r).filter p = (xs.filter p).insertionSort r := by
  induction xs with
  | nil => rfl
  | cons x xs ih =>
      rw [List.insertionSort_cons, filter_orderedInsert r p x (List.pairwise_insertionSort r xs), ih,
        List.filter_cons]
      cases p x with
      | false => rfl
      | true => exact (List.insertionSort_cons r x _).symm

end Filter

/-! ### Ranks -/

variable (key : α → Nat)

/-- `a` comes before `b`, for elements with their places in the list. -/
def before (a b : α × Nat) : Bool := key a.1 < key b.1 || (key a.1 == key b.1 && a.2 < b.2)

/-- How many elements of the list come before. -/
def rank (xs : List α) (e : α × Nat) : Nat := xs.zipIdx.countP (before key · e)

/-- The elements with less than `k` others before them, with their places. -/
def firsts (k : Nat) (xs : List α) : List (α × Nat) :=
  xs.zipIdx.filter fun e => rank key xs e < k

/-- In a list ordered by a strict order, an element's place is the number of those before it. -/
theorem take_eq_filter {r : α → α → Bool} (hasymm : ∀ a b, r a b = true → r b a = false) {xs : List α}
    (hsorted : xs.Pairwise (r · · = true)) (k : Nat) :
    xs.take k = xs.filter fun x => xs.countP (r · x) < k := by
  induction xs generalizing k with
  | nil => rw [List.take_nil, List.filter_nil]
  | cons x xs ih =>
      obtain ⟨hhead, htail⟩ := List.pairwise_cons.mp hsorted
      have hself : r x x = false := by
        cases hxx : r x x with
        | false => rfl
        | true => exact hxx ▸ hasymm x x hxx
      have hfirst : (x :: xs).countP (r · x) = 0 := by
        rw [List.countP_eq_zero]
        intro y hy
        rcases List.mem_cons.mp hy with rfl | hy
        · simp [hself]
        · simp [hasymm _ _ (hhead y hy)]
      have hlater : ∀ y ∈ xs, (x :: xs).countP (r · y) = xs.countP (r · y) + 1 :=
        fun y hy => List.countP_cons_of_pos (hhead y hy)
      rw [List.filter_cons, hfirst]
      cases k with
      | zero =>
          have hnone : xs.filter (fun y => (x :: xs).countP (r · y) < 0) = [] :=
            List.filter_eq_nil_iff.mpr fun y _ => by simp
          rw [List.take_zero, hnone]
          rfl
      | succ k =>
          have hrest : (xs.filter fun y => (x :: xs).countP (r · y) < k + 1) =
              xs.filter fun y => xs.countP (r · y) < k := by
            apply List.filter_congr
            intro y hy
            rw [hlater y hy, decide_eq_decide]
            omega
          rw [List.take_succ_cons, hrest, ih htail]
          simp

def leOf (a b : α × Nat) : Prop := key a.1 < key b.1 ∨ key a.1 = key b.1 ∧ a.2 ≤ b.2

instance : DecidableRel (leOf key) := fun _ _ => inferInstanceAs (Decidable (_ ∨ _))

instance : Std.Total (leOf key) where
  total a b := by
    unfold leOf
    omega

instance : IsTrans (α × Nat) (leOf key) where
  trans a b c := by
    unfold leOf
    omega

/-- An element is put before all later ones with the same key. -/
theorem map_orderedInsert_fst {a : α} {n : Nat} {xs : List (α × Nat)} (hlater : ∀ e ∈ xs, n < e.2) :
    (xs.orderedInsert (leOf key) (a, n)).map Prod.fst =
      (xs.map Prod.fst).orderedInsert (fun a b => key a ≤ key b) a := by
  induction xs with
  | nil => rfl
  | cons e xs ih =>
      have hn := hlater e List.mem_cons_self
      have hagree : leOf key (a, n) e ↔ key a ≤ key e.1 := by
        unfold leOf
        dsimp only
        omega
      rw [List.map_cons, List.orderedInsert_cons, List.orderedInsert_cons]
      by_cases hle : leOf key (a, n) e
      · rw [if_pos hle, if_pos (hagree.mp hle), List.map_cons, List.map_cons]
      · rw [if_neg hle, if_neg fun h => hle (hagree.mpr h), List.map_cons,
          ih fun e' he' => hlater e' (List.mem_cons_of_mem _ he')]

theorem insertionSort_eq_map (xs : List α) (n : Nat) :
    xs.insertionSort (fun a b => key a ≤ key b) =
      ((xs.zipIdx n).insertionSort (leOf key)).map Prod.fst := by
  induction xs generalizing n with
  | nil => rfl
  | cons x xs ih =>
      rw [List.insertionSort_cons, List.zipIdx_cons, List.insertionSort_cons, ih (n + 1),
        map_orderedInsert_fst]
      intro e he
      rw [List.mem_insertionSort] at he
      exact List.le_snd_of_mem_zipIdx he

theorem before_asymm (a b : α × Nat) (h : before key a b = true) : before key b a = false := by
  simp only [before, Bool.or_eq_true, Bool.and_eq_true, decide_eq_true_eq, beq_iff_eq, Bool.or_eq_false_iff,
    Bool.and_eq_false_imp, decide_eq_false_iff_not] at h ⊢
  omega

/-- Sorted by key and place, the elements are in the strict order. -/
theorem pairwise_before (xs : List α) :
    (xs.zipIdx.insertionSort (leOf key)).Pairwise (before key · · = true) := by
  have hsorted := List.pairwise_insertionSort (leOf key) xs.zipIdx
  have hperm := List.perm_insertionSort (leOf key) xs.zipIdx
  have hplaces : (xs.zipIdx.insertionSort (leOf key)).Pairwise fun a b => a.2 ≠ b.2 := by
    have hnodup : ((xs.zipIdx.insertionSort (leOf key)).map Prod.snd).Nodup := by
      rw [(hperm.map _).nodup_iff, List.zipIdx_map_snd]
      exact List.nodup_range'
    exact List.pairwise_map.mp hnodup
  apply (hsorted.and hplaces).imp
  intro a b hab
  obtain ⟨hle, hne⟩ := hab
  unfold leOf at hle
  simp only [before, Bool.or_eq_true, Bool.and_eq_true, decide_eq_true_eq, beq_iff_eq]
  omega

/-- **The first `k` after a sort are those with less than `k` others before them.** -/
theorem take_insertionSort_perm (k : Nat) (xs : List α) :
    ((xs.insertionSort fun a b => key a ≤ key b).take k).Perm ((firsts key k xs).map Prod.fst) := by
  have hperm := List.perm_insertionSort (leOf key) xs.zipIdx
  have hranks : (fun e => decide ((xs.zipIdx.insertionSort (leOf key)).countP (before key · e) < k)) =
      fun e => decide (rank key xs e < k) := by
    funext e
    rw [hperm.countP_eq]
    rfl
  rw [insertionSort_eq_map key xs 0, ← List.map_take,
    take_eq_filter (before_asymm key) (pairwise_before key xs), hranks]
  exact (hperm.filter _).map _

/-! ### The first ones among themselves -/

variable {key} {xs : List α} {k : Nat} {a b c : α × Nat}

theorem before_trans (hab : before key a b = true) (hbc : before key b c = true) :
    before key a c = true := by
  simp only [before, Bool.or_eq_true, Bool.and_eq_true, decide_eq_true_eq, beq_iff_eq] at hab hbc ⊢
  omega

theorem before_or_before (hplace : a.2 ≠ b.2) : before key a b = true ∨ before key b a = true := by
  simp only [before, Bool.or_eq_true, Bool.and_eq_true, decide_eq_true_eq, beq_iff_eq]
  omega

theorem eq_of_place (ha : a ∈ xs.zipIdx) (hb : b ∈ xs.zipIdx) (hplace : a.2 = b.2) : a = b := by
  have ha' := List.mem_zipIdx_iff_getElem?.mp ha
  have hb' := List.mem_zipIdx_iff_getElem?.mp hb
  rw [hplace, hb', Option.some.injEq] at ha'
  exact Prod.ext ha'.symm hplace

/-- What comes before one of the first is one of them. -/
theorem mem_firsts_of_before (hb : b ∈ firsts key k xs) (ha : a ∈ xs.zipIdx)
    (hbefore : before key a b = true) : a ∈ firsts key k xs := by
  have hrank : rank key xs a ≤ rank key xs b := by
    apply List.countP_mono_left
    intro c _ hc
    exact before_trans hc hbefore
  have hlt := of_decide_eq_true (List.mem_filter.mp hb).2
  exact List.mem_filter.mpr ⟨ha, decide_eq_true (hrank.trans_lt hlt)⟩

/-- **When the first ones differ by `f`**: none of them has a twin before it. -/
theorem nodup_map_firsts_iff {β : Type} (f : α → β) :
    ((firsts key k xs).map fun e => f e.1).Nodup ↔
      ∀ e ∈ firsts key k xs, ∀ e' ∈ xs.zipIdx, before key e' e = true → f e'.1 ≠ f e.1 := by
  refine ⟨fun hnodup e he e' he' hbefore heq => ?_, fun hdiffer => ?_⟩
  · have hsame : e' = e :=
      List.inj_on_of_nodup_map hnodup (mem_firsts_of_before he he' hbefore) he heq
    have hself := before_asymm key e' e hbefore
    rw [hsame] at hself hbefore
    rw [hself] at hbefore
    cases hbefore
  · have hplaces : xs.zipIdx.Nodup := by
      apply List.Nodup.of_map Prod.snd
      rw [List.zipIdx_map_snd]
      exact List.nodup_range'
    apply List.Nodup.map_on _ (hplaces.filter _)
    intro e he e' he' heq
    by_contra hne
    have hzip := (List.mem_filter.mp he).1
    have hzip' := (List.mem_filter.mp he').1
    have hordered : before key e e' = true ∨ before key e' e = true :=
      before_or_before fun hplace => hne (eq_of_place hzip hzip' hplace)
    cases hordered with
    | inl hbefore => exact hdiffer e' he' e hzip hbefore heq
    | inr hbefore => exact hdiffer e he e' hzip' hbefore heq.symm

variable (key)

theorem length_firsts (k : Nat) (xs : List α) : (firsts key k xs).length = min k xs.length := by
  have hlength := (take_insertionSort_perm key k xs).length_eq
  rw [List.length_take, List.length_insertionSort, List.length_map] at hlength
  exact hlength.symm

end Selection
