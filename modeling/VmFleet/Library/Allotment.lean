import Mathlib.Algebra.GroupWithZero.Nat
import Mathlib.Algebra.BigOperators.Group.List.Basic
import Mathlib.Tactic.Common

/-!
# Sharing out a budget

Demands served in order from one budget: each takes what it asks for, or what the ones before it have
left. The total is then the smaller of the budget and the sum of the demands.

Where an attempt may fail, it matters whether the budget bounds the attempts or the successes.
-/

namespace Allotment

def allot : Nat → List Nat → List Nat
  | _, [] => []
  | budget, demand :: rest => min demand budget :: allot (budget - min demand budget) rest

@[simp] theorem allot_nil (budget : Nat) : allot budget [] = [] := rfl

@[simp] theorem allot_cons (budget demand : Nat) (rest : List Nat) :
    allot budget (demand :: rest) = min demand budget :: allot (budget - min demand budget) rest := rfl

/-- **The budget is used up, or every demand is met.** -/
theorem sum_allot (budget : Nat) (demands : List Nat) :
    (allot budget demands).sum = min budget demands.sum := by
  induction demands generalizing budget with
  | nil => simp
  | cons demand rest ih =>
      rw [allot_cons, List.sum_cons, List.sum_cons, ih]
      omega

theorem le_of_map_eq_allot {α : Type} {served demand : α → Nat} {budget : Nat} {xs : List α}
    (h : xs.map served = allot budget (xs.map demand)) : ∀ x ∈ xs, served x ≤ demand x := by
  induction xs generalizing budget with
  | nil => simp
  | cons y ys ih =>
      rw [List.map_cons, List.map_cons, allot_cons, List.cons.injEq] at h
      rw [List.forall_mem_cons]
      exact ⟨Nat.le_trans (Nat.le_of_eq h.1) (Nat.min_le_left _ _), ih h.2⟩

/-- Served from what is there, a demand that fits is served in full. -/
theorem map_length_zipWith_take {α β : Type} (f : α → Nat) (stock : α → List β) (budget : Nat) {xs : List α}
    (hfits : ∀ x ∈ xs, f x ≤ (stock x).length) :
    (List.zipWith (fun x n => (stock x).take n) xs (allot budget (xs.map f))).map List.length =
      allot budget (xs.map f) := by
  induction xs generalizing budget with
  | nil => rfl
  | cons y ys ih =>
      have hy := hfits y List.mem_cons_self
      rw [List.map_cons, allot_cons, List.zipWith_cons_cons, List.map_cons,
        ih _ fun x hx => hfits x (List.mem_cons_of_mem _ hx), List.length_take]
      congr 1
      omega

/-- **Trying the first `n` is as good as going on until `n` have succeeded** exactly when none of the
first `n` fails, or all after them do. -/
theorem length_filter_take_eq_iff {α : Type} (ok : α → Bool) (n : Nat) (xs : List α) :
    ((xs.take n).filter ok).length = min n (xs.filter ok).length ↔
      (∀ x ∈ xs.take n, ok x = true) ∨ ∀ x ∈ xs.drop n, ok x = false := by
  have hsplit : (xs.filter ok).length =
      ((xs.take n).filter ok).length + ((xs.drop n).filter ok).length := by
    rw [← List.length_append, ← List.filter_append, List.take_append_drop]
  have htake : (xs.take n).length = min n xs.length := List.length_take
  have hdrop : (xs.drop n).length = xs.length - n := List.length_drop
  have hle : ((xs.take n).filter ok).length ≤ (xs.take n).length := List.length_filter_le _ _
  have hrest : ((xs.drop n).filter ok).length ≤ (xs.drop n).length := List.length_filter_le _ _
  have hall : (∀ x ∈ xs.take n, ok x = true) ↔
      ((xs.take n).filter ok).length = (xs.take n).length := List.length_filter_eq_length_iff.symm
  have hnone : (∀ x ∈ xs.drop n, ok x = false) ↔ ((xs.drop n).filter ok).length = 0 := by
    simp [List.filter_eq_nil_iff]
  rw [hall, hnone]
  omega

/-! ### Rounds

Served in several rounds, each with a budget of its own, the demands get what one round with all the
budgets would give them. -/

/-- What the allotment leaves of each demand. -/
def unmet (budget : Nat) (demands : List Nat) : List Nat :=
  List.zipWith (· - ·) demands (allot budget demands)

@[simp] theorem unmet_cons (budget demand : Nat) (rest : List Nat) :
    unmet budget (demand :: rest) = (demand - min demand budget) :: unmet (budget - min demand budget) rest :=
  rfl

theorem allot_add (b c : Nat) (demands : List Nat) :
    List.zipWith (· + ·) (allot b demands) (allot c (unmet b demands)) = allot (b + c) demands := by
  induction demands generalizing b c with
  | nil => rfl
  | cons demand rest ih =>
      have hhead : min demand b + min (demand - min demand b) c = min demand (b + c) := by omega
      have hleft : b + c - min demand (b + c) =
          (b - min demand b) + (c - min (demand - min demand b) c) := by omega
      rw [unmet_cons, allot_cons, allot_cons, allot_cons, List.zipWith_cons_cons, hhead, ih, hleft]

theorem unmet_add (b c : Nat) (demands : List Nat) : unmet c (unmet b demands) = unmet (b + c) demands := by
  induction demands generalizing b c with
  | nil => rfl
  | cons demand rest ih =>
      have hhead : demand - min demand b - min (demand - min demand b) c = demand - min demand (b + c) := by
        omega
      have hleft : b + c - min demand (b + c) =
          (b - min demand b) + (c - min (demand - min demand b) c) := by omega
      rw [unmet_cons, unmet_cons, unmet_cons, hhead, ih, hleft]

@[simp] theorem unmet_zero (demands : List Nat) : unmet 0 demands = demands := by
  induction demands with
  | nil => rfl
  | cons demand rest ih => simp [ih]

theorem sum_unmet (budget : Nat) (demands : List Nat) : (unmet budget demands).sum = demands.sum - budget := by
  induction demands generalizing budget with
  | nil => simp [unmet]
  | cons demand rest ih =>
      rw [unmet_cons, List.sum_cons, List.sum_cons, ih]
      omega

section Rounds

variable {α ρ : Type} {xs : List α} {budget : ρ → Nat} {need served : ρ → α → Nat}

/-- One round leaves what the allotment leaves. -/
theorem map_need_next {a b : ρ} (hserved : xs.map (served a) = allot (budget a) (xs.map (need a)))
    (hnext : ∀ x ∈ xs, need b x = need a x - served a x) :
    xs.map (need b) = unmet (budget a) (xs.map (need a)) := by
  rw [unmet, ← hserved, List.zipWith_map, List.zipWith_self]
  exact List.map_congr_left hnext

/-- What is left at the beginning of a round. -/
theorem map_need_of_rounds {first r : ρ} {pre post : List ρ}
    (hserved : ∀ q ∈ pre ++ r :: post, xs.map (served q) = allot (budget q) (xs.map (need q)))
    (hnext : (pre ++ r :: post).IsChain fun a b => ∀ x ∈ xs, need b x = need a x - served a x)
    (hfirst : (pre ++ r :: post).head? = some first) :
    xs.map (need r) = unmet (pre.map budget).sum (xs.map (need first)) := by
  induction pre generalizing first with
  | nil =>
      cases hfirst
      rw [List.map_nil, List.sum_nil, unmet_zero]
  | cons a pre ih =>
      cases hfirst
      obtain ⟨second, rest, hrest⟩ : ∃ second rest, pre ++ r :: post = second :: rest :=
        List.exists_cons_of_ne_nil (List.append_ne_nil_of_right_ne_nil _ (List.cons_ne_nil _ _))
      rw [List.cons_append, hrest, List.isChain_cons_cons] at hnext
      have hsecond := map_need_next (hserved a List.mem_cons_self) hnext.1
      have hih := ih (fun q hq => hserved q (List.mem_cons_of_mem _ hq)) (hrest ▸ hnext.2) (by rw [hrest]; rfl)
      rw [hih, hsecond, unmet_add, List.map_cons, List.sum_cons]

/-- **Rounds add up**: all together they serve as one round with the sum of their budgets does. -/
theorem map_sum_served {first : ρ} {rounds : List ρ}
    (hserved : ∀ r ∈ first :: rounds, xs.map (served r) = allot (budget r) (xs.map (need r)))
    (hnext : (first :: rounds).IsChain fun a b => ∀ x ∈ xs, need b x = need a x - served a x) :
    xs.map (fun x => ((first :: rounds).map (served · x)).sum) =
      allot ((first :: rounds).map budget).sum (xs.map (need first)) := by
  induction rounds generalizing first with
  | nil =>
      simp only [List.map_cons, List.map_nil, List.sum_cons, List.sum_nil, Nat.add_zero]
      exact hserved first List.mem_cons_self
  | cons second rest ih =>
      rw [List.isChain_cons_cons] at hnext
      have hhead := hserved first List.mem_cons_self
      have hrest := ih (fun r hr => hserved r (List.mem_cons_of_mem _ hr)) hnext.2
      rw [map_need_next hhead hnext.1] at hrest
      rw [List.map_cons, List.sum_cons, ← allot_add, ← hhead, ← hrest, List.zipWith_map, List.zipWith_self]
      simp only [List.map_cons, List.sum_cons]

end Rounds

end Allotment
