import Mathlib.Algebra.GroupWithZero.Nat
import Mathlib.Algebra.Order.BigOperators.Group.List
import Mathlib.Algebra.Order.Group.Nat
import Mathlib.Data.List.Nodup
import Mathlib.Tactic.Common

/-!
# Counting in two ways

Things sorted into bins, where nothing says that a thing goes into one bin only. Adding up over the bins
and adding up over the things give the same number; when every thing goes into exactly one bin, that
number is how many things there are.
-/

namespace Counting

variable {α β : Type} (P : α → β → Bool)

theorem sum_countP_comm (bins : List α) (things : List β) :
    (bins.map fun b => things.countP (P b)).sum = (things.map fun t => bins.countP fun b => P b t).sum := by
  induction things with
  | nil =>
      have hzero : (bins.map fun b => ([] : List β).countP (P b)) = bins.map fun _ => 0 :=
        List.map_congr_left fun _ _ => List.countP_nil
      rw [hzero]
      simp
  | cons t ts ih =>
      have hsplit : (bins.map fun b => (t :: ts).countP (P b)).sum =
          (bins.map fun b => ts.countP (P b)).sum + bins.countP fun b => P b t := by
        clear ih
        induction bins with
        | nil => rfl
        | cons b bs ih =>
            rw [List.map_cons, List.sum_cons, List.map_cons, List.sum_cons, ih, List.countP_cons,
              List.countP_cons]
            omega
      rw [hsplit, ih, List.map_cons, List.sum_cons]
      omega

theorem countP_eq_one [DecidableEq α] {bins : List α} {b : α} {p : α → Bool} (hnodup : bins.Nodup)
    (hb : b ∈ bins) (honly : ∀ c ∈ bins, p c = true ↔ c = b) : bins.countP p = 1 := by
  have hcount : bins.countP p = bins.count b := by
    apply List.countP_congr
    intro c hc
    rw [honly c hc, beq_iff_eq]
  rw [hcount, List.count_eq_one_of_mem hnodup hb]

/-- **Nothing is counted twice, and nothing is missed.** -/
theorem sum_countP_of_one {bins : List α} {things : List β}
    (hone : ∀ t ∈ things, (bins.countP fun b => P b t) = 1) :
    (bins.map fun b => things.countP (P b)).sum = things.length := by
  rw [sum_countP_comm, List.map_congr_left hone, List.map_const', List.sum_replicate]
  simp

theorem countP_le_one [DecidableEq α] {bins : List α} {b : α} {p : α → Bool} (hnodup : bins.Nodup)
    (honly : ∀ c ∈ bins, p c = true → c = b) : bins.countP p ≤ 1 := by
  have hcount : bins.countP p ≤ bins.count b := by
    apply List.countP_mono_left
    intro c hc hp
    rw [beq_iff_eq]
    exact honly c hc hp
  exact hcount.trans (List.nodup_iff_count_le_one.mp hnodup b)

/-- What no bin shares with another is not weighed twice. -/
theorem sum_sum_filter_le {bins : List α} {things : List β} (w : β → Nat)
    (hone : ∀ t ∈ things, (bins.countP fun b => P b t) ≤ 1) :
    (bins.map fun b => ((things.filter (P b)).map w).sum).sum ≤ (things.map w).sum := by
  induction things with
  | nil =>
      have hzero : (bins.map fun b => ((([] : List β).filter (P b)).map w).sum) = bins.map fun _ => 0 :=
        List.map_congr_left fun _ _ => rfl
      rw [hzero]
      simp
  | cons t ts ih =>
      have hsplit : (bins.map fun b => (((t :: ts).filter (P b)).map w).sum).sum =
          (bins.countP fun b => P b t) * w t +
            (bins.map fun b => ((ts.filter (P b)).map w).sum).sum := by
        clear ih hone
        induction bins with
        | nil => simp
        | cons b bs ih =>
            rw [List.map_cons, List.sum_cons, List.map_cons, List.sum_cons, ih, List.countP_cons,
              List.filter_cons]
            split
            · rw [List.map_cons, List.sum_cons, Nat.add_mul]
              omega
            · rw [Nat.add_zero]
              omega
      have hhead : (bins.countP fun b => P b t) * w t ≤ 1 * w t :=
        Nat.mul_le_mul_right _ (hone t List.mem_cons_self)
      have hrest := ih fun t' ht' => hone t' (List.mem_cons_of_mem _ ht')
      rw [hsplit, List.map_cons, List.sum_cons]
      omega

/-- Things that are in some bin are no more than the bins hold together. -/
theorem countP_any_le (bins : List α) (things : List β) :
    (things.countP fun t => bins.any fun b => P b t) ≤ (bins.map fun b => things.countP (P b)).sum := by
  rw [sum_countP_comm]
  induction things with
  | nil => exact Nat.le_refl _
  | cons t ts ih =>
      rw [List.countP_cons, List.map_cons, List.sum_cons]
      have hhead : (if (bins.any fun b => P b t) = true then 1 else 0) ≤ bins.countP fun b => P b t := by
        split
        · next hany => exact List.countP_pos_iff.mpr (List.any_eq_true.mp hany)
        · exact Nat.zero_le _
      omega

/-- Sums of terms that are never above others agree only if all the terms do. -/
theorem eq_of_sum_map_eq {f g : α → Nat} {xs : List α} (hle : ∀ x ∈ xs, f x ≤ g x)
    (hsum : (xs.map f).sum = (xs.map g).sum) : ∀ x ∈ xs, f x = g x := by
  induction xs with
  | nil =>
      intro x hx
      exact absurd hx List.not_mem_nil
  | cons y ys ih =>
      have htail : ∀ x ∈ ys, f x ≤ g x := fun x hx => hle x (List.mem_cons_of_mem _ hx)
      have hhead := hle y List.mem_cons_self
      have hrest : (ys.map f).sum ≤ (ys.map g).sum := List.sum_le_sum htail
      rw [List.map_cons, List.sum_cons, List.map_cons, List.sum_cons] at hsum
      intro x hx
      rcases List.mem_cons.mp hx with rfl | hx
      · omega
      · exact ih htail (by omega) x hx

end Counting
