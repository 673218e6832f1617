import Mathlib.Data.List.Pairwise
import Mathlib.Tactic.Common

/-!
# Disjoint intervals

In a list of intervals sorted by where they start, comparing each interval with the next is enough: if
none runs into its neighbour, none runs into any later one. Empty intervals need no special case.
-/

namespace Interval

variable {α : Type} (first last : α → Nat)

/-- `a` ends before `b` starts. -/
def Before (a b : α) : Prop := last a ≤ first b

/-- **Neighbours decide.** -/
theorem pairwise_before {xs : List α} (hsorted : xs.Pairwise fun a b => first a ≤ first b)
    (hnext : xs.IsChain (Before first last)) : xs.Pairwise (Before first last) := by
  induction xs with
  | nil => exact List.Pairwise.nil
  | cons a xs ih =>
      rw [List.pairwise_cons] at hsorted ⊢
      refine ⟨?_, ih hsorted.2 (hnext.of_cons)⟩
      cases xs with
      | nil =>
          intro b hb
          cases hb
      | cons b xs =>
          rw [List.isChain_cons_cons] at hnext
          intro c hc
          rcases List.mem_cons.mp hc with rfl | hc
          · exact hnext.1
          · exact Nat.le_trans hnext.1 ((List.pairwise_cons.mp hsorted.2).1 c hc)

end Interval
