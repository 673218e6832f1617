import Mathlib.Tactic.Common

/-!
# Turns

A list in which what is of one owner stands together: after another one's turn an owner has none again.
-/

namespace Sessions

variable {α : Type}

def Grouped (xs : List α) : Prop :=
  ∀ (i j k : Nat) (x : α), i ≤ j → j ≤ k → xs[i]? = some x → xs[k]? = some x → xs[j]? = some x

theorem grouped_nil : Grouped ([] : List α) := by simp [Grouped]

/-- Only whose turn it is goes on, or one that has had none. -/
theorem Grouped.concat {xs : List α} {x : α} (h : Grouped xs) (hx : x ∈ xs → xs.getLast? = some x) :
    Grouped (xs ++ [x]) := by
  intro i j k y hij hjk hi hk
  rcases Nat.lt_trichotomy k xs.length with hlt | heq | hgt
  · rw [List.getElem?_append_left hlt] at hk
    rw [List.getElem?_append_left (by omega)] at hi ⊢
    exact h i j k y hij hjk hi hk
  · -- The last one is `x`, so the turn of `x` has lasted to the end.
    have hxy : x = y := by simpa [heq] using hk
    subst hxy
    rcases Nat.eq_or_lt_of_le hjk with rfl | hj
    · exact hk
    · rw [List.getElem?_append_left (by omega)] at hi ⊢
      have hlast : xs[xs.length - 1]? = some x := by
        rw [← List.getLast?_eq_getElem?]
        exact hx (List.mem_of_getElem? hi)
      exact h i j (xs.length - 1) x hij (by omega) hi hlast
  · rw [List.getElem?_eq_none (by simp; omega)] at hk
    cases hk

end Sessions
