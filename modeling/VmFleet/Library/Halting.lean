import Mathlib.Logic.Relation
import Mathlib.Logic.Function.Iterate
import Mathlib.Data.Finset.Lattice.Fold
import Mathlib.Tactic.Common

/-!
# When a loop halts

A loop that is at one place after another takes one or more steps at each. Where the places it can go on
to are given by a relation, it halts exactly when the relation leads to a place it cannot go on from.
-/

namespace Halting

variable {σ τ : Type} {f : σ → σ} {done : σ → Prop} {follows : τ → τ → Prop} {here : σ → τ → Prop}

/-- From each place the loop goes on to one that follows, and is not done before, or it comes to be done
when none follows. -/
structure Visits (f : σ → σ) (done : σ → Prop) (follows : τ → τ → Prop) (here : σ → τ → Prop) : Prop where
  go : ∀ s u v, here s u → follows u v →
    ∃ n, 0 < n ∧ here (f^[n] s) v ∧ ∀ m < n, ¬ done (f^[m] s)
  stop : ∀ s u, here s u → (∀ v, ¬ follows u v) → ∃ n, done (f^[n] s)

theorem Visits.done_of_stuck (h : Visits f done follows here) {s : σ} {u w : τ} (hat : here s u)
    (hreach : Relation.ReflTransGen follows u w) (hstuck : ∀ v, ¬ follows w v) :
    ∃ n, done (f^[n] s) := by
  induction hreach using Relation.ReflTransGen.head_induction_on generalizing s with
  | refl => exact h.stop s w hat hstuck
  | head hstep _ ih =>
      obtain ⟨n, _, hnext, _⟩ := h.go s _ _ hat hstep
      obtain ⟨m, hdone⟩ := ih hnext
      refine ⟨m + n, ?_⟩
      rw [Function.iterate_add_apply]
      exact hdone

theorem Visits.stuck_of_done (h : Visits f done follows here) {n : Nat} {s : σ} {u : τ} (hat : here s u)
    (hdone : done (f^[n] s)) : ∃ w, Relation.ReflTransGen follows u w ∧ ∀ v, ¬ follows w v := by
  induction n using Nat.strongRecOn generalizing s u with
  | _ n ih =>
      by_cases hstuck : ∀ v, ¬ follows u v
      · exact ⟨u, .refl, hstuck⟩
      · push Not at hstuck
        obtain ⟨v, hstep⟩ := hstuck
        obtain ⟨k, hpos, hnext, hbusy⟩ := h.go s u v hat hstep
        have hle : k ≤ n := by
          by_contra hlt
          exact hbusy n (by omega) hdone
        have hrest : done (f^[n - k] (f^[k] s)) := by
          rw [← Function.iterate_add_apply, Nat.sub_add_cancel hle]
          exact hdone
        obtain ⟨w, hreach, hw⟩ := ih (n - k) (by omega) hnext hrest
        exact ⟨w, .head hstep hreach, hw⟩

/-- **The loop halts exactly when its places run out.** -/
theorem Visits.halts_iff (h : Visits f done follows here) {s : σ} {u : τ} (hat : here s u) :
    (∃ n, done (f^[n] s)) ↔ ∃ w, Relation.ReflTransGen follows u w ∧ ∀ v, ¬ follows w v := by
  refine ⟨fun ⟨n, hdone⟩ => h.stuck_of_done hat hdone, fun ⟨w, hreach, hstuck⟩ => ?_⟩
  exact h.done_of_stuck hat hreach hstuck

/-- A loop that rests once it is done passes through finitely many states, so what is counted along the
way is bounded. -/
theorem bounded_of_done (hrest : ∀ s, done s → f s = s) {s : σ} {n : Nat} (hdone : done (f^[n] s))
    (count : σ → Nat) : ∃ bound, ∀ m, count (f^[m] s) ≤ bound := by
  refine ⟨(Finset.range (n + 1)).sup fun m => count (f^[m] s), fun m => ?_⟩
  have hle : ∀ m ≤ n, count (f^[m] s) ≤ (Finset.range (n + 1)).sup fun m => count (f^[m] s) := by
    intro m hm
    exact Finset.le_sup (f := fun m => count (f^[m] s)) (Finset.mem_range.mpr (by omega))
  by_cases hm : m ≤ n
  · exact hle m hm
  · have hsame : f^[m] s = f^[n] s := by
      rw [show m = m - n + n by omega, Function.iterate_add_apply]
      exact Function.iterate_fixed (hrest _ hdone) (m - n)
    rw [hsame]
    exact hle n le_rfl

end Halting
