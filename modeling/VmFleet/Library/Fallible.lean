/-!
# Chains of checks

A chain of checks in `Except` accepts exactly when each check does. These lemmas take such a chain apart
one check at a time.
-/

namespace Fallible

variable {ε α β : Type}

@[simp] theorem bind_eq_ok_iff {x : Except ε α} {f : α → Except ε β} {b : β} :
    (x >>= f) = .ok b ↔ ∃ a, x = .ok a ∧ f a = .ok b := by
  cases x with
  | error e =>
      refine ⟨fun h => ?_, fun h => ?_⟩
      · cases h
      · obtain ⟨_, h, _⟩ := h
        cases h
  | ok a =>
      refine ⟨fun h => ⟨a, rfl, h⟩, fun h => ?_⟩
      obtain ⟨a', ha, h⟩ := h
      cases ha
      exact h

@[simp] theorem ite_error_eq_ok_iff {c : Prop} [Decidable c] {e : ε} {x : Except ε α} {a : α} :
    (if c then .error e else x) = .ok a ↔ ¬ c ∧ x = .ok a := by
  by_cases h : c
  · rw [if_pos h]
    refine ⟨fun hok => ?_, fun hok => absurd h hok.1⟩
    cases hok
  · rw [if_neg h]
    exact ⟨fun hok => ⟨h, hok⟩, fun hok => hok.2⟩

end Fallible
