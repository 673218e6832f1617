import Mathlib.Data.List.Induction
import Mathlib.Tactic.Common

/-!
# Since when

A table that keeps, for each key seen in the latest round, the time it was first seen in the current
streak of rounds. A key gets an entry in the first round it is seen in, keeps it while it is seen, and
loses it in the first round it is not. So an entry says when a streak began that still lasts.
-/

namespace Streak

variable {κ τ : Type} [DecidableEq κ]

/-- One round: the keys seen in it, and the time a key new in it gets. -/
structure Round (κ τ : Type) where
  seen : List κ
  stamp : κ → τ

def refresh (since : κ → Option τ) (r : Round κ τ) : κ → Option τ :=
  fun k => if k ∈ r.seen then some ((since k).getD (r.stamp k)) else none

def table (rounds : List (Round κ τ)) : κ → Option τ := rounds.foldl refresh fun _ => none

theorem table_append_singleton (rounds : List (Round κ τ)) (r : Round κ τ) :
    table (rounds ++ [r]) = refresh (table rounds) r := by
  rw [table, List.foldl_append]
  rfl

/-- **An entry is the start of a streak that lasts.** -/
theorem exists_of_table_eq_some {rounds : List (Round κ τ)} {k : κ} {t : τ}
    (h : table rounds k = some t) :
    ∃ pre r post, rounds = pre ++ r :: post ∧ t = r.stamp k ∧ ∀ r' ∈ r :: post, k ∈ r'.seen := by
  induction rounds using List.reverseRecOn generalizing t with
  | nil => cases h
  | append_singleton rounds last ih =>
      rw [table_append_singleton, refresh] at h
      split at h
      · next hseen =>
          cases htable : table rounds k with
          | none =>
              rw [htable] at h
              refine ⟨rounds, last, [], rfl, (Option.some.inj h).symm, ?_⟩
              intro r' hr'
              rw [List.mem_singleton.mp hr']
              exact hseen
          | some t' =>
              rw [htable] at h
              obtain ⟨pre, r, post, hrounds, hstamp, hall⟩ := ih htable
              refine ⟨pre, r, post ++ [last], ?_, (Option.some.inj h).symm.trans hstamp, ?_⟩
              · rw [hrounds, List.append_assoc, List.cons_append]
              · intro r' hr'
                rw [← List.cons_append, List.mem_append, List.mem_singleton] at hr'
                rcases hr' with hr' | rfl
                · exact hall r' hr'
                · exact hseen
      · cases h

end Streak
