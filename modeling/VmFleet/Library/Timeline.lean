import Mathlib.Data.List.Pairwise
import Mathlib.Data.List.DropRight

/-!
# The time a row of readings covers

The readings of a row have times that do not go back. What lies between its first and its last is the sum
of what lies between neighbours, and any relation of neighbours splits it in two.
-/

namespace Timeline

variable {α : Type} (time : α → Nat)

/-- The time between those neighbours that are related. -/
def between (p : α → α → Bool) : List α → Nat
  | a :: b :: rest => (if p a b then time b - time a else 0) + between p (b :: rest)
  | _ => 0

/-- The time from the first to the last. -/
def span : List α → Nat
  | [] => 0
  | a :: rest => time ((a :: rest).getLast (List.cons_ne_nil a rest)) - time a

variable {time}

theorem span_concat {l : List α} {a : α} (first : α) (hfirst : l.head? = some first) :
    span time (l ++ [a]) = time a - time first := by
  cases l with
  | nil => cases hfirst
  | cons b rest =>
      cases hfirst
      rw [List.cons_append, span]
      simp

theorem span_singleton (a : α) : span time [a] = 0 := Nat.sub_self _

/-- **The time covered is that of the neighbours that are related and that of the others.** -/
theorem between_add_between {l : List α} (p : α → α → Bool)
    (hordered : l.Pairwise fun a b => time a ≤ time b) :
    between time p l + between time (fun a b => !p a b) l = span time l := by
  induction l with
  | nil => rfl
  | cons a rest ih =>
      cases rest with
      | nil => exact (span_singleton a).symm
      | cons b rest =>
          obtain ⟨ha, hrest⟩ := List.pairwise_cons.mp hordered
          have hnext : time a ≤ time b := ha b List.mem_cons_self
          have hlast : time b ≤ time ((b :: rest).getLast (List.cons_ne_nil b rest)) := by
            rcases List.mem_cons.mp (List.getLast_mem (List.cons_ne_nil b rest)) with heq | hmem
            · rw [heq]
            · exact (List.pairwise_cons.mp hrest).1 _ hmem
          have hspan : span time (a :: b :: rest) = time b - time a + span time (b :: rest) := by
            rw [span, span, List.getLast_cons (List.cons_ne_nil b rest)]
            omega
          rw [hspan, ← ih hrest, between, between]
          cases p a b with
          | true => simp only [if_true, Bool.not_true, Bool.false_eq_true, if_false]; omega
          | false => simp only [if_true, Bool.not_false, Bool.false_eq_true, if_false]; omega

/-- What is related to nothing after it can be left out at the start. -/
theorem between_dropWhile {p : α → α → Bool} {q : α → Bool} (hq : ∀ a b, q a = true → p a b = false)
    (l : List α) : between time p (l.dropWhile q) = between time p l := by
  induction l with
  | nil => rfl
  | cons a rest ih =>
      cases ha : q a with
      | false => rw [List.dropWhile_cons_of_neg (by simp [ha])]
      | true =>
          rw [List.dropWhile_cons_of_pos ha, ih]
          cases rest with
          | nil => rfl
          | cons b rest =>
              rw [between, hq a b ha]
              exact (Nat.zero_add _).symm

end Timeline
