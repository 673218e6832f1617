import Mathlib.Algebra.GroupWithZero.Nat
import Mathlib.Data.List.Basic

/-!
# Processes that write into pipes

A process computes, writes, and exits. Each of its channels is a pipe that holds so many bytes; a write
that does not fit waits until somebody reads. With a reader at the other end all the time no write waits.
With none, a process gets to its exit exactly if what it writes on each channel fits into the pipe.
-/

namespace Pipe

variable {κ β : Type} [DecidableEq κ]

structure Write (κ β : Type) where
  /-- How long the process computes before it. -/
  after : Nat
  channel : κ
  data : List β

structure Script (κ β : Type) where
  writes : List (Write κ β)
  /-- How long it takes from the last write to the exit. -/
  last : Nat

inductive Reader where
  | absent
  | continual
  deriving DecidableEq

structure Pipes (κ β : Type) where
  held : κ → List β
  /-- What has been read from each pipe. -/
  taken : κ → List β

def Pipes.empty : Pipes κ β := ⟨fun _ => [], fun _ => []⟩

/-- What a reader that goes on to the end has in all. -/
def Pipes.contents (p : Pipes κ β) (k : κ) : List β := p.taken k ++ p.held k

/-- What a write puts on a channel. -/
def Write.on (w : Write κ β) (k : κ) : List β := if w.channel = k then w.data else []

def Pipes.put (capacity : Nat) (reader : Reader) (p : Pipes κ β) (w : Write κ β) : Option (Pipes κ β) :=
  match reader with
  | .continual => some { p with taken := fun k => p.taken k ++ w.on k }
  | .absent =>
    if (p.held w.channel).length + w.data.length ≤ capacity then
      some { p with held := fun k => p.held k ++ w.on k }
    else none

def putAll (capacity : Nat) (reader : Reader) : List (Write κ β) → Pipes κ β → Option (Pipes κ β)
  | [], p => some p
  | w :: ws, p => (p.put capacity reader w).bind (putAll capacity reader ws)

namespace Script

def duration (s : Script κ β) : Nat := (s.writes.map (·.after)).sum + s.last

def written (s : Script κ β) (k : κ) : List β := (s.writes.filter (·.channel = k)).flatMap (·.data)

/-- When the process exits and what is in the pipes then; `none` if it waits for a reader for ever. -/
def run (s : Script κ β) (capacity : Nat) (reader : Reader) : Option (Nat × Pipes κ β) :=
  (putAll capacity reader s.writes Pipes.empty).map fun p => (s.duration, p)

end Script

/-! ### With a reader -/

theorem written_cons (w : Write κ β) (ws : List (Write κ β)) (last : Nat) (k : κ) :
    Script.written ⟨w :: ws, last⟩ k = w.on k ++ Script.written ⟨ws, last⟩ k := by
  unfold Script.written Write.on
  rw [List.filter_cons]
  split
  · next h =>
      rw [if_pos (of_decide_eq_true h), List.flatMap_cons]
  · next h =>
      rw [if_neg fun hchannel => h (decide_eq_true hchannel), List.nil_append]

theorem putAll_continual (capacity : Nat) (ws : List (Write κ β)) (last : Nat) (p : Pipes κ β) :
    ∃ q, putAll capacity .continual ws p = some q ∧ q.held = p.held ∧
      ∀ k, q.taken k = p.taken k ++ Script.written ⟨ws, last⟩ k := by
  induction ws generalizing p with
  | nil => exact ⟨p, rfl, rfl, fun k => (List.append_nil _).symm⟩
  | cons w ws ih =>
      obtain ⟨q, hput, hheld, htaken⟩ :=
        ih { p with taken := fun k => p.taken k ++ w.on k }
      refine ⟨q, hput, hheld, fun k => ?_⟩
      rw [htaken, written_cons, List.append_assoc]

/-- **With a reader at the other end no write waits.** -/
theorem run_continual (s : Script κ β) (capacity : Nat) :
    ∃ p, s.run capacity .continual = some (s.duration, p) ∧ p.contents = s.written := by
  obtain ⟨p, hput, hheld, htaken⟩ := putAll_continual capacity s.writes s.last Pipes.empty
  refine ⟨p, by rw [Script.run, hput]; rfl, ?_⟩
  funext k
  rw [Pipes.contents, hheld, htaken]
  exact List.append_nil _

/-! ### Without one -/

theorem putAll_absent (capacity : Nat) (ws : List (Write κ β)) (last : Nat) (p : Pipes κ β)
    (hfits : ∀ k, (p.held k).length + (Script.written ⟨ws, last⟩ k).length ≤ capacity) :
    ∃ q, putAll capacity .absent ws p = some q ∧ q.taken = p.taken ∧
      ∀ k, q.held k = p.held k ++ Script.written ⟨ws, last⟩ k := by
  induction ws generalizing p with
  | nil => exact ⟨p, rfl, rfl, fun k => (List.append_nil _).symm⟩
  | cons w ws ih =>
      have hroom : (p.held w.channel).length + w.data.length ≤ capacity := by
        have hchannel := hfits w.channel
        rw [written_cons, Write.on, if_pos rfl, List.length_append] at hchannel
        omega
      obtain ⟨q, hput, htaken, hheld⟩ :=
        ih { p with held := fun k => p.held k ++ w.on k } fun k => by
          have hk := hfits k
          rw [written_cons, List.length_append] at hk
          rw [List.length_append]
          omega
      refine ⟨q, ?_, htaken, fun k => ?_⟩
      · rw [putAll, Pipes.put, if_pos hroom]
        exact hput
      · rw [hheld, written_cons, List.append_assoc]

theorem putAll_absent_eq_none (capacity : Nat) (ws : List (Write κ β)) (last : Nat) (p : Pipes κ β)
    (hheld : ∀ k, (p.held k).length ≤ capacity) {k : κ}
    (hover : capacity < (p.held k).length + (Script.written ⟨ws, last⟩ k).length) :
    putAll capacity .absent ws p = none := by
  induction ws generalizing p with
  | nil =>
      have hk := hheld k
      have hnil : (Script.written (⟨[], last⟩ : Script κ β) k).length = 0 := rfl
      omega
  | cons w ws ih =>
      rw [putAll, Pipes.put]
      split
      · next hroom =>
          apply ih
          · intro j
            rw [List.length_append, Write.on]
            by_cases hchannel : w.channel = j
            · subst hchannel
              rw [if_pos rfl]
              exact hroom
            · rw [if_neg hchannel]
              exact hheld j
          · rw [written_cons, List.length_append] at hover
            rw [List.length_append]
            omega
      · rfl

/-- **Without a reader, what fits into the pipes is all a process can write.** -/
theorem run_absent (s : Script κ β) {capacity : Nat} (hfits : ∀ k, (s.written k).length ≤ capacity) :
    ∃ p, s.run capacity .absent = some (s.duration, p) ∧ p.contents = s.written := by
  obtain ⟨p, hput, htaken, hheld⟩ := putAll_absent capacity s.writes s.last Pipes.empty fun k => by
    rw [Pipes.empty, List.length_nil, Nat.zero_add]
    exact hfits k
  refine ⟨p, by rw [Script.run, hput]; rfl, ?_⟩
  funext k
  rw [Pipes.contents, hheld, htaken]
  rfl

theorem run_absent_eq_none (s : Script κ β) {capacity : Nat} {k : κ}
    (hover : capacity < (s.written k).length) : s.run capacity .absent = none := by
  have hempty : (Pipes.empty (κ := κ) (β := β)).held k = [] := rfl
  have hput : putAll capacity .absent s.writes Pipes.empty = none :=
    putAll_absent_eq_none capacity s.writes s.last Pipes.empty (fun j => Nat.zero_le _) (k := k) (by
      rw [hempty, List.length_nil, Nat.zero_add]
      exact hover)
  rw [Script.run, hput]
  rfl

end Pipe
