import Mathlib.Logic.Function.Basic
import Mathlib.Tactic.Common

/-!
# Files under names

A directory gives names to files, and a file is a list of bytes. Nothing here makes a second name for a
file, so two names never come to the same one. Who has opened a file keeps it, whatever becomes of its name.
-/

namespace Directory

variable {ν β : Type}

/-- The names of a directory, each with the number of its file. -/
structure Entries (ν : Type) where
  file : ν → Option Nat
  inj : ∀ {m n i}, file m = some i → file n = some i → m = n

namespace Entries

variable [DecidableEq ν] (e : Entries ν)

/-- A name for a file that has none. -/
def add (n : ν) (i : Nat) (hnew : ∀ m, e.file m ≠ some i) : Entries ν where
  file := Function.update e.file n (some i)
  inj {l m j} hl hm := by
    rw [Function.update_apply] at hl hm
    split at hl <;> split at hm
    · rename_i hln hmn
      rw [hln, hmn]
    · exact absurd (hl ▸ hm) (hnew m)
    · exact absurd (hm ▸ hl) (hnew l)
    · exact e.inj hl hm

/-- One name becomes another one, which loses its file. -/
def move (m n : ν) : Entries ν where
  file l := if l = n then e.file m else if l = m then none else e.file l
  inj {k l j} hk hl := by
    split at hk <;> split at hl
    · rename_i hkn hln
      rw [hkn, hln]
    · rename_i hln
      rw [Option.ite_none_left_eq_some] at hl
      exact absurd (e.inj hl.2 hk) hl.1
    · rename_i hkn _
      rw [Option.ite_none_left_eq_some] at hk
      exact absurd (e.inj hk.2 hl) hk.1
    · rw [Option.ite_none_left_eq_some] at hk hl
      exact e.inj hk.2 hl.2

@[simp] theorem add_file {n : ν} {i : Nat} (hnew : ∀ m, e.file m ≠ some i) (l : ν) :
    (e.add n i hnew).file l = if l = n then some i else e.file l := Function.update_apply e.file n _ l

@[simp] theorem move_file (m n l : ν) :
    (e.move m n).file l = if l = n then e.file m else if l = m then none else e.file l := rfl

end Entries

structure Store (ν β : Type) where
  entries : Entries ν
  files : List (List β)
  file_lt : ∀ {n i}, entries.file n = some i → i < files.length

namespace Store

def empty : Store ν β := ⟨⟨fun _ => none, by simp⟩, [], by simp⟩

variable (s : Store ν β)

/-- The file under a name, if there is one. -/
def content (n : ν) : Option (List β) := (s.entries.file n).bind fun i => s.files[i]?

/-- Bytes at the end of an open file. -/
def append (i : Nat) (bytes : List β) : Store ν β where
  entries := s.entries
  files := s.files.modify i (· ++ bytes)
  file_lt h := by
    rw [List.length_modify]
    exact s.file_lt h

section Names

variable [DecidableEq ν]

/-- Opening a name for writing empties its file or makes a new one. -/
def create (n : ν) : Nat × Store ν β :=
  match s.entries.file n with
  | some i =>
    (i, { entries := s.entries
          files := s.files.set i []
          file_lt h := by rw [List.length_set]; exact s.file_lt h })
  | none =>
    (s.files.length,
      { entries := s.entries.add n s.files.length fun _ h => Nat.lt_irrefl _ (s.file_lt h)
        files := s.files ++ [[]]
        file_lt {m i} h := by
          rw [List.length_append, List.length_singleton]
          rw [Entries.add_file] at h
          split at h
          · cases h
            omega
          · have := s.file_lt h
            omega })

/-- Moving a file to a name that may have one fails where there is no file to move. -/
def rename (m n : ν) : Option (Store ν β) :=
  if (s.entries.file m).isSome then
    some {
      entries := s.entries.move m n
      files := s.files
      file_lt {l i} h := by
        rw [Entries.move_file] at h
        split at h
        · exact s.file_lt h
        · exact s.file_lt (Option.ite_none_left_eq_some.mp h).2 }
  else none

end Names

variable {s}

theorem content_eq_some_iff {n : ν} {bytes : List β} :
    s.content n = some bytes ↔ ∃ i, s.entries.file n = some i ∧ s.files[i]? = some bytes :=
  Option.bind_eq_some_iff

/-! ### Writing -/

@[simp] theorem append_entries (i : Nat) (bytes : List β) : (s.append i bytes).entries = s.entries := rfl

theorem append_files_of_ne {i j : Nat} (hne : i ≠ j) (bytes : List β) :
    (s.append i bytes).files[j]? = s.files[j]? := by
  simp [append, hne]

theorem append_files_self {i : Nat} {old : List β} (hold : s.files[i]? = some old) (bytes : List β) :
    (s.append i bytes).files[i]? = some (old ++ bytes) := by
  simp [append, hold]

/-- Only who comes to the file by its name sees what is written to it. -/
theorem content_append {i : Nat} {n : ν} (hne : s.entries.file n ≠ some i) (bytes : List β) :
    (s.append i bytes).content n = s.content n := by
  cases hn : s.entries.file n with
  | none => simp [content, hn]
  | some j =>
      have hij : i ≠ j := fun h => hne (h ▸ hn)
      simp [content, hn, append_files_of_ne hij]

/-! ### Opening for writing -/

variable [DecidableEq ν]

theorem create_file_self (s : Store ν β) (n : ν) :
    (s.create n).2.entries.file n = some (s.create n).1 := by
  rw [create]
  split
  · assumption
  · simp

theorem create_file_of_ne {m n : ν} (hne : m ≠ n) :
    (s.create n).2.entries.file m = s.entries.file m := by
  rw [create]
  split
  · rfl
  · simp [hne]

theorem create_files_self (s : Store ν β) (n : ν) : (s.create n).2.files[(s.create n).1]? = some [] := by
  rw [create]
  split
  · rename_i i hi
    simp [s.file_lt hi]
  · simp

theorem create_files_of_ne {n : ν} {j : Nat} (hj : j < s.files.length) (hne : s.entries.file n ≠ some j) :
    (s.create n).2.files[j]? = s.files[j]? := by
  rw [create]
  split
  · rename_i i hi
    have hij : i ≠ j := fun h => hne (h ▸ hi)
    simp [hij]
  · simp [List.getElem?_append_left hj]

/-- The opened file is none of those that were there under another name or none. -/
theorem create_fst_ne {n : ν} {j : Nat} (hj : j < s.files.length) (hne : s.entries.file n ≠ some j) :
    (s.create n).1 ≠ j := by
  rw [create]
  split
  · rename_i i hi
    exact fun h => hne (h ▸ hi)
  · exact fun h => absurd h (by simp; omega)

theorem content_create {m n : ν} (hne : m ≠ n) : (s.create n).2.content m = s.content m := by
  rw [content, create_file_of_ne hne, content]
  cases hm : s.entries.file m with
  | none => rfl
  | some j =>
      have hj : s.entries.file n ≠ some j := fun h => hne (s.entries.inj hm h)
      exact create_files_of_ne (s.file_lt hm) hj

/-! ### Renaming -/

theorem rename_eq_some {m n : ν} {s' : Store ν β} (h : s.rename m n = some s') :
    (s.entries.file m).isSome ∧ s'.entries = s.entries.move m n ∧ s'.files = s.files := by
  obtain ⟨hm, hs⟩ := Option.ite_none_right_eq_some.mp h
  cases hs
  exact ⟨hm, rfl, rfl⟩

theorem content_rename_self {m n : ν} {s' : Store ν β} (h : s.rename m n = some s') :
    s'.content n = s.content m := by
  obtain ⟨_, hentries, hfiles⟩ := rename_eq_some h
  simp [content, hentries, hfiles]

theorem content_rename_of_ne {l m n : ν} {s' : Store ν β} (h : s.rename m n = some s') (hm : l ≠ m)
    (hn : l ≠ n) : s'.content l = s.content l := by
  obtain ⟨_, hentries, hfiles⟩ := rename_eq_some h
  simp [content, hentries, hfiles, hm, hn]

end Store

end Directory
