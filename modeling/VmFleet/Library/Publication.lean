import Mathlib.Data.List.Forall2
import VmFleet.Library.Directory
import VmFleet.Library.Transition

/-!
# Publication by renaming

One writer at a time writes a text to a temporary file, in one piece or in several, and renames it to the
name it is read under. It may give up at any point, which leaves the temporary file behind. Readers open
that name and read on from where they are until nothing is left. However these steps interleave, every
reader that comes to the end has what was published last when it opened the file: the files behave as
registers that are written and read at once.
-/

namespace Register

/-- What was written last under each name, and what was read, in order. -/
structure State (ν α : Type) where
  value : ν → Option α
  taken : List α

inductive Event (ν α : Type) where
  | publish (n : ν) (a : α)
  | take (n : ν)
  deriving DecidableEq

variable {ν α : Type} [DecidableEq ν]

def step (s : State ν α) : Event ν α → Option (State ν α)
  | .publish n a => some { s with value := Function.update s.value n (some a) }
  | .take n =>
    match s.value n with
    | some a => some { s with taken := s.taken ++ [a] }
    | none => none

end Register

namespace Publication

open Directory

/-- The names that are read, and for each one where it is drafted. -/
structure Layout (ν : Type) where
  final : List ν
  temp : ν → ν
  temp_not_final : ∀ n ∈ final, temp n ∉ final

/-- An open file, and what has been read of it. -/
structure Reader (β : Type) where
  file : Nat
  got : List β := []
  finished : Bool := false
  deriving DecidableEq

/-- A text on its way to a name, and how much of it has been written. -/
structure Draft (ν β : Type) where
  name : ν
  file : Nat
  text : List β
  written : Nat := 0
  deriving DecidableEq

structure State (ν β : Type) where
  store : Store ν β
  draft : Option (Draft ν β) := none
  readers : List (Reader β) := []

inductive ReaderEvent (ν : Type) where
  | openFile (n : ν)
  | read (i k : Nat)
  | endOfFile (i : Nat)
  deriving DecidableEq

inductive Event (ν β : Type) where
  | create (n : ν) (text : List β)
  | write (k : Nat)
  | rename
  | abandon
  | reader (e : ReaderEvent ν)
  deriving DecidableEq

variable {ν β : Type} [DecidableEq ν] (layout : Layout ν)

/-- The readers of a store after one of them has gone on. -/
def readerStep (store : Store ν β) (readers : List (Reader β)) : ReaderEvent ν → Option (List (Reader β))
  | .openFile n =>
    if n ∈ layout.final then (store.entries.file n).map fun i => readers ++ [{ file := i }] else none
  | .read i k =>
    match readers[i]? with
    | some r =>
      let file := store.files[r.file]?.getD []
      if r.finished = false ∧ 0 < k ∧ r.got.length < file.length then
        some (readers.set i { r with got := r.got ++ (file.drop r.got.length).take k })
      else none
    | none => none
  | .endOfFile i =>
    match readers[i]? with
    | some r =>
      if r.finished = false ∧ (store.files[r.file]?.getD []).length ≤ r.got.length then
        some (readers.set i { r with finished := true })
      else none
    | none => none

def step (s : State ν β) : Event ν β → Option (State ν β)
  | .create n text =>
    if n ∈ layout.final then
      let opened := s.store.create (layout.temp n)
      some { s with store := opened.2, draft := some { name := n, file := opened.1, text := text } }
    else none
  | .write k =>
    match s.draft with
    | some d =>
      if 0 < k ∧ d.written + k ≤ d.text.length then
        some { s with
          store := s.store.append d.file ((d.text.drop d.written).take k)
          draft := some { d with written := d.written + k } }
      else none
    | none => none
  | .rename =>
    match s.draft with
    | some d =>
      if d.written = d.text.length then
        (s.store.rename (layout.temp d.name) d.name).map fun store => { s with store := store, draft := none }
      else none
    | none => none
  | .abandon => some { s with draft := none }
  | .reader e => (readerStep layout s.store s.readers e).map fun readers => { s with readers := readers }

/-- A text is published when its draft is renamed, and read when its file is opened. -/
def view (s : State ν β) : Event ν β → List (Register.Event ν (List β))
  | .rename => s.draft.toList.map fun d => .publish d.name d.text
  | .reader (.openFile n) => [.take n]
  | .create _ _ | .write _ | .abandon | .reader _ => []

/-! ### The invariant -/

/-- What a reader has is the beginning of `text`, all of it when it is done, and no name that is written to
comes to its file. -/
structure Holds (s : Store ν β) (r : Reader β) (text : List β) : Prop where
  file : s.files[r.file]? = some text
  got : r.got <+: text
  finished : r.finished = true → r.got = text
  sealed : ∀ n ∈ layout.final, s.entries.file (layout.temp n) ≠ some r.file

/-- The file of a draft has its name yet, and holds what has been written of the text. -/
structure Drafting (s : Store ν β) (d : Draft ν β) : Prop where
  name : d.name ∈ layout.final
  entry : s.entries.file (layout.temp d.name) = some d.file
  file : s.files[d.file]? = some (d.text.take d.written)

structure Atomic (s : State ν β) (g : Register.State ν (List β)) : Prop where
  value : ∀ n ∈ layout.final, g.value n = s.store.content n
  taken : List.Forall₂ (Holds layout s.store) s.readers g.taken
  draft : ∀ d ∈ s.draft, Drafting layout s.store d

variable {layout}

section Holds

variable {s s' : Store ν β} {r : Reader β} {text : List β}

omit [DecidableEq ν] in
theorem Holds.file_lt (h : Holds layout s r text) : r.file < s.files.length :=
  (List.getElem?_eq_some_iff.mp h.file).1

theorem Holds.create (h : Holds layout s r text) {n : ν} (hn : n ∈ layout.final) :
    Holds layout (s.create (layout.temp n)).2 r text where
  file := by rw [Store.create_files_of_ne h.file_lt (h.sealed n hn), h.file]
  got := h.got
  finished := h.finished
  sealed m hm := by
    by_cases hmn : layout.temp m = layout.temp n
    · rw [hmn, Store.create_file_self]
      exact fun heq => Store.create_fst_ne h.file_lt (h.sealed n hn) (Option.some.inj heq)
    · rw [Store.create_file_of_ne hmn]
      exact h.sealed m hm

omit [DecidableEq ν] in
theorem Holds.append (h : Holds layout s r text) {d : Draft ν β} (hd : Drafting layout s d)
    (bytes : List β) : Holds layout (s.append d.file bytes) r text where
  file := by
    have hne : d.file ≠ r.file := fun heq => h.sealed d.name hd.name (heq ▸ hd.entry)
    rw [Store.append_files_of_ne hne, h.file]
  got := h.got
  finished := h.finished
  sealed := h.sealed

theorem Holds.rename (h : Holds layout s r text) {n : ν} (hn : n ∈ layout.final)
    (hs : s.rename (layout.temp n) n = some s') : Holds layout s' r text := by
  obtain ⟨_, hentries, hfiles⟩ := Store.rename_eq_some hs
  refine ⟨hfiles ▸ h.file, h.got, h.finished, fun m hm => ?_⟩
  have hmn : layout.temp m ≠ n := fun heq => layout.temp_not_final m hm (heq ▸ hn)
  rw [hentries, Entries.move_file, if_neg hmn]
  split
  · simp
  · exact h.sealed m hm

end Holds

theorem forall₂_set {α γ : Type} {R : α → γ → Prop} {xs : List α} {ys : List γ} {i : Nat} {x x' : α}
    (h : List.Forall₂ R xs ys) (hx : xs[i]? = some x) (hx' : ∀ y, R x y → R x' y) :
    List.Forall₂ R (xs.set i x') ys := by
  induction h generalizing i with
  | nil => simp at hx
  | cons hab hrest ih =>
      cases i with
      | zero =>
          cases hx
          exact .cons (hx' _ hab) hrest
      | succ i => exact .cons hab (ih hx)

variable {s s' : State ν β} {g : Register.State ν (List β)}

omit [DecidableEq ν] in
theorem temp_ne {m n : ν} (hm : m ∈ layout.final) (hn : n ∈ layout.final) : m ≠ layout.temp n :=
  fun h => layout.temp_not_final n hn (h ▸ hm)

theorem Atomic.create (h : Atomic layout s g) {n : ν} {text : List β}
    (hstep : step layout s (.create n text) = some s') : Atomic layout s' g := by
  obtain ⟨hn, hs⟩ := Option.ite_none_right_eq_some.mp hstep
  cases hs
  refine ⟨fun m hm => ?_, h.taken.imp fun _ _ hr => hr.create hn, fun d hd => ?_⟩
  · rw [Store.content_create (temp_ne hm hn)]
    exact h.value m hm
  · cases hd
    exact ⟨hn, Store.create_file_self _ _, Store.create_files_self _ _⟩

theorem Atomic.write (h : Atomic layout s g) {k : Nat} (hstep : step layout s (.write k) = some s') :
    Atomic layout s' g := by
  rw [step] at hstep
  split at hstep
  · rename_i d hd
    obtain ⟨_, hs⟩ := Option.ite_none_right_eq_some.mp hstep
    cases hs
    have hdraft := h.draft d hd
    refine ⟨fun n hn => ?_, h.taken.imp fun _ _ hr => hr.append hdraft _, fun d' hd' => ?_⟩
    · have hne : s.store.entries.file n ≠ some d.file :=
        fun heq => temp_ne hn hdraft.name (s.store.entries.inj heq hdraft.entry)
      rw [Store.content_append hne]
      exact h.value n hn
    · cases hd'
      refine ⟨hdraft.name, hdraft.entry, ?_⟩
      rw [Store.append_files_self hdraft.file, List.take_add]
  · cases hstep

theorem Atomic.openFile (h : Atomic layout s g) {n : ν} {readers : List (Reader β)}
    (hstep : readerStep layout s.store s.readers (.openFile n) = some readers) :
    ∃ text, g.value n = some text ∧
      Atomic layout { s with readers := readers } { g with taken := g.taken ++ [text] } := by
  obtain ⟨hn, hs⟩ := Option.ite_none_right_eq_some.mp hstep
  obtain ⟨i, hi, rfl⟩ := Option.map_eq_some_iff.mp hs
  obtain ⟨text, hfile⟩ : ∃ text, s.store.files[i]? = some text :=
    ⟨_, List.getElem?_eq_getElem (s.store.file_lt hi)⟩
  refine ⟨text, ?_, h.value, ?_, h.draft⟩
  · rw [h.value n hn]
    exact Store.content_eq_some_iff.mpr ⟨i, hi, hfile⟩
  · refine List.rel_append h.taken (.cons ⟨hfile, List.nil_prefix, by simp, fun m hm heq => ?_⟩ .nil)
    exact temp_ne hn hm (s.store.entries.inj hi heq)

theorem Atomic.rename (h : Atomic layout s g) (hstep : step layout s .rename = some s') :
    ∃ d, s.draft = some d ∧
      Atomic layout s' { g with value := Function.update g.value d.name (some d.text) } := by
  rw [step] at hstep
  split at hstep
  · rename_i d hd
    obtain ⟨hall, hs⟩ := Option.ite_none_right_eq_some.mp hstep
    obtain ⟨store, hstore, hs⟩ := Option.map_eq_some_iff.mp hs
    cases hs
    have hdraft := h.draft d hd
    refine ⟨d, hd, fun n hn => ?_, h.taken.imp fun _ _ hr => hr.rename hdraft.name hstore, by simp⟩
    by_cases hne : n = d.name
    · -- The file is whole: all of the text has been written.
      have hwhole : s.store.files[d.file]? = some d.text := by
        rw [hdraft.file, hall, List.take_length]
      dsimp only
      rw [hne, Function.update_self, Store.content_rename_self hstore]
      exact (Store.content_eq_some_iff.mpr ⟨d.file, hdraft.entry, hwhole⟩).symm
    · dsimp only
      rw [Function.update_of_ne hne, Store.content_rename_of_ne hstore (temp_ne hn hdraft.name) hne]
      exact h.value n hn
  · cases hstep

theorem Atomic.read (h : Atomic layout s g) {i k : Nat} {readers : List (Reader β)}
    (hstep : readerStep layout s.store s.readers (.read i k) = some readers) :
    Atomic layout { s with readers := readers } g := by
  rw [readerStep] at hstep
  split at hstep
  · rename_i r hr
    obtain ⟨⟨hopen, _⟩, hs⟩ := Option.ite_none_right_eq_some.mp hstep
    cases hs
    refine ⟨h.value, forall₂_set h.taken hr fun text htext => ?_, h.draft⟩
    refine ⟨htext.file, ?_, by simp [hopen], htext.sealed⟩
    obtain ⟨rest, hrest⟩ := htext.got
    rw [htext.file, Option.getD_some, ← hrest, List.drop_left]
    exact (List.prefix_append_right_inj _).mpr (List.take_prefix k rest)
  · cases hstep

theorem Atomic.endOfFile (h : Atomic layout s g) {i : Nat} {readers : List (Reader β)}
    (hstep : readerStep layout s.store s.readers (.endOfFile i) = some readers) :
    Atomic layout { s with readers := readers } g := by
  rw [readerStep] at hstep
  split at hstep
  · rename_i r hr
    obtain ⟨⟨_, hend⟩, hs⟩ := Option.ite_none_right_eq_some.mp hstep
    cases hs
    refine ⟨h.value, forall₂_set h.taken hr fun text htext => ?_, h.draft⟩
    rw [htext.file, Option.getD_some] at hend
    exact ⟨htext.file, htext.got, fun _ => htext.got.eq_of_length_le hend, htext.sealed⟩
  · cases hstep

/-- A step is one of the registers' or leaves them as they are. -/
theorem Atomic.step (h : Atomic layout s g) {e : Event ν β} (hstep : step layout s e = some s') :
    ∃ g', Transition.exec Register.step g (view s e) = some g' ∧ Atomic layout s' g' := by
  cases e with
  | create n text => exact ⟨g, rfl, h.create hstep⟩
  | write k => exact ⟨g, rfl, h.write hstep⟩
  | rename =>
      obtain ⟨d, hd, hatomic⟩ := h.rename hstep
      exact ⟨_, by simp [view, hd, Transition.exec, Register.step], hatomic⟩
  | abandon =>
      cases hstep
      exact ⟨g, rfl, h.value, h.taken, by simp⟩
  | reader e =>
      obtain ⟨readers, hreaders, rfl⟩ := Option.map_eq_some_iff.mp hstep
      cases e with
      | openFile n =>
          obtain ⟨text, htext, hatomic⟩ := h.openFile hreaders
          exact ⟨_, by simp [view, htext, Transition.exec, Register.step], hatomic⟩
      | read i k => exact ⟨g, rfl, h.read hreaders⟩
      | endOfFile i => exact ⟨g, rfl, h.endOfFile hreaders⟩

omit [DecidableEq ν] in
theorem Atomic.init (store : Store ν β) : Atomic layout { store := store } ⟨store.content, []⟩ :=
  ⟨fun _ _ => rfl, .nil, by simp⟩

omit [DecidableEq ν] in
/-- Who has come to the end of a file has what was taken when it was opened. -/
theorem Atomic.taken_of_finished (h : Atomic layout s g) {i : Nat} {r : Reader β}
    (hr : s.readers[i]? = some r) (hfinished : r.finished = true) : g.taken[i]? = some r.got := by
  obtain ⟨hi, hget⟩ := List.getElem?_eq_some_iff.mp hr
  have hlen := h.taken.length_eq
  have hholds := h.taken.get hi (hlen ▸ hi)
  rw [List.get_eq_getElem, List.get_eq_getElem, hget] at hholds
  rw [hholds.finished hfinished]
  exact List.getElem?_eq_getElem _

end Publication
