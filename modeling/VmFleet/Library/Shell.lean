import VmFleet.Library.Text

/-!
# The words of a shell command line

How a POSIX shell splits a command line into words, where the line has nothing special outside of single
quotes but the blanks between its words. Inside of quotes every character stands for itself, up to the next
quote. For any other line `words` says nothing.
-/

namespace Shell

/-- A character that stands for itself outside of quotes, wherever it is. -/
def isOrdinary (c : Char) : Bool := c.isAlphanum || c ∈ ['-', '_', '.', '/', ',', ':', '@', '%', '+']

/-- No argument of a program holds this character. -/
def nul : Char := Char.ofNat 0

/-- The rest of a line after the part `word` of a word, if there is one, inside or outside of quotes. -/
def wordsFrom : Bool → Option (List Char) → List Char → Option (List (List Char))
  | false, none, [] => some []
  | false, some word, [] => some [word]
  | true, _, [] => none
  | true, word, c :: cs =>
    if c = '\'' then wordsFrom false word cs
    else if c = nul then none
    else wordsFrom true (some (word.getD [] ++ [c])) cs
  | false, word, c :: cs =>
    if c = ' ' then (wordsFrom false none cs).map (word.toList ++ ·)
    else if c = '\'' then wordsFrom true (some (word.getD [])) cs
    else if isOrdinary c then wordsFrom false (some (word.getD [] ++ [c])) cs
    else none

def words (line : String) : Option (List String) :=
  (wordsFrom false none line.toList).map (·.map String.ofList)

/-- A character that a word cannot hold if the line is read this way. -/
def Excluded (c : Char) : Prop := c = '\'' ∨ c = nul

instance Excluded.decidable (c : Char) : Decidable (Excluded c) := inferInstanceAs (Decidable (_ ∨ _))

/-- A word as it is written, bare or in quotes. -/
inductive Piece where
  | bare (word : String)
  | quoted (word : String)

namespace Piece

def word : Piece → String
  | bare word | quoted word => word

def text : Piece → String
  | bare word => word
  | quoted word => "'" ++ word ++ "'"

/-- The word is read back from the way it is written. -/
def Safe : Piece → Prop
  | bare word => word ≠ "" ∧ ∀ c ∈ word.toList, isOrdinary c = true
  | quoted word => ∀ c ∈ word.toList, ¬ Excluded c

theorem safe_bare {word : String} (h : (word != "" && word.toList.all isOrdinary) = true) :
    (bare word).Safe := by
  simp only [Bool.and_eq_true, bne_iff_ne, List.all_eq_true] at h
  exact h

end Piece

/-! ### Reading a line made of pieces -/

theorem ne_of_isOrdinary {c : Char} (h : isOrdinary c = true) : c ≠ ' ' ∧ c ≠ '\'' := by
  refine ⟨fun hc => ?_, fun hc => ?_⟩ <;> rw [hc] at h <;> exact absurd h (by decide)

theorem wordsFrom_ordinary {c : Char} (h : isOrdinary c = true) (word : Option (List Char))
    (cs : List Char) :
    wordsFrom false word (c :: cs) = wordsFrom false (some (word.getD [] ++ [c])) cs := by
  obtain ⟨hblank, hquote⟩ := ne_of_isOrdinary h
  rw [wordsFrom, if_neg hblank, if_neg hquote, if_pos h]

theorem wordsFrom_quoted {inside rest : List Char} (h : ∀ c ∈ inside, ¬ Excluded c) (word : List Char) :
    wordsFrom true (some word) (inside ++ '\'' :: rest) = wordsFrom false (some (word ++ inside)) rest := by
  induction inside generalizing word with
  | nil => simp [wordsFrom]
  | cons c cs ih =>
      obtain ⟨hquote, hnul⟩ := not_or.mp (h c List.mem_cons_self)
      rw [List.cons_append, wordsFrom, if_neg hquote, if_neg hnul, Option.getD_some,
        ih fun d hd => h d (List.mem_cons_of_mem _ hd)]
      simp

theorem wordsFrom_bare {bare rest : List Char} (h : ∀ c ∈ bare, isOrdinary c = true) (word : List Char) :
    wordsFrom false (some word) (bare ++ rest) = wordsFrom false (some (word ++ bare)) rest := by
  induction bare generalizing word with
  | nil => simp
  | cons c cs ih =>
      have hc : isOrdinary c = true := h c List.mem_cons_self
      rw [List.cons_append, wordsFrom_ordinary hc, Option.getD_some,
        ih fun d hd => h d (List.mem_cons_of_mem _ hd)]
      simp

/-- A piece at the start of a word is the word so far. -/
theorem wordsFrom_piece {p : Piece} (h : p.Safe) (rest : List Char) :
    wordsFrom false none (p.text.toList ++ rest) = wordsFrom false (some p.word.toList) rest := by
  cases p with
  | bare word =>
      obtain ⟨hne, hordinary⟩ := h
      cases hlist : word.toList with
      | nil => exact absurd (String.toList_eq_nil_iff.mp hlist) hne
      | cons c cs =>
          rw [hlist] at hordinary
          have hc : isOrdinary c = true := hordinary c List.mem_cons_self
          rw [Piece.text, Piece.word, hlist, List.cons_append, wordsFrom_ordinary hc,
            wordsFrom_bare fun d hd => hordinary d (List.mem_cons_of_mem _ hd)]
          rfl
  | quoted word =>
      have htext : ("'" ++ word ++ "'").toList ++ rest = '\'' :: (word.toList ++ '\'' :: rest) := by
        simp [String.toList_append]
      rw [Piece.text, htext, wordsFrom, if_neg (by decide), if_pos rfl, wordsFrom_quoted h]
      rfl

theorem wordsFrom_intercalate {pieces : List Piece} (h : ∀ p ∈ pieces, p.Safe) :
    wordsFrom false none (" ".intercalate (pieces.map Piece.text)).toList =
      some (pieces.map (·.word.toList)) := by
  induction pieces with
  | nil => rfl
  | cons p ps ih =>
      have hp : p.Safe := h p List.mem_cons_self
      have hrest := ih fun q hq => h q (List.mem_cons_of_mem _ hq)
      cases ps with
      | nil =>
          have hpiece := wordsFrom_piece hp []
          rw [List.append_nil] at hpiece
          rw [List.map_singleton, String.intercalate_singleton, hpiece]
          rfl
      | cons q qs =>
          have hline : (" ".intercalate ((p :: q :: qs).map Piece.text)).toList =
              p.text.toList ++ ' ' :: (" ".intercalate ((q :: qs).map Piece.text)).toList := by
            rw [List.map_cons, List.map_cons, String.intercalate_cons_cons]
            simp [String.toList_append]
          rw [hline, wordsFrom_piece hp, wordsFrom, if_pos rfl, hrest]
          rfl

/-- **Pieces with blanks between them are read as their words.** -/
theorem words_intercalate {pieces : List Piece} (h : ∀ p ∈ pieces, p.Safe) :
    words (" ".intercalate (pieces.map Piece.text)) = some (pieces.map Piece.word) := by
  rw [words, wordsFrom_intercalate h, Option.map_some, List.map_map]
  simp [Function.comp_def]

/-! ### What words hold -/

theorem not_excluded_of_isOrdinary {c : Char} (h : isOrdinary c = true) : ¬ Excluded c := by
  intro hc
  rcases hc with hc | hc <;> rw [hc] at h <;> exact absurd h (by decide)

theorem not_excluded_of_wordsFrom {quoted : Bool} {word : Option (List Char)} {cs : List Char}
    {ws : List (List Char)} (h : wordsFrom quoted word cs = some ws)
    (hword : ∀ c ∈ word.getD [], ¬ Excluded c) : ∀ w ∈ ws, ∀ c ∈ w, ¬ Excluded c := by
  -- What the word so far must not hold is kept while it grows by one character.
  have hgrow {word : List Char} {c : Char} (hword : ∀ d ∈ word, ¬ Excluded d) (hc : ¬ Excluded c) :
      ∀ d ∈ word ++ [c], ¬ Excluded d := by
    intro d hd
    rcases List.mem_append.mp hd with hd | hd
    · exact hword d hd
    · rwa [List.mem_singleton.mp hd]
  fun_induction wordsFrom quoted word cs generalizing ws with
  | case1 =>
      cases h
      simp
  | case2 word =>
      cases h
      simpa using hword
  | case3 | case5 | case10 => cases h
  | case4 word cs ih => exact ih h hword
  | case6 word c cs hquote hnul ih => exact ih h (hgrow hword (not_or.mpr ⟨hquote, hnul⟩))
  | case7 word cs ih =>
      obtain ⟨rest, hrest, rfl⟩ := Option.map_eq_some_iff.mp h
      intro w hw
      rcases List.mem_append.mp hw with hw | hw
      · cases word with
        | none => cases hw
        | some word =>
            rw [Option.toList_some, List.mem_singleton] at hw
            exact hw ▸ hword
      · exact ih hrest (by simp) w hw
  | case8 word cs hblank ih => exact ih h (by simpa using hword)
  | case9 word c cs hblank hquote hordinary ih =>
      exact ih h (hgrow hword (not_excluded_of_isOrdinary hordinary))

/-- **No word holds a quote.** -/
theorem not_excluded_of_words {line : String} {ws : List String} (h : words line = some ws) :
    ∀ w ∈ ws, ∀ c ∈ w.toList, ¬ Excluded c := by
  obtain ⟨parts, hparts, rfl⟩ := Option.map_eq_some_iff.mp h
  intro w hw
  obtain ⟨part, hpart, rfl⟩ := List.mem_map.mp hw
  rw [String.toList_ofList]
  exact not_excluded_of_wordsFrom hparts (by simp) part hpart

end Shell
