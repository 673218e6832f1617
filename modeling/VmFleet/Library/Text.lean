import Mathlib.Data.List.DropRight
import Mathlib.Algebra.GroupWithZero.Nat
import Mathlib.Data.List.Infix
import Mathlib.Tactic.Common

/-!
# Text with a separator

The string operations of the Rust standard library that a name made of separated fields goes
through: prefixes and suffixes, lines and words, and unsigned decimal numbers as `from_str` reads
them. Strings are compared through their lists of characters.

The facts a naming scheme needs follow from two of them. A decimal numeral reads back to its number
and contains no separator, and splitting at a separator turns concatenation of texts into
concatenation of their fields. So a question about prefixes of joined texts becomes a question about
prefixes of lists of fields.
-/

namespace Text

/-! ### Prefixes and suffixes -/

/-- `str::starts_with` for a string pattern. -/
def startsWith (s pre : String) : Bool := pre.toList.isPrefixOf s.toList

def endsWith (s suf : String) : Bool := suf.toList.isSuffixOf s.toList

/-- `str::strip_prefix`. -/
def stripPrefix (s pre : String) : Option String :=
  (pre.toList.isPrefixOf? s.toList).map String.ofList

/-- `str::strip_suffix`. -/
def stripSuffix (s suf : String) : Option String :=
  (suf.toList.isSuffixOf? s.toList).map String.ofList

theorem startsWith_iff {s pre : String} : startsWith s pre = true ↔ ∃ rest, s = pre ++ rest := by
  rw [startsWith, List.isPrefixOf_iff_prefix]
  refine ⟨fun h => ?_, fun h => ?_⟩
  · obtain ⟨rest, hrest⟩ := h
    exact ⟨String.ofList rest, by
      rw [← String.toList_inj, String.toList_append, String.toList_ofList, hrest]⟩
  · obtain ⟨rest, rfl⟩ := h
    rw [String.toList_append]
    exact List.prefix_append _ _

theorem startsWith_append {s rest pre : String} (h : startsWith s pre = true) :
    startsWith (s ++ rest) pre = true := by
  obtain ⟨tail, rfl⟩ := startsWith_iff.mp h
  exact startsWith_iff.mpr ⟨tail ++ rest, String.append_assoc⟩

theorem stripPrefix_eq_some_iff {s pre rest : String} :
    stripPrefix s pre = some rest ↔ s = pre ++ rest := by
  rw [stripPrefix, Option.map_eq_some_iff]
  refine ⟨fun h => ?_, fun h => ?_⟩
  · obtain ⟨cs, hcs, rfl⟩ := h
    rw [List.isPrefixOf?_eq_some_iff_append_eq] at hcs
    rw [← String.toList_inj, String.toList_append, String.toList_ofList, hcs]
  · refine ⟨rest.toList, ?_, String.ofList_toList⟩
    rw [List.isPrefixOf?_eq_some_iff_append_eq, h, String.toList_append]

@[simp] theorem stripPrefix_append (pre rest : String) :
    stripPrefix (pre ++ rest) pre = some rest :=
  stripPrefix_eq_some_iff.mpr rfl

/-- A text has no prefix that begins with another character. -/
theorem stripPrefix_eq_none_of_head {s pre : String} {c d : Char} (hs : s.toList.head? = some c)
    (hpre : pre.toList.head? = some d) (hne : c ≠ d) : stripPrefix s pre = none := by
  apply Option.eq_none_iff_forall_ne_some.mpr
  intro rest hstrip
  obtain ⟨cs, hcs⟩ := List.head?_eq_some_iff.mp hpre
  rw [stripPrefix_eq_some_iff.mp hstrip, String.toList_append, hcs, List.cons_append, List.head?_cons,
    Option.some.injEq] at hs
  exact hne hs.symm

theorem stripSuffix_eq_some_iff {s suf rest : String} :
    stripSuffix s suf = some rest ↔ s = rest ++ suf := by
  rw [stripSuffix, Option.map_eq_some_iff]
  refine ⟨fun h => ?_, fun h => ?_⟩
  · obtain ⟨cs, hcs, rfl⟩ := h
    rw [List.isSuffixOf?_eq_some_iff_append_eq] at hcs
    rw [← String.toList_inj, String.toList_append, String.toList_ofList, hcs]
  · refine ⟨rest.toList, ?_, String.ofList_toList⟩
    rw [List.isSuffixOf?_eq_some_iff_append_eq, h, String.toList_append]

@[simp] theorem stripSuffix_append (rest suf : String) :
    stripSuffix (rest ++ suf) suf = some rest :=
  stripSuffix_eq_some_iff.mpr rfl

/-! ### White space, lines and words -/

/-- `char::is_whitespace`: the code points with the Unicode property `White_Space`. -/
def isWhitespace (c : Char) : Bool :=
  let n := c.toNat
  (9 ≤ n && n ≤ 13) || n == 0x20 || n == 0x85 || n == 0xa0 || n == 0x1680 ||
    (0x2000 ≤ n && n ≤ 0x200a) || n == 0x2028 || n == 0x2029 || n == 0x202f || n == 0x205f ||
    n == 0x3000

theorem forall_mem_of_all {cs : List Char} {P : Char → Prop} [DecidablePred P]
    (h : cs.all (fun c => decide (P c)) = true) : ∀ c ∈ cs, P c :=
  fun c hc => of_decide_eq_true (List.all_eq_true.mp h c hc)

theorem isWhitespace_of_graphic {c : Char} (hlow : 0x20 < c.toNat) (hhigh : c.toNat < 0x7f) :
    isWhitespace c = false := by
  simp only [isWhitespace, Bool.or_eq_false_iff, Bool.and_eq_false_iff, decide_eq_false_iff_not,
    beq_eq_false_iff_ne]
  omega

theorem isWhitespace_of_isDigit {c : Char} (hc : c.isDigit = true) : isWhitespace c = false := by
  have hrange : 48 ≤ c.toNat ∧ c.toNat ≤ 57 := by
    simpa [Char.isDigit, UInt32.le_iff_toNat_le] using hc
  exact isWhitespace_of_graphic (by omega) (by omega)

def trim (s : String) : String :=
  String.ofList (((s.toList.dropWhile isWhitespace).reverse.dropWhile isWhitespace).reverse)

theorem trim_eq_self {s : String} (h : ∀ c ∈ s.toList, isWhitespace c = false) : trim s = s := by
  have hkeep : ∀ cs : List Char, (∀ c ∈ cs, isWhitespace c = false) → cs.dropWhile isWhitespace = cs := by
    intro cs hcs
    cases cs with
    | nil => rfl
    | cons c cs => rw [List.dropWhile_cons, hcs c List.mem_cons_self, if_neg Bool.false_ne_true]
  have hreverse : ∀ c ∈ s.toList.reverse, isWhitespace c = false :=
    fun c hc => h c (List.mem_reverse.mp hc)
  rw [trim, hkeep _ h, hkeep _ hreverse, List.reverse_reverse, String.ofList_toList]

/-- What is trimmed is the white space on both sides. -/
theorem trim_pad {before after : List Char} {first last : Char} {inner : List Char}
    (hbefore : ∀ c ∈ before, isWhitespace c = true) (hafter : ∀ c ∈ after, isWhitespace c = true)
    (hfirst : isWhitespace first = false) (hlast : isWhitespace last = false) :
    trim (String.ofList (before ++ (first :: (inner ++ [last])) ++ after)) =
      String.ofList (first :: (inner ++ [last])) := by
  have hkeep : ∀ c ∈ after.reverse, isWhitespace c = true :=
    fun c hc => hafter c (List.mem_reverse.mp hc)
  rw [trim, String.toList_ofList, List.append_assoc, List.dropWhile_append_of_pos hbefore,
    List.cons_append, List.dropWhile_cons, hfirst, if_neg Bool.false_ne_true, ← List.cons_append,
    List.reverse_append, List.dropWhile_append_of_pos hkeep, List.reverse_cons, List.reverse_append,
    List.reverse_singleton, List.singleton_append, List.cons_append, List.dropWhile_cons, hlast,
    if_neg Bool.false_ne_true]
  simp

def firstWord (s : String) : Option String :=
  match (s.toList.dropWhile isWhitespace).takeWhile (!isWhitespace ·) with
  | [] => none
  | c :: cs => some (String.ofList (c :: cs))

/-- One carriage return before a line feed belongs to the line ending. -/
def dropCarriageReturn (line : List Char) : List Char :=
  if line.getLast? = some '\r' then line.dropLast else line

/-- `str::lines`: the text after the last line feed counts as a line only when it is not empty. -/
def lines (s : String) : List String :=
  let segments := s.toList.splitOn '\n'
  let ended := segments.dropLast.map fun line => String.ofList (dropCarriageReturn line)
  match segments.getLast? with
  | none | some [] => ended
  | some last => ended ++ [String.ofList last]

theorem length_splitOn_le (c : Char) (cs : List Char) : (cs.splitOn c).length ≤ cs.length + 1 := by
  have hprepend : ∀ acc, (List.splitOnPPrepend (· == c) cs acc).length ≤ cs.length + 1 := by
    induction cs with
    | nil => intro acc; exact Nat.le_refl _
    | cons d ds ih =>
        intro acc
        rw [List.splitOnPPrepend_cons_eq_if, ← List.splitOnPPrepend_nil_right, List.length_cons]
        split
        · have hrest := ih []
          rw [List.length_cons]
          omega
        · exact (ih (d :: acc)).trans (Nat.le_succ _)
  exact hprepend []

/-- A text has no more lines than characters, and one for what follows the last line feed. -/
theorem length_lines_le (s : String) : (lines s).length ≤ s.toList.length + 1 := by
  have hsegments := length_splitOn_le '\n' s.toList
  have hne : (s.toList.splitOn '\n').length ≠ 0 :=
    fun hzero => List.splitOn_ne_nil _ _ (List.length_eq_zero_iff.mp hzero)
  have hended : (s.toList.splitOn '\n').dropLast.length = (s.toList.splitOn '\n').length - 1 :=
    List.length_dropLast
  simp only [lines]
  split
  · rw [List.length_map]
    omega
  · rw [List.length_map]
    omega
  · rw [List.length_append, List.length_map, List.length_singleton]
    omega

theorem firstWord_append {word rest : String} (hword : ∀ c ∈ word.toList, isWhitespace c = false)
    (hne : word.toList ≠ []) : firstWord (word ++ " " ++ rest) = some word := by
  have hkeep : ∀ c ∈ word.toList, (!isWhitespace c) = true := by
    intro c hc
    rw [hword c hc, Bool.not_false]
  obtain ⟨c, cs, hcons⟩ := List.exists_cons_of_ne_nil hne
  have hdrop : (word ++ " " ++ rest).toList.dropWhile isWhitespace = (word ++ " " ++ rest).toList := by
    rw [String.toList_append, String.toList_append, hcons, List.append_assoc, List.cons_append,
      List.dropWhile_cons, hword c (by rw [hcons]; exact List.mem_cons_self)]
    rfl
  have htake : (word ++ " " ++ rest).toList.takeWhile (!isWhitespace ·) = word.toList := by
    rw [String.toList_append, String.toList_append, List.append_assoc,
      List.takeWhile_append_of_pos hkeep]
    exact List.append_nil _
  rw [firstWord, hdrop, htake, hcons]
  show some (String.ofList (c :: cs)) = some word
  rw [← hcons, String.ofList_toList]

/-- A line without a line feed of its own, and without a carriage return at its end. -/
theorem lines_append_newline {line rest : String} (hline : '\n' ∉ line.toList)
    (hend : line.toList.getLast? ≠ some '\r') :
    lines (line ++ "\n" ++ rest) = line :: lines rest := by
  have hsplit : (line ++ "\n" ++ rest).toList.splitOn '\n' =
      line.toList :: rest.toList.splitOn '\n' := by
    have hlist : (line ++ "\n" ++ rest).toList = line.toList ++ '\n' :: rest.toList := by
      simp [String.toList_append]
    rw [hlist, List.splitOn, List.splitOnP_append_cons _ _ (by simp), ← List.splitOn, ← List.splitOn,
      List.splitOn_eq_singleton hline]
    rfl
  obtain ⟨seg, segs, hsegs⟩ := List.exists_cons_of_ne_nil (List.splitOn_ne_nil '\n' rest.toList)
  have hkeep : String.ofList (dropCarriageReturn line.toList) = line := by
    rw [dropCarriageReturn, if_neg hend, String.ofList_toList]
  simp only [lines, hsplit, hsegs, List.dropLast_cons_cons, List.map_cons, hkeep,
    List.getLast?_cons_cons]
  split <;> rfl

/-! ### Unsigned numbers -/

/-- `from_str` of an unsigned integer type with `bound` values: an optional plus sign, then at
least one decimal digit, and no overflow. -/
def parseUnsigned (bound : Nat) (s : String) : Option Nat :=
  let digits := match s.toList with
    | '+' :: rest => rest
    | cs => cs
  if digits.isEmpty || !digits.all Char.isDigit then none
  else if Nat.ofDigitChars 10 digits 0 < bound then some (Nat.ofDigitChars 10 digits 0) else none

def parseU32 (s : String) : Option Nat := parseUnsigned (2 ^ 32) s

def parseU64 (s : String) : Option Nat := parseUnsigned (2 ^ 64) s

theorem isDigit_of_mem_repr {n : Nat} {c : Char} (hc : c ∈ (toString n).toList) :
    c.isDigit = true := by
  rw [Nat.toString_eq_repr, Nat.toList_repr] at hc
  exact Nat.isDigit_of_mem_toDigits (by decide) (by decide) hc

theorem not_mem_repr {n : Nat} {c : Char} (hc : c.isDigit = false) : c ∉ (toString n).toList := by
  intro hmem
  rw [isDigit_of_mem_repr hmem] at hc
  cases hc

/-- A decimal numeral is read unless it is out of range. -/
theorem parseUnsigned_toString_eq (bound n : Nat) :
    parseUnsigned bound (toString n) = if n < bound then some n else none := by
  have hdigits : (toString n).toList = Nat.toDigits 10 n := by
    rw [Nat.toString_eq_repr, Nat.toList_repr]
  have hvalue : Nat.ofDigitChars 10 (Nat.toDigits 10 n) 0 = n :=
    Nat.ofDigitChars_toDigits (by decide) (by decide)
  have hne : (Nat.toDigits 10 n).isEmpty = false := by
    rw [List.isEmpty_eq_false_iff]
    exact Nat.toDigits_ne_nil
  have hall : (Nat.toDigits 10 n).all Char.isDigit = true := by
    rw [List.all_eq_true]
    intro c hc
    exact Nat.isDigit_of_mem_toDigits (by decide) (by decide) hc
  have hplus : (match Nat.toDigits 10 n with
      | '+' :: rest => rest
      | cs => cs) = Nat.toDigits 10 n := by
    split
    · next rest heq =>
        have hmem : '+' ∈ (toString n).toList := by rw [hdigits, heq]; exact List.mem_cons_self
        exact absurd hmem (not_mem_repr (by decide))
    · rfl
  unfold parseUnsigned
  simp only [hdigits, hplus, hne, hall, hvalue]
  simp

theorem parseUnsigned_toString {bound n : Nat} (hn : n < bound) :
    parseUnsigned bound (toString n) = some n := by
  rw [parseUnsigned_toString_eq, if_pos hn]

/-- A word is no number. -/
theorem parseUnsigned_eq_none {bound : Nat} {s : String} {c : Char} (hplus : '+' ∉ s.toList)
    (hc : c ∈ s.toList) (hdigit : c.isDigit = false) : parseUnsigned bound s = none := by
  have hdigits : (match s.toList with
      | '+' :: rest => rest
      | cs => cs) = s.toList := by
    split
    · next rest heq => exact absurd (by rw [heq]; exact List.mem_cons_self) hplus
    · rfl
  have hall : s.toList.all Char.isDigit = false := by
    rw [List.all_eq_false]
    exact ⟨c, hc, by rw [hdigit]; exact Bool.false_ne_true⟩
  unfold parseUnsigned
  simp only [hdigits, hall, Bool.not_false, Bool.or_true, if_true]

theorem parseUnsigned_toString_eq_some_iff {bound m n : Nat} :
    parseUnsigned bound (toString m) = some n ↔ m = n ∧ n < bound := by
  rw [parseUnsigned_toString_eq]
  refine ⟨fun h => ?_, fun h => ?_⟩
  · split at h
    · next hlt =>
        have heq : m = n := Option.some.inj h
        exact ⟨heq, heq ▸ hlt⟩
    · cases h
  · obtain ⟨rfl, hlt⟩ := h
    rw [if_pos hlt]

theorem toString_injective {m n : Nat} (h : (toString m).toList = (toString n).toList) :
    m = n := by
  rw [Nat.toString_eq_repr, Nat.toString_eq_repr, Nat.toList_repr, Nat.toList_repr] at h
  have hvalue := congrArg (fun digits => Nat.ofDigitChars 10 digits 0) h
  simpa [Nat.ofDigitChars_toDigits] using hvalue

/-! ### Fields between separators -/

section Fields

variable {sep : Char}

/-- `str::split(sep).next()`: the text before the first separator, or all of it. -/
def firstField (sep : Char) (s : String) : String :=
  String.ofList (s.toList.takeWhile (· != sep))

theorem firstField_append {a rest : String} (ha : sep ∉ a.toList) :
    firstField sep (a ++ String.singleton sep ++ rest) = a := by
  have hkeep : ∀ c ∈ a.toList, (c != sep) = true := by
    intro c hc
    rw [bne_iff_ne]
    intro heq
    exact ha (heq ▸ hc)
  rw [firstField, String.toList_append, String.toList_append, List.append_assoc,
    List.takeWhile_append_of_pos hkeep]
  simp [String.ofList_toList]

/-- The fields of a text, as lists of characters. -/
def fields (sep : Char) (s : String) : List (List Char) := s.toList.splitOn sep

theorem fields_ne_nil (sep : Char) (s : String) : fields sep s ≠ [] :=
  List.splitOn_ne_nil _ _

theorem firstField_of_fields {s : String} {field : List Char} {rest : List (List Char)}
    (h : fields sep s = field :: rest) : firstField sep s = String.ofList field := by
  have hhead : ∀ cs : List Char, (cs.splitOn sep).head? = some (cs.takeWhile (· != sep)) := by
    intro cs
    induction cs with
    | nil => rw [List.splitOn_nil, List.head?_cons, List.takeWhile_nil]
    | cons c cs ih =>
        rw [List.splitOn_cons_eq_if_modifyHead, List.takeWhile_cons]
        by_cases hc : c = sep
        · simp [hc]
        · simp [hc, ih]
  have hfield := hhead s.toList
  rw [show s.toList.splitOn sep = field :: rest from h, List.head?_cons, Option.some.injEq] at hfield
  rw [firstField, hfield]

/-- **Joining texts with a separator joins their fields.** -/
theorem fields_append (a b : String) :
    fields sep (a ++ String.singleton sep ++ b) = fields sep a ++ fields sep b := by
  have hlist : (a ++ String.singleton sep ++ b).toList = a.toList ++ sep :: b.toList := by
    simp [String.toList_append]
  rw [fields, hlist, List.splitOn, List.splitOnP_append_cons _ _ (by simp)]
  rfl

theorem fields_intercalate {texts : List String} (hne : texts ≠ []) :
    fields sep ((String.singleton sep).intercalate texts) = texts.flatMap (fields sep) := by
  induction texts with
  | nil => exact absurd rfl hne
  | cons text texts ih =>
      cases texts with
      | nil => simp
      | cons next rest =>
          rw [String.intercalate_cons_cons, fields_append, ih (List.cons_ne_nil _ _)]
          exact List.flatMap_cons.symm

theorem mem_intercalate {between : String} {texts : List String} {c : Char}
    (hc : c ∈ (between.intercalate texts).toList) : c ∈ between.toList ∨ ∃ t ∈ texts, c ∈ t.toList := by
  induction texts with
  | nil =>
      rw [String.intercalate_nil] at hc
      exact absurd hc List.not_mem_nil
  | cons text texts ih =>
      cases texts with
      | nil =>
          rw [String.intercalate_singleton] at hc
          exact Or.inr ⟨text, List.mem_cons_self, hc⟩
      | cons next rest =>
          rw [String.intercalate_cons_cons, String.toList_append, String.toList_append, List.mem_append,
            List.mem_append] at hc
          obtain (hc | hc) | hc := hc
          · exact Or.inr ⟨text, List.mem_cons_self, hc⟩
          · exact Or.inl hc
          · obtain hc | ⟨t, ht, hc⟩ := ih hc
            · exact Or.inl hc
            · exact Or.inr ⟨t, List.mem_cons_of_mem _ ht, hc⟩

theorem infix_of_mem_intercalate {between : List Char} {parts : List (List Char)} {part : List Char}
    (hpart : part ∈ parts) : part <:+: between.intercalate parts := by
  induction parts with
  | nil => exact absurd hpart List.not_mem_nil
  | cons first parts ih =>
      cases parts with
      | nil =>
          rw [List.mem_singleton.mp hpart, List.intercalate_singleton]
      | cons next rest =>
          rw [List.intercalate_cons_cons]
          cases List.mem_cons.mp hpart with
          | inl heq =>
              rw [heq, List.append_assoc]
              exact (List.prefix_append _ _).isInfix
          | inr hmem => exact (ih hmem).trans (List.suffix_append _ _).isInfix

/-- A field is a part of the text. -/
theorem infix_of_mem_fields {s : String} {field : List Char} (hfield : field ∈ fields sep s) :
    field <:+: s.toList := by
  have hinfix : field <:+: [sep].intercalate (fields sep s) := infix_of_mem_intercalate hfield
  rw [fields, List.intercalate_splitOn] at hinfix
  exact hinfix

theorem not_mem_of_mem_fields {s : String} {field : List Char} (hfield : field ∈ fields sep s) :
    sep ∉ field := by
  unfold fields at hfield
  generalize s.toList = cs at hfield
  induction cs generalizing field with
  | nil =>
      rw [List.splitOn_nil, List.mem_singleton] at hfield
      subst field
      exact List.not_mem_nil
  | cons c cs ih =>
      rw [List.splitOn_cons_eq_if_modifyHead] at hfield
      split at hfield
      · rcases List.mem_cons.mp hfield with rfl | hfield
        · exact List.not_mem_nil
        · exact ih hfield
      · next hne =>
          obtain ⟨head, tail, hsplit⟩ := List.exists_cons_of_ne_nil (List.splitOn_ne_nil sep cs)
          rw [hsplit, List.modifyHead_cons, List.mem_cons] at hfield
          rcases hfield with rfl | hfield
          · have hhead : sep ∉ head := ih (by rw [hsplit]; exact List.mem_cons_self)
            intro hmem
            rcases List.mem_cons.mp hmem with rfl | hmem
            · simp at hne
            · exact hhead hmem
          · exact ih (by rw [hsplit]; exact List.mem_cons_of_mem _ hfield)

theorem fields_of_not_mem {a : String} (ha : sep ∉ a.toList) : fields sep a = [a.toList] := by
  rw [fields, List.splitOn_eq_singleton ha]

theorem fields_toString (n : Nat) (hsep : sep.isDigit = false) :
    fields sep (toString n) = [(toString n).toList] :=
  fields_of_not_mem (not_mem_repr hsep)

theorem fields_injective {a b : String} (h : fields sep a = fields sep b) : a = b := by
  have hjoin : ∀ s : String, [sep].intercalate (fields sep s) = s.toList :=
    fun s => List.intercalate_splitOn sep
  rw [← String.toList_inj, ← hjoin a, ← hjoin b, h]

/-- A text starts with `a` and a separator exactly when its fields start with those of `a` and go
on. -/
theorem startsWith_sep_iff {a s : String} :
    startsWith s (a ++ String.singleton sep) = true ↔
      ∃ rest, rest ≠ [] ∧ fields sep s = fields sep a ++ rest := by
  rw [startsWith_iff]
  refine ⟨fun h => ?_, fun h => ?_⟩
  · obtain ⟨rest, rfl⟩ := h
    exact ⟨fields sep rest, fields_ne_nil _ _, fields_append a rest⟩
  · obtain ⟨rest, hne, hfields⟩ := h
    -- none of the remaining fields contains a separator, so the text they join to has these fields
    have hclean : ∀ field ∈ rest, sep ∉ field := by
      intro field hfield
      have hmem : field ∈ fields sep s := by
        rw [hfields]
        exact List.mem_append_right _ hfield
      exact not_mem_of_mem_fields hmem
    have hrest : fields sep (String.ofList ([sep].intercalate rest)) = rest := by
      rw [fields, String.toList_ofList]
      exact List.splitOn_intercalate sep hclean hne
    have hsame : fields sep s
        = fields sep (a ++ String.singleton sep ++ String.ofList ([sep].intercalate rest)) := by
      rw [fields_append, hrest, hfields]
    exact ⟨String.ofList ([sep].intercalate rest), fields_injective hsame⟩

end Fields

end Text
