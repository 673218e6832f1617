import VmFleet.Library.Text
import VmFleet.Library.Comparison

/-!
# Semantic versions

The version strings of Semantic Versioning 2.0.0 and their precedence. A version is its core numbers, its
prerelease identifiers and its build identifiers; `text` writes it, and the strings it writes are the valid
ones. A numeric identifier is a number, so it has no leading zero; an alphanumeric one has a character that
is no digit.
-/

namespace SemVer

def isIdentifierChar (c : Char) : Bool := c.isAlphanum || c == '-'

structure Alphanumeric where
  text : String
  chars : ∀ c ∈ text.toList, isIdentifierChar c = true
  nonDigit : ∃ c ∈ text.toList, c.isDigit = false

structure BuildIdentifier where
  text : String
  chars : ∀ c ∈ text.toList, isIdentifierChar c = true
  nonempty : text ≠ ""

inductive Identifier where
  | numeric (n : Nat)
  | alphanumeric (word : Alphanumeric)

structure Version where
  major : Nat
  minor : Nat
  patch : Nat
  pre : List Identifier := []
  build : List BuildIdentifier := []

/-! ### Text -/

def Identifier.text : Identifier → String
  | .numeric n => toString n
  | .alphanumeric word => word.text

namespace Version

def core (v : Version) : String := toString v.major ++ "." ++ (toString v.minor ++ "." ++ toString v.patch)

def preText (v : Version) : String := ".".intercalate (v.pre.map Identifier.text)

/-- The version without its build metadata. -/
def unbuilt (v : Version) : String := if v.pre = [] then v.core else v.core ++ "-" ++ v.preText

def buildText (v : Version) : String := ".".intercalate (v.build.map BuildIdentifier.text)

def text (v : Version) : String := if v.build = [] then v.unbuilt else v.unbuilt ++ "+" ++ v.buildText

end Version

/-! ### Precedence -/

/-- Numeric identifiers come before the others, which are in ASCII order. -/
def Identifier.compare : Identifier → Identifier → Ordering
  | .numeric m, .numeric n => Ord.compare m n
  | .numeric _, .alphanumeric _ => .lt
  | .alphanumeric _, .numeric _ => .gt
  | .alphanumeric s, .alphanumeric t => Ord.compare s.text t.text

/-- A version without prerelease identifiers comes after those that have some. -/
def comparePre : List Identifier → List Identifier → Ordering
  | [], [] => .eq
  | [], _ :: _ => .gt
  | _ :: _, [] => .lt
  | xs, ys => List.compareLex Identifier.compare xs ys

/-- Build metadata is ignored. -/
def Version.precedence (v w : Version) : Ordering :=
  (Ord.compare v.major w.major).then <| (Ord.compare v.minor w.minor).then <|
    (Ord.compare v.patch w.patch).then (comparePre v.pre w.pre)

/-! ### Identifiers -/

theorem Alphanumeric.eq_of_text {s t : Alphanumeric} (h : s.text = t.text) : s = t := by
  cases s
  cases t
  cases h
  rfl

instance : DecidableEq Identifier
  | .numeric m, .numeric n => decidable_of_iff (m = n) (by simp)
  | .numeric _, .alphanumeric _ => isFalse nofun
  | .alphanumeric _, .numeric _ => isFalse nofun
  | .alphanumeric s, .alphanumeric t =>
    decidable_of_iff (s.text = t.text) ⟨fun h => by rw [Alphanumeric.eq_of_text h], fun h => by cases h; rfl⟩

instance : Std.ReflCmp Identifier.compare where
  compare_self := by
    intro x
    cases x with
    | numeric n => exact Nat.compare_eq_eq.mpr rfl
    | alphanumeric s => exact Std.ReflOrd.compare_self

theorem Identifier.eq_of_compare {x y : Identifier} (h : Identifier.compare x y = .eq) : x = y := by
  cases x with
  | numeric m =>
      cases y with
      | numeric n => rw [Nat.compare_eq_eq.mp h]
      | alphanumeric t => cases h
  | alphanumeric s =>
      cases y with
      | numeric n => cases h
      | alphanumeric t => rw [Alphanumeric.eq_of_text (Std.LawfulEqOrd.eq_of_compare h)]

theorem isIdentifierChar_of_isDigit {c : Char} (hc : c.isDigit = true) : isIdentifierChar c = true := by
  simp [isIdentifierChar, Char.isAlphanum, hc]

theorem Identifier.chars (x : Identifier) : ∀ c ∈ x.text.toList, isIdentifierChar c = true := by
  cases x with
  | numeric n => exact fun c hc => isIdentifierChar_of_isDigit (Text.isDigit_of_mem_repr hc)
  | alphanumeric s => exact s.chars

theorem Identifier.text_ne_empty (x : Identifier) : x.text ≠ "" := by
  cases x with
  | numeric n =>
      intro h
      have hlist := congrArg String.toList h
      rw [Identifier.text, Nat.toString_eq_repr, Nat.toList_repr] at hlist
      exact Nat.toDigits_ne_nil hlist
  | alphanumeric s =>
      obtain ⟨c, hc, _⟩ := s.nonDigit
      intro h
      rw [show s.text = "" from h] at hc
      exact absurd hc List.not_mem_nil

theorem Identifier.text_injective {x y : Identifier} (h : x.text = y.text) : x = y := by
  have hmixed : ∀ (n : Nat) (s : Alphanumeric), toString n ≠ s.text := by
    intro n s heq
    obtain ⟨c, hc, hdigit⟩ := s.nonDigit
    rw [← heq] at hc
    exact Text.not_mem_repr hdigit hc
  cases x with
  | numeric m =>
      cases y with
      | numeric n => rw [Text.toString_injective (congrArg String.toList h)]
      | alphanumeric t => exact absurd h (hmixed m t)
  | alphanumeric s =>
      cases y with
      | numeric n => exact absurd h.symm (hmixed n s)
      | alphanumeric t => rw [Alphanumeric.eq_of_text h]

/-! ### The parts of a text -/

theorem graphic_of_isIdentifierChar {c : Char} (hc : isIdentifierChar c = true) :
    0x2c < c.toNat ∧ c.toNat < 0x7f ∧ c ≠ '.' := by
  have hcases : c.isUpper = true ∨ c.isLower = true ∨ c.isDigit = true ∨ c = '-' := by
    have hparts : ((c.isUpper || c.isLower) || c.isDigit || c == '-') = true := hc
    simpa [or_assoc] using hparts
  have hrange : (45 ≤ c.toNat ∧ c.toNat ≤ 122) ∧ c.toNat ≠ 46 := by
    obtain h | h | h | rfl := hcases
    · have hupper : 65 ≤ c.toNat ∧ c.toNat ≤ 90 := of_decide_eq_true h
      omega
    · have hlower : 97 ≤ c.toNat ∧ c.toNat ≤ 122 :=
        (Bool.and_eq_true_iff.mp h).imp of_decide_eq_true of_decide_eq_true
      omega
    · have hdigit : 48 ≤ c.toNat ∧ c.toNat ≤ 57 := by simpa [Char.isDigit, UInt32.le_iff_toNat_le] using h
      omega
    · decide
  refine ⟨by omega, by omega, ?_⟩
  rintro rfl
  exact hrange.2 rfl

namespace Version

variable {v : Version} {c : Char}

theorem mem_core (hc : c ∈ v.core.toList) : c.isDigit = true ∨ c = '.' := by
  simp only [core, String.toList_append, List.mem_append] at hc
  obtain (hc | hc) | (hc | hc) | hc := hc
  · exact Or.inl (Text.isDigit_of_mem_repr hc)
  · exact Or.inr (List.mem_singleton.mp hc)
  · exact Or.inl (Text.isDigit_of_mem_repr hc)
  · exact Or.inr (List.mem_singleton.mp hc)
  · exact Or.inl (Text.isDigit_of_mem_repr hc)

/-- The major number comes first. -/
theorem exists_text_eq_cons (v : Version) : ∃ c cs, v.text.toList = c :: cs ∧ c.isDigit = true := by
  have hmajor : (toString v.major).toList ≠ [] := by
    rw [Nat.toString_eq_repr, Nat.toList_repr]
    exact Nat.toDigits_ne_nil
  obtain ⟨c, cs, hcons⟩ := List.exists_cons_of_ne_nil hmajor
  have htext : ∃ rest, v.text = toString v.major ++ rest := by
    simp only [text, unbuilt, core]
    split <;> split <;> simp only [String.append_assoc] <;> exact ⟨_, rfl⟩
  obtain ⟨rest, htext⟩ := htext
  refine ⟨c, cs ++ rest.toList, ?_, Text.isDigit_of_mem_repr (by rw [hcons]; exact List.mem_cons_self)⟩
  rw [htext, String.toList_append, hcons, List.cons_append]

theorem mem_preText (hc : c ∈ v.preText.toList) : isIdentifierChar c = true ∨ c = '.' := by
  obtain hc | ⟨t, ht, hc⟩ := Text.mem_intercalate hc
  · exact Or.inr (List.mem_singleton.mp hc)
  · obtain ⟨x, _, rfl⟩ := List.mem_map.mp ht
    exact Or.inl (x.chars c hc)

theorem mem_buildText (hc : c ∈ v.buildText.toList) : isIdentifierChar c = true ∨ c = '.' := by
  obtain hc | ⟨t, ht, hc⟩ := Text.mem_intercalate hc
  · exact Or.inr (List.mem_singleton.mp hc)
  · obtain ⟨x, _, rfl⟩ := List.mem_map.mp ht
    exact Or.inl (x.chars c hc)

theorem mem_unbuilt (hc : c ∈ v.unbuilt.toList) : isIdentifierChar c = true ∨ c = '.' := by
  have hcore : c ∈ v.core.toList → isIdentifierChar c = true ∨ c = '.' :=
    fun hc => (mem_core hc).imp_left isIdentifierChar_of_isDigit
  rw [unbuilt] at hc
  split at hc
  · exact hcore hc
  · rw [String.toList_append, String.toList_append, List.mem_append, List.mem_append] at hc
    obtain (hc | hc) | hc := hc
    · exact hcore hc
    · rw [List.mem_singleton.mp hc]
      exact Or.inl (by decide)
    · exact mem_preText hc

theorem mem_text (hc : c ∈ v.text.toList) : isIdentifierChar c = true ∨ c = '.' ∨ c = '+' := by
  rw [text] at hc
  split at hc
  · exact (mem_unbuilt hc).imp_right Or.inl
  · rw [String.toList_append, String.toList_append, List.mem_append, List.mem_append] at hc
    obtain (hc | hc) | hc := hc
    · exact (mem_unbuilt hc).imp_right Or.inl
    · exact Or.inr (Or.inr (List.mem_singleton.mp hc))
    · exact (mem_buildText hc).imp_right Or.inl

theorem isWhitespace_of_mem_text (hc : c ∈ v.text.toList) : Text.isWhitespace c = false := by
  obtain hc | rfl | rfl := mem_text hc
  · have hgraphic := graphic_of_isIdentifierChar hc
    exact Text.isWhitespace_of_graphic (by omega) hgraphic.2.1
  · rfl
  · rfl

theorem plus_not_mem_unbuilt : '+' ∉ v.unbuilt.toList := by
  intro hc
  obtain hc | hc := mem_unbuilt hc
  · exact absurd hc (by decide)
  · exact absurd hc (by decide)

theorem hyphen_not_mem_core : '-' ∉ v.core.toList := by
  intro hc
  obtain hc | hc := mem_core hc
  · exact absurd hc (by decide)
  · exact absurd hc (by decide)

/-- The text goes up to the first plus sign without the build metadata. -/
theorem firstField_text : Text.firstField '+' v.text = v.unbuilt := by
  rw [text]
  split
  · have hfields := Text.fields_of_not_mem (plus_not_mem_unbuilt (v := v))
    rw [Text.firstField_of_fields hfields, String.ofList_toList]
  · exact Text.firstField_append plus_not_mem_unbuilt

theorem fields_core : Text.fields '.' v.core =
    [(toString v.major).toList, (toString v.minor).toList, (toString v.patch).toList] := by
  have hdot : ∀ a b : String, Text.fields '.' (a ++ "." ++ b) = Text.fields '.' a ++ Text.fields '.' b :=
    Text.fields_append
  rw [core, hdot, hdot, Text.fields_toString _ (by decide), Text.fields_toString _ (by decide),
    Text.fields_toString _ (by decide)]
  rfl

theorem fields_preText (hpre : v.pre ≠ []) :
    (Text.fields '.' v.preText).map String.ofList = v.pre.map Identifier.text := by
  have hjoined : Text.fields '.' v.preText = (v.pre.map Identifier.text).flatMap (Text.fields '.') :=
    Text.fields_intercalate (by rw [Ne, List.map_eq_nil_iff]; exact hpre)
  have hfield : ∀ x : Identifier, Text.fields '.' x.text = [x.text.toList] :=
    fun x => Text.fields_of_not_mem fun hdot => (graphic_of_isIdentifierChar (x.chars _ hdot)).2.2 rfl
  rw [hjoined, List.flatMap_map]
  simp only [hfield]
  rw [← List.map_eq_flatMap, List.map_map]
  apply List.map_congr_left
  intro x _
  exact String.ofList_toList

theorem preText_ne_empty (hpre : v.pre ≠ []) : v.preText ≠ "" := by
  intro hempty
  have hfields := fields_preText hpre
  rw [hempty] at hfields
  obtain ⟨x, xs, hcons⟩ := List.exists_cons_of_ne_nil hpre
  rw [hcons, List.map_cons] at hfields
  exact x.text_ne_empty (List.cons.inj hfields).1.symm

end Version

end SemVer
