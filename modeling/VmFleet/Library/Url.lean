import VmFleet.Library.Text
import Mathlib.Data.List.DropRight

/-!
# Where a URL leads

The scheme, host and port a request for an `http` or `https` URL goes to, as the URL standard reads them:
blanks around the URL and line breaks in it are dropped, the authority ends at the first of `/ \ ? #`, and
the host starts after the last `@` in it. How a host is written is left to a parameter.
-/

namespace Url

/-- A C0 control or a space. -/
def isBlank (c : Char) : Bool := c.toNat ≤ 0x20

def isDropped (c : Char) : Bool := c == '\t' || c == '\n' || c == '\r'

def isSlash (c : Char) : Bool := c == '/' || c == '\\'

def endsAuthority (c : Char) : Bool := isSlash c || c == '?' || c == '#'

def clean (url : String) : List Char :=
  ((url.toList.filter (!isDropped ·)).dropWhile isBlank).rdropWhile isBlank

structure Origin where
  scheme : String
  host : String
  port : Nat
  deriving DecidableEq

def defaultPort (scheme : String) : Option Nat :=
  if scheme = "http" then some 80 else if scheme = "https" then some 443 else none

def readPort (scheme : String) : List Char → Option Nat
  | [] | [':'] => defaultPort scheme
  | _ :: digits =>
    let n := digits.foldl (fun n c => 10 * n + (c.toNat - '0'.toNat)) 0
    if digits.all Char.isDigit ∧ n < 2 ^ 16 then (defaultPort scheme).map fun _ => n else none

/-- The host up to the first colon that is not in brackets, and what is left. -/
def splitPort : Bool → List Char → List Char × List Char
  | _, [] => ([], [])
  | inside, c :: cs =>
    if c = ':' ∧ !inside then ([], c :: cs)
    else
      let (host, port) := splitPort ((inside || c == '[') && c != ']') cs
      (c :: host, port)

/-- The authority without the user info. -/
def hostPort (authority : List Char) : List Char := authority.rtakeWhile (· ≠ '@')

variable (host : String → Option String)

def site (scheme authority : List Char) : Option Origin :=
  let scheme := String.ofList (scheme.map Char.toLower)
  let (name, port) := splitPort false (hostPort authority)
  if name = [] ∨ name.any isBlank then none
  else do
    let port ← readPort scheme port
    let name ← host (String.ofList name)
    return ⟨scheme, name, port⟩

/-- What follows the colon of the scheme and the slashes after it. -/
def afterScheme (url : List Char) : List Char :=
  ((url.dropWhile (· ≠ ':')).drop 1).dropWhile isSlash

def authority (url : List Char) : List Char := (afterScheme url).takeWhile (!endsAuthority ·)

def read (url : List Char) : Option Origin := site host (url.takeWhile (· ≠ ':')) (authority url)

def origin (url : String) : Option Origin := read host (clean url)

/-- Whether something follows the authority. -/
def hasTail (url : String) : Bool := (afterScheme (clean url)).any endsAuthority

/-! ### A URL that goes on -/

theorem site_nil (scheme : List Char) : site host scheme [] = none := by
  rw [site]
  exact if_pos (Or.inl rfl)

theorem ne_of_isBlank {c d : Char} (hc : isBlank c = true) (hd : isBlank d = false) : c ≠ d := by
  rintro rfl
  rw [hc] at hd
  cases hd

theorem splitPort_append_of_blank {blanks : List Char} (hblanks : ∀ c ∈ blanks, isBlank c = true) :
    ∀ (inside : Bool) (cs : List Char), splitPort inside (cs ++ blanks) =
      if (splitPort inside cs).2 = [] then ((splitPort inside cs).1 ++ blanks, [])
      else ((splitPort inside cs).1, (splitPort inside cs).2 ++ blanks) := by
  intro inside cs
  induction cs generalizing inside with
  | nil =>
      simp only [List.nil_append, splitPort, if_true]
      induction blanks generalizing inside with
      | nil => rfl
      | cons c blanks ih =>
          rw [List.forall_mem_cons] at hblanks
          have hcolon : c ≠ ':' := ne_of_isBlank hblanks.1 (by decide)
          rw [splitPort, if_neg (fun h => hcolon h.1)]
          simp only [ih hblanks.2]
  | cons c cs ih =>
      rw [List.cons_append, splitPort, splitPort]
      by_cases hcolon : c = ':' ∧ (!inside) = true
      · rw [if_pos hcolon, if_pos hcolon]
        rfl
      · rw [if_neg hcolon, if_neg hcolon]
        simp only [ih]
        split <;> rfl

theorem readPort_append_of_blank {scheme : String} {c : Char} {port blanks : List Char}
    (hne : blanks ≠ []) (hblanks : ∀ c ∈ blanks, isBlank c = true) :
    readPort scheme (c :: port ++ blanks) = none := by
  obtain ⟨b, rest, rfl⟩ := List.exists_cons_of_ne_nil hne
  have hdigits : (port ++ b :: rest).all Char.isDigit = false := by
    rw [List.all_eq_false]
    refine ⟨b, List.mem_append_right _ List.mem_cons_self, fun hdigit => ?_⟩
    have hblank := hblanks b List.mem_cons_self
    rw [isBlank, decide_eq_true_eq] at hblank
    simp only [Char.isDigit, Bool.and_eq_true, decide_eq_true_eq, UInt32.le_iff_toNat_le] at hdigit
    have : b.toNat = b.val.toNat := rfl
    have : ('0' : Char).val.toNat = 48 := rfl
    omega
  rw [List.cons_append, readPort, hdigits]
  · exact if_neg (fun h => Bool.noConfusion h.1)
  · cases port <;> nofun

/-- Blanks that stand in the authority make it no authority. -/
theorem site_append_of_blank {scheme authority blanks : List Char} (hne : blanks ≠ [])
    (hblanks : ∀ c ∈ blanks, isBlank c = true) : site host scheme (authority ++ blanks) = none := by
  have hhostPort : hostPort (authority ++ blanks) = hostPort authority ++ blanks := by
    rw [hostPort, hostPort, List.rtakeWhile, List.reverse_append, List.takeWhile_append_of_pos,
      List.reverse_append, List.reverse_reverse, List.rtakeWhile]
    intro c hc
    exact decide_eq_true (ne_of_isBlank (hblanks c (List.mem_reverse.mp hc)) (by decide))
  rw [site, hhostPort, splitPort_append_of_blank hblanks]
  cases hport : (splitPort false (hostPort authority)).2 with
  | nil =>
      refine if_pos (Or.inr ?_)
      obtain ⟨b, rest, rfl⟩ := List.exists_cons_of_ne_nil hne
      exact List.any_eq_true.mpr
        ⟨b, List.mem_append_right _ List.mem_cons_self, hblanks b List.mem_cons_self⟩
  | cons c port =>
      rw [if_neg (by nofun)]
      simp only [readPort_append_of_blank hne hblanks]
      split <;> rfl

theorem takeWhile_append_of_tail {p : Char → Bool} {cs more : List Char} (htail : cs.any (!p ·) = true) :
    (cs ++ more).takeWhile p = cs.takeWhile p := by
  induction cs with
  | nil => cases htail
  | cons c cs ih =>
      rw [List.cons_append, List.takeWhile_cons, List.takeWhile_cons]
      split
      · next hc =>
          rw [List.any_cons, hc, Bool.not_true, Bool.false_or] at htail
          rw [ih htail]
      · rfl

/-- Of a URL that goes on, blanks at the end of the first part stand inside. -/
theorem clean_append {base : String} (rest : String) (hbase : clean base ≠ []) :
    ∃ blanks : List Char, (∀ c ∈ blanks, isBlank c = true) ∧
      (clean (base ++ rest) = clean base ∨
        ∃ more, more <+: rest.toList.filter (!isDropped ·) ∧ more ≠ [] ∧
          clean (base ++ rest) = clean base ++ (blanks ++ more)) := by
  let text := (base.toList.filter (!isDropped ·)).dropWhile isBlank
  let more := rest.toList.filter (!isDropped ·)
  have htext : text ≠ [] := by
    intro hnil
    exact hbase (by rw [clean, show List.dropWhile isBlank _ = [] from hnil, List.rdropWhile_nil])
  have hclean : clean (base ++ rest) = (text ++ more).rdropWhile isBlank := by
    rw [clean, String.toList_append, List.filter_append, List.dropWhile_append, if_neg]
    rw [List.isEmpty_iff]
    exact htext
  refine ⟨text.rtakeWhile isBlank, fun c hc => List.mem_rtakeWhile_imp hc, ?_⟩
  rw [hclean, List.rdropWhile, List.reverse_append, List.dropWhile_append]
  split
  · exact Or.inl rfl
  · next hmore =>
      refine Or.inr ⟨more.rdropWhile isBlank, List.rdropWhile_prefix _ _, fun hnil => hmore ?_, ?_⟩
      · rw [List.rdropWhile, List.reverse_eq_nil_iff] at hnil
        rw [hnil]
        rfl
      · rw [List.reverse_append, List.reverse_reverse, ← List.append_assoc]
        exact congrArg (· ++ _) List.rdropWhile_append_rtakeWhile.symm

theorem append_afterScheme {url : List Char} (more : List Char) (h : afterScheme url ≠ []) :
    afterScheme (url ++ more) = afterScheme url ++ more ∧
      (url ++ more).takeWhile (· ≠ ':') = url.takeWhile (· ≠ ':') := by
  have hcolon : url.dropWhile (· ≠ ':') ≠ [] := by
    intro hnil
    exact h (by rw [afterScheme, hnil]; rfl)
  obtain ⟨c, cs, hcons⟩ := List.exists_cons_of_ne_nil hcolon
  refine ⟨?_, takeWhile_append_of_tail ?_⟩
  · rw [afterScheme, List.dropWhile_append, if_neg (by simpa using hcolon)]
    rw [afterScheme, hcons] at h
    rw [afterScheme, hcons]
    show (cs ++ more).dropWhile isSlash = _
    rw [List.dropWhile_append, if_neg (by simpa using h)]
    rfl
  · by_contra hany
    refine hcolon (List.dropWhile_eq_nil_iff.mpr fun c hc => ?_)
    rw [Bool.not_eq_true, List.any_eq_false] at hany
    simpa using hany c hc

theorem afterScheme_ne_nil {url : List Char} {o : Origin} (h : read host url = some o) :
    afterScheme url ≠ [] := by
  intro hnil
  rw [read, authority, hnil, List.takeWhile_nil, site_nil] at h
  cases h

theorem not_endsAuthority_of_isBlank {c : Char} (hc : isBlank c = true) : (!endsAuthority c) = true := by
  have hne := fun d => ne_of_isBlank (d := d) hc
  simp [endsAuthority, isSlash, hne '/' (by decide), hne '\\' (by decide), hne '?' (by decide),
    hne '#' (by decide)]

/-- Whether the text, after a URL without a tail, leaves the authority as it is. -/
def endsFirst (rest : String) : Bool := rest.toList.head?.all endsAuthority

theorem head_of_endsFirst {rest : String} {c : Char} {cs : List Char} (h : endsFirst rest = true)
    (hstarts : c :: cs <+: rest.toList.filter (!isDropped ·)) : endsAuthority c = true := by
  obtain ⟨tail, htail⟩ := hstarts
  cases hrest : rest.toList with
  | nil =>
      rw [hrest] at htail
      cases htail
  | cons first more =>
      rw [endsFirst, hrest] at h
      have hfirst : endsAuthority first = true := h
      have hkept : isDropped first = false := by
        rw [endsAuthority, isSlash] at hfirst
        simp only [Bool.or_eq_true, beq_iff_eq] at hfirst
        rcases hfirst with ((rfl | rfl) | rfl) | rfl <;> decide
      rw [hrest, List.filter_cons, hkept] at htail
      rw [(List.cons.inj htail).1]
      exact hfirst

/-- **A URL that goes on after its authority leads where it did**, or nowhere. -/
theorem origin_append {base rest : String} {o : Origin} (hbase : origin host base = some o)
    (hrest : hasTail base = true ∨ endsFirst rest = true) :
    origin host (base ++ rest) = some o ∨ origin host (base ++ rest) = none := by
  have hafter := afterScheme_ne_nil host hbase
  have hne : clean base ≠ [] := by
    intro hnil
    exact hafter (by rw [hnil]; rfl)
  obtain ⟨blanks, hblanks, hsame | ⟨more, hmore, hnonempty, hclean⟩⟩ := clean_append rest hne
  · rw [origin, hsame]
    exact Or.inl hbase
  · obtain ⟨happend, hscheme⟩ := append_afterScheme (blanks ++ more) hafter
    rw [origin, hclean, read, authority, happend, hscheme]
    cases htail : hasTail base with
    | true =>
        rw [hasTail] at htail
        rw [takeWhile_append_of_tail (by simpa using htail)]
        exact Or.inl hbase
    | false =>
        have hfirst : endsFirst rest = true := by
          cases hrest with
          | inl h =>
              rw [htail] at h
              cases h
          | inr h => exact h
        have hmore : more.takeWhile (!endsAuthority ·) = [] := by
          obtain ⟨c, cs, rfl⟩ := List.exists_cons_of_ne_nil hnonempty
          rw [List.takeWhile_cons, head_of_endsFirst hfirst hmore]
          rfl
        have hwhole : ∀ c ∈ afterScheme (clean base), (!endsAuthority c) = true := by
          intro c hc
          rw [hasTail, List.any_eq_false] at htail
          simpa using htail c hc
        rw [List.takeWhile_append_of_pos hwhole, List.takeWhile_append_of_pos
          fun c hc => not_endsAuthority_of_isBlank (hblanks c hc), hmore, List.append_nil]
        rw [origin, read, authority, List.takeWhile_eq_self_iff.mpr hwhole] at hbase
        by_cases hnil : blanks = []
        · rw [hnil, List.append_nil]
          exact Or.inl hbase
        · exact Or.inr (site_append_of_blank host hnil hblanks)

/-! ### A URL that is cut off -/

theorem afterScheme_append_of_nil {url more : List Char} (h : afterScheme url = [])
    (hcolon : ∀ c ∈ more, c ≠ ':') :
    afterScheme (url ++ more) = [] ∨ afterScheme (url ++ more) = more.dropWhile isSlash := by
  cases hcut : url.dropWhile (· ≠ ':') with
  | nil =>
      refine Or.inl ?_
      rw [afterScheme, List.dropWhile_append, hcut, List.isEmpty_nil, if_pos rfl,
        List.dropWhile_eq_nil_iff.mpr fun c hc => decide_eq_true (hcolon c hc)]
      rfl
  | cons colon after =>
      rw [afterScheme, hcut] at h
      have hslash : after.dropWhile isSlash = [] := h
      refine Or.inr ?_
      rw [afterScheme, List.dropWhile_append, hcut, List.isEmpty_cons, if_neg Bool.false_ne_true]
      show (after ++ more).dropWhile isSlash = _
      rw [List.dropWhile_append, hslash, List.isEmpty_nil, if_pos rfl]

theorem read_of_append_slashes {url slashes : List Char} {o : Origin}
    (hslashes : ∀ c ∈ slashes, c = '/') (h : read host (url ++ slashes) = some o) :
    read host url = some o := by
  have hafter : afterScheme url ≠ [] := by
    intro hnil
    refine afterScheme_ne_nil host h ?_
    have hcolon : ∀ c ∈ slashes, c ≠ ':' := fun c hc => by rw [hslashes c hc]; decide
    cases afterScheme_append_of_nil hnil hcolon with
    | inl h => exact h
    | inr h =>
        rw [h, List.dropWhile_eq_nil_iff]
        exact fun c hc => by rw [hslashes c hc]; rfl
  obtain ⟨happend, hscheme⟩ := append_afterScheme slashes hafter
  have hauthority : authority (url ++ slashes) = authority url := by
    rw [authority, happend, List.takeWhile_append]
    split
    · next hlength =>
        have hnone : slashes.takeWhile (!endsAuthority ·) = [] := by
          cases slashes with
          | nil => rfl
          | cons c cs => rw [List.takeWhile_cons, hslashes c List.mem_cons_self]; rfl
        rw [hnone, List.append_nil, authority]
        exact ((List.takeWhile_prefix _).eq_of_length hlength).symm
    · rfl
  rw [read, hscheme, hauthority] at h
  exact h

theorem read_of_append_blanks {url blanks : List Char} {o : Origin}
    (hblanks : ∀ c ∈ blanks, isBlank c = true) (h : read host (url ++ blanks) = some o) :
    read host url = some o := by
  by_cases hnil : blanks = []
  · rw [hnil, List.append_nil] at h
    exact h
  have hend : blanks.takeWhile (!endsAuthority ·) = blanks :=
    List.takeWhile_eq_self_iff.mpr fun c hc => not_endsAuthority_of_isBlank (hblanks c hc)
  have hafter : afterScheme url ≠ [] := by
    intro hempty
    have hcolon : ∀ c ∈ blanks, c ≠ ':' := fun c hc => ne_of_isBlank (hblanks c hc) (by decide)
    have hread := afterScheme_ne_nil host h
    cases afterScheme_append_of_nil hempty hcolon with
    | inl hnone => exact hread hnone
    | inr hafter =>
        have hslash : blanks.dropWhile isSlash = blanks := by
          obtain ⟨c, cs, rfl⟩ := List.exists_cons_of_ne_nil hnil
          have hc := not_endsAuthority_of_isBlank (hblanks c List.mem_cons_self)
          rw [List.dropWhile_cons, if_neg]
          simp only [endsAuthority, Bool.not_eq_true', Bool.or_eq_false_iff] at hc
          rw [hc.1.1]
          exact Bool.false_ne_true
        rw [read, authority, hafter, hslash, hend, ← List.nil_append blanks,
          site_append_of_blank host hnil hblanks] at h
        cases h
  obtain ⟨happend, hscheme⟩ := append_afterScheme blanks hafter
  rw [read, authority, happend, hscheme, List.takeWhile_append, hend] at h
  split at h
  · rw [site_append_of_blank host hnil hblanks] at h
    cases h
  · exact h

/-- The slashes at the end of a URL do not matter. -/
theorem origin_trimmed {url : String} {o : Origin} (h : origin host url = some o) :
    origin host (String.ofList (url.toList.rdropWhile (· == '/'))) = some o := by
  let slashes := url.toList.rtakeWhile (· == '/')
  let text := (url.toList.rdropWhile (· == '/')).filter (!isDropped ·)
  have hslashes : ∀ c ∈ slashes, c = '/' := fun c hc => by simpa using List.mem_rtakeWhile_imp hc
  have hkept : slashes.filter (!isDropped ·) = slashes := by
    rw [List.filter_eq_self]
    intro c hc
    rw [hslashes c hc]
    rfl
  have hurl : url.toList.filter (!isDropped ·) = text ++ slashes := by
    rw [← hkept, ← List.filter_append, List.rdropWhile_append_rtakeWhile]
  have hstart : slashes.dropWhile isBlank = slashes := by
    cases hcases : slashes with
    | nil => rfl
    | cons c cs =>
        rw [List.dropWhile_cons, hslashes c (hcases ▸ List.mem_cons_self)]
        rfl
  have hclean : clean url = (text.dropWhile isBlank ++ slashes).rdropWhile isBlank := by
    rw [clean, hurl, List.dropWhile_append, hstart]
    split
    · next hnil => rw [List.isEmpty_iff.mp hnil, List.nil_append]
    · rfl
  rw [origin, hclean] at h
  rw [origin, clean, String.toList_ofList]
  by_cases hnil : slashes = []
  · rw [hnil, List.append_nil] at h
    exact h
  · have hend : (text.dropWhile isBlank ++ slashes).rdropWhile isBlank =
        text.dropWhile isBlank ++ slashes := by
      rw [List.rdropWhile_eq_self_iff]
      intro hne
      rw [List.getLast_append_of_ne_nil _ hnil, hslashes _ (List.getLast_mem hnil)]
      decide
    rw [hend] at h
    have hread := read_of_append_slashes host hslashes h
    rw [← List.rdropWhile_append_rtakeWhile (p := isBlank) (l := text.dropWhile isBlank)] at hread
    exact read_of_append_blanks host (fun c hc => List.mem_rtakeWhile_imp hc) hread

end Url
