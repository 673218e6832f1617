import VmFleet.Proof.Paging

/-!
# The list of all pages

A `Link` header is cut at its commas, and the first piece that has `rel="next"` names the next page. Where
that is the page the header means, the listing goes through a chain of pages to its end, with all their
runners in order, or ends with an error when a page is not served. A quoted parameter with a comma in it,
or another parameter whose name ends in `rel`, leads it astray.
-/

namespace VmFleet

/-! ### The header -/

def Marked (piece : List Char) : Prop := "rel=\"next\"".toList <:+: piece

instance (piece : List Char) : Decidable (Marked piece) :=
  inferInstanceAs (Decidable ("rel=\"next\"".toList <:+: piece))

/-- What stands before the first semicolon of a piece, without its angle brackets. -/
def pieceTarget (piece : List Char) : String :=
  String.ofList (((Text.trim (Text.firstField ';' (String.ofList piece))).toList.dropWhile
    (· == '<')).rdropWhile (· == '>'))

/-- The first of the header's pieces that has `rel="next"` is one for `u`. -/
def Names (link : Option String) (u : String) : Prop :=
  ∃ text before piece after, link = some text ∧ Text.fields ',' text = before ++ piece :: after ∧
    (∀ p ∈ before, ¬ Marked p) ∧ Marked piece ∧ pieceTarget piece = u

/-- No piece of the header has `rel="next"`. -/
def NamesNone (link : Option String) : Prop :=
  ∀ text, link = some text → ∀ piece ∈ Text.fields ',' text, ¬ Marked piece

theorem nextLink_some (text : String) :
    nextLink (some text) = ((Text.fields ',' text).find? fun piece => Marked piece).map pieceTarget := by
  show ((Text.fields ',' text).find? fun piece => Marked piece).bind _ = _
  cases (Text.fields ',' text).find? fun piece => Marked piece with
  | none => rfl
  | some piece => rfl

theorem nextLink_eq_some_iff {link : Option String} {u : String} :
    nextLink link = some u ↔ Names link u := by
  cases link with
  | none =>
      refine ⟨nofun, ?_⟩
      rintro ⟨text, _, _, _, hlink, _⟩
      cases hlink
  | some text =>
      simp only [nextLink_some, Option.map_eq_some_iff, List.find?_eq_some_iff_append, decide_eq_true_eq,
        Bool.not_eq_true', decide_eq_false_iff_not]
      refine ⟨?_, ?_⟩
      · rintro ⟨piece, ⟨hmarked, before, after, hfields, hbefore⟩, htarget⟩
        exact ⟨text, before, piece, after, rfl, hfields, hbefore, hmarked, htarget⟩
      · rintro ⟨_, before, piece, after, hlink, hfields, hbefore, hmarked, htarget⟩
        cases hlink
        exact ⟨piece, ⟨hmarked, before, after, hfields, hbefore⟩, htarget⟩

theorem nextLink_eq_none_iff {link : Option String} : nextLink link = none ↔ NamesNone link := by
  cases link with
  | none => exact ⟨fun _ => nofun, fun _ => rfl⟩
  | some text =>
      simp only [nextLink_some, Option.map_eq_none_iff, List.find?_eq_none, decide_eq_true_eq]
      refine ⟨fun h _ hlink => ?_, fun h => h text rfl⟩
      cases hlink
      exact h

/-! ### Headers that are read right -/

def HasRelNext (text : String) : Prop := Marked text.toList

instance (text : String) : Decidable (HasRelNext text) := inferInstanceAs (Decidable (Marked text.toList))

/-- The characters that would end the URL before its time. -/
def PlainUrl (u : String) : Prop := ∀ ch ∈ u.toList, ch ∉ [',', ';', '"', '<', '>', ' ']

/-- `<u>` and its parameters, with `rel="next"` among them. -/
def IsNextEntry (u entry : String) : Prop :=
  ∃ blanks gap params : String, entry = blanks ++ "<" ++ u ++ ">" ++ gap ++ ";" ++ params ∧
    (∀ ch ∈ blanks.toList, Text.isWhitespace ch = true) ∧
    (∀ ch ∈ gap.toList, Text.isWhitespace ch = true) ∧ ',' ∉ params.toList ∧ HasRelNext params

/-- The header has an entry for `u` as the next page, and before it only entries that are not. -/
def ListsNext (link : Option String) (u : String) : Prop :=
  ∃ (before after : List String) (entry : String),
    link = some (",".intercalate (before ++ entry :: after)) ∧ (∀ e ∈ before, ¬ HasRelNext e) ∧
    IsNextEntry u entry

theorem not_marked_of_mem_fields {text : String} (h : ¬ HasRelNext text) {field : List Char}
    (hfield : field ∈ Text.fields ',' text) : ¬ Marked field :=
  fun hmarked => h (List.IsInfix.trans hmarked (Text.infix_of_mem_fields hfield))

theorem not_mem_of_isWhitespace {cs : List Char} {ch : Char}
    (hcs : ∀ c ∈ cs, Text.isWhitespace c = true) (hch : Text.isWhitespace ch = false) : ch ∉ cs := by
  intro hmem
  rw [hcs ch hmem] at hch
  cases hch

/-- An entry is one part of the header. -/
theorem IsNextEntry.comma_not_mem {u entry : String} (h : IsNextEntry u entry) (hu : PlainUrl u) :
    ',' ∉ entry.toList := by
  obtain ⟨blanks, gap, params, rfl, hblanks, hgap, hparams, _⟩ := h
  have hinUrl : ',' ∉ u.toList := fun hmem => hu ',' hmem (by decide)
  have hinBlanks : ',' ∉ blanks.toList := not_mem_of_isWhitespace hblanks (by decide)
  have hinGap : ',' ∉ gap.toList := not_mem_of_isWhitespace hgap (by decide)
  simp [String.toList_append, hinUrl, hinBlanks, hinGap, hparams]

theorem IsNextEntry.hasRelNext {u entry : String} (h : IsNextEntry u entry) : HasRelNext entry := by
  obtain ⟨blanks, gap, params, rfl, _, _, _, hparams⟩ := h
  rw [HasRelNext, String.toList_append]
  exact List.IsInfix.trans hparams (List.suffix_append _ _).isInfix

/-- The text up to the first semicolon, without what surrounds the URL. -/
theorem IsNextEntry.target {u entry : String} (h : IsNextEntry u entry) (hu : PlainUrl u) :
    Text.trim (Text.firstField ';' entry) = "<" ++ u ++ ">" := by
  obtain ⟨blanks, gap, params, rfl, hblanks, hgap, _, _⟩ := h
  have hsemicolon : ';' ∉ (blanks ++ "<" ++ u ++ ">" ++ gap).toList := by
    have hinUrl : ';' ∉ u.toList := fun hmem => hu ';' hmem (by decide)
    have hinBlanks : ';' ∉ blanks.toList := not_mem_of_isWhitespace hblanks (by decide)
    have hinGap : ';' ∉ gap.toList := not_mem_of_isWhitespace hgap (by decide)
    simp [String.toList_append, hinUrl, hinBlanks, hinGap]
  have hfield : Text.firstField ';' (blanks ++ "<" ++ u ++ ">" ++ gap ++ ";" ++ params) =
      blanks ++ "<" ++ u ++ ">" ++ gap := Text.firstField_append hsemicolon
  have htexts : blanks ++ "<" ++ u ++ ">" ++ gap =
      String.ofList (blanks.toList ++ ('<' :: (u.toList ++ ['>'])) ++ gap.toList) := by
    rw [← String.toList_inj]
    simp [String.toList_append]
  have hinner : "<" ++ u ++ ">" = String.ofList ('<' :: (u.toList ++ ['>'])) := by
    rw [← String.toList_inj]
    simp [String.toList_append]
  rw [hfield, htexts, hinner]
  exact Text.trim_pad hblanks hgap (by decide) (by decide)

theorem unbracket_eq {u : String} (hu : PlainUrl u) :
    String.ofList ((("<" ++ u ++ ">").toList.dropWhile (· == '<')).rdropWhile (· == '>')) = u := by
  have hopen : '<' ∉ u.toList := fun hmem => hu '<' hmem (by decide)
  have hclose : '>' ∉ u.toList := fun hmem => hu '>' hmem (by decide)
  have hlist : ("<" ++ u ++ ">").toList = '<' :: (u.toList ++ ['>']) := by simp [String.toList_append]
  have hleft : (u.toList ++ ['>']).dropWhile (· == '<') = u.toList ++ ['>'] := by
    cases hcs : u.toList with
    | nil => rfl
    | cons ch cs =>
        have hne : ¬ (ch == '<') = true := by
          rw [beq_iff_eq]
          rintro rfl
          exact hopen (hcs ▸ List.mem_cons_self)
        rw [List.cons_append, List.dropWhile_cons, if_neg hne]
  have hright : u.toList.rdropWhile (· == '>') = u.toList := by
    rw [List.rdropWhile_eq_self_iff]
    intro hne hlast
    rw [beq_iff_eq] at hlast
    exact hclose (hlast ▸ List.getLast_mem hne)
  rw [hlist, List.dropWhile_cons, if_pos (beq_self_eq_true '<'), hleft,
    List.rdropWhile_concat_pos (· == '>') _ _ (beq_self_eq_true '>'), hright, String.ofList_toList]

theorem names_of_listsNext {link : Option String} {u : String} (h : ListsNext link u) (hu : PlainUrl u) :
    Names link u := by
  obtain ⟨before, after, entry, rfl, hbefore, hentry⟩ := h
  have hparts : Text.fields ',' (",".intercalate (before ++ entry :: after)) =
      before.flatMap (Text.fields ',') ++ entry.toList :: after.flatMap (Text.fields ',') := by
    have hjoined : Text.fields ',' (",".intercalate (before ++ entry :: after)) =
        (before ++ entry :: after).flatMap (Text.fields ',') := by
      apply Text.fields_intercalate
      simp
    rw [List.flatMap_append, List.flatMap_cons, Text.fields_of_not_mem (hentry.comma_not_mem hu)] at hjoined
    exact hjoined
  refine ⟨_, _, _, _, rfl, hparts, fun piece hpiece => ?_, hentry.hasRelNext, ?_⟩
  · obtain ⟨e, he, hfield⟩ := List.mem_flatMap.mp hpiece
    exact not_marked_of_mem_fields (hbefore e he) hfield
  · rw [pieceTarget, String.ofList_toList, hentry.target hu]
    exact unbracket_eq hu

/-! ### The pages -/

variable {host : String → Option String} {c : Client}

namespace Listing

/-- A page that is served: the answers to the attempts before, and what the response holds. -/
structure Page (host : String → Option String) where
  url : String
  failed : List HttpAnswer
  link : Option String
  runners : List Runner
  sendable : (Url.origin host url).isSome = true
  retried : ∀ a ∈ failed, HttpAnswer.retryable a = true
  inTime : failed.length < retries

def Page.answers (p : Page host) : List HttpAnswer := p.failed ++ [.response p.link (.ok p.runners)]

/-- Three attempts that fail for a while, or one that fails for good. -/
def FinallyFails (answers : List HttpAnswer) : Prop :=
  (answers.length = retries ∧ ∀ a ∈ answers, HttpAnswer.retryable a = true) ∨
    ∃ before last, answers = before ++ [last] ∧ before.length < retries ∧
      (∀ a ∈ before, HttpAnswer.retryable a = true) ∧ HttpAnswer.fatal last = true

/-- A page that is not. -/
structure UnservedPage (host : String → Option String) where
  url : String
  answers : List HttpAnswer
  fails : FinallyFails answers

/-- The attempts a page takes, with their answers. -/
def Page.requests (p : Page host) : List (String × HttpAnswer) := p.answers.map fun a => (p.url, a)

def UnservedPage.requests (p : UnservedPage host) : List (String × HttpAnswer) :=
  p.answers.map fun a => (p.url, a)

/-- From the page at `u`, each page names the next one, to the page at `v`. -/
def Leads (c : Client) : String → List (Page host) → String → Prop
  | u, [], v => u = v
  | u, p :: ps, v => p.url = u ∧ ∃ w, Names p.link w ∧ Text.startsWith w c.apiBase = true ∧ Leads c w ps v

/-- The service answers the attempts so, from the `t`-th on, as long as they are for these URLs. -/
def Answers (service : Service host) (t : Nat) (requests : List (String × HttpAnswer)) : Prop :=
  ∀ i url a, requests[i]? = some (url, a) → service.answer (t + i) url = a

variable {s : Listing} {url : String} {n t : Nat} {out : List Runner} {a : HttpAnswer}
  {service : Service host}

theorem Answers.head {requests : List (String × HttpAnswer)} (h : Answers service t ((url, a) :: requests)) :
    service.answer t url = a := h 0 url a rfl

theorem Answers.tail {r : String × HttpAnswer} {requests : List (String × HttpAnswer)}
    (h : Answers service t (r :: requests)) : Answers service (t + 1) requests := by
  intro i url a hr
  rw [Nat.add_assoc, Nat.add_comm 1 i]
  exact h (i + 1) url a hr

theorem Answers.append {before after : List (String × HttpAnswer)}
    (h : Answers service t (before ++ after)) :
    Answers service t before ∧ Answers service (t + before.length) after := by
  induction before generalizing t with
  | nil => exact ⟨nofun, h⟩
  | cons r before ih =>
      obtain ⟨hbefore, hafter⟩ := ih h.tail
      refine ⟨fun i url a hr => h i url a ?_, ?_⟩
      · rw [List.getElem?_append_left]
        · exact hr
        · exact (List.getElem?_eq_some_iff.mp hr).1
      · rw [List.length_cons, show t + (before.length + 1) = t + 1 + before.length by omega]
        exact hafter

/-! ### A page -/

theorem listed_succ (h : (listed c service t).result = none) :
    listed c service (t + 1) =
      (listed c service t).answer host c (service.answer t (listed c service t).url) := by
  rw [listed, h]
  rfl

theorem listed_add (r : Except String (List Runner)) (h : (listed c service t).result = some r) (m : Nat) :
    (listed c service (t + m)).result = some r := by
  induction m with
  | zero => exact h
  | succ m ih =>
      rw [← Nat.add_assoc, listed, ih]
      exact ih

/-- A listing has one result. -/
theorem listed_result_inj {r r' : Except String (List Runner)} (h : (listed c service n).result = some r)
    (h' : (listed c service t).result = some r') : r = r' := by
  have hlater := listed_add r h (t - n)
  have hlater' := listed_add r' h' (n - t)
  rw [show n + (t - n) = t + (n - t) by omega, hlater'] at hlater
  exact (Option.some.inj hlater).symm

theorem asks_listed_succ (h : Asks (listed c service t) url n out) (ha : service.answer t url = a) :
    listed c service (t + 1) = (listed c service t).answer host c a := by
  rw [listed_succ h.pending, h.url_eq, ha]

/-- The attempts that fail for a while leave the listing at the same page. -/
theorem listed_retries {failed : List HttpAnswer} (h : Asks (listed c service t) url n out)
    (hretried : ∀ a ∈ failed, HttpAnswer.retryable a = true) (hn : n + failed.length ≤ retries)
    (hanswers : Answers service t (failed.map fun a => (url, a))) :
    Asks (listed c service (t + failed.length)) url (n + failed.length) out := by
  induction failed generalizing t n with
  | nil => exact h
  | cons a failed ih =>
      rw [List.length_cons] at hn
      rw [List.map_cons] at hanswers
      have hagain : Asks (listed c service (t + 1)) url (n + 1) out := by
        rw [asks_listed_succ h hanswers.head]
        exact h.again (hretried a List.mem_cons_self) (by omega)
      have hlast := ih hagain (fun b hb => hretried b (List.mem_cons_of_mem _ hb)) (by omega) hanswers.tail
      rw [List.length_cons, show t + (failed.length + 1) = t + 1 + failed.length by omega,
        show n + (failed.length + 1) = n + 1 + failed.length by omega]
      exact hlast

/-- Attempts that fail for a while, and an answer that ends the page. -/
theorem listed_last {before : List HttpAnswer} {last : HttpAnswer}
    (h : Asks (listed c service t) url 1 out) (hretried : ∀ a ∈ before, HttpAnswer.retryable a = true)
    (hn : before.length < retries)
    (hanswers : Answers service t ((before ++ [last]).map fun a => (url, a))) :
    ∃ s, Asks s url (1 + before.length) out ∧
      listed c service (t + (before ++ [last]).length) = s.answer host c last := by
  rw [List.map_append] at hanswers
  have hasks := listed_retries h hretried (by omega) hanswers.append.1
  have hlast := hanswers.append.2.head
  rw [List.length_map] at hlast
  refine ⟨_, hasks, ?_⟩
  rw [List.length_append, List.length_singleton, ← Nat.add_assoc]
  exact asks_listed_succ hasks hlast

/-- A served page ends with its response. -/
theorem listed_page {p : Page host} (h : Asks (listed c service t) p.url 1 out)
    (hanswers : Answers service t p.requests) :
    ∃ s n, Asks s p.url n out ∧ listed c service (t + p.requests.length) =
      s.answer host c (.response p.link (.ok p.runners)) := by
  obtain ⟨s, hasks, hlisted⟩ := listed_last h p.retried p.inTime hanswers
  rw [Page.requests, List.length_map]
  exact ⟨s, _, hasks, hlisted⟩

/-- An unserved page ends with an error. -/
theorem listed_unserved {p : UnservedPage host} (h : Asks (listed c service t) p.url 1 out)
    (hanswers : Answers service t p.requests) : Failed (listed c service (t + p.requests.length)) := by
  rw [UnservedPage.requests] at hanswers ⊢
  rw [List.length_map]
  rcases p.fails with ⟨hlength, hretried⟩ | ⟨before, last, heq, hn, _, hfatal⟩
  · -- the last of the three attempts is given up
    obtain heq | ⟨before, last, heq⟩ := List.eq_nil_or_concat p.answers
    · rw [heq] at hlength
      cases hlength
    · rw [heq, List.concat_eq_append] at hretried hlength hanswers ⊢
      rw [List.length_append, List.length_singleton] at hlength
      obtain ⟨s, hasks, hlisted⟩ := listed_last h (fun a ha => hretried a (List.mem_append_left _ ha))
        (by omega) hanswers
      rw [hlisted]
      exact hasks.givenUp (hretried last (by simp)) (by omega)
  · rename_i hretried
    rw [heq] at hanswers ⊢
    obtain ⟨s, hasks, hlisted⟩ := listed_last h hretried hn hanswers
    rw [hlisted]
    exact failed_of_fatal hfatal

/-- **A chain of pages is gone through in order.** -/
theorem listed_leads {pages : List (Page host)} {u v : String} (hleads : Leads c u pages v)
    (h : Asks (listed c service t) u 1 out) (hanswers : Answers service t (pages.flatMap Page.requests)) :
    Asks (listed c service (t + (pages.flatMap Page.requests).length)) v 1
      (out ++ pages.flatMap (·.runners)) := by
  induction pages generalizing t u out with
  | nil =>
      cases hleads
      rw [List.flatMap_nil, List.flatMap_nil, List.append_nil]
      exact h
  | cons p ps ih =>
      obtain ⟨rfl, w, hnames, hw, hrest⟩ := hleads
      rw [List.flatMap_cons] at hanswers
      obtain ⟨s, n, hasked, hlisted⟩ := listed_page h hanswers.append.1
      have hfollowed : Asks (listed c service (t + p.requests.length)) w 1 (out ++ p.runners) := by
        rw [hlisted]
        exact hasked.followed (nextLink_eq_some_iff.mpr hnames) hw
      have hlast := ih hrest hfollowed hanswers.append.2
      rw [List.flatMap_cons, List.flatMap_cons, List.length_append, ← Nat.add_assoc, ← List.append_assoc]
      exact hlast

/-! ### A service that has nothing but the chain -/

theorem sendable_of_mem_requests {pages : List (Page host)} {r : String × HttpAnswer}
    (hr : r ∈ pages.flatMap Page.requests) : (Url.origin host r.1).isSome = true := by
  obtain ⟨p, _, hr⟩ := List.mem_flatMap.mp hr
  obtain ⟨a, _, rfl⟩ := List.mem_map.mp hr
  exact p.sendable

/-- What is not of the chain is not found, or not even asked for. -/
def elsewhere (host : String → Option String) (url : String) : HttpAnswer :=
  if (Url.origin host url).isSome then .status 404 else .transport "relative URL without a base"

/-- The answers of the chain in its order, and no others. -/
def only (pages : List (Page host)) : Service host where
  answer n url :=
    match (pages.flatMap Page.requests)[n]? with
    | some (u, a) => if u = url then a else elsewhere host url
    | none => elsewhere host url
  unsent := by
    intro n url hnone
    have helse : HttpAnswer.needsServer (elsewhere host url) = false := by
      rw [elsewhere, if_neg]
      · rfl
      · rw [Option.isSome_iff_ne_none, not_not]
        exact Option.isNone_iff_eq_none.mp hnone
    split
    · next u a hr =>
        split
        · next heq =>
            have hsome := sendable_of_mem_requests (List.mem_of_getElem? hr)
            rw [heq, Option.isSome_iff_ne_none] at hsome
            exact absurd (Option.isNone_iff_eq_none.mp hnone) hsome
        · exact helse
    · exact helse

theorem answers_only (pages : List (Page host)) :
    Answers (only pages) 0 (pages.flatMap Page.requests) := by
  intro i url a hr
  show (match (pages.flatMap Page.requests)[0 + i]? with
    | some (u, a) => if u = url then a else elsewhere host url
    | none => elsewhere host url) = a
  rw [Nat.zero_add, hr]
  exact if_pos rfl

/-- Away from the chain the service is of no use. -/
theorem only_eq_elsewhere {pages : List (Page host)}
    (haway : ∀ r, (pages.flatMap Page.requests)[n]? = some r → r.1 ≠ url) :
    (only pages).answer n url = elsewhere host url := by
  show (match (pages.flatMap Page.requests)[n]? with
    | some (u, a) => if u = url then a else elsewhere host url
    | none => elsewhere host url) = _
  split
  · next u a hr => exact if_neg (haway (u, a) hr)
  · rfl

/-- A listing that is led astray fails. -/
theorem exists_failed_of_astray {pages : List (Page host)} (h : Asks (listed c (only pages) t) url 1 out)
    (haway : ∀ r, (pages.flatMap Page.requests)[t]? = some r → r.1 ≠ url) :
    ∃ m, Failed (listed c (only pages) m) := by
  by_cases hsend : (Url.origin host url).isSome = true
  · have hanswer : (only pages).answer t url = .status 404 := by
      rw [only_eq_elsewhere haway, elsewhere, if_pos hsend]
    refine ⟨t + 1, ?_⟩
    rw [asks_listed_succ h hanswer]
    exact failed_of_fatal rfl
  · have hanswer : ∀ n, (only pages).answer n url = .transport "relative URL without a base" := by
      intro n
      rw [only_eq_elsewhere, elsewhere, if_neg hsend]
      rintro r hr rfl
      exact hsend (sendable_of_mem_requests (List.mem_of_getElem? hr))
    have hanswers : Answers (only pages) t
        ((List.replicate 3 (.transport "relative URL without a base")).map fun a => (url, a)) := by
      intro i u a hr
      obtain ⟨b, hb, heq⟩ := List.mem_map.mp (List.mem_of_getElem? hr)
      cases heq
      rw [hanswer, List.eq_of_mem_replicate hb]
    let unserved : UnservedPage host :=
      { url := url
        answers := List.replicate 3 (.transport "relative URL without a base")
        fails := Or.inl ⟨rfl, by decide⟩ }
    exact ⟨_, listed_unserved (p := unserved) h hanswers⟩

/-- The pages that the listing comes to, and the ones it misses. -/
def ReadsAll (c : Client) (u : String) (pages : List (Page host)) : Prop :=
  ∃ read last missed, pages = read ++ last :: missed ∧ Leads c u read last.url ∧ NamesNone last.link ∧
    ∀ p ∈ missed, p.runners = []

theorem not_failed_of_ok {m : Nat} {xs : List Runner} (hresult : (listed c service m).result = some (.ok xs))
    (hfailed : Failed (listed c service n)) : False := by
  obtain ⟨e, he⟩ := hfailed
  cases listed_result_inj hresult he

/-- A listing that comes to the right list has come to its end at the page, or asks for the one after it. -/
theorem page_cases {pages before rest : List (Page host)} {p : Page host} {m : Nat}
    (hpages : pages = before ++ p :: rest) (ht : t = (before.flatMap Page.requests).length)
    (hasks : Asks (listed c (only pages) t) p.url 1 out)
    (hresult : (listed c (only pages) m).result = some (.ok (out ++ (p :: rest).flatMap (·.runners)))) :
    (NamesNone p.link ∧ ∀ q ∈ rest, q.runners = []) ∨
      ∃ w r, Names p.link w ∧ Text.startsWith w c.apiBase = true ∧
        Asks (listed c (only pages) (t + p.requests.length)) w 1 (out ++ p.runners) ∧
        (rest.flatMap Page.requests)[0]? = some r ∧ r.1 = w := by
  have hall : pages.flatMap Page.requests =
      before.flatMap Page.requests ++ (p.requests ++ rest.flatMap Page.requests) := by
    rw [hpages, List.flatMap_append, List.flatMap_cons]
  have hanswers : Answers (only pages) t p.requests := by
    have hchain := answers_only pages
    rw [hall] at hchain
    have hpage := hchain.append.2.append.1
    rw [Nat.zero_add, ← ht] at hpage
    exact hpage
  obtain ⟨s, n, hasked, hlisted⟩ := listed_page hasks hanswers
  cases hlink : nextLink p.link with
  | none =>
      have hlast : (listed c (only pages) (t + p.requests.length)).result =
          some (.ok (out ++ p.runners)) := by
        rw [hlisted]
        exact hasked.last hlink
      have hlists := Except.ok.inj (listed_result_inj hresult hlast)
      rw [List.flatMap_cons, List.append_cancel_left_eq, List.append_right_eq_self,
        List.flatMap_eq_nil_iff] at hlists
      exact Or.inl ⟨nextLink_eq_none_iff.mp hlink, hlists⟩
  | some w =>
      right
      by_cases hw : Text.startsWith w c.apiBase = true
      · have hfollowed : Asks (listed c (only pages) (t + p.requests.length)) w 1 (out ++ p.runners) := by
          rw [hlisted]
          exact hasked.followed hlink hw
        by_cases haway : ∀ r, (pages.flatMap Page.requests)[t + p.requests.length]? = some r → r.1 ≠ w
        · obtain ⟨k, hfailed⟩ := exists_failed_of_astray hfollowed haway
          exact (not_failed_of_ok hresult hfailed).elim
        · push Not at haway
          obtain ⟨r, hr, heq⟩ := haway
          rw [hall, ht, List.getElem?_append_right (by omega), List.getElem?_append_right (by omega)] at hr
          refine ⟨w, r, nextLink_eq_some_iff.mp hlink, hw, hfollowed, ?_, heq⟩
          rw [← hr]
          congr 1
          omega
      · apply (not_failed_of_ok hresult (n := t + p.requests.length) ?_).elim
        rw [hlisted]
        exact failed_of_foreign hlink hw

theorem readsAll_of_result {pages rest : List (Page host)} {p : Page host} {m : Nat}
    (before : List (Page host)) (hpages : pages = before ++ p :: rest) (ht : t = (before.flatMap Page.requests).length)
    (hasks : Asks (listed c (only pages) t) p.url 1 out)
    (hresult : (listed c (only pages) m).result = some (.ok (out ++ (p :: rest).flatMap (·.runners)))) :
    ReadsAll c p.url (p :: rest) := by
  induction rest generalizing before p t out with
  | nil =>
      obtain ⟨hnone, hmissed⟩ | ⟨w, r, _, _, _, hr, _⟩ := page_cases hpages ht hasks hresult
      · exact ⟨[], p, [], rfl, rfl, hnone, hmissed⟩
      · cases hr
  | cons q rest ih =>
      obtain ⟨hnone, hmissed⟩ | ⟨w, r, hnames, hw, hfollowed, hr, heq⟩ := page_cases hpages ht hasks hresult
      · exact ⟨[], p, q :: rest, rfl, rfl, hnone, hmissed⟩
      · have hnext : r.1 = q.url := by
          rw [List.flatMap_cons, List.getElem?_append_left] at hr
          · obtain ⟨a, _, hra⟩ := List.mem_map.mp (List.mem_of_getElem? hr)
            rw [← hra]
          · rw [Page.requests, Page.answers, List.length_map, List.length_append, List.length_singleton]
            omega
        rw [← heq, hnext] at hnames hw hfollowed
        rw [List.flatMap_cons, ← List.append_assoc] at hresult
        obtain ⟨read, last, missed, hsplit, hleads, hnone, hmissed⟩ :=
          ih (before ++ [p]) (by rw [hpages, List.append_assoc]; rfl)
            (by rw [List.flatMap_append, List.flatMap_singleton, List.length_append, ht]) hfollowed hresult
        refine ⟨p :: read, last, missed, by rw [hsplit]; rfl, ?_, hnone, hmissed⟩
        exact ⟨rfl, q.url, hnames, hw, hleads⟩

/-! ### All pages -/

theorem listed_of_readsAll {pages : List (Page host)} {u : String} (hreads : ReadsAll c u pages)
    (hasks : Asks (listed c service t) u 1 out) (hanswers : Answers service t (pages.flatMap Page.requests)) :
    ∃ n, (listed c service n).result = some (.ok (out ++ pages.flatMap (·.runners))) := by
  obtain ⟨read, last, missed, rfl, hleads, hnone, hmissed⟩ := hreads
  rw [List.flatMap_append, List.flatMap_cons] at hanswers
  have hlast := listed_leads hleads hasks hanswers.append.1
  obtain ⟨s, n, hasked, hlisted⟩ := listed_page hlast hanswers.append.2.append.1
  refine ⟨_, (congrArg Listing.result hlisted).trans ?_⟩
  rw [hasked.last (nextLink_eq_none_iff.mpr hnone), List.flatMap_append, List.flatMap_cons,
    List.flatMap_eq_nil_iff.mpr hmissed, List.append_nil, List.append_assoc]

/-- **A chain of pages gives the list of all their runners exactly if every header is read as it is meant**,
up to pages without runners. A page that is asked for and not served gives an error, whatever the headers
were. -/
theorem listRunners_lists_all_iff {first : Page host} {rest : List (Page host)}
    (hfirst : first.url = c.url "actions/runners?per_page=100") :
    ((∀ service : Service host, Answers service 0 ((first :: rest).flatMap Page.requests) →
        ∃ n, (listed c service n).result = some (.ok ((first :: rest).flatMap (·.runners)))) ↔
      ReadsAll c (c.url "actions/runners?per_page=100") (first :: rest)) ∧
    (∀ (pages : List (Page host)) (unserved : UnservedPage host),
      Leads c (c.url "actions/runners?per_page=100") pages unserved.url →
      ∀ service : Service host, Answers service 0 (pages.flatMap Page.requests ++ unserved.requests) →
        ∃ n e, (listed c service n).result = some (.error e)) ∧
    ∀ (service : Service host) (t : Nat) (out : List Runner) (unserved : UnservedPage host),
      Asks (listed c service t) unserved.url 1 out → Answers service t unserved.requests →
        ∃ n e, (listed c service n).result = some (.error e) := by
  refine ⟨⟨fun hlists => ?_, fun hreads service hanswers => ?_⟩,
    fun pages unserved hleads service hanswers => ?_, fun service t out unserved hasks hanswers => ?_⟩
  · obtain ⟨m, hresult⟩ := hlists (only (first :: rest)) (answers_only _)
    have hasks : Asks (listed c (only (first :: rest)) 0) first.url 1 [] := by
      rw [hfirst]
      exact asks_start
    rw [← hfirst]
    exact readsAll_of_result [] rfl rfl hasks hresult
  · have hasks : Asks (listed c service 0) (c.url "actions/runners?per_page=100") 1 [] := asks_start
    have hlists := listed_of_readsAll hreads hasks hanswers
    exact hlists
  · have hasks : Asks (listed c service 0) (c.url "actions/runners?per_page=100") 1 [] := asks_start
    have hlast := listed_leads hleads hasks hanswers.append.1
    exact ⟨_, listed_unserved hlast hanswers.append.2⟩
  · exact ⟨_, listed_unserved hasks hanswers⟩

end Listing

/-! ### Chains of two pages -/

def secondUrl : String := "https://api.github.com/x?page=2"

def nextEntry : String := " <" ++ secondUrl ++ ">; rel=\"next\""

def firstEntry : String := "<https://api.github.com/x?page=1>; rel=\"first\""

def lastEntry : String := " <https://api.github.com/x?page=5>; rel=\"last\""

/-- Served at the second attempt, with the next page between two other entries. -/
def busyPage : Listing.Page plainHost where
  url := firstPage
  failed := [.status 502]
  link := some (",".intercalate ([firstEntry] ++ nextEntry :: [lastEntry]))
  runners := [{ id := 1, name := "vmf-ci-100-1700000000-4242", status := "online", labels := [] }]
  sendable := origin_firstPage
  retried := by decide
  inTime := by decide

def lastPage : Listing.Page plainHost where
  url := secondUrl
  failed := []
  link := some "<https://api.github.com/x?page=1>; rel=\"prev\""
  runners := [{ id := 2, name := "vmf-ci-101-1700000000-4243", status := "online", labels := [] }]
  sendable := by decide +kernel
  retried := by decide
  inTime := by decide

def missingPage : Listing.UnservedPage plainHost where
  url := secondUrl
  answers := [.status 404]
  fails := Or.inr ⟨[], .status 404, rfl, by decide, by decide, rfl⟩

theorem isNextEntry_nextEntry : IsNextEntry secondUrl nextEntry := by
  refine ⟨" ", "", " rel=\"next\"", ?_, ?_, ?_, ?_, ?_⟩
  · decide +kernel
  · exact Text.forall_mem_of_all (by decide)
  · exact Text.forall_mem_of_all (by decide)
  · decide +kernel
  · decide +kernel

theorem plainUrl_secondUrl : PlainUrl secondUrl := Text.forall_mem_of_all (by decide +kernel)

theorem leads_busyPage : Listing.Leads publicClient firstPage [busyPage] secondUrl := by
  refine ⟨rfl, secondUrl, names_of_listsNext ?_ plainUrl_secondUrl, by decide +kernel, rfl⟩
  exact ⟨[firstEntry], [lastEntry], nextEntry, rfl, by decide +kernel, isNextEntry_nextEntry⟩

theorem namesNone_lastPage : NamesNone lastPage.link := by
  rintro text heq piece hpiece
  cases heq
  exact not_marked_of_mem_fields (by decide +kernel) hpiece

theorem readsAll_busyPage : Listing.ReadsAll publicClient firstPage [busyPage, lastPage] := by
  have hurl : lastPage.url = secondUrl := rfl
  refine ⟨[busyPage], lastPage, [], List.singleton_append.symm, ?_, namesNone_lastPage, ?_⟩
  · rw [hurl]
    exact leads_busyPage
  · intro p hp
    cases hp

theorem listRunners_lists_two :
    (∀ service : Service plainHost,
      Listing.Answers service 0 ([busyPage, lastPage].flatMap Listing.Page.requests) →
      ∃ n, (Listing.listed publicClient service n).result =
        some (.ok ([busyPage, lastPage].flatMap (·.runners)))) ∧
    ∀ service : Service plainHost,
      Listing.Answers service 0 ([busyPage].flatMap Listing.Page.requests ++ missingPage.requests) →
      ∃ n e, (Listing.listed publicClient service n).result = some (.error e) := by
  have hfirst : busyPage.url = publicClient.url "actions/runners?per_page=100" := rfl
  obtain ⟨hall, herror, _⟩ :=
    @Listing.listRunners_lists_all_iff plainHost publicClient busyPage [lastPage] hfirst
  exact ⟨hall.mpr readsAll_busyPage, herror [busyPage] missingPage leads_busyPage⟩

/-! ### Chains that are misread -/

structure LinkEntry where
  url : String
  params : List (String × String)

def LinkEntry.text (e : LinkEntry) : String :=
  "<" ++ e.url ++ ">" ++ String.join (e.params.map fun p => "; " ++ p.1 ++ "=\"" ++ p.2 ++ "\"")

def linkText (entries : List LinkEntry) : String := ", ".intercalate (entries.map (·.text))

/-- The header of a page that has the next one as its one entry, with a title. -/
def titledEntries : List LinkEntry :=
  [⟨secondUrl, [("title", "runners 101, 102 and more"), ("rel", "next")]⟩]

/-- Before the entry of the next page, one of the last page with a parameter of its own. -/
def strayEntries : List LinkEntry :=
  [⟨"https://api.github.com/x?page=5", [("rel", "last"), ("x-rel", "next")]⟩, ⟨secondUrl, [("rel", "next")]⟩]

def pageWith (entries : List LinkEntry) : Listing.Page plainHost where
  url := firstPage
  failed := []
  link := some (linkText entries)
  runners := [{ id := 1, name := "vmf-ci-100-1700000000-4242", status := "online", labels := [] }]
  sendable := origin_firstPage
  retried := by decide
  inTime := by decide

theorem nextLink_titled : nextLink (pageWith titledEntries).link = some "102 and more\"" := by decide +kernel

def fifthUrl : String := "https://api.github.com/x?page=5"

theorem nextLink_stray : nextLink (pageWith strayEntries).link = some fifthUrl := by decide +kernel

/-- A service that has the page 5 too, with no runners on it. -/
def withFifthPage (pages : List (Listing.Page plainHost)) : Service plainHost where
  answer n url := if url = fifthUrl then .response none (.ok []) else (Listing.only pages).answer n url
  unsent := by
    intro n url hnone
    split
    · next heq =>
        have hsome : (Url.origin plainHost fifthUrl).isSome = true := by decide +kernel
        rw [← heq, Option.isSome_iff_ne_none] at hsome
        exact absurd (Option.isNone_iff_eq_none.mp hnone) hsome
    · exact (Listing.only pages).unsent n url hnone

theorem withFifthPage_fifthUrl (pages : List (Listing.Page plainHost)) (n : Nat) :
    (withFifthPage pages).answer n fifthUrl = .response none (.ok []) := by
  show (if fifthUrl = fifthUrl then _ else (Listing.only pages).answer n fifthUrl) = _
  exact if_pos rfl

theorem answers_withFifthPage {pages : List (Listing.Page plainHost)} (haway : ∀ p ∈ pages, p.url ≠ fifthUrl) :
    Listing.Answers (withFifthPage pages) 0 (pages.flatMap Listing.Page.requests) := by
  intro i url a hr
  have hother : url ≠ fifthUrl := by
    obtain ⟨p, hp, hmem⟩ := List.mem_flatMap.mp (List.mem_of_getElem? hr)
    obtain ⟨b, _, heq⟩ := List.mem_map.mp hmem
    cases heq
    exact haway p hp
  show (if url = fifthUrl then _ else (Listing.only pages).answer (0 + i) url) = a
  rw [if_neg hother]
  exact Listing.answers_only pages i url a hr

theorem asks_firstPage (service : Service plainHost) :
    Listing.Asks (Listing.listed publicClient service 0) firstPage 1 [] := Listing.asks_start

theorem ne_fifthUrl : ∀ p ∈ [pageWith strayEntries, lastPage], p.url ≠ fifthUrl := by
  intro p hp
  simp only [List.mem_cons, List.not_mem_nil, or_false] at hp
  rcases hp with rfl | rfl
  · decide +kernel
  · decide +kernel

/-- The comma in the title ends the listing with an error; the other parameter ends it without the second
page. -/
theorem listRunners_misreads :
    (∃ service : Service plainHost,
      Listing.Answers service 0 ([pageWith titledEntries, lastPage].flatMap Listing.Page.requests) ∧
      ∃ e, (Listing.listed publicClient service 1).result = some (.error e)) ∧
    ∃ service : Service plainHost,
      Listing.Answers service 0 ([pageWith strayEntries, lastPage].flatMap Listing.Page.requests) ∧
      (Listing.listed publicClient service 2).result = some (.ok (pageWith strayEntries).runners) := by
  refine ⟨⟨Listing.only [pageWith titledEntries, lastPage], Listing.answers_only _, ?_⟩,
    ⟨withFifthPage [pageWith strayEntries, lastPage], answers_withFifthPage ne_fifthUrl, ?_⟩⟩
  · have hanswer := (Listing.answers_only [pageWith titledEntries, lastPage]).head
    rw [Listing.asks_listed_succ (asks_firstPage _) hanswer]
    exact Listing.failed_of_foreign nextLink_titled (by decide +kernel)
  · have hanswer := (answers_withFifthPage ne_fifthUrl).head
    have hfollowed : Listing.Asks
        (Listing.listed publicClient (withFifthPage [pageWith strayEntries, lastPage]) 1) fifthUrl 1
        (pageWith strayEntries).runners := by
      rw [Listing.asks_listed_succ (asks_firstPage _) hanswer]
      exact (asks_firstPage _).followed nextLink_stray (by decide +kernel)
    rw [Listing.asks_listed_succ hfollowed (withFifthPage_fifthUrl _ 1)]
    exact hfollowed.last rfl

end VmFleet
