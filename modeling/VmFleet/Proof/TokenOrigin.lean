import VmFleet.Source.Listing
import VmFleet.Library.Transition
import VmFleet.Library.Fallible

/-!
# Where the token goes

`list_runners` follows a `Link` header to every URL that begins with `api_base`. A prefix of a URL fixes
its host only if the authority is complete in it. `listRunners_keeps_origin_iff` says exactly which links
take the token elsewhere.
-/

namespace VmFleet

namespace Listing

variable (host : String → Option String) (c : Client) (o : Url.Origin)

/-- Every request with the token has gone to this origin. -/
def KeepsOrigin (s : Listing) : Prop :=
  ∀ q ∈ s.sent, q.authorized = true → Url.origin host q.url = some o

/-- A link to another origin ends the listing with an error. -/
def ForeignRefused (s : Listing) (a : HttpAnswer) : Prop :=
  ∀ link page n other, a = .response link page → nextLink link = some n →
    Url.origin host n = some other → other ≠ o →
    ∀ s', step host c s a = some s' → ∃ e, s'.result = some (.error e)

/-- The text by which a link goes beyond `api_base` leaves the authority alone, or spells the same origin
in another way, or makes no URL. -/
def Continues (rest : String) : Prop :=
  Url.hasTail c.apiBase = true ∨ Url.endsFirst rest = true ∨
    Url.origin host (c.apiBase ++ rest) = none ∨ Url.origin host (c.apiBase ++ rest) = some o

def LinkContinues (_ : Listing) : HttpAnswer → Prop
  | .response link (.ok _) =>
    ∀ n ∈ nextLink link, ∀ rest ∈ Text.stripPrefix n c.apiBase, Continues host c o rest
  | _ => True

instance (rest : String) : Decidable (Continues host c o rest) :=
  inferInstanceAs (Decidable (_ ∨ _ ∨ _ ∨ _))

instance (s : Listing) : ∀ a, Decidable (LinkContinues host c o s a)
  | .response link (.ok _) => inferInstanceAs (Decidable (∀ n ∈ nextLink link, ∀ rest ∈
      Text.stripPrefix n c.apiBase, Continues host c o rest))
  | .response _ (.error _) | .status _ | .transport _ => isTrue trivial

variable {host c o}

/-! ### Requests -/

theorem authorized_of_headers {method url : String} : (Request.mk method url c.headers).authorized = true := rfl

theorem Continues.origin {rest : String} (hbase : Url.origin host c.apiBase = some o)
    (h : Continues host c o rest) :
    Url.origin host (c.apiBase ++ rest) = some o ∨ Url.origin host (c.apiBase ++ rest) = none := by
  obtain h | h | h | h := h
  · exact Url.origin_append host hbase (Or.inl h)
  · exact Url.origin_append host hbase (Or.inr h)
  · exact Or.inr h
  · exact Or.inl h

/-- Every URL of the API itself goes on with a slash. -/
theorem origin_url (hbase : Url.origin host c.apiBase = some o) (tail : String) :
    Url.origin host (c.url tail) = some o ∨ Url.origin host (c.url tail) = none := by
  have hurl : c.url tail = c.apiBase ++ ("/" ++ (c.scope ++ ("/" ++ tail))) := by
    rw [Client.url, String.append_assoc, String.append_assoc, String.append_assoc]
  rw [hurl]
  refine Url.origin_append host hbase (Or.inr ?_)
  rw [Url.endsFirst, String.toList_append]
  rfl

/-! ### The invariant -/

structure Inv (host : String → Option String) (o : Url.Origin) (s : Listing) : Prop where
  sent : KeepsOrigin host o s
  current : Url.origin host s.url = some o ∨ Url.origin host s.url = none

theorem Inv.request {s : Listing} (hsent : KeepsOrigin host o s)
    (hurl : Url.origin host s.url = some o ∨ Url.origin host s.url = none) :
    Inv host o (s.request host c) := by
  rw [Listing.request]
  split
  · next hsome =>
      refine ⟨fun q hq hauthorized => ?_, hurl⟩
      cases List.mem_append.mp hq with
      | inl hq => exact hsent q hq hauthorized
      | inr hq =>
          rw [List.mem_singleton.mp hq]
          cases hurl with
          | inl h => exact h
          | inr h =>
              rw [h] at hsome
              cases hsome
  · exact ⟨hsent, hurl⟩

theorem Inv.retry {s : Listing} (h : Inv host o s) (e : String) : Inv host o (s.retry host c e) := by
  rw [Listing.retry]
  split
  · exact Inv.request h.sent h.current
  · exact ⟨h.sent, h.current⟩

theorem Inv.step {s s' : Listing} {a : HttpAnswer} (hbase : Url.origin host c.apiBase = some o)
    (h : Inv host o s) (hok : LinkContinues host c o s a) (hstep : step host c s a = some s') :
    Inv host o s' := by
  rw [Listing.step] at hstep
  split at hstep
  · cases hstep
  · cases hstep
    cases a with
    | response link page =>
        cases page with
        | error e => exact ⟨h.sent, h.current⟩
        | ok runners =>
            rw [answer]
            cases hnext : nextLink link with
            | none => exact ⟨h.sent, h.current⟩
            | some n =>
                rw [followed]
                split
                · next hstarts =>
                    obtain ⟨rest, rfl⟩ := Text.startsWith_iff.mp hstarts
                    have hrest := hok _ hnext rest (Text.stripPrefix_append c.apiBase rest)
                    exact Inv.request h.sent (hrest.origin hbase)
                · exact ⟨h.sent, h.current⟩
    | status code =>
        rw [answer]
        split
        · exact h.retry _
        · split
          · exact h.retry _
          · exact ⟨h.sent, h.current⟩
    | transport e => exact h.retry _

theorem inv_start (hbase : Url.origin host c.apiBase = some o) : Inv host o (start host c) :=
  Inv.request nofun (origin_url hbase _)

theorem foreignRefused (hbase : Url.origin host c.apiBase = some o) {s : Listing} {a : HttpAnswer}
    (hok : LinkContinues host c o s a) : ForeignRefused host c o s a := by
  intro link page n other ha hnext horigin hother s' hstep
  rw [ha] at hok hstep
  rw [Listing.step] at hstep
  split at hstep
  · cases hstep
  · cases hstep
    cases page with
    | error e => exact ⟨e, rfl⟩
    | ok runners =>
        rw [answer]
        simp only [hnext, followed]
        split
        · next hstarts =>
            obtain ⟨rest, rfl⟩ := Text.startsWith_iff.mp hstarts
            have hrest := hok _ hnext rest (Text.stripPrefix_append c.apiBase rest)
            rcases hrest.origin hbase with hsame | hnone
            · rw [hsame] at horigin
              exact absurd (Option.some.inj horigin).symm hother
            · rw [hnone] at horigin
              cases horigin
        · exact ⟨_, rfl⟩

/-! ### What has been sent stays sent -/

theorem sent_request (s : Listing) : ∀ q ∈ s.sent, q ∈ (s.request host c).sent := by
  intro q hq
  rw [request]
  split
  · exact List.mem_append_left _ hq
  · exact hq

theorem sent_retry (s : Listing) (e : String) : ∀ q ∈ s.sent, q ∈ (s.retry host c e).sent := by
  intro q hq
  rw [retry]
  split
  · exact sent_request _ q hq
  · exact hq

theorem sent_answer (s : Listing) (a : HttpAnswer) : ∀ q ∈ s.sent, q ∈ (s.answer host c a).sent := by
  intro q hq
  cases a with
  | response link page =>
      cases page with
      | error e => exact hq
      | ok runners =>
          rw [answer]
          cases nextLink link with
          | none => exact hq
          | some n =>
              rw [followed]
              split
              · exact sent_request _ q hq
              · exact hq
  | status code =>
      rw [answer]
      split
      · exact sent_retry s _ q hq
      · split
        · exact sent_retry s _ q hq
        · exact hq
  | transport e => exact sent_retry s _ q hq

theorem step_eq_some {s s' : Listing} {a : HttpAnswer} (h : step host c s a = some s') :
    s' = s.answer host c a := by
  rw [step] at h
  split at h
  · cases h
  · exact (Option.some.inj h).symm

theorem sent_exec {s s' : Listing} {answers : List HttpAnswer}
    (hexec : Transition.exec (step host c) s answers = some s') : ∀ q ∈ s.sent, q ∈ s'.sent := by
  induction answers generalizing s with
  | nil =>
      cases hexec
      exact fun q hq => hq
  | cons a answers ih =>
      obtain ⟨mid, hmid, hrest⟩ := Transition.exec_cons_eq_some_iff.mp hexec
      intro q hq
      refine ih hrest q ?_
      rw [step_eq_some hmid]
      exact sent_answer s a q hq

/-- A link that is followed is a request. -/
theorem mem_sent_of_followed {s : Listing} {link : Option String} {runners : List Runner} {n : String}
    (hnext : nextLink link = some n) (hstarts : Text.startsWith n c.apiBase = true)
    (horigin : (Url.origin host n).isSome = true) :
    ⟨"GET", n, c.headers⟩ ∈ (s.answer host c (.response link (.ok runners))).sent := by
  simp only [answer, hnext, followed, hstarts, if_true, request, horigin]
  exact List.mem_append_right _ List.mem_cons_self

theorem continues_of_sent {sent : List Request} {n rest : String}
    (hkeeps : ∀ q ∈ sent, q.authorized = true → Url.origin host q.url = some o)
    (heq : n = c.apiBase ++ rest)
    (hsent : (Url.origin host n).isSome = true → ⟨"GET", n, c.headers⟩ ∈ sent) :
    Continues host c o rest := by
  rw [Continues, ← heq]
  cases horigin : Url.origin host n with
  | none => exact Or.inr (Or.inr (Or.inl rfl))
  | some other =>
      rw [horigin] at hsent
      have hurl := hkeeps _ (hsent rfl) authorized_of_headers
      dsimp only at hurl
      exact Or.inr (Or.inr (Or.inr (horigin ▸ hurl)))

theorem linksContinue_of_keepsOrigin {s s' : Listing} {answers : List HttpAnswer}
    (hexec : Transition.exec (step host c) s answers = some s') (hkeeps : KeepsOrigin host o s') :
    Transition.Meets (step host c) (LinkContinues host c o) s answers := by
  induction answers generalizing s with
  | nil => trivial
  | cons a answers ih =>
      obtain ⟨mid, hmid, hrest⟩ := Transition.exec_cons_eq_some_iff.mp hexec
      refine ⟨?_, fun next hnext => ?_⟩
      · cases a with
        | response link page =>
            cases page with
            | error e => trivial
            | ok runners =>
                intro n hn rest hstrip
                have heq := Text.stripPrefix_eq_some_iff.mp hstrip
                refine continues_of_sent hkeeps heq fun horigin => sent_exec hrest _ ?_
                rw [step_eq_some hmid]
                exact mem_sent_of_followed hn (Text.startsWith_iff.mpr ⟨rest, heq⟩) horigin
        | status code => trivial
        | transport e => trivial
      · rw [hmid] at hnext
        cases hnext
        exact ih hrest

end Listing

theorem Client.apiBase_of_new {gh : GitHub} {token : String} {c : Client}
    (h : Client.new gh token = .ok c) :
    c.apiBase = String.ofList (gh.apiBase.toList.rdropWhile (· == '/')) := by
  obtain ⟨scope, _, hc⟩ := Fallible.bind_eq_ok_iff.mp h
  cases hc
  rfl

/-- **The token stays with the origin of `api_base`, and a link elsewhere is an error, exactly when every
link that begins with `api_base` continues it harmlessly.** -/
theorem listRunners_keeps_origin_iff {host : String → Option String} {gh : GitHub} {token : String}
    {c : Client} {o : Url.Origin} (hclient : Client.new gh token = .ok c)
    (hbase : Url.origin host gh.apiBase = some o) {answers : List HttpAnswer} {s : Listing}
    (hexec : Transition.exec (Listing.step host c) (Listing.start host c) answers = some s) :
    (Listing.KeepsOrigin host o s ∧
      Transition.Meets (Listing.step host c) (Listing.ForeignRefused host c o) (Listing.start host c)
        answers) ↔
    Transition.Meets (Listing.step host c) (Listing.LinkContinues host c o) (Listing.start host c)
      answers := by
  have hapi : Url.origin host c.apiBase = some o := by
    rw [Client.apiBase_of_new hclient]
    exact Url.origin_trimmed host hbase
  refine ⟨fun h => Listing.linksContinue_of_keepsOrigin hexec h.1, fun hmeets => ⟨?_, ?_⟩⟩
  · have hinv : Listing.Inv host o s := Transition.exec_invariant
      (fun _ _ _ hinv hok hstep => hinv.step hapi hok hstep) (Listing.inv_start hapi) hmeets hexec
    exact hinv.sent
  · exact hmeets.mono fun s a hok => Listing.foreignRefused hapi hok

/-- So the server has no say when `api_base` goes on after its host and port. -/
theorem listRunners_keeps_origin_of_tail {host : String → Option String} {gh : GitHub} {token : String}
    {c : Client} {o : Url.Origin} (hclient : Client.new gh token = .ok c)
    (hbase : Url.origin host gh.apiBase = some o) (htail : Url.hasTail c.apiBase = true)
    {answers : List HttpAnswer} {s : Listing}
    (hexec : Transition.exec (Listing.step host c) (Listing.start host c) answers = some s) :
    Listing.KeepsOrigin host o s := by
  have hcontinues : ∀ s a, Listing.LinkContinues host c o s a := by
    intro s a
    cases a with
    | response link page =>
        cases page with
        | error e => trivial
        | ok runners => exact fun n _ rest _ => Or.inl htail
    | status code => trivial
    | transport e => trivial
  have hmeets : Transition.Meets (Listing.step host c) (Listing.LinkContinues host c o)
      (Listing.start host c) answers :=
    (Transition.meets_true (Listing.start host c) answers).mono fun s a _ => hcontinues s a
  exact ((listRunners_keeps_origin_iff hclient hbase hexec).mpr hmeets).1

/-- The host parser on names of ASCII letters, digits, dots and hyphens. -/
def plainHost (name : String) : Option String :=
  if name.toList.all fun c => c.isAlphanum || c == '.' || c == '-' then
    some (String.ofList (name.toList.map Char.toLower))
  else none

def publicApi : GitHub := { repo := some "acme/app", tokenFile := "/etc/vmfleet/token" }

def publicClient : Client := ⟨"ghp_secret", "https://api.github.com", "repos/acme/app", 1, true⟩

/-- A second page where GitHub has it. -/
def secondPage : List HttpAnswer :=
  [.response (some "<https://api.github.com/x?page=2>; rel=\"next\"") (.ok [])]

theorem secondPage_keeps_origin :
    ∃ s, Transition.exec (Listing.step plainHost publicClient) (Listing.start plainHost publicClient)
        secondPage = some s ∧
      (Listing.KeepsOrigin plainHost ⟨"https", "api.github.com", 443⟩ s ∧
        Transition.Meets (Listing.step plainHost publicClient)
          (Listing.ForeignRefused plainHost publicClient ⟨"https", "api.github.com", 443⟩)
          (Listing.start plainHost publicClient) secondPage) := by
  have hsome : (Transition.exec (Listing.step plainHost publicClient)
      (Listing.start plainHost publicClient) secondPage).isSome = true := by decide +kernel
  obtain ⟨s, hexec⟩ := Option.isSome_iff_exists.mp hsome
  have hclient : Client.new publicApi "ghp_secret" = .ok publicClient := by rfl
  refine ⟨s, hexec, (listRunners_keeps_origin_iff hclient ?_ hexec).mpr ⟨?_, fun _ _ => trivial⟩⟩
  · decide
  · decide +kernel

/-- The token goes to a host whose name merely begins like that of the API. -/
theorem token_sent_elsewhere :
    Client.new publicApi "ghp_secret" = .ok publicClient ∧
    Url.origin plainHost publicApi.apiBase = some ⟨"https", "api.github.com", 443⟩ ∧
    ∃ s, Transition.exec (Listing.step plainHost publicClient) (Listing.start plainHost publicClient)
        [.response (some "<https://api.github.com.evil.example/x>; rel=\"next\"") (.ok [])] = some s ∧
      s.result = none ∧
      ∃ q ∈ s.sent, q.authorized = true ∧
        Url.origin plainHost q.url = some ⟨"https", "api.github.com.evil.example", 443⟩ := by
  refine ⟨rfl, by decide, _, rfl, ?_⟩
  decide +kernel

end VmFleet
