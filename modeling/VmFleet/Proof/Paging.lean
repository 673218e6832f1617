import VmFleet.Proof.TokenOrigin
import VmFleet.Library.Halting

/-!
# Page after page

What one answer does to a listing that asks for a page, and what follows for the loop: it goes on as long
as the pages it is served list a next one under `api_base`. Nothing bounds their number, and a page that
lists itself is served for ever.
-/

namespace VmFleet

namespace Listing

/-! ### One answer -/

/-- The listing has sent the request number `attempt` for the page at `url`, and has these runners of the
pages before. -/
structure Asks (s : Listing) (url : String) (attempt : Nat) (out : List Runner) : Prop where
  url_eq : s.url = url
  attempt_eq : s.attempt = attempt
  out_eq : s.out = out
  pending : s.result = none

/-- An answer after which `send` tries again. -/
def HttpAnswer.retryable : HttpAnswer → Bool
  | .response _ _ => false
  | .status code => code = 403 ∨ code = 429 ∨ code ≥ 500
  | .transport _ => true

/-- An answer after which the listing has failed. -/
def HttpAnswer.fatal : HttpAnswer → Bool
  | .response _ (.error _) => true
  | .response _ (.ok _) => false
  | .status code => ¬ (code = 403 ∨ code = 429 ∨ code ≥ 500)
  | .transport _ => false

def Failed (s : Listing) : Prop := ∃ e, s.result = some (.error e)

variable {host : String → Option String} {c : Client} {s : Listing} {url : String} {n : Nat}
  {out runners : List Runner} {a : HttpAnswer} {link : Option String}

theorem HttpAnswer.cases_of (a : HttpAnswer) :
    HttpAnswer.retryable a = true ∨ HttpAnswer.fatal a = true ∨
      ∃ link runners, a = .response link (.ok runners) := by
  cases a with
  | response link page =>
      cases page with
      | error e => exact Or.inr (Or.inl rfl)
      | ok runners => exact Or.inr (Or.inr ⟨link, runners, rfl⟩)
  | status code =>
      by_cases hcode : code = 403 ∨ code = 429 ∨ code ≥ 500
      · exact Or.inl (decide_eq_true hcode)
      · exact Or.inr (Or.inl (decide_eq_true hcode))
  | transport e => exact Or.inl rfl

theorem Asks.request (h : Asks s url n out) : Asks (s.request host c) url n out := by
  rw [Listing.request]
  split
  · exact ⟨h.url_eq, h.attempt_eq, h.out_eq, h.pending⟩
  · exact h

theorem asks_start : Asks (start host c) (c.url "actions/runners?per_page=100") 1 [] :=
  Asks.request ⟨rfl, rfl, rfl, rfl⟩

theorem retry_of_retryable (ha : HttpAnswer.retryable a = true) :
    ∃ e, s.answer host c a = s.retry host c e := by
  cases a with
  | response link page => cases ha
  | status code =>
      have hcode : code = 403 ∨ code = 429 ∨ code ≥ 500 := of_decide_eq_true ha
      rw [Listing.answer]
      by_cases hlimited : code = 403 ∨ code = 429
      · exact ⟨_, if_pos hlimited⟩
      · rw [if_neg hlimited, if_pos (by omega)]
        exact ⟨_, rfl⟩
  | transport e => exact ⟨_, rfl⟩

theorem Asks.again (h : Asks s url n out) (ha : HttpAnswer.retryable a = true) (hn : n < retries) :
    Asks (s.answer host c a) url (n + 1) out := by
  obtain ⟨e, heq⟩ := retry_of_retryable ha
  rw [heq, Listing.retry, if_pos (by rw [h.attempt_eq]; exact hn), h.attempt_eq]
  exact Asks.request ⟨h.url_eq, rfl, h.out_eq, h.pending⟩

theorem Asks.givenUp (h : Asks s url n out) (ha : HttpAnswer.retryable a = true) (hn : ¬ n < retries) :
    Failed (s.answer host c a) := by
  obtain ⟨e, heq⟩ := retry_of_retryable ha
  rw [heq, Listing.retry, if_neg (by rw [h.attempt_eq]; exact hn)]
  exact ⟨e, rfl⟩

theorem failed_of_fatal (ha : HttpAnswer.fatal a = true) : Failed (s.answer host c a) := by
  cases a with
  | response link page =>
      cases page with
      | error e => exact ⟨e, rfl⟩
      | ok runners => cases ha
  | status code =>
      have hcode : ¬ (code = 403 ∨ code = 429 ∨ code ≥ 500) := of_decide_eq_true ha
      rw [Listing.answer, if_neg (by omega), if_neg (by omega)]
      exact ⟨_, rfl⟩
  | transport e => cases ha

theorem Asks.followed {v : String} (h : Asks s url n out) (hlink : nextLink link = some v)
    (hv : Text.startsWith v c.apiBase = true) :
    Asks (s.answer host c (.response link (.ok runners))) v 1 (out ++ runners) := by
  show Asks (Listing.followed host c { s with out := s.out ++ runners } (nextLink link)) v 1 _
  rw [hlink, Listing.followed, if_pos hv, h.out_eq]
  exact Asks.request ⟨rfl, rfl, rfl, h.pending⟩

theorem failed_of_foreign {v : String} (hlink : nextLink link = some v)
    (hv : ¬ Text.startsWith v c.apiBase = true) :
    Failed (s.answer host c (.response link (.ok runners))) := by
  show Failed (Listing.followed host c { s with out := s.out ++ runners } (nextLink link))
  rw [hlink, Listing.followed, if_neg hv]
  exact ⟨_, rfl⟩

theorem Asks.last (h : Asks s url n out) (hlink : nextLink link = none) :
    (s.answer host c (.response link (.ok runners))).result = some (.ok (out ++ runners)) := by
  show (Listing.followed host c { s with out := s.out ++ runners } (nextLink link)).result = _
  rw [hlink, h.out_eq]
  rfl

/-! ### One page -/

section

variable {server : Server host}

/-- The page at `u` is served, after attempts that failed for a while, and lists `v` next. -/
def LinksTo (c : Client) (server : Server host) (u v : String) : Prop :=
  ∃ n link runners, n < retries ∧
    (∀ j < n, HttpAnswer.retryable (server.answer u (j + 1)) = true) ∧
    server.answer u (n + 1) = .response link (.ok runners) ∧ nextLink link = some v ∧
    Text.startsWith v c.apiBase = true

theorem Asks.next (h : Asks s url n out) :
    Listing.next c server s = s.answer host c (server.answer url n) := by
  rw [Listing.next, h.pending, h.url_eq, h.attempt_eq]
  rfl

theorem next_of_result (h : s.result.isSome = true) : Listing.next c server s = s := if_pos h

theorem step_eq_next (h : s.result = none) :
    step host c s (server.answer s.url s.attempt) = some (Listing.next c server s) := by
  have hpending : ¬ s.result.isSome = true := by simp [h]
  have hsent : ¬ ((Url.origin host s.url).isNone = true ∧
      HttpAnswer.needsServer (server.answer s.url s.attempt) = true) := by
    intro hunsent
    rw [server.unsent s.url s.attempt hunsent.1] at hunsent
    exact Bool.false_ne_true hunsent.2
  rw [step, if_neg (not_or.mpr ⟨hpending, hsent⟩), Listing.next, if_neg hpending]

/-- The listings a server brings about are among those of all answers. -/
theorem reachable_after (n : Nat) :
    Transition.Reachable (step host c) (start host c) (after c server n) := by
  induction n with
  | zero =>
      rw [after, Function.iterate_zero_apply]
      exact ⟨[], rfl⟩
  | succ n ih =>
      rw [after, Function.iterate_succ_apply', ← after]
      cases hresult : (after c server n).result with
      | some r =>
          rw [next_of_result (by rw [hresult]; rfl)]
          exact ih
      | none =>
          obtain ⟨answers, hexec⟩ := ih
          exact ⟨answers ++ [_], Transition.exec_append_eq_some_iff.mpr
            ⟨_, hexec, Transition.exec_cons_eq_some_iff.mpr ⟨_, step_eq_next hresult, rfl⟩⟩⟩

/-- As long as the attempts fail for a while, the next one is made. -/
theorem Asks.iterate_next (h : Asks s url 1 out) (hn : n < retries)
    (hfailed : ∀ j < n, HttpAnswer.retryable (server.answer url (j + 1)) = true) :
    Asks ((Listing.next c server)^[n] s) url (n + 1) out := by
  induction n with
  | zero => exact h
  | succ n ih =>
      have hprev := ih (by omega) fun j hj => hfailed j (by omega)
      rw [Function.iterate_succ_apply', hprev.next]
      exact hprev.again (hfailed n (by omega)) hn

/-- Three attempts, or an answer that is no reason for another one. -/
theorem first_answer (server : Server host) (url : String) :
    (∀ j < retries, HttpAnswer.retryable (server.answer url (j + 1)) = true) ∨
      ∃ n < retries, (∀ j < n, HttpAnswer.retryable (server.answer url (j + 1)) = true) ∧
        ¬ HttpAnswer.retryable (server.answer url (n + 1)) = true := by
  by_cases hall : ∀ j < retries, HttpAnswer.retryable (server.answer url (j + 1)) = true
  · exact Or.inl hall
  · right
    push Not at hall
    classical
    have hfirst := Nat.find_spec hall
    refine ⟨Nat.find hall, hfirst.1, fun j hj => ?_, hfirst.2⟩
    by_contra hretry
    exact Nat.find_min hall hj ⟨hj.trans hfirst.1, hretry⟩

theorem Failed.isSome (h : Failed s) : s.result.isSome = true := by
  obtain ⟨e, he⟩ := h
  rw [he]
  rfl

/-- A page that lists no page under `api_base` is the last one. -/
theorem Asks.ends (h : Asks s url n out)
    (hstuck : ∀ v, nextLink link = some v → ¬ Text.startsWith v c.apiBase = true) :
    (s.answer host c (.response link (.ok runners))).result.isSome = true := by
  cases hlink : nextLink link with
  | none =>
      rw [h.last hlink]
      rfl
  | some v => exact (failed_of_foreign hlink (hstuck v hlink)).isSome

theorem visits_next :
    Halting.Visits (Listing.next c server) (fun s => s.result.isSome = true) (LinksTo c server)
      fun s u => ∃ out, Asks s u 1 out where
  go := by
    intro s u v hasks hlinks
    obtain ⟨out, hasks⟩ := hasks
    obtain ⟨n, link, runners, hn, hfailed, hserved, hlink, hv⟩ := hlinks
    have hasked := hasks.iterate_next (c := c) hn hfailed
    refine ⟨n + 1, Nat.succ_pos n, ⟨out ++ runners, ?_⟩, fun m hm hdone => ?_⟩
    · rw [Function.iterate_succ_apply', hasked.next, hserved]
      exact hasked.followed hlink hv
    · have hpending : ((Listing.next c server)^[m] s).result = none :=
        (hasks.iterate_next (by omega) fun j hj => hfailed j (by omega)).pending
      rw [hpending] at hdone
      cases hdone
  stop := by
    intro s u hasks hstuck
    obtain ⟨out, hasks⟩ := hasks
    cases first_answer server u with
    | inl hall =>
        have hasked : Asks ((Listing.next c server)^[2] s) u 3 out :=
          hasks.iterate_next (by decide) fun j hj => hall j (hj.trans (by decide))
        refine ⟨3, ?_⟩
        rw [Function.iterate_succ_apply', hasked.next]
        exact (hasked.givenUp (hall 2 (by decide)) (by decide)).isSome
    | inr hfirst =>
        obtain ⟨n, hn, hfailed, hanswer⟩ := hfirst
        have hasked : Asks ((Listing.next c server)^[n] s) u (n + 1) out := hasks.iterate_next hn hfailed
        refine ⟨n + 1, ?_⟩
        rw [Function.iterate_succ_apply', hasked.next]
        rcases HttpAnswer.cases_of (server.answer u (n + 1)) with hretry | hfatal | hserved
        · exact absurd hretry hanswer
        · exact (failed_of_fatal hfatal).isSome
        · obtain ⟨link, runners, hserved⟩ := hserved
          rw [hserved]
          apply hasked.ends
          intro v hlink hv
          exact hstuck v ⟨n, link, runners, hn, hfailed, hserved, hlink, hv⟩

/-! ### All pages -/

/-- Finitely many requests are sent, and a list or an error is returned. -/
def Returns (c : Client) (server : Server host) : Prop :=
  (∃ bound, ∀ n, (after c server n).sent.length ≤ bound) ∧ ∃ n, (after c server n).result.isSome = true

theorem returns_iff_exists_result :
    Returns c server ↔ ∃ n, (after c server n).result.isSome = true := by
  refine ⟨fun h => h.2, fun h => ⟨?_, h⟩⟩
  obtain ⟨n, hdone⟩ := h
  exact Halting.bounded_of_done (fun s hs => next_of_result hs) hdone fun s => s.sent.length

end

/-- **`list_runners` returns exactly when the pages come to an end.** -/
theorem listRunners_returns_iff (c : Client) (server : Server host) :
    Returns c server ↔
      ∃ url, Relation.ReflTransGen (LinksTo c server) (c.url "actions/runners?per_page=100") url ∧
        ∀ next, ¬ LinksTo c server url next := by
  rw [returns_iff_exists_result]
  exact visits_next.halts_iff ⟨[], asks_start⟩

end Listing

/-! ### A page that lists itself -/

namespace Listing

variable {c : Client} {server : Server host} {url : String} {link : Option String} {runners : List Runner}

theorem length_sent_followed {s : Listing} (hlink : nextLink link = some url)
    (hurl : Text.startsWith url c.apiBase = true) (hsent : (Url.origin host url).isSome = true) :
    (s.answer host c (.response link (.ok runners))).sent.length = s.sent.length + 1 := by
  show (Listing.followed host c { s with out := s.out ++ runners } (nextLink link)).sent.length = _
  rw [hlink, Listing.followed, if_pos hurl, Listing.request, if_pos hsent, List.length_append]
  rfl

/-- It is asked for again and again. -/
theorem after_of_selfLink (hfirst : c.url "actions/runners?per_page=100" = url)
    (hserved : server.answer url 1 = .response link (.ok runners)) (hlink : nextLink link = some url)
    (hurl : Text.startsWith url c.apiBase = true) (hsent : (Url.origin host url).isSome = true) (n : Nat) :
    (∃ out, Asks (after c server n) url 1 out) ∧ (after c server n).sent.length = n + 1 := by
  induction n with
  | zero =>
      rw [after, Function.iterate_zero_apply, start, hfirst]
      refine ⟨⟨[], Asks.request ⟨rfl, rfl, rfl, rfl⟩⟩, ?_⟩
      rw [request, if_pos hsent]
      rfl
  | succ n ih =>
      obtain ⟨⟨out, hasks⟩, hlength⟩ := ih
      rw [after, Function.iterate_succ_apply', ← after, hasks.next, hserved]
      refine ⟨⟨out ++ runners, hasks.followed hlink hurl⟩, ?_⟩
      rw [length_sent_followed hlink hurl hsent, hlength]

end Listing

def firstPage : String := publicClient.url "actions/runners?per_page=100"

theorem origin_firstPage : (Url.origin plainHost firstPage).isSome = true := by decide +kernel

/-- The first page is served with itself as the next one, and no other page is. -/
def selfLinking : Server plainHost where
  answer url _ :=
    if url = firstPage then .response (some ("<" ++ firstPage ++ ">; rel=\"next\"")) (.ok [])
    else .transport "connection refused"
  unsent := by
    intro url attempt hurl
    split
    · next heq =>
        have hsome := origin_firstPage
        rw [← heq, Option.isSome_iff_ne_none] at hsome
        exact absurd (Option.isNone_iff_eq_none.mp hurl) hsome
    · rfl

theorem listRunners_loops :
    (∀ n, (Listing.after publicClient selfLinking n).result = none ∧
      (Listing.after publicClient selfLinking n).sent.length = n + 1) ∧
    ¬ Listing.Returns publicClient selfLinking := by
  have hpending : ∀ n, (Listing.after publicClient selfLinking n).result = none ∧
      (Listing.after publicClient selfLinking n).sent.length = n + 1 := by
    intro n
    have hserved : selfLinking.answer firstPage 1 =
        .response (some ("<" ++ firstPage ++ ">; rel=\"next\"")) (.ok []) := by
      simp [selfLinking]
    obtain ⟨⟨out, hasks⟩, hlength⟩ := Listing.after_of_selfLink (c := publicClient) rfl hserved
      (by decide +kernel) (by decide +kernel) origin_firstPage n
    exact ⟨hasks.pending, hlength⟩
  refine ⟨hpending, fun hreturns => ?_⟩
  obtain ⟨n, hdone⟩ := hreturns.2
  rw [(hpending n).1] at hdone
  cases hdone

end VmFleet
