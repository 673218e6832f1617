import VmFleet.Source.GitHub
import VmFleet.Library.Url
import Mathlib.Logic.Function.Iterate

/-!
# Listing the runners

`Client::new`, `send` and `list_runners` of `github.rs`: the pages are asked for one after another, each
with up to three attempts, and the next page is where the `Link` header of the last one points to. The
server answers as it likes. A URL that cannot be parsed fails before anything is sent.
-/

namespace VmFleet

structure Client where
  token : String
  apiBase : String
  scope : String
  runnerGroupId : UInt64
  isRepo : Bool

namespace Client

def new (gh : GitHub) (token : String) : Except String Client := do
  let scope ← gh.scopePath
  return {
    token := token
    apiBase := String.ofList (gh.apiBase.toList.rdropWhile (· == '/'))
    scope := scope
    runnerGroupId := gh.runnerGroupId
    isRepo := gh.repo.isSome }

def url (c : Client) (tail : String) : String := c.apiBase ++ "/" ++ c.scope ++ "/" ++ tail

def headers (c : Client) : List (String × String) :=
  [("Authorization", "Bearer " ++ c.token), ("Accept", "application/vnd.github+json"),
    ("X-GitHub-Api-Version", "2022-11-28"), ("User-Agent", "vmfleet")]

end Client

/-- The URL of the first part of a `Link` header that has `rel="next"`. -/
def nextLink (link : Option String) : Option String := do
  let link ← link
  let part ← (Text.fields ',' link).find? fun part => "rel=\"next\"".toList <:+: part
  let seg := (Text.trim (Text.firstField ';' (String.ofList part))).toList
  return String.ofList ((seg.dropWhile (· == '<')).rdropWhile (· == '>'))

structure Request where
  method : String
  url : String
  headers : List (String × String)

def Request.authorized (q : Request) : Bool := q.headers.any (·.1 == "Authorization")

/-- How one attempt ends. -/
inductive HttpAnswer where
  /-- The `Link` header, and the runners in the body or the error of reading it. -/
  | response (link : Option String) (page : Except String (List Runner))
  | status (code : Nat)
  | transport (e : String)

/-- `list_runners` while it waits for the answer to an attempt, or when it has returned. -/
structure Listing where
  url : String
  attempt : Nat
  out : List Runner
  /-- The requests sent so far. -/
  sent : List Request
  result : Option (Except String (List Runner))

namespace Listing

def retries : Nat := 3

variable (host : String → Option String) (c : Client)

/-- Send the request for the current URL. -/
def request (s : Listing) : Listing :=
  if (Url.origin host s.url).isSome then { s with sent := s.sent ++ [⟨"GET", s.url, c.headers⟩] } else s

def start : Listing :=
  request host c ⟨c.url "actions/runners?per_page=100", 1, [], [], none⟩

def retry (s : Listing) (e : String) : Listing :=
  if s.attempt < retries then request host c { s with attempt := s.attempt + 1 }
  else { s with result := some (.error e) }

def followed (s : Listing) (next : Option String) : Listing :=
  match next with
  | some n =>
    if Text.startsWith n c.apiBase then request host c { s with url := n, attempt := 1 }
    else { s with
      result := some (.error ("refusing to follow pagination link to foreign host: " ++ n)) }
  | none => { s with result := some (.ok s.out) }

def answer (s : Listing) : HttpAnswer → Listing
  | .response link page =>
    match page with
    | .error e => { s with result := some (.error e) }
    | .ok runners => followed host c { s with out := s.out ++ runners } (nextLink link)
  | .status code =>
    if code = 403 ∨ code = 429 then
      s.retry host c ("GET " ++ s.url ++ ": " ++ toString code ++ " rate-limited")
    else if code ≥ 500 then s.retry host c ("GET " ++ s.url ++ ": HTTP " ++ toString code)
    else { s with result := some (.error ("GET " ++ s.url ++ ": HTTP " ++ toString code)) }
  | .transport e =>
    s.retry host c ("GET " ++ s.url ++ " attempt " ++ toString s.attempt ++ "/3: " ++ e)

def HttpAnswer.needsServer : HttpAnswer → Bool
  | .transport _ => false
  | _ => true

/-- No step once it has returned, and no answer of a server that is not asked. -/
def step (s : Listing) (a : HttpAnswer) : Option Listing :=
  if s.result.isSome ∨ ((Url.origin host s.url).isNone ∧ HttpAnswer.needsServer a) then none
  else some (s.answer host c a)

end Listing

/-- A server whose answer depends on the URL, and on which of the attempts it answers. -/
structure Server (host : String → Option String) where
  answer : String → Nat → HttpAnswer
  unsent : ∀ url attempt, (Url.origin host url).isNone →
    Listing.HttpAnswer.needsServer (answer url attempt) = false

namespace Listing

variable {host : String → Option String} (c : Client) (server : Server host)

/-- The loop of `list_runners` goes on until it has returned. -/
def next (s : Listing) : Listing :=
  if s.result.isSome then s else s.answer host c (server.answer s.url s.attempt)

/-- After `n` answers. -/
def after (n : Nat) : Listing := (next c server)^[n] (start host c)

end Listing

/-- A server whose answers may change with time: what it says to the `n`-th attempt of a listing, which
is for the URL. -/
structure Service (host : String → Option String) where
  answer : Nat → String → HttpAnswer
  unsent : ∀ n url, (Url.origin host url).isNone → Listing.HttpAnswer.needsServer (answer n url) = false

/-- The listing after `n` answers of the service. -/
def Listing.listed {host : String → Option String} (c : Client) (service : Service host) : Nat → Listing
  | 0 => Listing.start host c
  | n + 1 =>
    let s := Listing.listed c service n
    if s.result.isSome then s else s.answer host c (service.answer n s.url)

end VmFleet
