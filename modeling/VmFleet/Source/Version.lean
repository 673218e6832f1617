import VmFleet.Library.Text

/-!
# Versions

The version order of `selfupdate.rs`, which the supervisor's passive update check rests on.
-/

namespace VmFleet

/-- `CARGO_PKG_VERSION`. -/
def currentVersion : String := "0.1.0"

/-- `trim_start_matches('v')`. -/
def trimV (s : String) : String := String.ofList (s.toList.dropWhile (· == 'v'))

/-- The core numbers and the prerelease identifiers of a version. -/
structure Version where
  major : Nat
  minor : Nat
  patch : Nat
  pre : List String
  deriving DecidableEq

/-- `splitn(2, '-')`: the text before the first hyphen, and the text after it where there is one. -/
def splitHyphen (s : String) : String × Option String :=
  (Text.firstField '-' s,
    match s.toList.dropWhile (· != '-') with
    | [] => none
    | _ :: rest => some (String.ofList rest))

def parseVersionFull (s : String) : Option Version := do
  let s := Text.firstField '+' (trimV (Text.trim s))
  let parts := splitHyphen s
  let numbers := (Text.fields '.' parts.1).map String.ofList
  let major ← Text.parseU64 (← numbers[0]?)
  let minor ← Text.parseU64 (← numbers[1]?)
  let patch ← Text.parseU64 (numbers[2]?.getD "0")
  let pre := match parts.2 with
    | some p => if p = "" then [] else (Text.fields '.' p).map String.ofList
    | none => []
  return ⟨major, minor, patch, pre⟩

def cmpIdentifier (x y : String) : Ordering :=
  match Text.parseU64 x, Text.parseU64 y with
  | some xn, some yn => compare xn yn
  | some _, none => .lt
  | none, some _ => .gt
  | none, none => compare x y

/-- The loop over two non-empty identifier lists. -/
def cmpIdentifiers : List String → List String → Ordering
  | [], [] => .eq
  | [], _ :: _ => .lt
  | _ :: _, [] => .gt
  | x :: xs, y :: ys => (cmpIdentifier x y).then (cmpIdentifiers xs ys)

def cmpPrerelease (a b : List String) : Ordering :=
  match a.isEmpty, b.isEmpty with
  | true, true => .eq
  | true, false => .gt
  | false, true => .lt
  | false, false => cmpIdentifiers a b

def cmpVersions (a b : String) : Ordering :=
  match parseVersionFull a, parseVersionFull b with
  | some va, some vb =>
    (compare va.major vb.major).then <| (compare va.minor vb.minor).then <|
      (compare va.patch vb.patch).then (cmpPrerelease va.pre vb.pre)
  | some _, none => .gt
  | none, some _ => .lt
  | none, none => .eq

def isNewer (candidate current : String) : Bool := cmpVersions candidate current == .gt

def updateAvailable (latest : String) : Bool := isNewer latest currentVersion

end VmFleet
