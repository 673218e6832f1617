import Mathlib.Logic.Function.Basic
import VmFleet.Source.Listing
import VmFleet.Source.Version

/-!
# Self-update

`run` of `selfupdate.rs` with the functions it calls. What the requests and the file operations come to is
an input, as are the answers of the crates that hash and unpack. What is done stays done when a later
step fails. `TempCleanup` removes its files without fail, and `self_replace` replaces the binary or does
nothing. A redirect is followed without the token.
-/

namespace VmFleet

abbrev Bytes := List UInt8

structure Asset where
  name : String
  browserDownloadUrl : String := ""
  url : String := ""
  deriving DecidableEq

structure Release where
  tagName : String
  draft : Bool := false
  assets : List Asset := []
  deriving DecidableEq

/-- `Opts`. -/
structure UpdateOpts where
  check : Bool := false
  tag : Option String := none
  allowPrerelease : Bool := false
  yes : Bool := false
  noRestart : Bool := false

/-! ### What is not in this repository -/

structure TarEntry where
  path : String
  /-- What reading the entry to its end gives. -/
  data : Bytes

structure Crates where
  sha256 : Bytes → Bytes
  /-- The entries of a gzipped tarball. -/
  entries : Bytes → List (Except String TarEntry)

/-- What an attempt at a request comes to. -/
inductive Reply (α : Type) where
  | response (body : α)
  | status (code : Nat)
  | failure (message : String)

/-- A copy that fails has written this many bytes before. -/
abbrev CopyOutcome := Except (Nat × String) Unit

structure Transfer where
  /-- The attempts are numbered from 1. -/
  replies : Nat → Reply Bytes
  created : Except String Unit
  copied : CopyOutcome
  renamed : Except String Unit

structure Outcomes where
  /-- `VMFLEET_TARGET`, which the build sets. -/
  target : String
  envToken : Option String
  configToken : Option String
  release : Nat → Reply (Except String Release)
  releases : Nat → Reply (Except String (List Release))
  confirmed : Bool
  exe : Except String String
  publicTarball : Transfer
  apiTarball : Transfer
  publicSum : Nat → Reply (Except String String)
  apiSum : Nat → Reply (Except String String)
  hashed : Except String Unit
  opened : Except String Unit
  binCreated : Except String Unit
  binCopied : CopyOutcome
  executable : Except String Unit
  selfReplaced : Except String Unit
  cfgExists : Bool

structure Host where
  files : String → Option Bytes
  /-- The attempts made, those with a URL that cannot be parsed among them. -/
  requests : List Request := []
  /-- What has replaced the running binary. -/
  replaced : Option Bytes := none
  /-- Whether `install --upgrade` is run. -/
  upgraded : Bool := false

abbrev Update := ExceptT String (StateM Host)

/-- How `x` ends, and what it leaves, when it begins with these files. -/
def Update.from {α : Type} (x : Update α) (files : String → Option Bytes) : Except String α × Host :=
  StateT.run (ExceptT.run x) { files := files }

def withContext {α : Type} (message : String) (x : Update α) : Update α :=
  tryCatch x fun _ => throw message

/-! ### Small helpers -/

/-- `CARGO_PKG_REPOSITORY`. -/
def repositoryUrl : String := "https://github.com/gagalo1234/vmfleet"

/-- `trim_end_matches(".git")`, on the reversed text. -/
def dropGit : List Char → List Char
  | 't' :: 'i' :: 'g' :: '.' :: rest => dropGit rest
  | rest => rest

def parseRepoUrl (url : String) : Option (String × String) := do
  let url := Text.trim url
  let rest ← Text.stripPrefix url "https://github.com/" <|> Text.stripPrefix url "http://github.com/" <|>
    Text.stripPrefix url "git@github.com:"
  let rest := (dropGit (rest.toList.reverse.dropWhile (· == '/'))).reverse
  let owner := String.ofList (rest.takeWhile (· != '/'))
  match rest.dropWhile (· != '/') with
  | [] => none
  | _ :: repo => if owner = "" ∨ repo = [] ∨ '/' ∈ repo then none else some (owner, String.ofList repo)

def assetName (version target : String) : String := s!"vmfleet-{version}-{target}.tar.gz"

def isHexDigit (c : Char) : Bool := c.isDigit || ('a' ≤ c && c ≤ 'f') || ('A' ≤ c && c ≤ 'F')

def asciiLowercase (s : String) : String := String.ofList (s.toList.map Char.toLower)

def eqIgnoreAsciiCase (a b : String) : Bool := asciiLowercase a == asciiLowercase b

def parseSha256 (body : String) : Option String := do
  let tok ← Text.firstWord body
  if tok.utf8ByteSize = 64 ∧ tok.toList.all isHexDigit = true then some (asciiLowercase tok) else none

/-- `{:x}` of a digest. -/
def hexDigest (digest : Bytes) : String :=
  String.ofList (digest.flatMap fun b => [Nat.digitChar (b.toNat / 16), Nat.digitChar (b.toNat % 16)])

/-- `Path::file_name`. -/
def fileName (path : String) : Option String :=
  match (((Text.fields '/' path).map String.ofList).filter fun c => c ≠ "" ∧ c ≠ ".").getLast? with
  | some ".." => none
  | last => last

/-- `Path::with_extension`, for a path that ends in a file name. -/
def withExtension (path ext : String) : String :=
  let reversed := path.toList.reverse
  let dir := (reversed.dropWhile (· != '/')).reverse
  let stem := ((reversed.takeWhile (· != '/')).dropWhile (· != '.')).drop 1
  if stem = [] then path ++ "." ++ ext else String.ofList (dir ++ stem.reverse) ++ "." ++ ext

/-- A file of this name in the directory of `exe`. -/
def besides (exe name : String) : String :=
  String.ofList (exe.toList.reverse.dropWhile (· != '/')).reverse ++ name

def bestEffortToken (envToken configToken : Option String) : Option String :=
  let usable := fun t => let t := Text.trim t; if t = "" then none else some t
  envToken.bind usable <|> configToken.bind usable

/-! ### Requests -/

def RETRIES : Nat := 3

def applyHeaders (token : Option String) (accept : String) : List (String × String) :=
  [("Accept", accept), ("X-GitHub-Api-Version", "2022-11-28"), ("User-Agent", "vmfleet")] ++
    (token.map fun t => ("Authorization", "Bearer " ++ t)).toList

/-- The loop of `send_get` over the attempts left. -/
def sendAttempts {α : Type} (request : Request) (replies : Nat → Reply α) : List Nat → String → Update α
  | [], last => throw last
  | attempt :: rest, _ => do
    modify fun host => { host with requests := host.requests ++ [request] }
    match replies attempt with
    | .response body => return body
    | .status code =>
      if code ≥ 500 ∨ code = 429 then
        sendAttempts request replies rest s!"GET {request.url}: HTTP {code}"
      else throw s!"GET {request.url}: HTTP {code}"
    | .failure e => sendAttempts request replies rest s!"GET {request.url} attempt {attempt}/{RETRIES}: {e}"

def sendGet {α : Type} (url : String) (token : Option String) (accept : String) (replies : Nat → Reply α) :
    Update α :=
  sendAttempts ⟨"GET", url, applyHeaders token accept⟩ replies (List.range' 1 RETRIES) "no attempt"

def getJson {α : Type} (url : String) (token : Option String) (replies : Nat → Reply (Except String α)) :
    Update α := do
  ofExcept (← sendGet url token "application/vnd.github+json" replies)

def getText (url : String) (token : Option String) (replies : Nat → Reply (Except String String)) :
    Update String := do
  ofExcept (← sendGet url token "application/octet-stream" replies)

/-! ### Files -/

def writeFile (path : String) (bytes : Bytes) : Update Unit :=
  modify fun host => { host with files := Function.update host.files path (some bytes) }

def readFile (path : String) : Update Bytes := do
  match (← get).files path with
  | some bytes => return bytes
  | none => throw "No such file or directory (os error 2)"

def renameFile (src dest : String) : Update Unit := do
  let bytes ← readFile src
  modify fun host =>
    { host with files := Function.update (Function.update host.files src none) dest (some bytes) }

/-- `io::copy` into a file that has just been created. -/
def copyTo (path : String) (bytes : Bytes) : CopyOutcome → Update Unit
  | .ok () => writeFile path bytes
  | .error (written, e) => do
    writeFile path (bytes.take written)
    throw e

def streamToFile (url : String) (token : Option String) (dest : String) (transfer : Transfer) :
    Update Unit := do
  let body ← sendGet url token "application/octet-stream" transfer.replies
  let tmp := withExtension dest "part"
  withContext s!"creating {tmp}" (ofExcept transfer.created)
  copyTo tmp body transfer.copied
  ofExcept transfer.renamed
  renameFile tmp dest

/-- The end of a `TempCleanup` of these paths. -/
def Host.dropTemps (host : Host) (paths : List String) : Host :=
  { host with files := fun path =>
      if path ∈ paths ∨ path ∈ paths.map (withExtension · "part") then none else host.files path }

/-- However `x` ends, its files are removed. -/
def withTempCleanup {α : Type} (paths : List String) (x : Update α) : Update α :=
  ExceptT.mk do
    let result ← x.run
    modify (·.dropTemps paths)
    return result

/-! ### Release discovery -/

/-- `max_by`: of several greatest the last. -/
def newerRelease (a b : Release) : Release := if cmpVersions a.tagName b.tagName = .gt then a else b

def pickNewest (releases : List Release) : Option Release :=
  match releases.filter (!·.draft) with
  | [] => none
  | r :: rs => some (rs.foldl newerRelease r)

def fetchRelease (out : Outcomes) (owner repo : String) (token tag : Option String)
    (allowPrerelease : Bool) : Update Release := do
  let base := s!"https://api.github.com/repos/{owner}/{repo}/releases"
  match tag with
  | some tag => getJson s!"{base}/tags/{tag}" token out.release
  | none =>
    if allowPrerelease then
      match pickNewest (← getJson s!"{base}?per_page=30" token out.releases) with
      | some rel => return rel
      | none => throw "no published releases found"
    else getJson s!"{base}/latest" token out.release

/-! ### Download, verification, installation -/

/-- The first route of `download_asset`: whether it succeeds. -/
def downloadPublic (out : Outcomes) (asset : Asset) (dest : String) : Update Bool :=
  if asset.browserDownloadUrl = "" then return false
  else
    tryCatch (do streamToFile asset.browserDownloadUrl none dest out.publicTarball; return true)
      fun _ => return false

def downloadAsset (out : Outcomes) (asset : Asset) (token : Option String) (dest : String) :
    Update Unit := do
  if ← downloadPublic out asset dest then return
  match token with
  | some t =>
    if asset.url = "" then throw s!"could not download asset {asset.name}"
    else streamToFile asset.url (some t) dest out.apiTarball
  | none => throw s!"could not download asset {asset.name}"

/-- The text that `fetch_sha256` parses. -/
def fetchSumText (out : Outcomes) (asset : Asset) (token : Option String) : Update String :=
  if asset.browserDownloadUrl = "" then getText asset.url token out.apiSum
  else
    tryCatch (getText asset.browserDownloadUrl none out.publicSum)
      fun _ => getText asset.url token out.apiSum

def fetchSha256 (out : Outcomes) (asset : Asset) (token : Option String) : Update String := do
  match parseSha256 (← fetchSumText out asset token) with
  | some sum => return sum
  | none => throw s!"could not parse checksum from {asset.name}"

def sha256File (crates : Crates) (out : Outcomes) (path : String) : Update String := do
  ofExcept out.hashed
  return hexDigest (crates.sha256 (← readFile path))

/-- The loop of `extract_binary` over the entries. -/
def extractEntry (out : Outcomes) (member dest : String) : List (Except String TarEntry) → Update Unit
  | [] => throw s!"archive did not contain a `{member}` entry"
  | .error e :: _ => throw e
  | .ok entry :: rest =>
    if fileName entry.path = some member then do
      ofExcept out.binCreated
      copyTo dest entry.data out.binCopied
    else extractEntry out member dest rest

def extractBinary (crates : Crates) (out : Outcomes) (tarball member dest : String) : Update Unit := do
  ofExcept out.opened
  extractEntry out member dest (crates.entries (← readFile tarball))

def selfReplace (out : Outcomes) (exe newBin : String) : Update Unit := do
  ofExcept out.selfReplaced
  let bytes ← readFile newBin
  modify fun host =>
    { host with files := Function.update host.files exe (some bytes), replaced := some bytes }

def postUpgrade (out : Outcomes) : Update Unit :=
  modify fun host => { host with upgraded := out.cfgExists }

/-- The checksum is compared where the release has one. Otherwise `run` warns and goes on. -/
def verifyTarball (crates : Crates) (out : Outcomes) (token : Option String) (wantAsset tmpTar : String) :
    Option Asset → Update Unit
  | some sha => do
    let want ← fetchSha256 out sha token
    let got ← sha256File crates out tmpTar
    if eqIgnoreAsciiCase want got then return
    else throw s!"checksum mismatch for {wantAsset}: expected {want}, got {got}"
  | none => return

/-- What `run` does under its `TempCleanup`. -/
def installRelease (crates : Crates) (out : Outcomes) (noRestart : Bool) (token : Option String)
    (exe tmpTar newBin : String) (tarAsset : Asset) (shaAsset : Option Asset) : Update Unit := do
  downloadAsset out tarAsset token tmpTar
  verifyTarball crates out token tarAsset.name tmpTar shaAsset
  withContext s!"extracting vmfleet from {tmpTar}" (extractBinary crates out tmpTar "vmfleet" newBin)
  ofExcept out.executable
  withContext s!"replacing running binary at {exe}" (selfReplace out exe newBin)
  if noRestart then return
  postUpgrade out

/-- `run` of `selfupdate.rs`. -/
def selfUpdate (crates : Crates) (out : Outcomes) (opts : UpdateOpts) : Update Unit := do
  let some (owner, repo) := parseRepoUrl repositoryUrl
    | throw "could not determine GitHub repo from CARGO_PKG_REPOSITORY"
  let token := bestEffortToken out.envToken out.configToken
  let rel ← fetchRelease out owner repo token opts.tag opts.allowPrerelease
  let latest := trimV rel.tagName
  unless opts.tag.isSome || isNewer latest currentVersion do return
  if opts.check then return
  unless opts.yes || out.confirmed do return
  let wantAsset := assetName latest out.target
  let some tarAsset := rel.assets.find? (·.name == wantAsset)
    | throw s!"release {rel.tagName} has no asset `{wantAsset}` for target {out.target}"
  let shaAsset := rel.assets.find? (·.name == wantAsset ++ ".sha256")
  let exe ← withContext "resolving current executable path" (ofExcept out.exe)
  let tmpTar := besides exe s!".vmfleet-update-{latest}.tar.gz"
  let newBin := besides exe s!".vmfleet-update-{latest}.bin"
  withTempCleanup [tmpTar, newBin]
    (installRelease crates out opts.noRestart token exe tmpTar newBin tarAsset shaAsset)

end VmFleet
