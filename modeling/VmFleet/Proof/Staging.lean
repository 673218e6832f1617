import VmFleet.Library.Procedure
import VmFleet.Proof.SelfUpdate

/-!
# What a self-update leaves in its directory

Four names are written to beside the executable, and the guard removes all four at the end. So nothing is
left, and the executable is as it was unless it has been replaced, if it has none of these names itself.
-/

namespace VmFleet

open Procedure

/-! ### The staged files -/

/-- The paths that an update to this version stages files at. -/
def stagedPaths (exe latest : String) : List String :=
  let staged := [besides exe s!".vmfleet-update-{latest}.tar.gz", besides exe s!".vmfleet-update-{latest}.bin"]
  staged ++ staged.map (withExtension · "part")

/-- Outside of `temps` a file is as it was, or it is the executable and has been replaced. -/
def Apart (exe : String) (temps : List String) (files : String → Option Bytes) (host : Host) : Prop :=
  ∀ path ∉ temps, host.files path = files path ∨
    (path = exe ∧ host.replaced.isSome = true ∧ host.files path = host.replaced)

section

variable {α : Type} {crates : Crates} {out : Outcomes} {opts : UpdateOpts} {token : Option String}
variable {exe : String} {temps : List String} {files : String → Option Bytes}

/-- What is written to `temps` is of no matter to. -/
def OffTemps (temps : List String) (P : Host → Prop) : Prop :=
  ∀ path ∈ temps, ∀ host v, P host → P { host with files := Function.update host.files path v }

theorem offWire_apart : OffWire (Apart exe temps files) := fun _ _ h => h

theorem offTemps_apart : OffTemps temps (Apart exe temps files) := by
  intro path hpath host v h other hother
  have hne : other ≠ path := by
    rintro rfl
    exact hother hpath
  show Function.update host.files path v other = files other ∨
    (other = exe ∧ host.replaced.isSome = true ∧ Function.update host.files path v other = host.replaced)
  rw [Function.update_of_ne hne]
  exact h other hother

variable {P : Host → Prop}

theorem preserves_sendGet (hP : OffWire P) (url accept : String) (replies : Nat → Reply α) :
    Preserves P (sendGet url token accept replies) :=
  (sendGet_spec hP url accept replies).mono_post (fun _ _ h => h.2) fun _ h => h

theorem preserves_getJson (hP : OffWire P) (url : String) (replies : Nat → Reply (Except String α)) :
    Preserves P (getJson url token replies) :=
  (preserves_sendGet hP url _ replies).bind fun _ => preserves_ofExcept _

theorem preserves_withContext {x : Update α} (message : String) (hx : Preserves P x) :
    Preserves P (withContext message x) := hx.tryCatch fun _ => preserves_throw _

theorem preserves_readFile (path : String) : Preserves P (readFile path) :=
  (readFile_spec path).mono_post (fun _ _ h => h.2) fun _ h => h

theorem preserves_copyTo (hP : OffTemps temps P) {path : String} (hpath : path ∈ temps) (bytes : Bytes)
    (outcome : CopyOutcome) : Preserves P (copyTo path bytes outcome) := by
  have hwrite : ∀ written, Preserves P (writeFile path written) := fun written =>
    preserves_modify fun host h => hP path hpath host _ h
  cases outcome with
  | ok u => exact hwrite bytes
  | error failure => exact (hwrite _).bind fun _ => preserves_throw _

theorem preserves_renameFile (hP : OffTemps temps P) {src dest : String} (hsrc : src ∈ temps)
    (hdest : dest ∈ temps) : Preserves P (renameFile src dest) := by
  refine (preserves_readFile src).bind fun bytes => preserves_modify fun host h => ?_
  exact hP dest hdest { host with files := Function.update host.files src none } _
    (hP src hsrc host _ h)

theorem preserves_streamToFile (hwire : OffWire P) (hP : OffTemps temps P) (url : String) {dest : String}
    (transfer : Transfer) (hdest : dest ∈ temps) (hpart : withExtension dest "part" ∈ temps) :
    Preserves P (streamToFile url token dest transfer) := by
  refine (preserves_sendGet hwire url _ _).bind fun body => ?_
  refine (preserves_withContext _ (preserves_ofExcept _)).bind fun _ => ?_
  refine (preserves_copyTo hP hpart body _).bind fun _ => (preserves_ofExcept _).bind fun _ => ?_
  exact preserves_renameFile hP hpart hdest

theorem preserves_downloadAsset (hwire : OffWire P) (hP : OffTemps temps P) (asset : Asset)
    {dest : String} (hdest : dest ∈ temps) (hpart : withExtension dest "part" ∈ temps) :
    Preserves P (downloadAsset out asset token dest) := by
  have hpublic : Preserves P (downloadPublic out asset dest) := by
    refine (preserves_pure false).ite (Preserves.tryCatch ?_ fun _ => preserves_pure false)
    exact (preserves_streamToFile hwire hP _ _ hdest hpart).bind fun _ => preserves_pure true
  refine hpublic.bind fun done => (preserves_pure _).ite ?_
  split
  · exact (preserves_throw _).ite (preserves_streamToFile hwire hP _ _ hdest hpart)
  · exact preserves_throw _

theorem preserves_sha256File (path : String) : Preserves P (sha256File crates out path) :=
  (preserves_ofExcept _).bind fun _ => (preserves_readFile path).bind fun _ => preserves_pure _

theorem preserves_verifyTarball (hP : OffWire P) (wantAsset tmpTar : String) (shaAsset : Option Asset) :
    Preserves P (verifyTarball crates out token wantAsset tmpTar shaAsset) := by
  cases shaAsset with
  | none => exact preserves_pure _
  | some sha =>
      have hsum : Preserves P (fetchSha256 out sha token) :=
        (fetchSha256_spec hP sha).mono_post (fun _ _ h => h.2) fun _ h => h
      refine hsum.bind fun _ => (preserves_sha256File _).bind fun _ => ?_
      exact (preserves_pure _).ite (preserves_throw _)

theorem preserves_extractBinary (hP : OffTemps temps P) (tarball member : String) {dest : String}
    (hdest : dest ∈ temps) : Preserves P (extractBinary crates out tarball member dest) := by
  refine (preserves_ofExcept _).bind fun _ => (preserves_readFile tarball).bind fun bytes => ?_
  induction crates.entries bytes with
  | nil => exact preserves_throw _
  | cons item rest ih =>
      cases item with
      | error e => exact preserves_throw e
      | ok entry =>
          rw [extractEntry]
          exact Preserves.ite ((preserves_ofExcept _).bind fun _ => preserves_copyTo hP hdest _ _) ih

theorem preserves_selfReplace (newBin : String) :
    Preserves (Apart exe temps files) (selfReplace out exe newBin) := by
  refine (preserves_ofExcept _).bind fun _ => (preserves_readFile newBin).bind fun bytes => ?_
  refine preserves_modify fun host h path hpath => ?_
  show Function.update host.files exe (some bytes) path = _ ∨ (_ ∧ _ ∧
    Function.update host.files exe (some bytes) path = some bytes)
  by_cases hexe : path = exe
  · rw [hexe, Function.update_self]
    exact .inr ⟨rfl, rfl, rfl⟩
  · rw [Function.update_of_ne hexe]
    exact .inl ((h path hpath).resolve_right fun hreplaced => hexe hreplaced.1)

/-! ### The whole update -/

theorem preserves_installRelease (noRestart : Bool) (latest : String) (tar : Asset)
    (shaAsset : Option Asset) : Preserves (Apart exe (stagedPaths exe latest) files)
      (installRelease crates out noRestart token exe (besides exe s!".vmfleet-update-{latest}.tar.gz")
        (besides exe s!".vmfleet-update-{latest}.bin") tar shaAsset) := by
  have htemps : OffTemps (stagedPaths exe latest) (Apart exe (stagedPaths exe latest) files) :=
    offTemps_apart
  have hdownload : Preserves (Apart exe (stagedPaths exe latest) files)
      (downloadAsset out tar token (besides exe s!".vmfleet-update-{latest}.tar.gz")) :=
    preserves_downloadAsset offWire_apart htemps tar (by simp [stagedPaths]) (by simp [stagedPaths])
  have hextract : Preserves (Apart exe (stagedPaths exe latest) files)
      (extractBinary crates out (besides exe s!".vmfleet-update-{latest}.tar.gz") "vmfleet"
        (besides exe s!".vmfleet-update-{latest}.bin")) :=
    preserves_extractBinary htemps _ _ (by simp [stagedPaths])
  refine hdownload.bind fun _ => (preserves_verifyTarball offWire_apart _ _ shaAsset).bind fun _ => ?_
  refine (preserves_withContext _ hextract).bind fun _ => (preserves_ofExcept _).bind fun _ => ?_
  refine (preserves_withContext _ (preserves_selfReplace _)).bind fun _ => ?_
  exact (preserves_pure _).ite (preserves_modify fun _ h => h)

/-- The executable is as it was, unless it has been replaced, and no other file is new or changed. -/
structure CleanExit (exe : String) (files : String → Option Bytes) (host : Host) : Prop where
  executable : host.replaced = none → host.files exe = files exe
  nothingLeft : ∀ path, host.files path = none ∨ host.files path = files path ∨
    (path = exe ∧ host.replaced.isSome = true ∧ host.files path = host.replaced)

theorem Apart.cleanExit {latest : String} {host : Host} (h : Apart exe (stagedPaths exe latest) files host)
    (hexe : exe ∉ stagedPaths exe latest) : CleanExit exe files (host.dropTemps
      [besides exe s!".vmfleet-update-{latest}.tar.gz", besides exe s!".vmfleet-update-{latest}.bin"]) := by
  have hdrop : ∀ path, (host.dropTemps [besides exe s!".vmfleet-update-{latest}.tar.gz",
      besides exe s!".vmfleet-update-{latest}.bin"]).files path =
        if path ∈ stagedPaths exe latest then none else host.files path := by
    intro path
    rw [stagedPaths]
    simp only [Host.dropTemps, List.mem_append]
  refine ⟨fun hkept => ?_, fun path => ?_⟩
  · rw [hdrop, if_neg hexe]
    refine (h exe hexe).resolve_right fun hreplaced => ?_
    rw [show host.replaced = none from hkept] at hreplaced
    cases hreplaced.2.1
  · rw [hdrop]
    by_cases hpath : path ∈ stagedPaths exe latest
    · rw [if_pos hpath]
      exact .inl rfl
    · rw [if_neg hpath]
      exact .inr (h path hpath)

theorem cleanExit_of_untouched {host : Host} (h : host.files = files ∧ host.Kept) :
    CleanExit exe files host :=
  ⟨fun _ => congrFun h.1 exe, fun path => .inr (.inl (congrFun h.1 path))⟩

theorem preserves_fetchRelease (hP : OffWire P) (owner repo : String) (tag : Option String)
    (allowPrerelease : Bool) :
    Preserves P (fetchRelease out owner repo token tag allowPrerelease) := by
  unfold fetchRelease
  cases tag with
  | some tag => exact preserves_getJson hP _ _
  | none =>
      refine Preserves.ite ((preserves_getJson hP _ _).bind fun list => ?_) (preserves_getJson hP _ _)
      split
      · exact preserves_pure _
      · exact preserves_throw _

theorem selfUpdate_cleanExit (crates : Crates) (opts : UpdateOpts) (files : String → Option Bytes)
    (hout : out.exe = .ok exe) (hexe : ∀ tag, exe ∉ stagedPaths exe (trimV tag)) :
    Triple (fun host => host.files = files ∧ host.Kept) (selfUpdate crates out opts)
      (fun _ => CleanExit exe files) (CleanExit exe files) := by
  have hoffWire : OffWire fun host => host.files = files ∧ host.Kept := fun _ _ h => h
  have hstops : Triple (fun host => host.files = files ∧ host.Kept) (pure () : Update Unit)
      (fun _ => CleanExit exe files) (CleanExit exe files) :=
    triple_pure fun _ h => cleanExit_of_untouched h
  have hinstalls : ∀ latest tar shaAsset, exe ∉ stagedPaths exe latest →
      Triple (fun host => host.files = files ∧ host.Kept)
        (withTempCleanup
          [besides exe s!".vmfleet-update-{latest}.tar.gz", besides exe s!".vmfleet-update-{latest}.bin"]
          (installRelease crates out opts.noRestart (bestEffortToken out.envToken out.configToken) exe
            (besides exe s!".vmfleet-update-{latest}.tar.gz") (besides exe s!".vmfleet-update-{latest}.bin")
            tar shaAsset))
        (fun _ => CleanExit exe files) (CleanExit exe files) := by
    intro latest tar shaAsset hapart
    refine (withTempCleanup_drops (preserves_installRelease _ _ _ _) (fun _ _ h => h.cleanExit hapart)
      fun _ h => h.cleanExit hapart).mono (fun host h path _ => ?_) (fun _ _ h => h) fun _ h => h
    exact .inl (congrFun h.1 path)
  unfold selfUpdate
  rw [parseRepoUrl_repositoryUrl]
  dsimp only
  refine triple_bind ((preserves_fetchRelease hoffWire _ _ _ _).mono_fail
    fun _ h => cleanExit_of_untouched h) fun rel => ?_
  refine triple_ite (fun _ => ?_) fun _ => hstops
  refine triple_ite (fun _ => hstops) fun _ => ?_
  refine triple_ite (fun _ => ?_) fun _ => hstops
  split
  · refine triple_bind ((withContext_spec _ (triple_ofExcept_eq _)).mono_fail
      fun _ h => cleanExit_of_untouched h.2) fun path => triple_of_fact fun hpath => ?_
    obtain rfl : path = exe := Except.ok.inj (hpath.symm.trans hout)
    exact hinstalls _ _ _ (hexe _)
  · exact triple_throw fun _ h => cleanExit_of_untouched h

/-- A release with a tarball for this target that cannot be downloaded. -/
def withoutUrls (exe tag : String) : Outcomes where
  target := "x86_64-unknown-linux-musl"
  envToken := none
  configToken := none
  release _ := .response (.ok ⟨tag, false, [⟨assetName (trimV tag) "x86_64-unknown-linux-musl", "", ""⟩]⟩)
  releases _ := .status 404
  confirmed := true
  exe := .ok exe
  publicTarball := ⟨fun _ => .status 404, .ok (), .ok (), .ok ()⟩
  apiTarball := ⟨fun _ => .status 404, .ok (), .ok (), .ok ()⟩
  publicSum _ := .status 404
  apiSum _ := .status 404
  hashed := .ok ()
  opened := .ok ()
  binCreated := .ok ()
  binCopied := .ok ()
  executable := .ok ()
  selfReplaced := .ok ()
  cfgExists := false

theorem installRelease_fails (crates : Crates) (out : Outcomes) (noRestart : Bool)
    (exe tmpTar newBin : String) {tar : Asset} (shaAsset : Option Asset)
    (hurl : tar.browserDownloadUrl = "") :
    Triple Host.Kept (installRelease crates out noRestart none exe tmpTar newBin tar shaAsset)
      (fun _ _ => False) Host.Kept := by
  refine triple_bind (downloadAsset_spec tar tmpTar) fun _ => triple_of_exists fun tarball =>
    triple_of_fact fun hdownloaded => ?_
  rcases hdownloaded with ⟨hpublic, -⟩ | ⟨-, htoken, -⟩
  · exact absurd hurl hpublic
  · exact absurd rfl htoken

/-- An executable that is staged at itself is removed by the guard. -/
theorem withoutUrls_removes (crates : Crates) {tag : String} (hexe : exe ∈ stagedPaths exe (trimV tag)) :
    Triple Host.Kept (selfUpdate crates (withoutUrls exe tag) { tag := some tag })
      (fun _ host => host.Kept ∧ host.files exe = none) (fun host => host.Kept ∧ host.files exe = none) := by
  have hfind : ([⟨assetName (trimV tag) "x86_64-unknown-linux-musl", "", ""⟩] : List Asset).find?
      (·.name == assetName (trimV tag) "x86_64-unknown-linux-musl") =
        some ⟨assetName (trimV tag) "x86_64-unknown-linux-musl", "", ""⟩ :=
    List.find?_cons_of_pos (beq_self_eq_true _)
  unfold selfUpdate
  rw [parseRepoUrl_repositoryUrl]
  dsimp only
  refine triple_bind (Q := fun rel host => rel = ⟨tag, false,
    [⟨assetName (trimV tag) "x86_64-unknown-linux-musl", "", ""⟩]⟩ ∧ host.Kept)
    (fun host h => ⟨rfl, h⟩) fun rel => triple_of_fact fun hrel => ?_
  subst hrel
  refine triple_ite (fun _ => ?_) fun hnot => absurd rfl hnot
  refine triple_ite (fun hcheck => absurd hcheck Bool.false_ne_true) fun _ => ?_
  refine triple_ite (fun _ => ?_) fun hnot => absurd rfl hnot
  split
  · next tar htar =>
      have hurl : tar.browserDownloadUrl = "" := by rw [← Option.some.inj (hfind.symm.trans htar)]
      refine triple_bind (Q := fun path host => path = exe ∧ host.Kept) (fun host h => ⟨rfl, h⟩)
        fun path host h => ?_
      rw [h.1]
      exact withTempCleanup_drops (installRelease_fails crates _ _ _ _ _ _ hurl) (fun _ _ h => h.elim)
        (fun host h => ⟨h, if_pos (List.mem_append.mp hexe)⟩) host h.2
  · next hnone => exact (hnone _ hfind).elim

/-- **When a self-update that replaces nothing changes nothing.** -/
theorem selfUpdate_cleanExit_iff (exe : String) :
    (∀ crates out opts files, out.exe = .ok exe →
        CleanExit exe files ((selfUpdate crates out opts).from files).2) ↔
      ∀ tag, exe ∉ stagedPaths exe (trimV tag) := by
  constructor
  · intro h tag hexe
    have hclean := h sampleCrates (withoutUrls exe tag) { tag := some tag } (fun _ => some []) rfl
    have hgone := (withoutUrls_removes sampleCrates hexe).final (s := { files := fun _ => some [] }) rfl
    have hsame := hclean.executable hgone.1
    rw [Update.from, hgone.2] at hsame
    cases hsame
  · intro hexe crates out opts files hout
    exact (selfUpdate_cleanExit crates opts files hout hexe).final ⟨rfl, rfl⟩

/-- What an update to this very version, killed, has left in the directory. -/
def leftover : String := "/usr/local/bin/.vmfleet-update-0.1.0.bin"

def leftoverFiles (path : String) : Option Bytes := if path = leftover then some [127, 69, 76, 70] else none

/-- The leftover is run to install that version again, and the download fails. -/
theorem leftover_removed :
    ((selfUpdate sampleCrates (withoutUrls leftover "v0.1.0") { tag := some "v0.1.0" }).from
        leftoverFiles).1 =
      .error "could not download asset vmfleet-0.1.0-x86_64-unknown-linux-musl.tar.gz" ∧
    ¬ CleanExit leftover leftoverFiles
      ((selfUpdate sampleCrates (withoutUrls leftover "v0.1.0") { tag := some "v0.1.0" }).from
        leftoverFiles).2 := by
  refine ⟨by decide +kernel, fun h => ?_⟩
  have hsame := h.executable (by decide +kernel)
  revert hsame
  decide +kernel

end

end VmFleet
