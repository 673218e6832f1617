import VmFleet.Proof.Packaging
import VmFleet.Proof.UpdateToken

/-!
# From the release workflow to the running binary

`release_installs` says of an update to a release that `release.yml` has packed what it installs, and when:
nothing but a failing step can keep it from the binary that was built for its target. The specifications
here are exact, each says of a step that it returns if and only if some of the outcomes are good.
-/

namespace VmFleet

open Procedure

variable {α : Type} {crates : Crates} {out : Outcomes} {opts : UpdateOpts} {token : Option String}

/-! ### Requests -/

/-- What has been sent before does not matter to what a request gives. -/
theorem yields_of_gives (host : String → Option String) (q : Prop → Prop) {value : Option α} {x : Update α}
    (h : ∀ p, Gives host p (q p) value x) : Yields value x :=
  fun s _ => Triple.mono_post (h (∃ r ∈ s.requests, r.authorized = true ∧ ¬ Stays host r.url))
    (fun _ _ hs => hs.1) (fun _ hs => hs.1) s Iff.rfl

theorem returnsIff_of_succeeds (host : String → Option String) (q : Prop → Prop) {fact : Prop}
    {x : Update Unit} (h : ∀ p, Succeeds host p (q p) fact x) : ReturnsIff fact x :=
  fun s _ => Triple.mono_post (h (∃ r ∈ s.requests, r.authorized = true ∧ ¬ Stays host r.url))
    (fun _ _ hs => hs.1) (fun _ hs => hs.1) s Iff.rfl

theorem fetchRelease_yields (owner repo : String) :
    Yields (fetched out opts) (fetchRelease out owner repo token opts.tag opts.allowPrerelease) :=
  yields_of_gives some id fun _ => fetchRelease_gives rfl owner repo

theorem getText_yields (url : String) (replies : Nat → Reply (Except String String)) :
    Yields (readAnswer replies) (getText url token replies) :=
  yields_of_gives some (fun p => p ∨ LeaksTo some token url) fun _ => getText_gives url replies

theorem downloadAsset_returnsIff (tar : Asset) (dest : String) :
    ReturnsIff (HasTarball out token tar) (downloadAsset out tar token dest) :=
  returnsIff_of_succeeds some (fun p => p ∨ (AsksTarball out token tar ∧ ¬ Stays some tar.url)) fun _ =>
    downloadAsset_succeeds tar dest

/-- The text of a checksum, on either route. -/
def readSum (out : Outcomes) (sha : Asset) : Option String :=
  (if sha.browserDownloadUrl = "" then none else readAnswer out.publicSum) <|> readAnswer out.apiSum

theorem fetchSumText_yields (sha : Asset) : Yields (readSum out sha) (fetchSumText out sha token) := by
  rw [fetchSumText, readSum]
  by_cases hurl : sha.browserDownloadUrl = ""
  · rw [if_pos hurl, if_pos hurl]
    exact getText_yields _ _
  · rw [if_neg hurl, if_neg hurl]
    apply triple_tryCatch (R := fun _ => readAnswer out.publicSum = none)
    · apply (getText_yields _ _).mono_post
      · intro text _ hread
        rw [hread]
        rfl
      · exact fun _ hread => hread
    · intro e s hread
      rw [hread]
      exact getText_yields _ _ s trivial

theorem preserves_fetchSumText {P : Host → Prop} (hP : OffWire P) (sha : Asset) :
    Preserves P (fetchSumText out sha token) := by
  have htext : ∀ url token replies, Preserves P (getText url token replies) := fun _ _ _ =>
    (getText_spec hP _ _ _).mono_post (fun _ _ h => h.2) fun _ h => h
  exact (htext _ _ _).ite ((htext _ _ _).tryCatch fun _ => htext _ _ _)

/-! ### Files -/

theorem readFile_returns {P : Host → Prop} (path : String) (bytes : Bytes) :
    Triple (fun host => host.files path = some bytes ∧ P host) (readFile path)
      (fun read host => read = bytes ∧ host.files path = some bytes ∧ P host) fun _ => False := by
  apply triple_bind_get
  intro read hread
  rw [hread.1]
  exact triple_pure fun _ h => ⟨rfl, h⟩

theorem copyTo_exact (path : String) (bytes : Bytes) (outcome : CopyOutcome) :
    Exact (outcome.isOk = true) Host.Kept (copyTo path bytes outcome)
      (fun _ host => host.files path = some bytes ∧ host.Kept) Host.Kept := by
  cases outcome with
  | ok u => exact triple_modify fun _ h => ⟨rfl, Function.update_self .., h⟩
  | error failure =>
      refine triple_bind ((writeFile_spec path _).mono_fail fun _ h => ⟨Bool.false_ne_true, h⟩) fun _ => ?_
      exact triple_throw fun _ h => ⟨Bool.false_ne_true, h.2⟩

theorem sha256File_exact (path : String) (tarball : Bytes) :
    Exact (out.hashed.isOk = true) (fun host => host.files path = some tarball ∧ host.Kept)
      (sha256File crates out path)
      (fun got host => got = hexDigest (crates.sha256 tarball) ∧ host.files path = some tarball ∧ host.Kept)
      Host.Kept := by
  apply ((exact_ofExcept out.hashed).weaken (fun _ _ h => h) fun _ h => h.2).bind_sure
  refine fun _ => triple_bind (readFile_returns path tarball) fun read => ?_
  exact triple_pure fun _ h => ⟨by rw [h.1], h.2⟩

theorem extractEntry_exact (member dest : String) {entries : List TarEntry} {entry : TarEntry}
    (hentry : memberEntry member (entries.map .ok) = some entry) :
    Exact (out.binCreated.isOk = true ∧ out.binCopied.isOk = true) Host.Kept
      (extractEntry out member dest (entries.map .ok))
      (fun _ host => host.files dest = some entry.data ∧ host.Kept) Host.Kept := by
  rw [memberEntry, filterMap_ok] at hentry
  induction entries with
  | nil => cases hentry
  | cons first rest ih =>
      rw [List.map_cons, extractEntry]
      by_cases hname : fileName first.path = some member
      · simp only [List.find?_cons, hname, decide_true] at hentry
        obtain rfl := Option.some.inj hentry
        rw [if_pos hname]
        exact (exact_ofExcept out.binCreated).bind fun _ => copyTo_exact dest _ _
      · simp only [List.find?_cons, hname, decide_false] at hentry
        rw [if_neg hname]
        exact ih hentry

theorem extractBinary_exact (tarPath member dest : String) {tarball : Bytes} {entries : List TarEntry}
    {entry : TarEntry} (hunpack : crates.entries tarball = entries.map .ok)
    (hentry : memberEntry member (entries.map .ok) = some entry) :
    Exact (out.opened.isOk = true ∧ out.binCreated.isOk = true ∧ out.binCopied.isOk = true)
      (fun host => host.files tarPath = some tarball ∧ host.Kept)
      (extractBinary crates out tarPath member dest)
      (fun _ host => host.files dest = some entry.data ∧ host.Kept) Host.Kept := by
  apply ((exact_ofExcept out.opened).weaken (fun _ _ h => h) fun _ h => h.2).bind
  refine fun _ => exact_sure_bind (readFile_returns tarPath tarball) fun read => ?_
  apply triple_of_fact
  rintro rfl
  rw [hunpack]
  exact (extractEntry_exact member dest hentry).mono (fun _ h => h.2) (fun _ _ h => h) fun _ h => h

theorem selfReplace_exact (exe newBin : String) (bytes : Bytes) :
    Exact (out.selfReplaced.isOk = true) (fun host => host.files newBin = some bytes ∧ host.Kept)
      (selfReplace out exe newBin) (fun _ host => host.replaced = some bytes) Host.Kept := by
  apply ((exact_ofExcept out.selfReplaced).weaken (fun _ _ h => h) fun _ h => h.2).bind_sure
  refine fun _ => triple_bind (readFile_returns newBin bytes) fun read => ?_
  exact triple_modify fun _ h => by rw [h.1]

/-! ### Checksums -/

theorem fetchSha256_exact {P : Host → Prop} (hP : OffWire P) (sha : Asset) {want : String}
    (hsum : ∀ text, readSum out sha = some text → parseSha256 text = some want) :
    Exact ((readSum out sha).isSome = true) P (fetchSha256 out sha token)
      (fun sum host => sum = want ∧ P host) P := by
  refine triple_bind (((fetchSumText_yields sha).and (preserves_fetchSumText hP sha)).mono_fail
    fun host h => ⟨?_, h.2⟩) fun text => triple_of_fact fun htext => ?_
  · rw [h.1]
    exact Bool.false_ne_true
  · rw [hsum text htext, htext]
    exact triple_pure fun _ h => ⟨rfl, rfl, h⟩

theorem verifyTarball_exact (wantAsset tmpTar : String) {tarball : Bytes} (sha : Asset)
    (hsum : ∀ text, readSum out sha = some text →
      parseSha256 text = some (hexDigest (crates.sha256 tarball))) :
    Exact ((readSum out sha).isSome = true ∧ out.hashed.isOk = true)
      (fun host => host.files tmpTar = some tarball ∧ host.Kept)
      (verifyTarball crates out token wantAsset tmpTar (some sha))
      (fun _ host => host.files tmpTar = some tarball ∧ host.Kept) Host.Kept := by
  apply ((fetchSha256_exact (offWire_file tmpTar tarball) sha hsum).weaken (fun _ _ h => h)
    fun _ h => h.2).bind
  intro want
  apply triple_of_fact
  rintro rfl
  apply (sha256File_exact tmpTar tarball).bind_sure
  intro got
  apply triple_of_fact
  rintro rfl
  rw [eqIgnoreAsciiCase, beq_self_eq_true, if_pos rfl]
  exact triple_pure fun _ h => h

/-! ### The whole update -/

/-- Nothing that an update does with these assets fails. -/
structure Unhindered (out : Outcomes) (token : Option String) (tar sha : Asset) : Prop where
  tarball : HasTarball out token tar
  sum : (readSum out sha).isSome = true
  hashed : out.hashed.isOk = true
  opened : out.opened.isOk = true
  created : out.binCreated.isOk = true
  copied : out.binCopied.isOk = true
  executable : out.executable.isOk = true
  replaced : out.selfReplaced.isOk = true

theorem unhindered_iff {tar sha : Asset} :
    HasTarball out token tar ∧ ((readSum out sha).isSome = true ∧ out.hashed.isOk = true) ∧
      (out.opened.isOk = true ∧ out.binCreated.isOk = true ∧ out.binCopied.isOk = true) ∧
      out.executable.isOk = true ∧ out.selfReplaced.isOk = true ↔ Unhindered out token tar sha :=
  ⟨fun ⟨htar, ⟨hsum, hhashed⟩, ⟨hopened, hcreated, hcopied⟩, hexecutable, hreplaced⟩ =>
    ⟨htar, hsum, hhashed, hopened, hcreated, hcopied, hexecutable, hreplaced⟩,
    fun h => ⟨h.tarball, ⟨h.sum, h.hashed⟩, ⟨h.opened, h.created, h.copied⟩, h.executable, h.replaced⟩⟩

section

variable {tar sha : Asset} {tarball : Bytes} {entries : List TarEntry} {entry : TarEntry}

theorem installRelease_exact (noRestart : Bool) (exe tmpTar newBin : String)
    (hbody : ∀ body, Downloaded out token tar body → body = tarball)
    (hsum : ∀ text, readSum out sha = some text →
      parseSha256 text = some (hexDigest (crates.sha256 tarball)))
    (hunpack : crates.entries tarball = entries.map .ok)
    (hentry : memberEntry "vmfleet" (entries.map .ok) = some entry) :
    Exact (Unhindered out token tar sha) Host.Kept
      (installRelease crates out noRestart token exe tmpTar newBin tar (some sha))
      (fun _ host => host.replaced = some entry.data) Host.Kept := by
  have hdownload : Exact (HasTarball out token tar) Host.Kept (downloadAsset out tar token tmpTar)
      (fun _ host => host.files tmpTar = some tarball ∧ host.Kept) Host.Kept := by
    apply ((downloadAsset_returnsIff tar tmpTar).exact (downloadAsset_spec tar tmpTar)).weaken
    · rintro _ host ⟨body, hdownloaded, hfile⟩
      rw [hbody body hdownloaded] at hfile
      exact hfile
    · exact fun _ h => h
  have hends : Triple (fun host => host.replaced = some entry.data)
      (if noRestart = true then pure () else postUpgrade out)
      (fun _ host => host.replaced = some entry.data) fun _ => False :=
    triple_ite (fun _ => triple_pure fun _ h => h) fun _ => triple_modify fun _ h => h
  apply Exact.congr _ unhindered_iff
  refine hdownload.bind fun _ => (verifyTarball_exact _ tmpTar sha hsum).bind fun _ => ?_
  refine Exact.bind (withContext_spec _ (extractBinary_exact tmpTar "vmfleet" newBin hunpack hentry))
    fun _ => ?_
  apply ((exact_ofExcept out.executable).weaken (fun _ _ h => h) fun _ h => h.2).bind
  exact fun _ => Exact.bind_sure (withContext_spec _ (selfReplace_exact exe newBin entry.data)) fun _ => hends

/-- The update comes to the installation of these assets, and nothing fails. -/
def Installs (out : Outcomes) (opts : UpdateOpts) (rel : Release) (tar sha : Asset) : Prop :=
  Downloads out opts rel tar ∧ Unhindered out (updateToken out) tar sha

theorem selfUpdate_exact {rel : Release} (hfetched : fetched out opts = some rel)
    (htar : rel.assets.find? (·.name == assetName (trimV rel.tagName) out.target) = some tar)
    (hsha : sumFor out rel = some sha)
    (hbody : ∀ body, Downloaded out (updateToken out) tar body → body = tarball)
    (hsum : ∀ text, readSum out sha = some text →
      parseSha256 text = some (hexDigest (crates.sha256 tarball)))
    (hunpack : crates.entries tarball = entries.map .ok)
    (hentry : memberEntry "vmfleet" (entries.map .ok) = some entry) :
    Triple Host.Kept (selfUpdate crates out opts)
      (fun _ host => (Installs out opts rel tar sha ∧ host.replaced = some entry.data) ∨
        (¬ Installs out opts rel tar sha ∧ host.Kept))
      (fun host => ¬ Installs out opts rel tar sha ∧ host.Kept) := by
  have hstops : ¬ Installs out opts rel tar sha → Triple Host.Kept (pure () : Update Unit)
      (fun _ host => (Installs out opts rel tar sha ∧ host.replaced = some entry.data) ∨
        (¬ Installs out opts rel tar sha ∧ host.Kept))
      (fun host => ¬ Installs out opts rel tar sha ∧ host.Kept) :=
    fun hnot => triple_pure fun _ h => .inr ⟨hnot, h⟩
  unfold selfUpdate
  rw [parseRepoUrl_repositoryUrl]
  dsimp only
  refine triple_bind (((fetchRelease_yields _ _).and (preserves_fetchRelease offWire_kept _ _ _ _)).mono_fail
    fun host h => ?_) fun found => triple_of_fact fun hfound => ?_
  · rw [hfetched] at h
    cases h.1
  obtain rfl : rel = found := Option.some.inj (hfetched.symm.trans hfound)
  apply triple_ite
  · intro hwanted
    apply triple_ite
    · intro hcheck
      apply hstops
      rintro ⟨hdown, -⟩
      rw [hdown.checkOnly] at hcheck
      cases hcheck
    · intro hcheck
      apply triple_ite
      · intro hagreed
        rw [htar, show rel.assets.find? (·.name == assetName (trimV rel.tagName) out.target ++ ".sha256") =
          some sha from hsha]
        dsimp only
        refine triple_bind ((withContext_spec _ (triple_ofExcept_eq out.exe)).mono_fail fun host h =>
          ⟨?_, h.2⟩) fun exe => triple_of_fact fun hexe => ?_
        · rintro ⟨hdown, -⟩
          obtain ⟨exe, hexe⟩ := hdown.located
          rw [hexe] at h
          cases h.1
        have hdown : Downloads out opts rel tar :=
          ⟨hfetched, hwanted, Bool.eq_false_of_not_eq_true hcheck, hagreed, htar, exe, hexe⟩
        apply (withTempCleanup_spec (installRelease_exact _ exe _ _ hbody hsum hunpack hentry)
          (fun _ _ h => h) fun _ h => h).mono_post
        · exact fun _ host h => .inl ⟨⟨hdown, h.1⟩, h.2⟩
        · exact fun host h => ⟨fun hinstalls => h.1 hinstalls.2, h.2⟩
      · exact fun hnot => hstops fun hinstalls => hnot hinstalls.1.agreed
  · exact fun hnot => hstops fun hinstalls => hnot hinstalls.1.wanted

end

/-! ### A packed release -/

theorem exists_reply_of_readAnswer {replies : Nat → Reply (Except String α)} {value : α}
    (h : readAnswer replies = some value) : ∃ n, replies n = .response (.ok value) := by
  obtain ⟨body, hanswered, hbody⟩ := Option.bind_eq_some_iff.mp h
  obtain ⟨reply, hfind, hreply⟩ := Option.bind_eq_some_iff.mp hanswered
  obtain ⟨n, -, rfl⟩ := List.mem_map.mp (List.mem_of_find?_eq_some hfind)
  cases body with
  | error e => cases hbody
  | ok a =>
      obtain rfl : a = value := Option.some.inj hbody
      refine ⟨n, ?_⟩
      cases hn : replies n with
      | response body =>
          rw [hn] at hreply
          rw [Option.some.inj hreply]
      | status code =>
          rw [hn] at hreply
          cases hreply
      | failure e =>
          rw [hn] at hreply
          cases hreply

section

variable {packers : Packers} {run : ReleaseRun} {rel : Release} {job : BuildJob}

theorem Serves.downloaded (h : Serves packers run out) (hjob : job ∈ run.jobs)
    (htarget : job.target = out.target) {tar : Asset} {body : Bytes}
    (hbody : Downloaded out token tar body) : body = job.tarball packers run.version := by
  apply eq_tarball_of_mem_dist hjob
  rw [htarget]
  obtain ⟨-, n, hn⟩ | ⟨-, -, n, hn⟩ := hbody
  · exact h.tarball n body (.inl hn)
  · exact h.tarball n body (.inr hn)

theorem Serves.read (h : Serves packers run out) (hjob : job ∈ run.jobs)
    (htarget : job.target = out.target) {sha : Asset} {text : String} (htext : readSum out sha = some text) :
    text = job.sumLine packers run.version := by
  apply eq_sumLine_of_mem_dist hjob
  rw [htarget]
  have heither : readAnswer out.publicSum = some text ∨ readAnswer out.apiSum = some text := by
    rw [readSum] at htext
    by_cases hurl : sha.browserDownloadUrl = ""
    · rw [if_pos hurl] at htext
      exact .inr htext
    · rw [if_neg hurl] at htext
      cases hpublic : readAnswer out.publicSum with
      | none =>
          rw [hpublic] at htext
          exact .inr htext
      | some first =>
          rw [hpublic] at htext
          exact .inl htext
  obtain hread | hread := heither
  · obtain ⟨n, hn⟩ := exists_reply_of_readAnswer hread
    exact h.sum n text (.inl hn)
  · obtain ⟨n, hn⟩ := exists_reply_of_readAnswer hread
    exact h.sum n text (.inr hn)

/-- **A packed release is installed unless a step fails**, and then nothing is replaced. What is installed
is the binary of the job for this target. -/
theorem release_installs (hjob : job ∈ run.jobs) (htarget : job.target = out.target)
    (hsame : packers.sha256 = crates.sha256)
    (hdigest : (crates.sha256 (job.tarball packers run.version)).length = 32)
    (hunpack : crates.entries (job.tarball packers run.version) = (job.members run.version).map .ok)
    (hstaged : Staged packers run rel) (hserves : Serves packers run out)
    (hfetched : fetched out opts = some rel) (files : String → Option Bytes) :
    ∃ tar sha, rel.assets.find? (·.name == assetName (trimV rel.tagName) out.target) = some tar ∧
      sumFor out rel = some sha ∧
      (Installs out opts rel tar sha → ((selfUpdate crates out opts).from files).1.isOk = true ∧
        ((selfUpdate crates out opts).from files).2.replaced = some job.binary) ∧
      (¬ Installs out opts rel tar sha → ((selfUpdate crates out opts).from files).2.replaced = none) := by
  have hversion : trimV rel.tagName = run.version := by rw [hstaged.tagName, run.trimV_ref]
  obtain ⟨tar, htar⟩ := hstaged.exists_asset (mem_dist_iff.mpr ⟨job, hjob, .inl rfl⟩)
  obtain ⟨sha, hsha⟩ := hstaged.exists_asset (mem_dist_iff.mpr ⟨job, hjob, .inr rfl⟩)
  rw [htarget, ← hversion] at htar hsha
  have hsum : ∀ text, readSum out sha = some text →
      parseSha256 text = some (hexDigest (crates.sha256 (job.tarball packers run.version))) := by
    intro text htext
    rw [hserves.read hjob htarget htext, BuildJob.sumLine, hsame]
    exact parseSha256_sha256sumLine hdigest _
  have hends := selfUpdate_exact hfetched htar hsha (fun body => hserves.downloaded hjob htarget) hsum hunpack
    (memberEntry_members run hjob) { files := files } rfl
  refine ⟨tar, sha, htar, hsha, ?_⟩
  rw [Update.from]
  cases hrun : StateT.run (ExceptT.run (selfUpdate crates out opts)) { files := files } with
  | mk result host =>
      rw [hrun] at hends
      cases result with
      | ok u =>
          obtain ⟨hinstalls, hreplaced⟩ | ⟨hnot, hkept⟩ := hends
          · exact ⟨fun _ => ⟨rfl, hreplaced⟩, fun hnot => absurd hinstalls hnot⟩
          · exact ⟨fun hinstalls => absurd hinstalls hnot, fun _ => hkept⟩
      | error e => exact ⟨fun hinstalls => absurd hinstalls hends.1, fun _ => hends.2⟩

/-- A gzipped tarball of the files below. -/
def packedTarball : Bytes :=
  [31, 139, 8, 0, 0, 0, 0, 0, 2, 255, 237, 213, 65, 15, 193, 48, 24, 128, 225, 254, 148, 37, 206, 157, 110,
    186, 114, 21, 42, 145, 224, 128, 187, 72, 144, 136, 109, 18, 51, 220, 252, 117, 141, 56, 77, 50, 11,
    177, 3, 239, 115, 233, 14, 77, 122, 248, 246, 182, 167, 100, 19, 175, 215, 71, 169, 252, 208, 87, 242,
    210, 49, 11, 163, 101, 158, 238, 210, 253, 57, 149, 241, 54, 205, 47, 50, 201, 179, 184, 41, 62, 160,
    156, 118, 20, 221, 87, 167, 184, 62, 127, 7, 218, 40, 35, 188, 72, 212, 32, 207, 142, 203, 131, 59, 94,
    252, 167, 83, 197, 249, 79, 109, 183, 63, 182, 126, 178, 122, 115, 254, 70, 235, 146, 249, 135, 133,
    249, 27, 229, 126, 23, 79, 49, 255, 175, 107, 120, 2, 127, 172, 106, 255, 143, 125, 95, 186, 255, 117,
    177, 255, 160, 173, 232, 191, 14, 87, 59, 26, 80, 1, 253, 191, 234, 127, 52, 236, 217, 201, 204, 190,
    221, 127, 249, 251, 223, 42, 244, 31, 25, 119, 37, 208, 127, 13, 198, 195, 57, 17, 0, 0, 0, 0, 0, 0, 0,
    0, 0, 0, 63, 226, 6, 46, 204, 153, 16, 0, 40, 0, 0]

def muslJob : BuildJob where
  target := "x86_64-unknown-linux-musl"
  binary := [127, 69, 76, 70]
  listing := [("README.md", [35, 32]), ("vmfleet", [127, 69, 76, 70]), ("LICENSE", [77, 73, 84])]

def otherJob (target : String) : BuildJob where
  target := target
  binary := []
  listing := [("vmfleet", []), ("README.md", [35, 32]), ("LICENSE", [77, 73, 84])]

def taggedRun : ReleaseRun where
  ref := "v0.2.0"
  cargoVersion := "0.2.0"
  readme := [35, 32]
  license := [77, 73, 84]
  jobs := [otherJob "x86_64-unknown-linux-gnu", otherJob "aarch64-unknown-linux-gnu", muslJob,
    otherJob "aarch64-unknown-linux-musl"]
  tagged := by decide +kernel
  numbered := by decide +kernel
  verified := by decide +kernel
  matrix := by decide
  packed := by decide

def packedSha256 (bytes : Bytes) : Bytes :=
  if bytes = packedTarball then
    [106, 83, 133, 108, 254, 44, 133, 212, 163, 83, 192, 120, 0, 103, 198, 162, 187, 134, 4, 162, 86, 55, 125,
      36, 12, 43, 100, 255, 107, 151, 137, 247]
  else []

def taggedPackers : Packers where
  sha256 := packedSha256
  tar members :=
    if members.map (·.path) = (muslJob.members "0.2.0").map (·.path) then packedTarball else []

def taggedCrates : Crates where
  sha256 := packedSha256
  entries bytes := if bytes = packedTarball then (muslJob.members "0.2.0").map .ok else []

def stagedAsset (name : String) : Asset where
  name := name
  browserDownloadUrl := "https://github.com/gagalo1234/vmfleet/releases/download/v0.2.0/" ++ name

def stagedRelease : Release where
  tagName := "v0.2.0"
  assets := (taggedRun.dist taggedPackers).map fun file => stagedAsset file.1

/-- The tarball comes at the second attempt. -/
def stagedOutcomes : Outcomes :=
  { sampleOutcomes [] with
    release := fun _ => .response (.ok stagedRelease)
    publicTarball := { fileWritten with
      replies := fun n => if n = 1 then .failure "connection reset" else .response packedTarball }
    apiTarball := { fileWritten with replies := fun _ => .status 404 }
    publicSum := fun _ => .response (.ok
      "6a53856cfe2c85d4a353c0780067c6a2bb8604a256377d240c2b64ff6b9789f7  vmfleet-0.2.0-x86_64-unknown-linux-musl.tar.gz\n") }

theorem serves_stagedOutcomes : Serves taggedPackers taggedRun stagedOutcomes := by
  have hjob : muslJob ∈ taggedRun.jobs := List.mem_cons_of_mem _ (List.mem_cons_of_mem _ List.mem_cons_self)
  constructor
  · rintro n body (hn | hn)
    · simp only [stagedOutcomes] at hn
      split at hn
      · cases hn
      · obtain rfl := Reply.response.inj hn
        exact mem_dist_iff.mpr ⟨muslJob, hjob, .inl (by decide +kernel)⟩
    · cases hn
  · rintro n text (hn | hn)
    · simp only [stagedOutcomes, Reply.response.injEq, Except.ok.injEq] at hn
      subst hn
      exact mem_dist_iff.mpr ⟨muslJob, hjob, .inr (by decide +kernel)⟩
    · cases hn

theorem release_installs_tagged :
    ((selfUpdate taggedCrates stagedOutcomes {}).from fun _ => none).2.replaced = some [127, 69, 76, 70] := by
  have hjob : muslJob ∈ taggedRun.jobs := List.mem_cons_of_mem _ (List.mem_cons_of_mem _ List.mem_cons_self)
  have hdigest : (taggedCrates.sha256 (muslJob.tarball taggedPackers taggedRun.version)).length = 32 := by
    decide +kernel
  have hunpack : taggedCrates.entries (muslJob.tarball taggedPackers taggedRun.version) =
      (muslJob.members taggedRun.version).map .ok := by
    have htarball : muslJob.tarball taggedPackers taggedRun.version = packedTarball := by decide +kernel
    have hversion : taggedRun.version = "0.2.0" := by decide +kernel
    rw [htarball, hversion]
    simp only [taggedCrates, if_true]
  have hstaged : Staged taggedPackers taggedRun stagedRelease :=
    ⟨rfl, .of_eq (by rw [stagedRelease, List.map_map]; rfl)⟩
  have hfetched : fetched stagedOutcomes {} = some stagedRelease := rfl
  obtain ⟨tar, sha, htar, hsha, hinstalls, -⟩ := release_installs hjob rfl rfl hdigest hunpack hstaged
    serves_stagedOutcomes hfetched fun _ => none
  have hfind : some tar = some (stagedAsset "vmfleet-0.2.0-x86_64-unknown-linux-musl.tar.gz") :=
    htar.symm.trans (by decide +kernel)
  obtain rfl := Option.some.inj hfind
  have hdown : Downloads stagedOutcomes {} stagedRelease
      (stagedAsset "vmfleet-0.2.0-x86_64-unknown-linux-musl.tar.gz") :=
    ⟨hfetched, by decide +kernel, rfl, rfl, htar, "/usr/local/bin/vmfleet", rfl⟩
  have hstored : StoredPublicly stagedOutcomes
      (stagedAsset "vmfleet-0.2.0-x86_64-unknown-linux-musl.tar.gz") := ⟨by decide +kernel, rfl, rfl, rfl, rfl⟩
  have hsumFor : some sha = some (stagedAsset "vmfleet-0.2.0-x86_64-unknown-linux-musl.tar.gz.sha256") :=
    hsha.symm.trans (by decide +kernel)
  obtain rfl := Option.some.inj hsumFor
  have hsum : (readSum stagedOutcomes
      (stagedAsset "vmfleet-0.2.0-x86_64-unknown-linux-musl.tar.gz.sha256")).isSome = true := by decide +kernel
  exact (hinstalls ⟨hdown, .inl hstored, hsum, rfl, rfl, rfl, rfl, rfl, rfl⟩).2

end

end VmFleet
