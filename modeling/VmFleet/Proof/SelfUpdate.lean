import VmFleet.Source.SelfUpdate
import VmFleet.Library.Procedure

/-!
# What a self-update installs

`self_replace` comes last, after the tarball is downloaded, compared with the checksum that the release has
for it, and unpacked. `update_verified` says what holds of the bytes it puts in place. A release without a
checksum is installed as well, with a warning.
-/

namespace VmFleet

open Procedure

variable {α : Type} {crates : Crates} {out : Outcomes} {opts : UpdateOpts} {token : Option String}

/-! ### Requests -/

/-- What the requests made are of no matter to. -/
def OffWire (P : Host → Prop) : Prop := ∀ host requests, P host → P { host with requests := requests }

theorem sendAttempts_spec {P : Host → Prop} (hP : OffWire P) (request : Request) (replies : Nat → Reply α)
    (attempts : List Nat) (last : String) :
    Triple P (sendAttempts request replies attempts last)
      (fun body host => (∃ n, replies n = .response body) ∧ P host) P := by
  induction attempts generalizing last with
  | nil => exact triple_throw fun _ h => h
  | cons attempt rest ih =>
      rw [sendAttempts]
      refine triple_bind (triple_modify (Q := fun _ => P) fun host h => hP host _ h) fun _ => ?_
      split
      · next body hreply => exact triple_pure fun _ h => ⟨⟨attempt, hreply⟩, h⟩
      · exact triple_ite (fun _ => ih _) fun _ => triple_throw fun _ h => h
      · exact ih _

theorem sendGet_spec {P : Host → Prop} (hP : OffWire P) (url accept : String) (replies : Nat → Reply α) :
    Triple P (sendGet url token accept replies)
      (fun body host => (∃ n, replies n = .response body) ∧ P host) P :=
  sendAttempts_spec hP _ replies _ _

theorem getJson_spec {P : Host → Prop} (hP : OffWire P) (url : String)
    (replies : Nat → Reply (Except String α)) :
    Triple P (getJson url token replies)
      (fun value host => (∃ n, replies n = .response (.ok value)) ∧ P host) P := by
  refine triple_bind (sendGet_spec hP url _ replies) fun body => triple_of_fact fun hbody => ?_
  refine triple_ofExcept (fun value hvalue host h => ⟨?_, h⟩) fun _ h => h
  rw [← hvalue]
  exact hbody

theorem getText_spec {P : Host → Prop} (hP : OffWire P) (url : String) (token : Option String)
    (replies : Nat → Reply (Except String String)) :
    Triple P (getText url token replies)
      (fun text host => (∃ n, replies n = .response (.ok text)) ∧ P host) P := by
  refine triple_bind (sendGet_spec hP url _ replies) fun body => triple_of_fact fun hbody => ?_
  refine triple_ofExcept (fun text htext host h => ⟨?_, h⟩) fun _ h => h
  rw [← htext]
  exact hbody

/-! ### Files -/

/-- The binary is as it was. -/
def Host.Kept (host : Host) : Prop := host.replaced = none

theorem offWire_kept : OffWire Host.Kept := fun _ _ h => h

theorem offWire_file (path : String) (bytes : Bytes) :
    OffWire fun host => host.files path = some bytes ∧ host.Kept := fun _ _ h => h

theorem readFile_spec {P : Host → Prop} (path : String) :
    Triple P (readFile path) (fun bytes host => host.files path = some bytes ∧ P host) P := by
  refine triple_bind (triple_get (Q := fun read host => read = host ∧ P host) fun _ h => ⟨rfl, h⟩)
    fun read => ?_
  split
  · next bytes hbytes => exact triple_pure fun _ h => ⟨h.1 ▸ hbytes, h.2⟩
  · exact triple_throw fun _ h => h.2

theorem writeFile_spec (path : String) (bytes : Bytes) :
    Triple Host.Kept (writeFile path bytes) (fun _ host => host.files path = some bytes ∧ host.Kept)
      Host.Kept :=
  triple_modify fun _ h => ⟨Function.update_self .., h⟩

theorem copyTo_spec (path : String) (bytes : Bytes) (outcome : CopyOutcome) :
    Triple Host.Kept (copyTo path bytes outcome)
      (fun _ host => host.files path = some bytes ∧ host.Kept) Host.Kept := by
  cases outcome with
  | ok _ => exact writeFile_spec path bytes
  | error failure =>
      exact triple_bind (writeFile_spec path _) fun _ => triple_throw fun _ h => h.2

theorem renameFile_spec (src dest : String) (bytes : Bytes) :
    Triple (fun host => host.files src = some bytes ∧ host.Kept) (renameFile src dest)
      (fun _ host => host.files dest = some bytes ∧ host.Kept) Host.Kept := by
  refine triple_bind ((readFile_spec src).mono_fail fun _ h => h.2) fun read => ?_
  refine triple_modify fun host h => ⟨?_, h.2.2⟩
  have hread : read = bytes := Option.some.inj (h.1.symm.trans h.2.1)
  rw [hread]
  exact Function.update_self ..

theorem withContext_spec {P E : Host → Prop} {Q : α → Host → Prop} {x : Update α} (message : String)
    (h : Triple P x Q E) : Triple P (withContext message x) Q E :=
  triple_tryCatch h fun _ => triple_throw fun _ h => h

theorem streamToFile_spec (url : String) (dest : String) (transfer : Transfer) :
    Triple Host.Kept (streamToFile url token dest transfer)
      (fun _ host => ∃ body, (∃ n, transfer.replies n = .response body) ∧
        host.files dest = some body ∧ host.Kept) Host.Kept := by
  refine triple_bind (sendGet_spec offWire_kept url _ _) fun body => triple_of_fact fun hbody => ?_
  refine triple_bind (withContext_spec _ (triple_ofExcept (Q := fun _ => Host.Kept) (fun _ _ _ h => h)
    fun _ h => h)) fun _ => ?_
  refine triple_bind (copyTo_spec _ body _) fun _ => ?_
  refine triple_bind (triple_ofExcept (fun _ _ _ h => h) fun _ h => h.2) fun _ => ?_
  exact (renameFile_spec _ dest body).mono_post (fun _ _ h => ⟨body, hbody, h⟩) fun _ h => h

theorem withTempCleanup_drops {P E E' : Host → Prop} {Q Q' : α → Host → Prop} {x : Update α}
    {paths : List String} (h : Triple P x Q E) (hQ : ∀ a host, Q a host → Q' a (host.dropTemps paths))
    (hE : ∀ host, E host → E' (host.dropTemps paths)) : Triple P (withTempCleanup paths x) Q' E' := by
  intro host hpre
  have hends := h host hpre
  have hrun : StateT.run (ExceptT.run (withTempCleanup paths x)) host =
      ((StateT.run (ExceptT.run x) host).1, (StateT.run (ExceptT.run x) host).2.dropTemps paths) := rfl
  rw [hrun]
  cases hx : StateT.run (ExceptT.run x) host with
  | mk result host' =>
      rw [hx] at hends
      cases result with
      | ok a => exact hQ a host' hends
      | error e => exact hE host' hends

/-- Whatever ends `x`, only the files of the guard go. -/
theorem withTempCleanup_spec {P E : Host → Prop} {Q : α → Host → Prop} {x : Update α} {paths : List String}
    (h : Triple P x Q E) (hQ : ∀ a host, Q a host → Q a (host.dropTemps paths))
    (hE : ∀ host, E host → E (host.dropTemps paths)) : Triple P (withTempCleanup paths x) Q E :=
  withTempCleanup_drops h hQ hE

/-! ### Where the pieces come from -/

/-- The release that `fetch_release` chooses. -/
def Offered (out : Outcomes) (opts : UpdateOpts) (rel : Release) : Prop :=
  if opts.tag = none ∧ opts.allowPrerelease = true then
    ∃ n list, out.releases n = .response (.ok list) ∧ pickNewest list = some rel
  else ∃ n, out.release n = .response (.ok rel)

/-- The body of a request for the asset, on either route. -/
def Downloaded (out : Outcomes) (token : Option String) (asset : Asset) (body : Bytes) : Prop :=
  (asset.browserDownloadUrl ≠ "" ∧ ∃ n, out.publicTarball.replies n = .response body) ∨
    (asset.url ≠ "" ∧ token ≠ none ∧ ∃ n, out.apiTarball.replies n = .response body)

/-- The digest that the text of the asset begins with. -/
def Published (out : Outcomes) (asset : Asset) (sum : String) : Prop :=
  ∃ text, ((asset.browserDownloadUrl ≠ "" ∧ ∃ n, out.publicSum n = .response (.ok text)) ∨
    ∃ n, out.apiSum n = .response (.ok text)) ∧ parseSha256 text = some sum

/-- The first entry of an archive with this file name. -/
def memberEntry (member : String) (entries : List (Except String TarEntry)) : Option TarEntry :=
  (entries.filterMap Except.toOption).find? fun entry => fileName entry.path = some member

theorem fetchRelease_spec (owner repo : String) :
    Triple Host.Kept (fetchRelease out owner repo token opts.tag opts.allowPrerelease)
      (fun rel host => Offered out opts rel ∧ host.Kept) Host.Kept := by
  unfold fetchRelease
  cases htag : opts.tag with
  | some tag =>
      refine (getJson_spec offWire_kept _ _).mono_post (fun rel host h => ⟨?_, h.2⟩) fun _ h => h
      rw [Offered, if_neg (by rw [htag]; exact nofun)]
      exact h.1
  | none =>
      refine triple_ite (fun hpre => ?_) fun hpre => ?_
      · refine triple_bind (getJson_spec offWire_kept _ _) fun list => triple_of_fact fun hlist => ?_
        obtain ⟨n, hlist⟩ := hlist
        split
        · next rel hnewest =>
            refine triple_pure fun host h => ⟨?_, h⟩
            rw [Offered, if_pos ⟨htag, hpre⟩]
            exact ⟨n, list, hlist, hnewest⟩
        · exact triple_throw fun _ h => h
      · refine (getJson_spec offWire_kept _ _).mono_post (fun rel host h => ⟨?_, h.2⟩) fun _ h => h
        rw [Offered, if_neg fun hboth => hpre hboth.2]
        exact h.1

/-- The file holds what was downloaded of the asset. -/
def Fetched (out : Outcomes) (token : Option String) (asset : Asset) (dest : String) (host : Host) : Prop :=
  ∃ body, Downloaded out token asset body ∧ host.files dest = some body ∧ host.Kept

theorem downloadPublic_spec (token : Option String) (asset : Asset) (dest : String) :
    Triple Host.Kept (downloadPublic out asset dest)
      (fun done => if done = true then Fetched out token asset dest else Host.Kept) Host.Kept := by
  refine triple_ite (fun _ => triple_pure fun _ h => h) fun hurl => ?_
  refine triple_tryCatch (R := Host.Kept) ?_ fun _ => triple_pure fun _ h => h
  refine triple_bind (streamToFile_spec _ dest _) fun _ => triple_pure fun host h => ?_
  obtain ⟨body, hbody, hfile⟩ := h
  exact ⟨body, Or.inl ⟨hurl, hbody⟩, hfile⟩

theorem downloadAsset_spec (asset : Asset) (dest : String) :
    Triple Host.Kept (downloadAsset out asset token dest) (fun _ => Fetched out token asset dest)
      Host.Kept := by
  have hfails : ∀ message, Triple Host.Kept (throw message : Update Unit)
      (fun _ => Fetched out token asset dest) Host.Kept := fun _ => triple_throw fun _ h => h
  refine triple_bind (downloadPublic_spec token asset dest) fun done => ?_
  cases done with
  | true => exact triple_pure fun _ h => h
  | false =>
      rw [if_neg Bool.false_ne_true, if_neg Bool.false_ne_true]
      split
      · refine triple_ite (fun _ => hfails _) fun hurl => ?_
        refine (streamToFile_spec _ dest _).mono_post (fun _ host h => ?_) fun _ h => h
        obtain ⟨body, hbody, hfile⟩ := h
        exact ⟨body, Or.inr ⟨hurl, nofun, hbody⟩, hfile⟩
      · exact hfails _

theorem fetchSha256_spec {P : Host → Prop} (hP : OffWire P) (asset : Asset) :
    Triple P (fetchSha256 out asset token) (fun sum host => Published out asset sum ∧ P host) P := by
  have hapi := getText_spec hP asset.url token out.apiSum
  refine triple_bind (Q := fun text host => ((asset.browserDownloadUrl ≠ "" ∧
    ∃ n, out.publicSum n = .response (.ok text)) ∨ ∃ n, out.apiSum n = .response (.ok text)) ∧ P host)
    (triple_ite (fun _ => ?_) fun hurl => triple_tryCatch (R := P) ?_ fun _ => ?_) fun text =>
      triple_of_fact fun htext => ?_
  · exact hapi.mono_post (fun _ _ h => ⟨Or.inr h.1, h.2⟩) fun _ h => h
  · exact (getText_spec hP _ _ _).mono_post (fun _ _ h => ⟨Or.inl ⟨hurl, h.1⟩, h.2⟩) fun _ h => h
  · exact hapi.mono_post (fun _ _ h => ⟨Or.inr h.1, h.2⟩) fun _ h => h
  · split
    · next sum hsum => exact triple_pure fun _ h => ⟨⟨text, htext, hsum⟩, h⟩
    · exact triple_throw fun _ h => h

theorem sha256File_spec (path : String) (tarball : Bytes) :
    Triple (fun host => host.files path = some tarball ∧ host.Kept) (sha256File crates out path)
      (fun got host => got = hexDigest (crates.sha256 tarball) ∧ host.files path = some tarball ∧ host.Kept)
      Host.Kept := by
  refine triple_bind (triple_ofExcept (Q := fun _ host => host.files path = some tarball ∧ host.Kept)
    (fun _ _ _ h => h) fun _ h => h.2) fun _ => ?_
  refine triple_bind ((readFile_spec path).mono_fail fun _ h => h.2) fun read => ?_
  refine triple_pure fun host h => ⟨?_, h.2⟩
  have hread : read = tarball := Option.some.inj (h.1.symm.trans h.2.1)
  rw [hread]

theorem extractEntry_spec (member dest : String) (entries : List (Except String TarEntry)) :
    Triple Host.Kept (extractEntry out member dest entries)
      (fun _ host => ∃ entry, memberEntry member entries = some entry ∧
        host.files dest = some entry.data ∧ host.Kept) Host.Kept := by
  induction entries with
  | nil => exact triple_throw fun _ h => h
  | cons item rest ih =>
      cases item with
      | error e => exact triple_throw fun _ h => h
      | ok entry =>
          rw [extractEntry]
          refine triple_ite (fun hname => ?_) fun hname => ?_
          · refine triple_bind (triple_ofExcept (Q := fun _ => Host.Kept) (fun _ _ _ h => h) fun _ h => h)
              fun _ => ?_
            refine (copyTo_spec dest entry.data _).mono_post (fun _ host h => ⟨entry, ?_, h⟩)
              fun _ h => h
            exact List.find?_cons_of_pos (decide_eq_true hname)
          · refine ih.mono_post (fun _ host h => ?_) fun _ h => h
            obtain ⟨found, hfound, hfile⟩ := h
            refine ⟨found, ?_, hfile⟩
            rw [← hfound]
            exact List.find?_cons_of_neg (by rw [decide_eq_false hname]; exact Bool.false_ne_true)

theorem extractBinary_spec (tarPath member dest : String) (tarball : Bytes) :
    Triple (fun host => host.files tarPath = some tarball ∧ host.Kept)
      (extractBinary crates out tarPath member dest)
      (fun _ host => ∃ entry, memberEntry member (crates.entries tarball) = some entry ∧
        host.files dest = some entry.data ∧ host.Kept) Host.Kept := by
  refine triple_bind (triple_ofExcept (Q := fun _ host => host.files tarPath = some tarball ∧ host.Kept)
    (fun _ _ _ h => h) fun _ h => h.2) fun _ => ?_
  refine triple_bind ((readFile_spec tarPath).mono_fail fun _ h => h.2)
    fun read => ?_
  intro host h
  have hread : read = tarball := Option.some.inj (h.1.symm.trans h.2.1)
  rw [hread]
  exact extractEntry_spec member dest _ host h.2.2

theorem selfReplace_spec (exe newBin : String) (bytes : Bytes) :
    Triple (fun host => host.files newBin = some bytes ∧ host.Kept) (selfReplace out exe newBin)
      (fun _ host => host.replaced = some bytes) Host.Kept := by
  refine triple_bind (triple_ofExcept (Q := fun _ host => host.files newBin = some bytes ∧ host.Kept)
    (fun _ _ _ h => h) fun _ h => h.2) fun _ => ?_
  refine triple_bind ((readFile_spec newBin).mono_fail fun _ h => h.2)
    fun read => triple_modify fun host h => ?_
  exact h.1.symm.trans h.2.1

/-! ### Checksums -/

theorem toLower_toLower (c : Char) : c.toLower.toLower = c.toLower := by
  have heq : ∀ c : Char, ¬ (c.val ≥ 'A'.val ∧ c.val ≤ 'Z'.val) → c.toLower = c := fun c h => dif_neg h
  by_cases h : c.val ≥ 'A'.val ∧ c.val ≤ 'Z'.val
  · apply heq
    have hval : c.toLower.val = c.val + 32 := congrArg Char.val (dif_pos h)
    rw [hval]
    have hlow : 65 ≤ c.val.toNat := h.1
    have hhigh : c.val.toNat ≤ 90 := h.2
    have hbit : (32 : UInt32).toNat = 32 := rfl
    have hsum : (c.val + 32).toNat = c.val.toNat + 32 := by
      rw [UInt32.toNat_add, hbit, Nat.mod_eq_of_lt (by omega)]
    intro hboth
    have hupper : (c.val + 32).toNat ≤ 90 := hboth.2
    omega
  · rw [heq c h, heq c h]

theorem asciiLowercase_idem (s : String) : asciiLowercase (asciiLowercase s) = asciiLowercase s := by
  rw [asciiLowercase, asciiLowercase, String.toList_ofList, List.map_map]
  congr 1
  exact List.map_congr_left fun c _ => toLower_toLower c

theorem asciiLowercase_hexDigest (digest : Bytes) : asciiLowercase (hexDigest digest) = hexDigest digest := by
  have hdigit : ∀ n < 16, (Nat.digitChar n).toLower = Nat.digitChar n := by decide
  rw [asciiLowercase, hexDigest, String.toList_ofList, List.map_flatMap]
  congr 2
  funext b
  have hb := b.toNat_lt
  rw [List.map_cons, List.map_cons, List.map_nil, hdigit _ (by omega), hdigit _ (by omega)]

theorem asciiLowercase_of_parseSha256 {text sum : String} (h : parseSha256 text = some sum) :
    asciiLowercase sum = sum := by
  obtain ⟨tok, _, h⟩ := Option.bind_eq_some_iff.mp h
  split at h
  · cases h
    exact asciiLowercase_idem tok
  · cases h

theorem eq_of_eqIgnoreAsciiCase {text sum : String} {digest : Bytes} (hsum : parseSha256 text = some sum)
    (heq : eqIgnoreAsciiCase sum (hexDigest digest) = true) : sum = hexDigest digest := by
  have hlower := beq_iff_eq.mp heq
  rwa [asciiLowercase_of_parseSha256 hsum, asciiLowercase_hexDigest] at hlower

theorem verifyTarball_spec (wantAsset tmpTar : String) (tarball : Bytes) (shaAsset : Option Asset) :
    Triple (fun host => host.files tmpTar = some tarball ∧ host.Kept)
      (verifyTarball crates out token wantAsset tmpTar shaAsset)
      (fun _ host => (∀ sha, shaAsset = some sha → Published out sha (hexDigest (crates.sha256 tarball))) ∧
        host.files tmpTar = some tarball ∧ host.Kept) Host.Kept := by
  cases shaAsset with
  | none => exact triple_pure fun _ h => ⟨nofun, h⟩
  | some sha =>
      refine triple_bind ((fetchSha256_spec (offWire_file tmpTar tarball) sha).mono_fail fun _ h => h.2)
        fun want => triple_of_fact fun hwant => ?_
      refine triple_bind (sha256File_spec tmpTar tarball) fun got => triple_of_fact fun hgot => ?_
      refine triple_ite (fun heq => triple_pure fun _ h => ⟨fun sha' hsha => ?_, h⟩)
        fun _ => triple_throw fun _ h => h.2
      cases hsha
      obtain ⟨text, htext, hparse⟩ := hwant
      rw [hgot] at heq
      exact ⟨text, htext, hparse.trans (congrArg some (eq_of_eqIgnoreAsciiCase hparse heq))⟩

/-! ### The whole update -/

/-- Why these bytes are installed. -/
structure Verified (crates : Crates) (out : Outcomes) (opts : UpdateOpts) (rel : Release) (tar : Asset)
    (tarball bytes : Bytes) : Prop where
  offered : Offered out opts rel
  newer : opts.tag = none → cmpVersions (trimV rel.tagName) currentVersion = .gt
  asset : tar ∈ rel.assets ∧ tar.name = assetName (trimV rel.tagName) out.target
  downloaded : Downloaded out (bestEffortToken out.envToken out.configToken) tar tarball
  checked : ∀ sha, rel.assets.find? (·.name == tar.name ++ ".sha256") = some sha →
    Published out sha (hexDigest (crates.sha256 tarball))
  unpacked : (memberEntry "vmfleet" (crates.entries tarball)).map (·.data) = some bytes

theorem installRelease_spec (noRestart : Bool) (exe tmpTar newBin : String) (tar : Asset)
    (shaAsset : Option Asset) :
    Triple Host.Kept (installRelease crates out noRestart token exe tmpTar newBin tar shaAsset)
      (fun _ host => ∃ tarball, Downloaded out token tar tarball ∧
        (∀ sha, shaAsset = some sha → Published out sha (hexDigest (crates.sha256 tarball))) ∧
        ∃ entry, memberEntry "vmfleet" (crates.entries tarball) = some entry ∧
          host.replaced = some entry.data) Host.Kept := by
  refine triple_bind (downloadAsset_spec tar tmpTar) fun _ => triple_of_exists fun tarball =>
    triple_of_fact fun hdownloaded => ?_
  refine triple_bind (verifyTarball_spec _ tmpTar tarball shaAsset) fun _ =>
    triple_of_fact fun hchecked => ?_
  refine triple_bind (withContext_spec _ (extractBinary_spec tmpTar "vmfleet" newBin tarball)) fun _ =>
    triple_of_exists fun entry => triple_of_fact fun hentry => ?_
  refine triple_bind (triple_ofExcept (fun _ _ _ h => h) fun _ h => h.2) fun _ => ?_
  refine triple_bind (withContext_spec _ (selfReplace_spec exe newBin entry.data)) fun _ => ?_
  have hdone : ∀ host : Host, host.replaced = some entry.data → ∃ tarball, Downloaded out token tar tarball ∧
      (∀ sha, shaAsset = some sha → Published out sha (hexDigest (crates.sha256 tarball))) ∧
      ∃ entry, memberEntry "vmfleet" (crates.entries tarball) = some entry ∧
        host.replaced = some entry.data :=
    fun _ h => ⟨tarball, hdownloaded, hchecked, entry, hentry, h⟩
  exact triple_ite (fun _ => triple_pure hdone) fun _ => triple_modify fun _ h => hdone _ h

theorem parseRepoUrl_repositoryUrl : parseRepoUrl repositoryUrl = some ("gagalo1234", "vmfleet") := by
  decide +kernel

theorem selfUpdate_spec :
    Triple Host.Kept (selfUpdate crates out opts)
      (fun _ host => ∀ bytes, host.replaced = some bytes → ∃ rel tar tarball,
        Verified crates out opts rel tar tarball bytes) Host.Kept := by
  have hstops : Triple Host.Kept (pure () : Update Unit) (fun _ host => ∀ bytes,
      host.replaced = some bytes → ∃ rel tar tarball, Verified crates out opts rel tar tarball bytes)
      Host.Kept :=
    triple_pure fun host h bytes hbytes => by
      rw [h] at hbytes
      cases hbytes
  unfold selfUpdate
  split
  · refine triple_bind (fetchRelease_spec _ _) fun rel => triple_of_fact fun hoffered => ?_
    refine triple_ite (fun hnewer => ?_) fun _ => hstops
    refine triple_ite (fun _ => hstops) fun _ => ?_
    refine triple_ite (fun _ => ?_) fun _ => hstops
    dsimp only
    split
    · next tar hfind =>
        refine triple_bind (withContext_spec _ (triple_ofExcept (Q := fun _ => Host.Kept)
          (fun _ _ _ h => h) fun _ h => h)) fun exe => ?_
        refine (withTempCleanup_spec (installRelease_spec _ _ _ _ _ _) (fun _ _ h => h) fun _ h => h).mono
          (fun _ h => h) (fun _ host h bytes hbytes => ?_) fun _ h => h
        obtain ⟨tarball, hdownloaded, hchecked, entry, hentry, hreplaced⟩ := h
        have hsame := List.find?_some hfind
        have hname : tar.name = assetName (trimV rel.tagName) out.target := beq_iff_eq.mp hsame
        refine ⟨rel, tar, tarball, hoffered, fun htag => ?_, ⟨List.mem_of_find?_eq_some hfind, hname⟩,
          hdownloaded, fun sha hsha => hchecked sha (hname ▸ hsha), ?_⟩
        · rw [htag] at hnewer
          exact beq_iff_eq.mp hnewer
        · rw [hentry, ← hbytes, hreplaced]
          rfl
    · exact triple_throw fun _ h => h
  · exact triple_throw fun _ h => h

/-- What replaces the binary is the `vmfleet` of a tarball for this target, which has the checksum that
its release gives, if it gives one, and a newer version, if none is asked for. -/
theorem update_verified {files : String → Option Bytes} {bytes : Bytes}
    (hreplaced : ((selfUpdate crates out opts).from files).2.replaced = some bytes) :
    ∃ rel tar tarball, Verified crates out opts rel tar tarball bytes := by
  have hspec : Triple Host.Kept (selfUpdate crates out opts) (fun _ host => ∀ bytes,
      host.replaced = some bytes → ∃ rel tar tarball, Verified crates out opts rel tar tarball bytes)
      (fun host => ∀ bytes, host.replaced = some bytes → ∃ rel tar tarball,
        Verified crates out opts rel tar tarball bytes) := by
    refine selfUpdate_spec.mono_fail fun host hkept bytes hbytes => ?_
    rw [show host.replaced = none from hkept] at hbytes
    cases hbytes
  exact hspec.final (s := { files := files }) rfl bytes hreplaced

/-- A gzipped tarball of one file of four bytes. -/
def sampleTarball : Bytes :=
  [31, 139, 8, 0, 0, 0, 0, 0, 2, 3, 43, 203, 77, 203, 73, 77, 45, 209, 53, 208, 51, 210, 51, 208, 173,
    176, 48, 139, 55, 51, 209, 45, 205, 203, 206, 203, 47, 207, 211, 205, 201, 204, 43, 173, 208, 205,
    45, 45, 206, 209, 47, 131, 168, 99, 32, 7, 24, 0, 129, 185, 169, 41, 152, 6, 2, 116, 26, 8, 76, 144,
    216, 64, 113, 67, 51, 67, 115, 3, 6, 5, 3, 6, 58, 128, 210, 226, 146, 196, 34, 160, 245, 12, 35, 19,
    212, 187, 250, 184, 49, 140, 130, 81, 48, 10, 70, 193, 40, 24, 113, 0, 0, 211, 253, 188, 74, 0, 8,
    0, 0]

def sampleCrates : Crates where
  sha256 _ :=
    [158, 70, 65, 119, 207, 53, 13, 236, 135, 109, 128, 14, 62, 188, 33, 110, 182, 54, 41, 3, 90, 78,
      67, 67, 32, 74, 247, 133, 6, 252, 146, 64]
  entries bytes :=
    if bytes = sampleTarball then
      [.ok ⟨"vmfleet-0.2.0-x86_64-unknown-linux-musl/vmfleet", [127, 69, 76, 70]⟩]
    else []

def tarAsset : Asset where
  name := "vmfleet-0.2.0-x86_64-unknown-linux-musl.tar.gz"
  browserDownloadUrl := "https://github.com/gagalo1234/vmfleet/releases/download/v0.2.0/linux-musl.tar.gz"

def sumAsset : Asset where
  name := "vmfleet-0.2.0-x86_64-unknown-linux-musl.tar.gz.sha256"
  browserDownloadUrl := "https://github.com/gagalo1234/vmfleet/releases/download/v0.2.0/linux-musl.tar.gz.sha256"

def publishedRelease (assets : List Asset) : Release := { tagName := "v0.2.0", assets := assets }

def fileWritten : Transfer where
  replies _ := .response sampleTarball
  created := .ok ()
  copied := .ok ()
  renamed := .ok ()

/-- The first request for the release is answered with an error, everything else succeeds at once. -/
def sampleOutcomes (assets : List Asset) : Outcomes where
  target := "x86_64-unknown-linux-musl"
  envToken := none
  configToken := none
  release n := if n = 1 then .status 503 else .response (.ok (publishedRelease assets))
  releases _ := .status 404
  confirmed := true
  exe := .ok "/usr/local/bin/vmfleet"
  publicTarball := fileWritten
  apiTarball := fileWritten
  publicSum _ := .response (.ok
    "9e464177cf350dec876d800e3ebc216eb63629035a4e4343204af78506fc9240  vmfleet-0.2.0-x86_64-unknown-linux-musl.tar.gz\n")
  apiSum _ := .status 404
  hashed := .ok ()
  opened := .ok ()
  binCreated := .ok ()
  binCopied := .ok ()
  executable := .ok ()
  selfReplaced := .ok ()
  cfgExists := true

theorem update_verified_sample :
    ∃ rel tar tarball, Verified sampleCrates (sampleOutcomes [tarAsset, sumAsset]) {} rel tar tarball
      [127, 69, 76, 70] := by
  have hreplaced : ((selfUpdate sampleCrates (sampleOutcomes [tarAsset, sumAsset]) {}).from
      fun _ => none).2.replaced = some [127, 69, 76, 70] := by decide +kernel
  exact update_verified hreplaced

/-- The release gives no checksum. -/
theorem installs_unchecked :
    ((selfUpdate sampleCrates (sampleOutcomes [tarAsset]) {}).from fun _ => none).2.replaced =
      some [127, 69, 76, 70] ∧
    ∀ asset ∈ (publishedRelease [tarAsset]).assets, asset.name ≠ tarAsset.name ++ ".sha256" :=
  ⟨by decide +kernel, by decide +kernel⟩

end VmFleet
