import VmFleet.Proof.Staging
import VmFleet.Proof.TokenOrigin

/-!
# Where a self-update sends the token

The release is asked for at the API, with the token. An asset is asked for there as well when its public
download fails, at a URL that the release gives and nothing checks.
-/

namespace VmFleet

open Procedure

section

variable {α : Type} (host : String → Option String)

/-- A request for this URL, if it is one, goes to the API over https. -/
def Stays (url : String) : Prop :=
  ∀ o, Url.origin host url = some o → o.scheme = "https" ∧ o.host = "api.github.com"

/-- Every request with the token goes to the API. -/
def TokenStays (s : Host) : Prop := ∀ q ∈ s.requests, q.authorized = true → Stays host q.url

/-- The token has gone elsewhere if and only if `p`. -/
def Strays (p : Prop) (s : Host) : Prop :=
  (∃ q ∈ s.requests, q.authorized = true ∧ ¬ Stays host q.url) ↔ p

/-! ### What the replies come to -/

/-- Whether `send_get` stops at this reply. -/
def Reply.isFinal : Reply α → Bool
  | .response _ => true
  | .status code => code < 500 && code != 429
  | .failure _ => false

def Reply.toOption : Reply α → Option α
  | .response body => some body
  | .status _ | .failure _ => none

/-- The response at these attempts, if they end with one. -/
def answerAt (replies : Nat → Reply α) (attempts : List Nat) : Option α :=
  ((attempts.map replies).find? Reply.isFinal).bind Reply.toOption

def answered (replies : Nat → Reply α) : Option α := answerAt replies (List.range' 1 RETRIES)

/-- The value of a body that can be read. -/
def readAnswer (replies : Nat → Reply (Except String α)) : Option α :=
  (answered replies).bind Except.toOption

def Transfer.Stored (transfer : Transfer) : Prop :=
  (answered transfer.replies).isSome = true ∧ transfer.created = .ok () ∧ transfer.copied = .ok () ∧
    transfer.renamed = .ok ()

/-! ### When an asset is asked for at the API -/

def fetched (out : Outcomes) (opts : UpdateOpts) : Option Release :=
  if opts.tag = none ∧ opts.allowPrerelease = true then (readAnswer out.releases).bind pickNewest
  else readAnswer out.release

/-- The update comes to the download of this asset. -/
structure Downloads (out : Outcomes) (opts : UpdateOpts) (rel : Release) (tar : Asset) : Prop where
  fetched : fetched out opts = some rel
  wanted : (opts.tag.isSome || isNewer (trimV rel.tagName) currentVersion) = true
  checkOnly : opts.check = false
  agreed : (opts.yes || out.confirmed) = true
  asset : rel.assets.find? (·.name == assetName (trimV rel.tagName) out.target) = some tar
  located : ∃ exe, out.exe = .ok exe

def StoredPublicly (out : Outcomes) (tar : Asset) : Prop :=
  tar.browserDownloadUrl ≠ "" ∧ out.publicTarball.Stored

def AsksTarball (out : Outcomes) (token : Option String) (tar : Asset) : Prop :=
  ¬ StoredPublicly out tar ∧ token ≠ none ∧ tar.url ≠ ""

def HasTarball (out : Outcomes) (token : Option String) (tar : Asset) : Prop :=
  StoredPublicly out tar ∨ (AsksTarball out token tar ∧ out.apiTarball.Stored)

def ReadPublicly (out : Outcomes) (sha : Asset) : Prop :=
  sha.browserDownloadUrl ≠ "" ∧ (readAnswer out.publicSum).isSome = true

def AsksSum (out : Outcomes) (token : Option String) (tar sha : Asset) : Prop :=
  HasTarball out token tar ∧ token ≠ none ∧ ¬ ReadPublicly out sha

variable {host} {crates : Crates} {out : Outcomes} {opts : UpdateOpts} {token : Option String}
variable {p q r : Prop}

/-! ### Requests -/

theorem Strays.congr {s : Host} (h : Strays host p s) (hpq : p ↔ q) : Strays host q s := h.trans hpq

theorem offTemps_strays (temps : List String) : OffTemps temps (Strays host p) := fun _ _ _ _ h => h

theorem Strays.send {s : Host} (h : Strays host p s) (request : Request) :
    Strays host (p ∨ (request.authorized = true ∧ ¬ Stays host request.url))
      { s with requests := s.requests ++ [request] } := by
  rw [Strays] at h ⊢
  rw [← h]
  simp only [List.mem_append, List.mem_singleton, or_and_right, exists_or, exists_eq_left]

theorem answerAt_cons_of_final {replies : Nat → Reply α} {attempt : Nat} (rest : List Nat)
    (h : (replies attempt).isFinal = true) :
    answerAt replies (attempt :: rest) = (replies attempt).toOption := by
  rw [answerAt, List.map_cons, List.find?_cons_of_pos h]
  rfl

theorem answerAt_cons_of_retry {replies : Nat → Reply α} {attempt : Nat} (rest : List Nat)
    (h : (replies attempt).isFinal = false) :
    answerAt replies (attempt :: rest) = answerAt replies rest := by
  rw [answerAt, List.map_cons, List.find?_cons_of_neg (by simp [h])]
  rfl

/-- Between `p` and `q`, `x` returns this value, or it fails if there is none. -/
def Gives (host : String → Option String) (p q : Prop) (value : Option α) (x : Update α) : Prop :=
  Triple (Strays host p) x (fun a s => value = some a ∧ Strays host q s)
    (fun s => value = none ∧ Strays host q s)

theorem Gives.congr {value : Option α} {x : Update α} (h : Gives host p q value x) (hqr : q ↔ r) :
    Gives host p r value x :=
  Triple.mono_post h (fun _ _ hs => ⟨hs.1, hs.2.congr hqr⟩) fun _ hs => ⟨hs.1, hs.2.congr hqr⟩

theorem sendAttempts_gives (request : Request) (replies : Nat → Reply α) (attempts : List Nat)
    (last : String) :
    Gives host p (p ∨ (attempts ≠ [] ∧ request.authorized = true ∧ ¬ Stays host request.url))
      (answerAt replies attempts) (sendAttempts request replies attempts last) := by
  induction attempts generalizing p last with
  | nil => exact triple_throw fun _ h => ⟨rfl, h.congr (by simp)⟩
  | cons attempt rest ih =>
      rw [sendAttempts]
      refine triple_bind (triple_modify (Q := fun _ => Strays host
        (p ∨ (request.authorized = true ∧ ¬ Stays host request.url))) fun s h => h.send request) fun _ => ?_
      -- the next attempt sends to the same URL, so nothing is added to what the first has given
      have hretry : (replies attempt).isFinal = false → ∀ last,
          Gives host (p ∨ (request.authorized = true ∧ ¬ Stays host request.url))
            (p ∨ (attempt :: rest ≠ [] ∧ request.authorized = true ∧ ¬ Stays host request.url))
            (answerAt replies (attempt :: rest)) (sendAttempts request replies rest last) := by
        intro hfinal last
        rw [answerAt_cons_of_retry rest hfinal]
        exact (ih last).congr (by simp; tauto)
      split
      · next body hreply =>
          refine triple_pure fun s h => ⟨?_, h.congr (by simp)⟩
          rw [answerAt_cons_of_final rest (by rw [hreply]; rfl), hreply]
          rfl
      · next code hreply =>
          refine triple_ite (fun hcode => hretry ?_ _) fun hcode => triple_throw fun s h =>
            ⟨?_, h.congr (by simp)⟩
          · rw [hreply, Reply.isFinal]
            simp
            omega
          · rw [answerAt_cons_of_final rest, hreply]
            · rfl
            · rw [hreply, Reply.isFinal]
              simp
              omega
      · next e hreply => exact hretry (by rw [hreply]; rfl) _

/-- The token is sent to this URL, and that is elsewhere. -/
def LeaksTo (host : String → Option String) (token : Option String) (url : String) : Prop :=
  token ≠ none ∧ ¬ Stays host url

theorem authorized_applyHeaders (url accept : String) :
    (Request.mk "GET" url (applyHeaders token accept)).authorized = true ↔ token ≠ none := by
  cases token <;> simp [Request.authorized, applyHeaders]

theorem sendGet_gives (url accept : String) (replies : Nat → Reply α) :
    Gives host p (p ∨ LeaksTo host token url) (answered replies) (sendGet url token accept replies) := by
  refine (sendAttempts_gives _ replies _ _).congr ?_
  rw [authorized_applyHeaders, LeaksTo]
  simp [RETRIES]

theorem Gives.readAnswer {x : Update (Except String α)} {replies : Nat → Reply (Except String α)}
    (hx : Gives host p q (answered replies) x) :
    Gives host p q (readAnswer replies) (do ofExcept (← x)) := by
  refine triple_bind (Triple.mono_fail hx fun s h => ⟨?_, h.2⟩) fun body => triple_of_fact fun hbody => ?_
  · rw [VmFleet.readAnswer, h.1]
    rfl
  · rw [VmFleet.readAnswer, hbody]
    cases body with
    | ok value => exact triple_pure fun _ h => ⟨rfl, h⟩
    | error e => exact triple_throw fun _ h => ⟨rfl, h⟩

theorem getJson_gives (url : String) (replies : Nat → Reply (Except String α)) :
    Gives host p (p ∨ LeaksTo host token url) (readAnswer replies) (getJson url token replies) :=
  (sendGet_gives url _ replies).readAnswer

theorem getText_gives (url : String) (replies : Nat → Reply (Except String String)) :
    Gives host p (p ∨ LeaksTo host token url) (readAnswer replies) (getText url token replies) :=
  (sendGet_gives url _ replies).readAnswer

/-! ### The release -/

theorem origin_of_api (hhost : host "api.github.com" = some "api.github.com") :
    Url.origin host "https://api.github.com/repos/" = some ⟨"https", "api.github.com", 443⟩ := by
  have hclean : Url.clean "https://api.github.com/repos/" = "https://api.github.com/repos/".toList := by
    decide +kernel
  have hauthority : Url.authority "https://api.github.com/repos/".toList = "api.github.com".toList := by
    decide +kernel
  have hname : Url.splitPort false (Url.hostPort "api.github.com".toList) =
      ("api.github.com".toList, []) := by decide +kernel
  have hscheme : String.ofList
      (("https://api.github.com/repos/".toList.takeWhile (· ≠ ':')).map Char.toLower) = "https" := by
    decide +kernel
  rw [Url.origin, hclean, Url.read, hauthority, Url.site, hscheme, hname]
  dsimp only
  rw [if_neg (by decide +kernel), String.ofList_toList, hhost]
  rfl

theorem stays_api (hhost : host "api.github.com" = some "api.github.com") (rest : String) :
    Stays host ("https://api.github.com/repos/" ++ rest) := by
  intro o ho
  have happend : Url.origin host ("https://api.github.com/repos/" ++ rest) = _ ∨ _ = none :=
    Url.origin_append host (origin_of_api hhost) (.inl (by decide +kernel))
  rcases happend with h | h
  · rw [h] at ho
    cases ho
    exact ⟨rfl, rfl⟩
  · rw [h] at ho
    cases ho

theorem stays_releases (hhost : host "api.github.com" = some "api.github.com") (owner repo tail : String) :
    Stays host (s!"https://api.github.com/repos/{owner}/{repo}/releases" ++ tail) := by
  have hbase : s!"https://api.github.com/repos/{owner}/{repo}/releases" ++ tail =
      "https://api.github.com/repos/" ++ (owner ++ ("/" ++ (repo ++ ("/releases" ++ tail)))) := by
    simp only [← String.append_assoc]
    rfl
  rw [hbase]
  exact stays_api hhost _

theorem getJson_stays {url : String} (hurl : Stays host url) (replies : Nat → Reply (Except String α)) :
    Gives host p p (readAnswer replies) (getJson url token replies) :=
  (getJson_gives url replies).congr (or_iff_left fun h => h.2 hurl)

theorem fetchRelease_gives (hhost : host "api.github.com" = some "api.github.com") (owner repo : String) :
    Gives host p p (fetched out opts)
      (fetchRelease out owner repo token opts.tag opts.allowPrerelease) := by
  unfold fetchRelease
  cases htag : opts.tag with
  | some tag =>
      rw [fetched, if_neg (by simp [htag])]
      refine getJson_stays ?_ _
      rw [String.append_assoc]
      exact stays_releases hhost owner repo _
  | none =>
      refine triple_ite (fun hpre => ?_) fun hpre => ?_
      · rw [fetched, if_pos ⟨htag, hpre⟩]
        refine triple_bind (Triple.mono_fail (getJson_stays (stays_releases hhost owner repo _) _)
          fun s h => ⟨by rw [h.1]; rfl, h.2⟩) fun list => triple_of_fact fun hlist => ?_
        rw [hlist, Option.bind_some]
        split
        · next hnewest => exact triple_pure fun _ h => ⟨hnewest, h⟩
        · next hnone => exact triple_throw fun _ h => ⟨hnone, h⟩
      · rw [fetched, if_neg fun hboth => hpre hboth.2]
        exact getJson_stays (stays_releases hhost owner repo _) _

/-! ### Files -/

theorem readFile_found {P : Host → Prop} (path : String) (bytes : Bytes) :
    Triple (fun s => s.files path = some bytes ∧ P s) (readFile path) (fun _ => P) fun _ => False := by
  refine triple_bind (triple_get (Q := fun read s => read.files path = some bytes ∧ P s)
    fun _ h => h) fun read => triple_of_fact fun hread => ?_
  rw [hread]
  exact triple_pure fun _ h => h

/-- A file that has just been written can be renamed. -/
theorem copyTo_strays (path : String) (bytes : Bytes) (outcome : CopyOutcome) :
    Triple (Strays host p) (copyTo path bytes outcome)
      (fun _ s => outcome = .ok () ∧ s.files path = some bytes ∧ Strays host p s)
      (fun s => outcome ≠ .ok () ∧ Strays host p s) := by
  cases outcome with
  | ok u => exact triple_modify fun _ h => ⟨rfl, Function.update_self .., h⟩
  | error failure =>
      exact triple_bind (triple_modify (Q := fun _ => Strays host p) fun _ h => h) fun _ =>
        triple_throw fun _ h => ⟨nofun, h⟩

/-- Between `p` and `q`, `x` succeeds exactly if `fact` holds. -/
def Succeeds (host : String → Option String) (p q fact : Prop) (x : Update Unit) : Prop :=
  Triple (Strays host p) x (fun _ s => fact ∧ Strays host q s) (fun s => ¬ fact ∧ Strays host q s)

theorem streamToFile_succeeds (url dest : String) (transfer : Transfer) :
    Succeeds host p (p ∨ LeaksTo host token url) transfer.Stored (streamToFile url token dest transfer) := by
  refine triple_bind (Triple.mono_fail (sendGet_gives url _ _) fun s h => ⟨?_, h.2⟩) fun body =>
    triple_of_fact fun hbody => ?_
  · rintro ⟨hanswered, -⟩
    rw [h.1] at hanswered
    cases hanswered
  refine triple_bind ((withContext_spec _ (triple_ofExcept_eq _)).mono_fail
    fun s h => ⟨fun hstored => ?_, h.2⟩) fun _ => triple_of_fact fun hcreated => ?_
  · rw [hstored.2.1] at h
    cases h.1
  refine triple_bind ((copyTo_strays _ body _).mono_fail
    fun s h => ⟨fun hstored => h.1 hstored.2.2.1, h.2⟩) fun _ => triple_of_fact fun hcopied => ?_
  refine triple_bind ((triple_ofExcept_eq _).mono_fail
    fun s h => ⟨fun hstored => ?_, h.2.2⟩) fun _ => triple_of_fact fun hrenamed => ?_
  · rw [hstored.2.2.2] at h
    cases h.1
  refine triple_bind ((readFile_found _ body).mono_fail fun _ => False.elim) fun bytes => ?_
  exact triple_modify fun _ h => ⟨⟨by rw [hbody]; rfl, hcreated, hcopied, hrenamed⟩, h⟩

/-! ### The assets -/

theorem downloadPublic_strays (tar : Asset) (dest : String) :
    Triple (Strays host p) (downloadPublic out tar dest)
      (fun done s => (done = true ↔ StoredPublicly out tar) ∧ Strays host p s) (fun _ => False) := by
  have hleaks : (p ∨ LeaksTo host none tar.browserDownloadUrl) ↔ p := or_iff_left fun h => h.1 rfl
  refine triple_ite (fun hurl => triple_pure fun s h => ⟨?_, h⟩) fun hurl => ?_
  · exact ⟨nofun, fun hstored => absurd hurl hstored.1⟩
  refine triple_tryCatch (R := fun s => ¬ out.publicTarball.Stored ∧ Strays host p s) ?_ fun _ => ?_
  · refine triple_bind (Triple.mono_fail (streamToFile_succeeds _ dest _)
      fun s h => ⟨h.1, h.2.congr hleaks⟩) fun _ => triple_pure fun s h => ⟨?_, h.2.congr hleaks⟩
    exact ⟨fun _ => ⟨hurl, h.1⟩, fun _ => rfl⟩
  · exact triple_pure fun s h => ⟨⟨nofun, fun hstored => absurd hstored.2 h.1⟩, h.2⟩

theorem downloadAsset_succeeds (tar : Asset) (dest : String) :
    Succeeds host p (p ∨ (AsksTarball out token tar ∧ ¬ Stays host tar.url)) (HasTarball out token tar)
      (downloadAsset out tar token dest) := by
  refine triple_bind ((downloadPublic_strays tar dest).mono_fail fun _ => False.elim) fun done =>
    triple_of_fact fun hdone => ?_
  refine triple_ite (fun htrue => triple_pure fun s h => ?_) fun hfalse => ?_
  · have hpublic : StoredPublicly out tar := hdone.mp htrue
    exact ⟨.inl hpublic, h.congr (or_iff_left fun hasks => hasks.1.1 hpublic).symm⟩
  have hpublic : ¬ StoredPublicly out tar := fun hstored => hfalse (hdone.mpr hstored)
  have hfails : ∀ message, ¬ AsksTarball out token tar →
      Succeeds host p (p ∨ (AsksTarball out token tar ∧ ¬ Stays host tar.url)) (HasTarball out token tar)
        (throw message) := by
    intro message hnot
    refine triple_throw fun s h => ⟨fun hhas => ?_, h.congr (or_iff_left fun hasks => hnot hasks.1).symm⟩
    exact hhas.elim hpublic fun hasks => hnot hasks.1
  cases htoken : token with
  | none =>
      rw [htoken] at hfails
      exact hfails _ fun hasks => hasks.2.1 rfl
  | some t =>
      rw [htoken] at hfails
      refine triple_ite (fun hurl => hfails _ fun hasks => hasks.2.2 hurl) fun hurl => ?_
      have hasks : AsksTarball out (some t) tar := ⟨hpublic, nofun, hurl⟩
      have hleaks : (p ∨ LeaksTo host (some t) tar.url) ↔
          (p ∨ (AsksTarball out (some t) tar ∧ ¬ Stays host tar.url)) :=
        or_congr_right (and_congr_left fun _ => ⟨fun _ => hasks, fun _ => nofun⟩)
      refine Triple.mono_post (streamToFile_succeeds _ dest _)
        (fun _ s h => ⟨.inr ⟨hasks, h.1⟩, h.2.congr hleaks⟩) fun s h => ⟨fun hhas => ?_, h.2.congr hleaks⟩
      exact hhas.elim hpublic fun hapi => h.1 hapi.2

theorem fetchSumText_strays (sha : Asset) :
    Triple (Strays host p) (fetchSumText out sha token)
      (fun _ => Strays host (p ∨ (¬ ReadPublicly out sha ∧ LeaksTo host token sha.url)))
      (Strays host (p ∨ (¬ ReadPublicly out sha ∧ LeaksTo host token sha.url))) := by
  have hapi : ¬ ReadPublicly out sha → Triple (Strays host p) (getText sha.url token out.apiSum)
      (fun _ => Strays host (p ∨ (¬ ReadPublicly out sha ∧ LeaksTo host token sha.url)))
      (Strays host (p ∨ (¬ ReadPublicly out sha ∧ LeaksTo host token sha.url))) := by
    intro hasks
    have hleaks : (p ∨ LeaksTo host token sha.url) ↔
        (p ∨ (¬ ReadPublicly out sha ∧ LeaksTo host token sha.url)) :=
      or_congr_right (and_iff_right hasks).symm
    exact Triple.mono_post (getText_gives _ _) (fun _ _ h => h.2.congr hleaks) fun _ h => h.2.congr hleaks
  have hpublic : (p ∨ LeaksTo host none sha.browserDownloadUrl) ↔ p := or_iff_left fun h => h.1 rfl
  refine triple_ite (fun hurl => hapi fun hboth => hboth.1 hurl) fun hurl => ?_
  refine triple_tryCatch (R := fun s => readAnswer out.publicSum = none ∧ Strays host p s) ?_
    fun _ => triple_of_fact fun hnone => hapi fun hboth => ?_
  · refine Triple.mono_post (getText_gives _ _) (fun text s h => (h.2.congr hpublic).congr ?_)
      fun s h => ⟨h.1, h.2.congr hpublic⟩
    refine (or_iff_left fun hasks => hasks.1 ⟨hurl, ?_⟩).symm
    rw [h.1]
    rfl
  · rw [ReadPublicly, hnone] at hboth
    cases hboth.2

/-- The token goes elsewhere for an asset. -/
def Leaks (host : String → Option String) (out : Outcomes) (token : Option String) (tar : Asset)
    (shaAsset : Option Asset) : Prop :=
  (AsksTarball out token tar ∧ ¬ Stays host tar.url) ∨
    ∃ sha, shaAsset = some sha ∧ AsksSum out token tar sha ∧ ¬ Stays host sha.url

theorem verifyTarball_strays (wantAsset tmpTar : String) (tar : Asset) (shaAsset : Option Asset)
    (hhas : HasTarball out token tar) :
    Triple (Strays host (AsksTarball out token tar ∧ ¬ Stays host tar.url))
      (verifyTarball crates out token wantAsset tmpTar shaAsset)
      (fun _ => Strays host (Leaks host out token tar shaAsset))
      (Strays host (Leaks host out token tar shaAsset)) := by
  cases shaAsset with
  | none =>
      refine triple_pure fun s h => h.congr (or_iff_left ?_).symm
      rintro ⟨sha, hsha, -⟩
      cases hsha
  | some sha =>
      have hleaks : ((AsksTarball out token tar ∧ ¬ Stays host tar.url) ∨
          (¬ ReadPublicly out sha ∧ LeaksTo host token sha.url)) ↔
            Leaks host out token tar (some sha) := by
        simp only [Leaks, Option.some.injEq, exists_eq_left']
        refine or_congr_right ⟨fun h => ⟨⟨hhas, h.2.1, h.1⟩, h.2.2⟩, fun h => ?_⟩
        exact ⟨h.1.2.2, h.1.2.1, h.2⟩
      have hsum : Triple (Strays host (AsksTarball out token tar ∧ ¬ Stays host tar.url))
          (fetchSha256 out sha token) (fun _ => Strays host (Leaks host out token tar (some sha)))
          (Strays host (Leaks host out token tar (some sha))) := by
        refine triple_bind ((fetchSumText_strays sha).mono_post (fun _ _ h => h.congr hleaks)
          fun _ h => h.congr hleaks) fun text => ?_
        split
        · exact preserves_pure _
        · exact preserves_throw _
      refine triple_bind hsum fun want => ?_
      exact (preserves_sha256File tmpTar).bind fun got => (preserves_pure _).ite (preserves_throw _)

theorem installRelease_strays (noRestart : Bool) (exe tmpTar newBin : String) (tar : Asset)
    (shaAsset : Option Asset) :
    Triple (Strays host False)
      (installRelease crates out noRestart token exe tmpTar newBin tar shaAsset)
      (fun _ => Strays host (Leaks host out token tar shaAsset))
      (Strays host (Leaks host out token tar shaAsset)) := by
  have hfails : ¬ HasTarball out token tar →
      (False ∨ (AsksTarball out token tar ∧ ¬ Stays host tar.url) ↔ Leaks host out token tar shaAsset) := by
    intro hnot
    rw [false_or, Leaks]
    refine (or_iff_left ?_).symm
    rintro ⟨sha, -, hasks, -⟩
    exact hnot hasks.1
  have hdownload : Triple (Strays host False) (downloadAsset out tar token tmpTar)
      (fun _ s => HasTarball out token tar ∧ Strays host (AsksTarball out token tar ∧ ¬ Stays host tar.url) s)
      (Strays host (Leaks host out token tar shaAsset)) :=
    Triple.mono_post (downloadAsset_succeeds tar tmpTar) (fun _ s h => ⟨h.1, h.2.congr (by rw [false_or])⟩)
      fun s h => h.2.congr (hfails h.1)
  have hextract : Preserves (Strays host (Leaks host out token tar shaAsset))
      (extractBinary crates out tmpTar "vmfleet" newBin) :=
    preserves_extractBinary (offTemps_strays [newBin]) _ _ List.mem_cons_self
  have hreplace : Preserves (Strays host (Leaks host out token tar shaAsset)) (selfReplace out exe newBin) :=
    (preserves_ofExcept _).bind fun _ => (preserves_readFile _).bind fun _ => preserves_modify fun _ h => h
  refine triple_bind hdownload fun _ => triple_of_fact fun hhas => ?_
  refine triple_bind (verifyTarball_strays _ tmpTar tar shaAsset hhas) fun _ => ?_
  refine (preserves_withContext _ hextract).bind fun _ => (preserves_ofExcept _).bind fun _ => ?_
  refine (preserves_withContext _ hreplace).bind fun _ => ?_
  exact (preserves_pure _).ite (preserves_modify fun _ h => h)

/-! ### The whole update -/

def updateToken (out : Outcomes) : Option String := bestEffortToken out.envToken out.configToken

/-- The checksum of the tarball that the release has for this target. -/
def sumFor (out : Outcomes) (rel : Release) : Option Asset :=
  rel.assets.find? (·.name == assetName (trimV rel.tagName) out.target ++ ".sha256")

/-- The token goes elsewhere in the run. -/
def RunLeaks (host : String → Option String) (out : Outcomes) (opts : UpdateOpts) : Prop :=
  ∃ rel tar, Downloads out opts rel tar ∧ Leaks host out (updateToken out) tar (sumFor out rel)

theorem Strays.of_not_downloads {s : Host} (h : Strays host False s)
    (hnot : ∀ rel tar, ¬ Downloads out opts rel tar) : Strays host (RunLeaks host out opts) s :=
  h.congr (iff_of_false id fun ⟨rel, tar, hdown, _⟩ => hnot rel tar hdown)

theorem Downloads.unique {rel rel' : Release} {tar tar' : Asset} (h : Downloads out opts rel tar)
    (h' : Downloads out opts rel' tar') : rel' = rel ∧ tar' = tar := by
  obtain rfl : rel' = rel := Option.some.inj (h'.fetched.symm.trans h.fetched)
  exact ⟨rfl, Option.some.inj (h'.asset.symm.trans h.asset)⟩

theorem runLeaks_iff {rel : Release} {tar : Asset} (h : Downloads out opts rel tar) :
    RunLeaks host out opts ↔ Leaks host out (updateToken out) tar (sumFor out rel) := by
  refine ⟨fun ⟨rel', tar', hdown, hleaks⟩ => ?_, fun hleaks => ⟨rel, tar, h, hleaks⟩⟩
  obtain ⟨rfl, rfl⟩ := h.unique hdown
  exact hleaks

theorem selfUpdate_strays (hhost : host "api.github.com" = some "api.github.com") (crates : Crates)
    (out : Outcomes) (opts : UpdateOpts) :
    Triple (Strays host False) (selfUpdate crates out opts) (fun _ => Strays host (RunLeaks host out opts))
      (Strays host (RunLeaks host out opts)) := by
  unfold selfUpdate
  rw [parseRepoUrl_repositoryUrl]
  dsimp only
  refine triple_bind (Triple.mono_fail (fetchRelease_gives hhost _ _)
    fun s h => h.2.of_not_downloads ?_) fun rel => triple_of_fact fun hfetched => ?_
  · intro rel tar hdown
    cases h.1.symm.trans hdown.fetched
  have hsame : ∀ {rel' tar}, Downloads out opts rel' tar → rel' = rel := fun hdown =>
    Option.some.inj (hdown.fetched.symm.trans hfetched)
  have hstops : (∀ tar, ¬ Downloads out opts rel tar) → Triple (Strays host False) (pure () : Update Unit)
      (fun _ => Strays host (RunLeaks host out opts)) (Strays host (RunLeaks host out opts)) := by
    intro hnot
    refine triple_pure fun s h => h.of_not_downloads fun rel' tar hdown => hnot tar ?_
    rwa [← hsame hdown]
  refine triple_ite (fun hwanted => ?_) fun hnot => hstops fun _ hdown => hnot hdown.wanted
  refine triple_ite (fun hcheck => hstops fun _ hdown => ?_) fun hcheck => ?_
  · rw [hdown.checkOnly] at hcheck
    cases hcheck
  refine triple_ite (fun hagreed => ?_) fun hnot => hstops fun _ hdown => hnot hdown.agreed
  split
  · next tar hasset =>
      refine triple_bind ((withContext_spec _ (triple_ofExcept_eq _)).mono_fail fun s h =>
        h.2.of_not_downloads fun _ _ hdown => ?_) fun exe => triple_of_fact fun hexe => ?_
      · obtain ⟨exe, hexe⟩ := hdown.located
        rw [hexe] at h
        cases h.1
      have hdown : Downloads out opts rel tar :=
        ⟨hfetched, hwanted, Bool.eq_false_of_not_eq_true hcheck, hagreed, hasset, exe, hexe⟩
      exact withTempCleanup_drops (installRelease_strays _ _ _ _ tar _)
        (fun _ _ h => h.congr (runLeaks_iff hdown).symm) fun _ h => h.congr (runLeaks_iff hdown).symm
  · next hnone =>
      refine triple_throw fun s h => h.of_not_downloads fun rel' tar hdown => hnone tar ?_
      rw [← hsame hdown]
      exact hdown.asset

/-- **When the token stays with the API.** -/
theorem selfUpdate_token_stays_iff (hhost : host "api.github.com" = some "api.github.com")
    (crates : Crates) (out : Outcomes) (opts : UpdateOpts) (files : String → Option Bytes) :
    TokenStays host ((selfUpdate crates out opts).from files).2 ↔
      ∀ rel tar, Downloads out opts rel tar →
        (AsksTarball out (updateToken out) tar → Stays host tar.url) ∧
        ∀ sha, sumFor out rel = some sha → AsksSum out (updateToken out) tar sha → Stays host sha.url := by
  have hends : Strays host (RunLeaks host out opts) ((selfUpdate crates out opts).from files).2 :=
    (selfUpdate_strays hhost crates out opts).final (iff_of_false (by simp) id)
  constructor
  · intro hkeeps rel tar hdown
    have hnot : ¬ Leaks host out (updateToken out) tar (sumFor out rel) := by
      intro hleaks
      obtain ⟨q, hq, hauthorized, hstrays⟩ := hends.mpr ⟨rel, tar, hdown, hleaks⟩
      exact hstrays (hkeeps q hq hauthorized)
    exact ⟨fun hasks => by_contra fun hstrays => hnot (.inl ⟨hasks, hstrays⟩),
      fun sha hsha hasks => by_contra fun hstrays => hnot (.inr ⟨sha, hsha, hasks, hstrays⟩)⟩
  · intro hstays q hq hauthorized
    by_contra hstrays
    obtain ⟨rel, tar, hdown, ⟨hasks, h⟩ | ⟨sha, hsha, hasks, h⟩⟩ := hends.mp ⟨q, hq, hauthorized, hstrays⟩
    · exact h ((hstays rel tar hdown).1 hasks)
    · exact h ((hstays rel tar hdown).2 sha hsha hasks)

/-- The tarball, at this URL of the API according to its release. -/
def privateAsset (url : String) : Asset := { tarAsset with url := url }

/-- The public download of the tarball is refused. -/
def publicRefused (url : String) : Outcomes :=
  { sampleOutcomes [privateAsset url] with
    envToken := some "ghp_secret", publicTarball := { fileWritten with replies := fun _ => .status 404 } }

theorem publicRefused_stays :
    TokenStays plainHost ((selfUpdate sampleCrates
      (publicRefused "https://api.github.com/repos/gagalo1234/vmfleet/7") {}).from fun _ => none).2 := by
  have hurl : Stays plainHost "https://api.github.com/repos/gagalo1234/vmfleet/7" :=
    stays_api (by decide) "gagalo1234/vmfleet/7"
  refine (selfUpdate_token_stays_iff (by decide) _ _ _ _).mpr fun rel tar hdown => ?_
  obtain rfl : rel = publishedRelease [privateAsset "https://api.github.com/repos/gagalo1234/vmfleet/7"] :=
    (Option.some.inj hdown.fetched).symm
  have hasset : some tar = some (privateAsset "https://api.github.com/repos/gagalo1234/vmfleet/7") :=
    hdown.asset.symm.trans (by decide +kernel)
  obtain rfl := Option.some.inj hasset
  refine ⟨fun _ => hurl, fun sha hsha => ?_⟩
  have hnone : some sha = none := hsha.symm.trans (by decide +kernel)
  cases hnone

/-- The release says that the API has its tarball on another host. -/
theorem token_sent_to_asset_url :
    ¬ TokenStays plainHost ((selfUpdate sampleCrates
      (publicRefused "https://assets.example/vmfleet.tar.gz") {}).from fun _ => none).2 := by
  intro hstays
  have hsent : ∃ q ∈ ((selfUpdate sampleCrates (publicRefused "https://assets.example/vmfleet.tar.gz")
      {}).from fun _ => none).2.requests, q.authorized = true ∧
        Url.origin plainHost q.url = some ⟨"https", "assets.example", 443⟩ := by decide +kernel
  obtain ⟨q, hq, hauthorized, horigin⟩ := hsent
  exact absurd (hstays q hq hauthorized _ horigin).2 (by decide)

end

end VmFleet
