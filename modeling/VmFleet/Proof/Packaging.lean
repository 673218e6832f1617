import VmFleet.Proof.SelfUpdate
import VmFleet.Source.Packaging

/-!
# What a packaged release holds

`release.yml` and `selfupdate.rs` agree on the names of the assets, on the form of a checksum and on the
place of the binary in an archive.
-/

namespace VmFleet

/-! ### Names in an archive -/

/-- A component that a path may end in. -/
def IsFileName (name : String) : Prop := '/' ∉ name.toList ∧ name ≠ "" ∧ name ≠ "." ∧ name ≠ ".."

instance (name : String) : Decidable (IsFileName name) :=
  inferInstanceAs (Decidable ('/' ∉ name.toList ∧ name ≠ "" ∧ name ≠ "." ∧ name ≠ ".."))

theorem fileName_of_fields {path name : String} (before : List (List Char)) (hname : IsFileName name)
    (hfields : ((Text.fields '/' path).map String.ofList).filter (fun c => c ≠ "" ∧ c ≠ ".") =
      before.map String.ofList ++ [name]) : fileName path = some name := by
  rw [fileName, hfields, List.getLast?_append, List.getLast?_singleton, Option.some_or]
  split
  · next heq => exact absurd (Option.some.inj heq) hname.2.2.2
  · rfl

theorem filter_fileName {name : String} (hname : IsFileName name) :
    ((Text.fields '/' name).map String.ofList).filter (fun c => c ≠ "" ∧ c ≠ ".") = [name] := by
  have hkeep : decide (name ≠ "" ∧ name ≠ ".") = true := decide_eq_true ⟨hname.2.1, hname.2.2.1⟩
  rw [Text.fields_of_not_mem hname.1, List.map_singleton, String.ofList_toList]
  exact List.filter_cons_of_pos hkeep

theorem fileName_in_directory {dir name : String} (hdir : IsFileName dir) (hname : IsFileName name) :
    fileName (dir ++ "/" ++ name) = some name := by
  apply fileName_of_fields [dir.toList] hname
  rw [show ("/" : String) = String.singleton '/' from rfl, Text.fields_append, List.map_append,
    List.filter_append, filter_fileName hdir, filter_fileName hname, List.map_singleton,
    String.ofList_toList]

theorem fileName_of_directory {dir : String} (hdir : IsFileName dir) : fileName (dir ++ "/") = some dir := by
  have hempty : ((Text.fields '/' "").map String.ofList).filter (fun c => c ≠ "" ∧ c ≠ ".") = [] := by
    decide +kernel
  apply fileName_of_fields [] hdir
  rw [show dir ++ "/" = dir ++ String.singleton '/' ++ "" from (String.append_empty).symm,
    Text.fields_append, List.map_append, List.filter_append, filter_fileName hdir, hempty]
  rfl

/-! ### The version of a tag -/

theorem BuildJob.pkg_eq (job : BuildJob) (version : String) :
    job.pkg version = "vmfleet-" ++ version ++ "-" ++ job.target := rfl

namespace ReleaseRun

variable (run : ReleaseRun)

theorem ref_eq : run.ref = "v" ++ run.version := by
  have htagged := run.tagged
  rw [isReleaseTag, Bool.and_eq_true, Bool.and_eq_true] at htagged
  obtain ⟨rest, hrest⟩ := Text.startsWith_iff.mp htagged.1.1
  rw [version, refVersion, hrest, Text.stripPrefix_append, Option.getD_some]

theorem slash_not_mem_version : '/' ∉ run.version.toList := by
  have htagged := run.tagged
  rw [isReleaseTag, Bool.and_eq_true, Bool.and_eq_true, Bool.not_eq_true', run.ref_eq,
    String.toList_append] at htagged
  intro hmem
  have hnot := htagged.1.2
  rw [List.contains_eq_mem, decide_eq_false_iff_not] at hnot
  exact hnot (List.mem_append_right _ hmem)

/-- The version begins with a digit, as the one in `Cargo.toml` does. -/
theorem version_head : run.version.toList.head?.any Char.isDigit = true := by
  have hnumbered := run.numbered
  rw [run.verified, tagBase, Text.firstField, String.toList_ofList] at hnumbered
  rw [version]
  cases hversion : (refVersion run.ref).toList with
  | nil =>
      rw [hversion] at hnumbered
      exact hnumbered
  | cons c rest =>
      rw [hversion, List.takeWhile_cons] at hnumbered
      split at hnumbered
      · exact hnumbered
      · cases hnumbered

theorem trimV_ref : trimV run.ref = run.version := by
  have hhead := run.version_head
  rw [trimV, run.ref_eq, String.toList_append]
  cases hversion : run.version.toList with
  | nil =>
      rw [hversion] at hhead
      cases hhead
  | cons c rest =>
      rw [hversion] at hhead
      have hne : (c == 'v') = false := by
        apply beq_eq_false_iff_ne.mpr
        rintro rfl
        cases hhead
      show String.ofList ((c :: rest).dropWhile (· == 'v')) = run.version
      rw [List.dropWhile_cons, hne, if_neg Bool.false_ne_true, ← hversion, String.ofList_toList]

theorem target_mem {job : BuildJob} (hjob : job ∈ run.jobs) : job.target ∈ matrixTargets := by
  rw [← run.matrix]
  exact List.mem_map_of_mem hjob

/-- The targets of the matrix are distinct. -/
theorem eq_of_target_eq {job other : BuildJob} (hjob : job ∈ run.jobs) (hother : other ∈ run.jobs)
    (h : job.target = other.target) : job = other := by
  have hnodup : (run.jobs.map (·.target)).Nodup := by
    rw [run.matrix]
    decide
  exact List.inj_on_of_nodup_map hnodup hjob hother h

theorem isFileName_pkg {job : BuildJob} (hjob : job ∈ run.jobs) : IsFileName (job.pkg run.version) := by
  have htargets : ∀ target ∈ matrixTargets, '/' ∉ target.toList := by decide
  have hlong : ∀ name : String, name.toList.length ≤ 2 → job.pkg run.version ≠ name := by
    rintro name hshort rfl
    have hfront : "vmfleet-".toList.length = 8 := by decide
    simp only [BuildJob.pkg_eq, String.toList_append, List.length_append] at hshort
    omega
  refine ⟨?_, hlong _ (by decide), hlong _ (by decide), hlong _ (by decide)⟩
  simp only [BuildJob.pkg_eq, String.toList_append, List.mem_append, not_or]
  exact ⟨⟨⟨by decide, run.slash_not_mem_version⟩, by decide⟩, htargets _ (run.target_mem hjob)⟩

end ReleaseRun

/-! ### What an archive holds -/

/-- The only element of a list that a search looks for is found. -/
theorem find?_of_unique {α : Type} {p : α → Bool} {x : α} {xs : List α} (hx : x ∈ xs) (hp : p x = true)
    (hunique : ∀ y ∈ xs, p y = true → y = x) : xs.find? p = some x := by
  cases hfind : xs.find? p with
  | none => exact absurd hp (List.find?_eq_none.mp hfind x hx)
  | some y => rw [hunique y (List.mem_of_find?_eq_some hfind) (List.find?_some hfind)]

/-- The directory of a package is not taken for the binary. -/
theorem BuildJob.pkg_ne_vmfleet (job : BuildJob) (version : String) : job.pkg version ≠ "vmfleet" := by
  intro h
  have hlength := congrArg (fun name => name.toList.length) h
  simp only [BuildJob.pkg_eq, String.toList_append, List.length_append] at hlength
  have hfront : "vmfleet-".toList.length = 8 := by decide
  have hwhole : "vmfleet".toList.length = 7 := by decide
  omega

theorem filterMap_ok (entries : List TarEntry) :
    (entries.map (Except.ok : TarEntry → Except String TarEntry)).filterMap Except.toOption = entries := by
  rw [List.filterMap_map]
  exact List.filterMap_some

theorem memberEntry_members (run : ReleaseRun) {job : BuildJob} (hjob : job ∈ run.jobs) :
    memberEntry "vmfleet" ((job.members run.version).map .ok) =
      some ⟨job.pkg run.version ++ "/" ++ "vmfleet", job.binary⟩ := by
  have hperm := run.packed job hjob
  have hpkg := run.isFileName_pkg hjob
  have hlisted : ∀ file ∈ job.listing, IsFileName file.1 ∧ (file.1 = "vmfleet" → file.2 = job.binary) := by
    have hall : ∀ file ∈ [("vmfleet", job.binary), ("README.md", run.readme), ("LICENSE", run.license)],
        IsFileName file.1 ∧ (file.1 = "vmfleet" → file.2 = job.binary) := by
      simp only [List.mem_cons, List.not_mem_nil, or_false, forall_eq_or_imp, forall_eq]
      exact ⟨⟨by decide, fun _ => trivial⟩, ⟨by decide, fun h => absurd h (by decide)⟩, by decide,
        fun h => absurd h (by decide)⟩
    exact fun file hfile => hall file (hperm.mem_iff.mp hfile)
  have hnames : ∀ file ∈ job.listing,
      fileName (job.pkg run.version ++ "/" ++ file.1) = some file.1 :=
    fun file hfile => fileName_in_directory hpkg (hlisted file hfile).1
  have hbinary : ("vmfleet", job.binary) ∈ job.listing := hperm.mem_iff.mpr List.mem_cons_self
  rw [memberEntry, filterMap_ok]
  apply find?_of_unique
  · exact List.mem_cons_of_mem _ (List.mem_map.mpr ⟨_, hbinary, rfl⟩)
  · have hname := hnames _ hbinary
    dsimp only at hname ⊢
    rw [hname, decide_eq_true rfl]
  · intro entry hentry hfound
    have hname := of_decide_eq_true hfound
    rcases List.mem_cons.mp hentry with rfl | hentry
    · rw [fileName_of_directory hpkg] at hname
      exact absurd (Option.some.inj hname) (job.pkg_ne_vmfleet run.version)
    · obtain ⟨file, hfile, rfl⟩ := List.mem_map.mp hentry
      rw [hnames file hfile] at hname
      rw [(hlisted file hfile).2 (Option.some.inj hname), Option.some.inj hname]

/-! ### Checksums -/

theorem isHexDigit_of_mem_hexDigest {digest : Bytes} {c : Char} (hc : c ∈ (hexDigest digest).toList) :
    isHexDigit c = true := by
  have hdigit : ∀ n < 16, isHexDigit (Nat.digitChar n) = true := by decide
  rw [hexDigest, String.toList_ofList] at hc
  obtain ⟨b, -, hc⟩ := List.mem_flatMap.mp hc
  have hb := b.toNat_lt
  simp only [List.mem_cons, List.not_mem_nil, or_false] at hc
  obtain rfl | rfl := hc
  · exact hdigit _ (by omega)
  · exact hdigit _ (by omega)

theorem length_hexDigest (digest : Bytes) : (hexDigest digest).toList.length = 2 * digest.length := by
  rw [hexDigest, String.toList_ofList]
  induction digest with
  | nil => rfl
  | cons b rest ih =>
      rw [List.flatMap_cons, List.length_append, ih]
      simp only [List.length_cons, List.length_nil]
      omega

/-- A text of ASCII characters has one byte for each of them. -/
theorem utf8ByteSize_of_ascii {s : String} (h : ∀ c ∈ s.toList, c.val ≤ 127) :
    s.utf8ByteSize = s.toList.length := by
  rw [← String.ofList_toList (s := s), String.toList_ofList]
  generalize s.toList = cs at h
  induction cs with
  | nil => rfl
  | cons c cs ih =>
      have hone : (String.singleton c).utf8ByteSize = 1 := by
        rw [← String.size_toByteArray, String.toByteArray_singleton, List.utf8Encode_singleton,
          List.size_toByteArray, String.length_utf8EncodeChar]
        exact Char.utf8Size_eq_one_iff.mpr (h c List.mem_cons_self)
      rw [String.ofList_cons, String.utf8ByteSize_append, hone,
        ih fun c hc => h c (List.mem_cons_of_mem _ hc), List.length_cons]
      omega

theorem isHexDigit_bounds {c : Char} (h : isHexDigit c = true) : 0x20 < c.toNat ∧ c.toNat < 0x7f := by
  simp only [isHexDigit, Char.isDigit, Bool.or_eq_true, Bool.and_eq_true, decide_eq_true_eq] at h
  have hle : ∀ d e : Char, d ≤ e → d.toNat ≤ e.toNat := fun _ _ h => h
  obtain (⟨hlow, hhigh⟩ | ⟨hlow, hhigh⟩) | ⟨hlow, hhigh⟩ := h
  · have hlow : 48 ≤ c.toNat := hlow
    have hhigh : c.toNat ≤ 57 := hhigh
    omega
  · have hlow : 97 ≤ c.toNat := hle _ _ hlow
    have hhigh : c.toNat ≤ 102 := hle _ _ hhigh
    omega
  · have hlow : 65 ≤ c.toNat := hle _ _ hlow
    have hhigh : c.toNat ≤ 70 := hle _ _ hhigh
    omega

theorem parseSha256_sha256sumLine {digest : Bytes} (hlength : digest.length = 32) (name : String) :
    parseSha256 (sha256sumLine digest name) = some (hexDigest digest) := by
  have hhex : ∀ c ∈ (hexDigest digest).toList, isHexDigit c = true := fun _ => isHexDigit_of_mem_hexDigest
  have hchars : (hexDigest digest).toList.length = 64 := by rw [length_hexDigest, hlength]
  have hword : Text.firstWord (sha256sumLine digest name) = some (hexDigest digest) := by
    rw [sha256sumLine, String.append_assoc, String.append_assoc,
      show "  " ++ (name ++ "\n") = " " ++ (" " ++ (name ++ "\n")) from by
        rw [← String.append_assoc]; rfl, ← String.append_assoc]
    apply Text.firstWord_append
    · intro c hc
      have hbounds := isHexDigit_bounds (hhex c hc)
      exact Text.isWhitespace_of_graphic hbounds.1 hbounds.2
    · intro hnil
      rw [hnil] at hchars
      cases hchars
  have hsize : (hexDigest digest).utf8ByteSize = 64 := by
    rw [utf8ByteSize_of_ascii, hchars]
    intro c hc
    exact Nat.le_of_lt (isHexDigit_bounds (hhex c hc)).2
  rw [parseSha256, hword]
  show (if _ then _ else _) = _
  rw [if_pos ⟨hsize, List.all_eq_true.mpr hhex⟩, asciiLowercase_hexDigest]

/-! ### The files of a release -/

section

variable {packers : Packers} {run : ReleaseRun} {job : BuildJob}

theorem BuildJob.tarballName_eq (job : BuildJob) (version : String) :
    job.tarballName version = assetName version job.target := rfl

theorem assetName_injective {version target other : String}
    (h : assetName version target = assetName version other) : target = other := by
  have hlist := congrArg String.toList h
  have hsplit : ∀ target, (assetName version target).toList =
      ("vmfleet-" ++ version ++ "-").toList ++ target.toList ++ ".tar.gz".toList := by
    intro target
    rw [← String.toList_append, ← String.toList_append]
    rfl
  rw [hsplit, hsplit, List.append_left_inj, List.append_right_inj] at hlist
  exact String.toList_inj.mp hlist

/-- No tarball has the name of a checksum. -/
theorem assetName_ne_sum (version target other : String) :
    assetName version target ≠ assetName version other ++ ".sha256" := by
  intro h
  have hlast := congrArg (fun name => name.toList.getLast?) h
  have htar : (assetName version target).toList.getLast? = some 'z' := by
    rw [show assetName version target = s!"vmfleet-{version}-{target}" ++ ".tar.gz" from rfl,
      String.toList_append, List.getLast?_append]
    rfl
  have hsum : (assetName version other ++ ".sha256").toList.getLast? = some '6' := by
    rw [String.toList_append, List.getLast?_append]
    rfl
  rw [htar, hsum] at hlast
  cases hlast

theorem mem_dist_iff {file : String × Bytes} :
    file ∈ run.dist packers ↔ ∃ job ∈ run.jobs,
      file = (assetName run.version job.target, job.tarball packers run.version) ∨
      file = (assetName run.version job.target ++ ".sha256",
        Utf8.encode (job.sumLine packers run.version).toList) := by
  rw [ReleaseRun.dist, List.mem_flatMap]
  simp only [BuildJob.package, BuildJob.tarballName_eq, List.mem_cons, List.not_mem_nil, or_false]

/-- Under the name of a tarball there is nothing else. -/
theorem eq_tarball_of_mem_dist (hjob : job ∈ run.jobs) {body : Bytes}
    (h : (assetName run.version job.target, body) ∈ run.dist packers) :
    body = job.tarball packers run.version := by
  obtain ⟨other, hother, h | h⟩ := mem_dist_iff.mp h
  · have htarget := assetName_injective (congrArg Prod.fst h)
    rw [run.eq_of_target_eq hjob hother htarget]
    exact congrArg Prod.snd h
  · exact absurd (congrArg Prod.fst h) (assetName_ne_sum _ _ _)

theorem eq_sumLine_of_mem_dist (hjob : job ∈ run.jobs) {text : String}
    (h : (assetName run.version job.target ++ ".sha256", Utf8.encode text.toList) ∈ run.dist packers) :
    text = job.sumLine packers run.version := by
  obtain ⟨other, hother, h | h⟩ := mem_dist_iff.mp h
  · exact absurd (congrArg Prod.fst h).symm (assetName_ne_sum _ _ _)
  · have hname := (String.append_left_inj _).mp (congrArg Prod.fst h)
    rw [run.eq_of_target_eq hjob hother (assetName_injective hname)]
    have hdecoded := congrArg Utf8.decode (congrArg Prod.snd h)
    rw [Utf8.decode_encode, Utf8.decode_encode] at hdecoded
    exact String.toList_inj.mp hdecoded

/-- The release has the files of `dist` as its assets. -/
structure Staged (packers : Packers) (run : ReleaseRun) (rel : Release) : Prop where
  tagName : rel.tagName = run.ref
  assets : (rel.assets.map (·.name)).Perm ((run.dist packers).map (·.1))

/-- The responses for the assets of this target are the files. -/
structure Serves (packers : Packers) (run : ReleaseRun) (out : Outcomes) : Prop where
  tarball : ∀ n body, out.publicTarball.replies n = .response body ∨ out.apiTarball.replies n = .response body →
    (assetName run.version out.target, body) ∈ run.dist packers
  sum : ∀ n text, out.publicSum n = .response (.ok text) ∨ out.apiSum n = .response (.ok text) →
    (assetName run.version out.target ++ ".sha256", Utf8.encode text.toList) ∈ run.dist packers

theorem exists_asset_of_mem {assets : List Asset} {name : String} (h : name ∈ assets.map (·.name)) :
    ∃ asset, assets.find? (·.name == name) = some asset := by
  obtain ⟨asset, hasset, rfl⟩ := List.mem_map.mp h
  apply Option.isSome_iff_exists.mp
  rw [List.find?_isSome]
  exact ⟨asset, hasset, beq_self_eq_true _⟩

theorem Staged.exists_asset {rel : Release} (h : Staged packers run rel) {name : String} {body : Bytes}
    (hfile : (name, body) ∈ run.dist packers) : ∃ asset, rel.assets.find? (·.name == name) = some asset :=
  exists_asset_of_mem (h.assets.mem_iff.mpr (List.mem_map.mpr ⟨_, hfile, rfl⟩))

end

end VmFleet
