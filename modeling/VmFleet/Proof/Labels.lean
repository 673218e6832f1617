import VmFleet.Library.Shell
import VmFleet.Source.Labels
import VmFleet.Proof.Sweep

/-!
# Whether both registrations give the same labels

The labels go into the request for a just-in-time configuration as they are. Into the script they go joined
with commas and between quotes, where a comma in a label makes two labels of it and a quote ends the word.
What a shell does with words that are not made of quotes and ordinary characters is left open, so that the
registrations are only said to agree if they do for every shell that follows the rules of quoting.
-/

namespace VmFleet

open Shell WorkerLife

/-! ### The script -/

/-- The script of `lifecycle` up to the command line of `config.sh`. -/
def configSetup : String := "set -euo pipefail; cd ~/actions-runner; "

def configPieces (url token own labels : String) : List Piece :=
  [.bare "./config.sh", .bare "--unattended", .bare "--url", .quoted url, .bare "--token", .quoted token,
    .bare "--name", .quoted own, .bare "--labels", .quoted labels, .bare "--ephemeral", .bare "--replace"]

theorem configScript_eq (url token own labels : String) :
    configScript url token own labels =
      configSetup ++ " ".intercalate ((configPieces url token own labels).map Piece.text) := by
  have hstart : "set -euo pipefail; cd ~/actions-runner; ./config.sh --unattended --url '" =
      configSetup ++ "./config.sh" ++ " " ++ "--unattended" ++ " " ++ "--url" ++ " " ++ "'" := by decide
  have htoken : "' --token '" = "'" ++ " " ++ "--token" ++ " " ++ "'" := by decide
  have hname : "' --name '" = "'" ++ " " ++ "--name" ++ " " ++ "'" := by decide
  have hlabels : "' --labels '" = "'" ++ " " ++ "--labels" ++ " " ++ "'" := by decide
  have hend : "' --ephemeral --replace" = "'" ++ " " ++ "--ephemeral" ++ " " ++ "--replace" := by decide
  delta configScript
  rw [hstart, htoken, hname, hlabels, hend]
  simp only [configPieces, List.map_cons, List.map_nil, Piece.text, String.intercalate_cons_cons,
    String.intercalate_singleton, String.append_assoc]

theorem map_word_configPieces (url token own labels : String) :
    (configPieces url token own labels).map Piece.word =
      "./config.sh" :: configShArgs url token own labels := rfl

/-- What a shell runs `config.sh` with, if it does, where the script is one of `lifecycle`. -/
def FollowsQuoting (configArgs : String → Option (List String)) : Prop :=
  ∀ line args, words line = some ("./config.sh" :: args) → configArgs (configSetup ++ line) = some args

/-- The shell that runs nothing it has no rule for. -/
def strictArgs (script : String) : Option (List String) :=
  match (Text.stripPrefix script configSetup).bind words with
  | some (program :: args) => if program = "./config.sh" then some args else none
  | _ => none

theorem followsQuoting_strictArgs : FollowsQuoting strictArgs := by
  intro line args hwords
  simp only [strictArgs, Text.stripPrefix_append, Option.bind_some, hwords, if_true]

theorem words_of_strictArgs {line : String} {args : List String}
    (h : strictArgs (configSetup ++ line) = some args) : words line = some ("./config.sh" :: args) := by
  rw [strictArgs, Text.stripPrefix_append, Option.bind_some] at h
  split at h
  · rename_i program args' hwords
    obtain ⟨rfl, hargs⟩ := Option.ite_none_right_eq_some.mp h
    cases hargs
    exact hwords
  · cases h

/-! ### Agreement -/

def SameLabels (xs ys : List String) : Prop := ∀ l, l ∈ xs ↔ l ∈ ys

/-- A runner record with some default labels and the given ones. -/
def recordWith (r : Runner) (defaults labels : List String) : Runner :=
  { r with labels := (defaults ++ labels).map Label.mk }

/-- `reconcile` counts a runner with these labels as one of the pool, whatever its default labels are. -/
def Recognised (pool : Pool) (labels : List String) : Prop :=
  ∀ r defaults, pool.mine [recordWith r defaults labels] = [recordWith r defaults labels]

/-- Without JIT, `config.sh` gets the URL, the token and the name it is meant to get, and the labels it gives
the runner are those of the pool, as they are with JIT. -/
def PathsAgree (configArgs : String → Option (List String)) (cfg : Config) (pool : Pool)
    (own token : String) : Prop :=
  ∃ url labels, cfg.github.runnerUrl = .ok url ∧
    configArgs (configScript url token own pool.labelsCsv) = some (configShArgs url token own labels) ∧
    (SameLabels (splitLabels labels) pool.labels ∧ Recognised pool (splitLabels labels)) ∧
    SameLabels (generateJitconfig cfg.github own pool.labels).labels pool.labels ∧
      Recognised pool (generateJitconfig cfg.github own pool.labels).labels

/-- Whatever else the shell may do. -/
def AlwaysAgree (cfg : Config) (pool : Pool) (own token : String) : Prop :=
  ∀ configArgs, FollowsQuoting configArgs → PathsAgree configArgs cfg pool own token

/-- Whatever shell it is. -/
def NeverAgree (cfg : Config) (pool : Pool) (own token : String) : Prop :=
  ∀ configArgs, FollowsQuoting configArgs → ¬ PathsAgree configArgs cfg pool own token

/-- Nothing that goes into the script holds a quote or a zero byte, and no label holds a comma. -/
structure Quotable (cfg : Config) (pool : Pool) (token : String) : Prop where
  url : ∀ url, cfg.github.runnerUrl = .ok url → ∀ c ∈ url.toList, ¬ Excluded c
  token : ∀ c ∈ token.toList, ¬ Excluded c
  labels : ∀ l ∈ pool.labels, ∀ c ∈ l.toList, ¬ Excluded c ∧ c ≠ ','

/-! ### Joining and splitting -/

theorem splitLabels_labelsCsv {pool : Pool} (hne : pool.labels ≠ [])
    (hcomma : ∀ l ∈ pool.labels, ',' ∉ l.toList) : splitLabels pool.labelsCsv = pool.labels := by
  have hfields : Text.fields ',' pool.labelsCsv = pool.labels.flatMap (Text.fields ',') :=
    Text.fields_intercalate hne
  have hsingle : pool.labels.flatMap (Text.fields ',') = pool.labels.flatMap fun l => [l.toList] :=
    List.flatMap_congr fun l hl => Text.fields_of_not_mem (hcomma l hl)
  rw [splitLabels, hfields, hsingle]
  simp [List.flatMap_singleton', List.map_flatMap]

theorem of_mem_splitLabels {labels l : String} (hl : l ∈ splitLabels labels) {c : Char}
    (hc : c ∈ l.toList) : c ∈ labels.toList ∧ c ≠ ',' := by
  obtain ⟨field, hfield, rfl⟩ := List.mem_map.mp hl
  rw [String.toList_ofList] at hc
  refine ⟨(Text.infix_of_mem_fields hfield).subset hc, ?_⟩
  rintro rfl
  exact Text.not_mem_of_mem_fields hfield hc

theorem hasLabel_recordWith (r : Runner) (defaults labels : List String) (l : String) :
    (recordWith r defaults labels).hasLabel l = true ↔ l ∈ defaults ∨ l ∈ labels := by
  simp [recordWith, Runner.hasLabel]

/-- A pool has a label, so that it knows the runners with its labels. -/
theorem recognised_of_sameLabels {pool : Pool} {labels : List String} (hne : pool.labels ≠ [])
    (hsame : SameLabels labels pool.labels) : Recognised pool labels := by
  intro r defaults
  obtain ⟨l, hl⟩ := List.exists_mem_of_ne_nil _ hne
  have hown : (recordWith r defaults labels).hasLabel l = true :=
    (hasLabel_recordWith r defaults labels l).mpr (Or.inr ((hsame l).mpr hl))
  have hknown : pool.labels.any (recordWith r defaults labels).hasLabel = true :=
    List.any_eq_true.mpr ⟨l, hl, hown⟩
  simp [Pool.mine, hknown]

theorem not_excluded_vmName {pool : String} (hpool : validName pool = true) (slot : Nat) (ts : UInt64)
    (pid : UInt32) : ∀ c ∈ (vmName pool slot ts pid).toList, ¬ Excluded c := by
  intro c hc hexcluded
  have hname := (Bool.and_eq_true _ _).mp (validName_vmName hpool slot ts pid)
  have hvalid := List.all_eq_true.mp hname.2 c hc
  rcases hexcluded with rfl | rfl <;> exact absurd hvalid (by decide)

/-! ### The condition -/

section

variable {cfg : Config} {pool : Pool} {own token : String}

theorem safe_configPieces {url labels : String} (hurl : ∀ c ∈ url.toList, ¬ Excluded c)
    (htoken : ∀ c ∈ token.toList, ¬ Excluded c) (hown : ∀ c ∈ own.toList, ¬ Excluded c)
    (hlabels : ∀ c ∈ labels.toList, ¬ Excluded c) : ∀ p ∈ configPieces url token own labels, p.Safe := by
  simp only [configPieces, List.forall_mem_cons]
  exact ⟨Piece.safe_bare (by decide), Piece.safe_bare (by decide), Piece.safe_bare (by decide), hurl,
    Piece.safe_bare (by decide), htoken, Piece.safe_bare (by decide), hown, Piece.safe_bare (by decide),
    hlabels, Piece.safe_bare (by decide), Piece.safe_bare (by decide), by simp⟩

/-- The joined labels hold what the labels hold, and commas. -/
theorem Quotable.labelsCsv (h : Quotable cfg pool token) : ∀ c ∈ pool.labelsCsv.toList, ¬ Excluded c := by
  intro c hc
  rcases Text.mem_intercalate hc with hcomma | ⟨l, hl, hc⟩
  · rw [List.mem_singleton.mp hcomma]
    decide
  · exact (h.labels l hl c hc).1

/-- Without quotes in it, the script gives `config.sh` its values as they are. -/
theorem args_of_followsQuoting {configArgs : String → Option (List String)} {url labels : String}
    (hrules : FollowsQuoting configArgs) (hurl : ∀ c ∈ url.toList, ¬ Excluded c)
    (htoken : ∀ c ∈ token.toList, ¬ Excluded c) (hown : ∀ c ∈ own.toList, ¬ Excluded c)
    (hlabels : ∀ c ∈ labels.toList, ¬ Excluded c) :
    configArgs (configScript url token own labels) = some (configShArgs url token own labels) := by
  have hwords := words_intercalate (safe_configPieces hurl htoken hown hlabels)
  rw [map_word_configPieces] at hwords
  rw [configScript_eq]
  exact hrules _ _ hwords

theorem alwaysAgree_of_quotable {url : String} (hurl : cfg.github.runnerUrl = .ok url)
    (hne : pool.labels ≠ []) (hown : ∀ c ∈ own.toList, ¬ Excluded c) (h : Quotable cfg pool token) :
    AlwaysAgree cfg pool own token := by
  intro configArgs hrules
  have hsplit : splitLabels pool.labelsCsv = pool.labels :=
    splitLabels_labelsCsv hne fun l hl hcomma => (h.labels l hl ',' hcomma).2 rfl
  have hsame : SameLabels pool.labels pool.labels := fun _ => Iff.rfl
  have hknown : Recognised pool pool.labels := recognised_of_sameLabels hne hsame
  refine ⟨url, pool.labelsCsv, hurl,
    args_of_followsQuoting hrules (h.url url hurl) h.token hown h.labelsCsv, ?_, hsame, hknown⟩
  rw [hsplit]
  exact ⟨hsame, hknown⟩

theorem quotable_of_alwaysAgree (h : AlwaysAgree cfg pool own token) : Quotable cfg pool token := by
  obtain ⟨url, labels, hurl, hargs, ⟨hsame, _⟩, _⟩ := h strictArgs followsQuoting_strictArgs
  rw [configScript_eq] at hargs
  have hclean : ∀ w ∈ "./config.sh" :: configShArgs url token own labels, ∀ c ∈ w.toList, ¬ Excluded c :=
    not_excluded_of_words (words_of_strictArgs hargs)
  refine ⟨fun url' hurl' => ?_, ?_, fun l hl c hc => ?_⟩
  · rw [hurl] at hurl'
    cases hurl'
    exact hclean url (by simp [configShArgs])
  · exact hclean token (by simp [configShArgs])
  · obtain ⟨hmem, hcomma⟩ := of_mem_splitLabels ((hsame l).mpr hl) hc
    exact ⟨hclean labels (by simp [configShArgs]) c hmem, hcomma⟩

end

theorem exists_runnerUrl {gh : GitHub} (h : ∃ path, gh.scopePath = .ok path) :
    ∃ url, gh.runnerUrl = .ok url := by
  obtain ⟨path, hpath⟩ := h
  rw [GitHub.runnerUrl]
  split
  · exact ⟨_, rfl⟩
  · exact ⟨_, rfl⟩
  · exact ⟨path, hpath⟩

/-- **The registrations agree exactly when nothing in the script needs more than quotes.** -/
theorem alwaysAgree_iff {cfg : Config} {pool : Pool} (hvalid : cfg.validate = .ok ())
    (hpool : pool ∈ cfg.pools) (slot : Nat) (ts : UInt64) (pid : UInt32) (token : String) :
    AlwaysAgree cfg pool (vmName pool.name slot ts pid) token ↔ Quotable cfg pool token := by
  have hcfg : cfg.Valid := Config.valid_of_validate hvalid
  obtain ⟨url, hurl⟩ := exists_runnerUrl hcfg.scope
  exact ⟨quotable_of_alwaysAgree, alwaysAgree_of_quotable hurl (hcfg.labels_ne_nil pool hpool)
    (not_excluded_vmName (hcfg.pool_validName pool hpool) slot ts pid)⟩

theorem quotable_smallPool : Quotable (configWith [smallPool]) smallPool "AABBCC" := by
  refine ⟨fun url hurl => ?_, Text.forall_mem_of_all (by decide), ?_⟩
  · cases hurl
    exact Text.forall_mem_of_all (by decide)
  · simp only [smallPool, List.forall_mem_singleton]
    exact Text.forall_mem_of_all (by decide)

theorem alwaysAgree_smallPool :
    AlwaysAgree (configWith [smallPool]) smallPool (vmName smallPool.name 100 1700000000 4242) "AABBCC" :=
  (alwaysAgree_iff (by decide) (by decide) 100 1700000000 4242 "AABBCC").mpr quotable_smallPool

def gpuPool : Pool := { smallPool with labels := ["gpu,large"] }

def gpuVm : String := vmName gpuPool.name 100 1700000000 4242

/-- One label with a comma in it becomes two. -/
theorem gpuPool_disagrees :
    (configWith [gpuPool]).validate = .ok () ∧
      splitLabels gpuPool.labelsCsv = ["gpu", "large"] ∧
      (generateJitconfig (configWith [gpuPool]).github gpuVm gpuPool.labels).labels = ["gpu,large"] ∧
      NeverAgree (configWith [gpuPool]) gpuPool gpuVm "AABBCC" := by
  have hsplit : splitLabels "gpu,large" = ["gpu", "large"] := by decide +kernel
  refine ⟨by decide, hsplit, rfl, ?_⟩
  rintro configArgs hrules ⟨url, labels, hurl, hargs, ⟨hsame, _⟩, _⟩
  have hurl' : url = "https://github.com/acme/app" := by
    cases hurl
    decide
  have hrun : configArgs (configScript url "AABBCC" gpuVm "gpu,large") =
      some (configShArgs url "AABBCC" gpuVm "gpu,large") :=
    args_of_followsQuoting hrules (by rw [hurl']; exact Text.forall_mem_of_all (by decide))
      (Text.forall_mem_of_all (by decide)) (not_excluded_vmName (by decide) 100 1700000000 4242)
      (Text.forall_mem_of_all (by decide))
  have hlabels : labels = "gpu,large" := by
    rw [show gpuPool.labelsCsv = "gpu,large" from rfl, hrun] at hargs
    simpa [configShArgs] using hargs.symm
  rw [hlabels, hsplit] at hsame
  exact absurd ((hsame "gpu").mp (by decide)) (by decide)

end VmFleet
