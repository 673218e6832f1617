import VmFleet.Library.Transition
import VmFleet.Source.ConfigWrite
import VmFleet.Proof.ConfigText

/-!
# Loading the config while it is rewritten

From the truncation to the last write the file holds neither the old text nor the new one. A reader that
comes to its end meanwhile has read less than a config, and one that has read on across the truncation may
have a mixture; a crash leaves what is there. `Clean` keeps to the runs in which none of this happens.
-/

namespace VmFleet

namespace ConfigWrite

variable {old new : List UInt8} {s s' : State}

def Whole (old new bytes : List UInt8) : Prop := bytes = old ∨ bytes = new

/-- What the open file still lacks. -/
def State.unwritten (s : State) : List UInt8 :=
  match s.writer with
  | .writing rest => rest
  | .before | .stopped => []

/-- When a reader comes to the end of the file or the writer stops, the file lacks nothing. What the reader
has is of the file as it is now, and not of one that was truncated. -/
def Clean (s : State) : Event → Prop
  | .endOfFile i => s.unwritten = [] ∧ ∀ r ∈ s.readers[i]?, r.got <+: s.content
  | .stop => s.unwritten = []
  | _ => True

instance Clean.decidable (s : State) (e : Event) : Decidable (Clean s e) :=
  match e with
  | .endOfFile i => inferInstanceAs (Decidable (s.unwritten = [] ∧ ∀ r ∈ s.readers[i]?, r.got <+: s.content))
  | .stop => inferInstanceAs (Decidable (s.unwritten = []))
  | .truncate | .write _ | .openFile | .read _ _ => isTrue trivial

/-- Who has read the file has read one of the two texts, and the file holds one of them once the writer is
done or has stopped. -/
structure SeesWhole (old new : List UInt8) (s : State) : Prop where
  readers : ∀ r ∈ s.readers, r.finished = true → Whole old new r.got
  done : s.writer = .writing [] → Whole old new s.content
  stopped : s.writer = .stopped → Whole old new s.content

/-! ### The invariant -/

structure Inv (old new : List UInt8) (s : State) : Prop where
  before : s.writer = .before → s.content = old
  writing : ∀ rest, s.writer = .writing rest → s.content ++ rest = new
  stopped : s.writer = .stopped → Whole old new s.content
  readers : ∀ r ∈ s.readers, r.finished = true → Whole old new r.got

theorem Inv.init (old new : List UInt8) : Inv old new (init old) := by
  constructor <;> simp [ConfigWrite.init]

/-- While the file lacks nothing, it is whole. -/
theorem Inv.whole (h : Inv old new s) (hall : s.unwritten = []) : Whole old new s.content := by
  cases hwriter : s.writer with
  | before => exact Or.inl (h.before hwriter)
  | writing rest =>
      have hrest : rest = [] := by simpa [State.unwritten, hwriter] using hall
      have hnew := h.writing rest hwriter
      rw [hrest, List.append_nil] at hnew
      exact Or.inr hnew
  | stopped => exact h.stopped hwriter

/-- A step that changes one reader only. -/
theorem Inv.setReader (h : Inv old new s) {i : Nat} {r : Reader}
    (hr : r.finished = true → Whole old new r.got) :
    Inv old new { s with readers := s.readers.set i r } := by
  refine ⟨h.before, h.writing, h.stopped, fun other hother hfinished => ?_⟩
  rcases List.mem_or_eq_of_mem_set hother with hkept | rfl
  · exact h.readers other hkept hfinished
  · exact hr hfinished

theorem Inv.truncate (h : Inv old new s) (hstep : step new s .truncate = some s') : Inv old new s' := by
  obtain ⟨_, hs⟩ := Option.ite_none_right_eq_some.mp hstep
  cases hs
  exact ⟨by simp, by simp, by simp, h.readers⟩

theorem Inv.write (h : Inv old new s) {n : Nat} (hstep : step new s (.write n) = some s') :
    Inv old new s' := by
  rw [step] at hstep
  split at hstep
  · rename_i rest hwriter
    obtain ⟨_, hs⟩ := Option.ite_none_right_eq_some.mp hstep
    cases hs
    refine ⟨by simp, fun rest' hrest => ?_, by simp, h.readers⟩
    cases hrest
    rw [List.append_assoc, List.take_append_drop]
    exact h.writing rest hwriter
  · cases hstep
  · cases hstep

theorem Inv.read (h : Inv old new s) {i n : Nat} (hstep : step new s (.read i n) = some s') :
    Inv old new s' := by
  rw [step] at hstep
  split at hstep
  · rename_i r hr
    obtain ⟨⟨hopen, _⟩, hs⟩ := Option.ite_none_right_eq_some.mp hstep
    cases hs
    exact h.setReader fun hfinished => by simp [hopen] at hfinished
  · cases hstep

/-- A reader that comes to the end of a whole file that begins with what it has, has the file. -/
theorem Inv.endOfFile (h : Inv old new s) {i : Nat} (hclean : Clean s (.endOfFile i))
    (hstep : step new s (.endOfFile i) = some s') : Inv old new s' := by
  rw [step] at hstep
  split at hstep
  · rename_i r hr
    obtain ⟨⟨_, hend⟩, hs⟩ := Option.ite_none_right_eq_some.mp hstep
    cases hs
    have hgot : r.got = s.content := (hclean.2 r hr).eq_of_length_le hend
    have hwhole : Whole old new r.got := hgot ▸ h.whole hclean.1
    exact h.setReader fun _ => hwhole
  · cases hstep

theorem Inv.step {e : Event} (h : Inv old new s) (hclean : Clean s e)
    (hstep : step new s e = some s') : Inv old new s' := by
  cases e with
  | truncate => exact h.truncate hstep
  | write n => exact h.write hstep
  | stop =>
      cases hstep
      exact ⟨by simp, by simp, fun _ => h.whole hclean, h.readers⟩
  | openFile =>
      cases hstep
      refine ⟨h.before, h.writing, h.stopped, fun r hr hfinished => ?_⟩
      rcases List.mem_append.mp hr with hr | hr
      · exact h.readers r hr hfinished
      · rw [List.mem_singleton.mp hr] at hfinished
        cases hfinished
  | read i n => exact h.read hstep
  | endOfFile i => exact h.endOfFile hclean hstep

/-- **Without an overlap every reader has one of the two texts, and so has the file.** -/
theorem seesWhole_of_clean {events : List Event}
    (hexec : Transition.exec (step new) (init old) events = some s)
    (hclean : Transition.Meets (step new) Clean (init old) events) : SeesWhole old new s := by
  have hinv : Inv old new s :=
    Transition.exec_invariant (fun _ _ _ h hc hstep => h.step hc hstep) (Inv.init old new) hclean hexec
  exact ⟨hinv.readers, fun hwriter => hinv.whole (by simp [State.unwritten, hwriter]), hinv.stopped⟩

/-- One reader is done before the truncation, the other begins to read after the last write. -/
def cleanRun : List Event :=
  [.openFile, .read 0 8, .endOfFile 0, .openFile, .truncate, .write 1, .write 2, .read 1 2, .read 1 8,
    .endOfFile 1, .stop]

def cleanEnd : State := ⟨[4, 5, 6], .stopped, [⟨[1, 2], true⟩, ⟨[4, 5, 6], true⟩]⟩

theorem seesWhole_cleanRun :
    Transition.exec (step [4, 5, 6]) (init [1, 2]) cleanRun = some cleanEnd ∧
      SeesWhole [1, 2] [4, 5, 6] cleanEnd := by
  have hexec : Transition.exec (step [4, 5, 6]) (init [1, 2]) cleanRun = some cleanEnd := by decide +kernel
  have hclean : Transition.Meets (step [4, 5, 6]) Clean (init [1, 2]) cleanRun := by decide +kernel
  exact ⟨hexec, seesWhole_of_clean hexec hclean⟩

/-! ### The empty file -/

theorem fromUtf8_encode (text : String) : fromUtf8 (Utf8.encode text.toList) = some text := by
  rw [fromUtf8, Utf8.decode_encode, if_pos rfl, Utf8.fromUtf8Lossy_encode]

/-- A file that was written as a text is loaded as that text. -/
theorem loadBytes_encode (crate : TomlCrate) (home path text : String) :
    Config.loadBytes crate home path (Utf8.encode text.toList) =
      Config.loadFile home path (crate.read text) := by
  rw [Config.loadBytes, fromUtf8_encode]

theorem encode_ne_nil {text : String} (h : text ≠ "") : Utf8.encode text.toList ≠ [] := by
  intro hnil
  have hdecode := Utf8.decode_encode text.toList
  rw [hnil, Utf8.decode] at hdecode
  exact h (String.toList_eq_nil_iff.mp hdecode.symm)

def sampleBytes : List UInt8 := Utf8.encode sampleText.toList

def scaledBytes : List UInt8 := Utf8.encode scaledText.toList

/-- A worker starts right after the truncation, and then the writer crashes. -/
def tornRun : List Event := [.truncate, .openFile, .endOfFile 0, .stop]

def tornEnd : State := ⟨[], .stopped, [⟨[], true⟩]⟩

/-- It fails to load the config, and the file stays empty. -/
theorem tornRun_loses_config :
    Config.loadBytes sampleCrate "/home/ci" "vmfleet.toml" sampleBytes = .ok sampleConfig ∧
      Config.loadBytes sampleCrate "/home/ci" "vmfleet.toml" scaledBytes =
        .ok (sampleConfig.withLimits "ci" (some 1) (some 3)) ∧
      Transition.exec (step scaledBytes) (init sampleBytes) tornRun = some tornEnd ∧
      Config.loadBytes sampleCrate "/home/ci" "vmfleet.toml" tornEnd.content =
        .error "parsing config vmfleet.toml" ∧
      ¬ SeesWhole sampleBytes scaledBytes tornEnd := by
  have hsample : sampleText ≠ "" := by decide +kernel
  have hscaled : scaledText ≠ "" := by decide +kernel
  refine ⟨?_, ?_, rfl, by decide +kernel, fun h => ?_⟩
  · rw [sampleBytes, loadBytes_encode]
    decide +kernel
  · rw [scaledBytes, loadBytes_encode]
    decide +kernel
  · rcases h.stopped rfl with hnil | hnil
    · exact encode_ne_nil hsample hnil.symm
    · exact encode_ne_nil hscaled hnil.symm

end ConfigWrite

end VmFleet
