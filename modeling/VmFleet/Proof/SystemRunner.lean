import VmFleet.Source.SystemRunner

/-!
# Commands that write a lot, and commands that end late

A timed command whose output fits into the pipes is run as if it were read all along, if the poll that
finds the deadline past has not asked for the exit too early. One that writes more than a pipe holds to
one of its streams waits for a reader, the loop waits for its exit, and what comes of it is the timeout.
-/

namespace VmFleet

/-! ### The loop -/

namespace PollClock

variable {clock : PollClock} {exit deadline j k : Nat}

theorem asked_le_asked (hle : j ≤ k) : clock.asked j ≤ clock.asked k := by
  induction hle with
  | refl => exact Nat.le_refl _
  | @step m _ ih =>
      have hasked := clock.asked_le m
      have hslept := clock.slept m
      show _ ≤ clock.asked (m + 1)
      omega

theorem seesExit_never (clock : PollClock) (deadline k : Nat) : clock.seesExit none deadline k = false := by
  fun_induction PollClock.seesExit clock none deadline k with
  | case1 k hexit => simp at hexit
  | case2 k hexit hdeadline => rfl
  | case3 k hexit hdeadline ih => exact ih

/-- Every poll that finds the deadline past has asked for the exit when there was one. -/
def AsksInTime (clock : PollClock) (deadline exit : Nat) : Prop :=
  ∀ k, deadline ≤ clock.read k → exit ≤ clock.asked k

theorem seesExit_iff (k : Nat) :
    clock.seesExit (some exit) deadline k = true ↔
      ∀ j, k ≤ j → deadline ≤ clock.read j → exit ≤ clock.asked j := by
  fun_induction PollClock.seesExit clock (some exit) deadline k with
  | case1 k hexit =>
      have hseen : exit ≤ clock.asked k := by simpa using hexit
      refine ⟨fun _ j hj _ => ?_, fun _ => rfl⟩
      exact hseen.trans (asked_le_asked hj)
  | case2 k hexit hdeadline =>
      have hlater : ¬ exit ≤ clock.asked k := by simpa using hexit
      refine ⟨fun h => absurd h Bool.false_ne_true, fun hall => ?_⟩
      exact absurd (hall k (Nat.le_refl k) hdeadline) hlater
  | case3 k hexit hdeadline ih =>
      rw [ih]
      refine ⟨fun hall j hj hpast => ?_, fun hall j hj => hall j (by omega)⟩
      apply hall j _ hpast
      have hother : j ≠ k := by
        rintro rfl
        exact hdeadline hpast
      omega

theorem seesExit_zero : clock.seesExit (some exit) deadline 0 = true ↔ clock.AsksInTime deadline exit := by
  rw [seesExit_iff]
  exact forall_congr' fun j => ⟨fun h => h (Nat.zero_le j), fun h _ => h⟩

end PollClock

namespace SystemRunner

variable {capacity secs exit : Nat} {clock : PollClock} {program : String} {child : Child} {code : Int}

/-! ### The two cases -/

theorem run_of_fits (hasks : clock.AsksInTime (clock.started + seconds secs) child.script.duration)
    (hfits : ∀ stream, (child.script.written stream).length ≤ capacity) :
    run capacity clock program (.ok child) (some secs) = .ok (output child child.script.written) := by
  obtain ⟨pipes, hrun, hcontents⟩ := Pipe.run_absent child.script hfits
  simp only [run, hrun, Option.map_some, PollClock.seesExit_zero.mpr hasks, if_true, collected, hcontents]

/-- An exit between the last question and the last look at the clock goes unnoticed. -/
theorem run_of_unasked
    (hlate : ¬ clock.AsksInTime (clock.started + seconds secs) child.script.duration)
    (hfits : ∀ stream, (child.script.written stream).length ≤ capacity) :
    run capacity clock program (.ok child) (some secs) = .error (timedOut program secs) := by
  obtain ⟨pipes, hrun, _⟩ := Pipe.run_absent child.script hfits
  have hunseen := Bool.eq_false_iff.mpr (mt PollClock.seesExit_zero.mp hlate)
  simp only [run, hrun, Option.map_some, hunseen, Bool.false_eq_true, if_false]

theorem run_of_over {stream : Stream} (hover : capacity < (child.script.written stream).length) :
    run capacity clock program (.ok child) (some secs) = .error (timedOut program secs) := by
  have hrun : child.script.run capacity .absent = none := Pipe.run_absent_eq_none child.script hover
  simp only [run, hrun, Option.map_none, clock.seesExit_never, Bool.false_eq_true, if_false]

/-- Without a timeout everything is read. -/
theorem run_untimed :
    run capacity clock program (.ok child) none = .ok (output child child.script.written) := by
  obtain ⟨pipes, hrun, hcontents⟩ := Pipe.run_continual child.script capacity
  simp only [run, hrun, collected, hcontents]

/-- **No more comes out of a timed command than its pipes hold.** -/
theorem length_stdout_le {spawned : Except String Child} {o : CmdOut}
    (h : run capacity clock program spawned (some secs) = .ok o) : o.stdout.toList.length ≤ capacity := by
  cases spawned with
  | error e => cases h
  | ok child =>
      by_cases hfits : ∀ stream, (child.script.written stream).length ≤ capacity
      · by_cases hasks : clock.AsksInTime (clock.started + seconds secs) child.script.duration
        · rw [run_of_fits hasks hfits] at h
          cases h
          show (String.ofList (Utf8.decode (child.script.written .stdout))).toList.length ≤ capacity
          rw [String.toList_ofList]
          exact (Utf8.length_decode_le _).trans (hfits .stdout)
        · rw [run_of_unasked hasks hfits] at h
          cases h
      · obtain ⟨stream, hover⟩ := not_forall.mp hfits
        rw [run_of_over (Nat.lt_of_not_le hover)] at h
        cases h

theorem output_of_text {out err : String} {contents : Stream → List UInt8}
    (hout : contents .stdout = Utf8.encode out.toList) (herr : contents .stderr = Utf8.encode err.toList) :
    output child contents = ⟨child.code.getD (-1), out, err⟩ := by
  rw [output, hout, herr, Utf8.fromUtf8Lossy_encode, Utf8.fromUtf8Lossy_encode]

/-- Text that fits into the pipes comes back as it was printed. -/
theorem run_of_text {out err : String} (hcode : child.code = some code)
    (hasks : clock.AsksInTime (clock.started + seconds secs) child.script.duration)
    (hout : child.script.written .stdout = Utf8.encode out.toList)
    (herr : child.script.written .stderr = Utf8.encode err.toList)
    (houtFits : (Utf8.encode out.toList).length ≤ capacity)
    (herrFits : (Utf8.encode err.toList).length ≤ capacity) :
    run capacity clock program (.ok child) (some secs) = .ok ⟨code, out, err⟩ := by
  have hfits : ∀ stream, (child.script.written stream).length ≤ capacity := by
    intro stream
    cases stream with
    | stdout =>
        rw [hout]
        exact houtFits
    | stderr =>
        rw [herr]
        exact herrFits
  rw [run_of_fits hasks hfits, output_of_text hout herr, hcode]
  rfl

/-- **A timed command is run to its end exactly if its output fits into the pipes and its exit is asked
for in time.** -/
theorem run_complete_iff {pipes : Pipe.Pipes Stream UInt8} (hcode : child.code = some code)
    (hread : child.script.run capacity .continual = some (exit, pipes)) (htime : exit ≤ seconds secs) :
    run capacity clock program (.ok child) (some secs) =
        .ok ⟨code, Utf8.fromUtf8Lossy (pipes.contents .stdout),
          Utf8.fromUtf8Lossy (pipes.contents .stderr)⟩ ↔
      (∀ stream, (pipes.contents stream).length ≤ capacity) ∧
        ∀ k, clock.started + seconds secs ≤ clock.read k → exit ≤ clock.asked k := by
  obtain ⟨pipes', hread', hcontents⟩ := Pipe.run_continual child.script capacity
  rw [hread'] at hread
  cases hread
  rw [hcontents]
  refine ⟨fun hok => ?_, fun hcomplete => ?_⟩
  · have hfits : ∀ stream, (child.script.written stream).length ≤ capacity := by
      by_contra hnot
      obtain ⟨stream, hover⟩ := not_forall.mp hnot
      rw [run_of_over (Nat.lt_of_not_le hover)] at hok
      cases hok
    refine ⟨hfits, ?_⟩
    by_contra hlate
    rw [run_of_unasked hlate hfits] at hok
    cases hok
  · rw [run_of_fits hcomplete.2 hcomplete.1, output, hcode]
    rfl

/-- `echo ok` under a timeout of ten seconds. -/
def echoChild : Child where
  script := ⟨[⟨5000000, .stdout, Utf8.encode ['o', 'k', '\n']⟩], 1000000⟩
  code := some 0

def evenPolls : PollClock where
  started := 0
  asked k := k * 100001000
  read k := k * 100001000 + 1000
  started_le := by omega
  asked_le k := by omega
  slept k := by omega

theorem echo_asked (k : Nat) (hpast : evenPolls.started + seconds 10 ≤ evenPolls.read k) :
    6000000 ≤ evenPolls.asked k := by
  have hlate : 0 + 10 * 1000000000 ≤ k * 100001000 + 1000 := hpast
  show 6000000 ≤ k * 100001000
  omega

theorem run_complete_echo :
    ∃ pipes, echoChild.script.run 65536 .continual = some (6000000, pipes) ∧
      run 65536 evenPolls "echo" (.ok echoChild) (some 10) =
        .ok ⟨0, Utf8.fromUtf8Lossy (pipes.contents .stdout), Utf8.fromUtf8Lossy (pipes.contents .stderr)⟩ :=
  ⟨_, rfl, (run_complete_iff rfl rfl (by decide)).mpr ⟨fun stream => by cases stream <;> decide,
    echo_asked⟩⟩

/-- A setup script that prints 65537 bytes and is done. -/
def talkativeChild : Child where
  script := ⟨[⟨5000000, .stdout, List.replicate 65537 0x2E⟩], 1000000⟩
  code := some 0

theorem length_written_talkative : (talkativeChild.script.written .stdout).length = 65537 := by
  have hwritten : talkativeChild.script.written .stdout = List.replicate 65537 0x2E :=
    List.append_nil _
  rw [hwritten, List.length_replicate]

theorem talkative_times_out :
    ∃ pipes, talkativeChild.script.run 65536 .continual = some (6000000, pipes) ∧
      6000000 ≤ seconds 1800 ∧
      run 65536 evenPolls "multipass" (.ok talkativeChild) (some 1800) =
        .error "`multipass` timed out after 1800s" := by
  obtain ⟨pipes, hread, _⟩ := Pipe.run_continual talkativeChild.script 65536
  have hover : 65536 < (talkativeChild.script.written .stdout).length := by
    rw [length_written_talkative]
    omega
  exact ⟨pipes, hread, by decide, run_of_over hover⟩

end SystemRunner

end VmFleet
