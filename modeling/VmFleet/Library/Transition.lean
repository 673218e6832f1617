/-!
# Runs of a transition system

A system is a step function that fails on an event it cannot take. A run is the list of its events, so
an execution can be evaluated, and a condition on the steps of a run is a condition on each event in the
state it is taken in.
-/

namespace Transition

variable {σ ε : Type} (step : σ → ε → Option σ)

def exec : σ → List ε → Option σ
  | s, [] => some s
  | s, e :: es => (step s e).bind fun s' => exec s' es

/-- Every event of the run is taken in a state in which `ok` allows it. -/
def Meets (ok : σ → ε → Prop) : σ → List ε → Prop
  | _, [] => True
  | s, e :: es => ok s e ∧ ∀ s', step s e = some s' → Meets ok s' es

def Reachable (init : σ) (s : σ) : Prop := ∃ es, exec step init es = some s

variable {step}

theorem exec_cons_eq_some_iff {s s' : σ} {e : ε} {es : List ε} :
    exec step s (e :: es) = some s' ↔ ∃ mid, step s e = some mid ∧ exec step mid es = some s' := by
  rw [exec, Option.bind_eq_some_iff]

theorem exec_append_eq_some_iff {s s' : σ} {es fs : List ε} :
    exec step s (es ++ fs) = some s' ↔
      ∃ mid, exec step s es = some mid ∧ exec step mid fs = some s' := by
  induction es generalizing s with
  | nil =>
      refine ⟨fun h => ⟨s, rfl, h⟩, fun h => ?_⟩
      obtain ⟨mid, hmid, h⟩ := h
      cases hmid
      exact h
  | cons e es ih =>
      rw [List.cons_append, exec_cons_eq_some_iff]
      refine ⟨fun h => ?_, fun h => ?_⟩
      · obtain ⟨next, hstep, h⟩ := h
        obtain ⟨mid, hmid, hrest⟩ := ih.mp h
        exact ⟨mid, exec_cons_eq_some_iff.mpr ⟨next, hstep, hmid⟩, hrest⟩
      · obtain ⟨mid, hmid, hrest⟩ := h
        obtain ⟨next, hstep, hmid⟩ := exec_cons_eq_some_iff.mp hmid
        exact ⟨next, hstep, ih.mpr ⟨mid, hmid, hrest⟩⟩

/-- **The invariant rule.** What every step allowed by `ok` preserves holds at the end of every run of
such steps. -/
theorem exec_invariant {ok : σ → ε → Prop} {Inv : σ → Prop}
    (hstep : ∀ s e s', Inv s → ok s e → step s e = some s' → Inv s')
    {s s' : σ} {es : List ε} (hinit : Inv s) (hmeets : Meets step ok s es)
    (hexec : exec step s es = some s') : Inv s' := by
  induction es generalizing s with
  | nil =>
      cases hexec
      exact hinit
  | cons e es ih =>
      obtain ⟨mid, hmid, hrest⟩ := exec_cons_eq_some_iff.mp hexec
      exact ih (hstep s e mid hinit hmeets.1 hmid) (hmeets.2 mid hmid) hrest

theorem meets_true (s : σ) (es : List ε) : Meets step (fun _ _ => True) s es := by
  induction es generalizing s with
  | nil => trivial
  | cons e es ih => exact ⟨trivial, fun s' _ => ih s'⟩

theorem Reachable.invariant {Inv : σ → Prop} {init s : σ}
    (hstep : ∀ s e s', Inv s → step s e = some s' → Inv s')
    (hinit : Inv init) (hreach : Reachable step init s) : Inv s := by
  obtain ⟨es, hexec⟩ := hreach
  exact exec_invariant (fun s e s' hs _ h => hstep s e s' hs h) hinit (meets_true init es) hexec

theorem meets_cons_iff {ok : σ → ε → Prop} {s : σ} {e : ε} {es : List ε} :
    Meets step ok s (e :: es) ↔ ok s e ∧ ∀ s' ∈ step s e, Meets step ok s' es := Iff.rfl

instance Meets.decidable {ok : σ → ε → Prop} [∀ s e, Decidable (ok s e)] :
    ∀ s es, Decidable (Meets step ok s es)
  | _, [] => inferInstanceAs (Decidable True)
  | s, e :: es =>
    match hstep : step s e with
    | none => decidable_of_iff (ok s e) (by simp [meets_cons_iff, hstep])
    | some mid =>
      have : Decidable (Meets step ok mid es) := Meets.decidable mid es
      decidable_of_iff (ok s e ∧ Meets step ok mid es) (by simp [meets_cons_iff, hstep])

theorem Meets.mono {ok ok' : σ → ε → Prop} (himp : ∀ s e, ok s e → ok' s e) {s : σ} {es : List ε}
    (hmeets : Meets step ok s es) : Meets step ok' s es := by
  induction es generalizing s with
  | nil => trivial
  | cons e es ih => exact ⟨himp s e hmeets.1, fun s' hs => ih (hmeets.2 s' hs)⟩

theorem Meets.and {ok ok' : σ → ε → Prop} {s : σ} {es : List ε} (hmeets : Meets step ok s es)
    (hmeets' : Meets step ok' s es) : Meets step (fun s e => ok s e ∧ ok' s e) s es := by
  induction es generalizing s with
  | nil => trivial
  | cons e es ih =>
      exact ⟨⟨hmeets.1, hmeets'.1⟩, fun s' hs => ih (hmeets.2 s' hs) (hmeets'.2 s' hs)⟩

/-! ### Simulation

Each step stands for none, one or several steps of a specification, which the state it is taken in may
decide. -/

section Simulation

variable {τ δ : Type} {spec : τ → δ → Option τ} {view : σ → ε → List δ}

variable (step view) in
/-- The run of the specification that a run stands for. -/
def trace : σ → List ε → List δ
  | _, [] => []
  | s, e :: es =>
    match step s e with
    | some s' => view s e ++ trace s' es
    | none => []

/-- **The simulation rule.** What holds step by step between a system and its specification holds along
every run. -/
theorem exec_simulation {R : σ → τ → Prop}
    (hstep : ∀ s t e s', R s t → step s e = some s' → ∃ t', exec spec t (view s e) = some t' ∧ R s' t')
    {s s' : σ} {t : τ} {es : List ε} (hinit : R s t) (hexec : exec step s es = some s') :
    ∃ t', exec spec t (trace step view s es) = some t' ∧ R s' t' := by
  induction es generalizing s t with
  | nil =>
      cases hexec
      exact ⟨t, rfl, hinit⟩
  | cons e es ih =>
      obtain ⟨mid, hmid, hrest⟩ := exec_cons_eq_some_iff.mp hexec
      obtain ⟨t', ht', hR⟩ := hstep s t e mid hinit hmid
      obtain ⟨t'', ht'', hR'⟩ := ih hR hrest
      refine ⟨t'', ?_, hR'⟩
      simp only [trace, hmid]
      exact exec_append_eq_some_iff.mpr ⟨t', ht', ht''⟩

/-! ### Recorded runs -/

variable (step view) in
/-- The system beside a record of what its steps stand for. -/
def recorded (r : σ × List δ) (e : ε) : Option (σ × List δ) :=
  (step r.1 e).map fun s => (s, r.2 ++ view r.1 e)

end Simulation

end Transition
