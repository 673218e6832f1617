import VmFleet.Library.Procedure
import VmFleet.Library.Transition

/-!
# Procedures that follow a transition system

`Follows step ok P x Q E` relates a procedure, which changes a state and returns or fails, to a transition
system: from any two states that `P` relates, the system has a run of events that `ok` allows and that ends
in a state which `Q` relates to what the procedure has returned and left, or `E` if it has failed. There is
a rule for each way in which procedures are put together. What is proved of all runs of the system then
holds of the procedure.
-/

namespace Refinement

variable {σ τ δ ε α β : Type} (step : τ → δ → Option τ) (ok : δ → Prop)

/-- A run of allowed events leads from `t` to `t'`. -/
def Reaches (t t' : τ) : Prop :=
  ∃ events, (∀ e ∈ events, ok e) ∧ Transition.exec step t events = some t'

/-- What a procedure has come to is related to a state of the system. -/
def Matched (Q : α → σ → τ → Prop) (E : ε → σ → τ → Prop) (t : τ) : Except ε α × σ → Prop
  | (.ok a, s) => Q a s t
  | (.error e, s) => E e s t

def Follows (P : σ → τ → Prop) (x : ExceptT ε (StateM σ) α) (Q : α → σ → τ → Prop)
    (E : ε → σ → τ → Prop) : Prop :=
  ∀ s t, P s t → ∃ t', Reaches step ok t t' ∧ Matched Q E t' (StateT.run (ExceptT.run x) s)

variable {step ok} {P P' : σ → τ → Prop} {Q Q' : α → σ → τ → Prop} {S : β → σ → τ → Prop}
variable {E E' : ε → σ → τ → Prop} {x y : ExceptT ε (StateM σ) α}

/-! ### Runs -/

theorem reaches_refl (t : τ) : Reaches step ok t t := ⟨[], nofun, rfl⟩

theorem Reaches.trans {t t' t'' : τ} (h : Reaches step ok t t') (h' : Reaches step ok t' t'') :
    Reaches step ok t t'' := by
  obtain ⟨es, hes, hexec⟩ := h
  obtain ⟨fs, hfs, hexec'⟩ := h'
  refine ⟨es ++ fs, fun e he => ?_, Transition.exec_append_eq_some_iff.mpr ⟨t', hexec, hexec'⟩⟩
  exact (List.mem_append.mp he).elim (hes e) (hfs e)

theorem reaches_step {t t' : τ} {e : δ} (he : ok e) (hstep : step t e = some t') : Reaches step ok t t' := by
  refine ⟨[e], fun _ h => ?_, Transition.exec_cons_eq_some_iff.mpr ⟨t', hstep, rfl⟩⟩
  rw [List.mem_singleton.mp h]
  exact he

/-! ### Procedures -/

theorem Follows.bind {f : α → ExceptT ε (StateM σ) β} (hx : Follows step ok P x Q E)
    (hf : ∀ a, Follows step ok (Q a) (f a) S E) : Follows step ok P (x >>= f) S E := by
  intro s t hst
  obtain ⟨mid, hmid, hmatched⟩ := hx s t hst
  have hrun : StateT.run (ExceptT.run (x >>= f)) s =
      StateT.run (ExceptT.bindCont f (StateT.run (ExceptT.run x) s).1) (StateT.run (ExceptT.run x) s).2 := rfl
  rw [hrun]
  cases hx : StateT.run (ExceptT.run x) s with
  | mk r s' =>
      rw [hx] at hmatched
      cases r with
      | ok a =>
          obtain ⟨t', ht', hends⟩ := hf a s' mid hmatched
          exact ⟨t', hmid.trans ht', hends⟩
      | error e => exact ⟨mid, hmid, hmatched⟩

theorem Follows.ite {c : Prop} [Decidable c] (hpos : c → Follows step ok P x Q E)
    (hneg : ¬ c → Follows step ok P y Q E) : Follows step ok P (if c then x else y) Q E := by
  by_cases hc : c
  · rw [if_pos hc]
    exact hpos hc
  · rw [if_neg hc]
    exact hneg hc

/-- The rule of consequence. The system may take steps of its own before and after. -/
theorem Follows.mono (h : Follows step ok P x Q E)
    (hpre : ∀ s t, P' s t → ∃ t', Reaches step ok t t' ∧ P s t')
    (hpost : ∀ a s t, Q a s t → ∃ t', Reaches step ok t t' ∧ Q' a s t')
    (hfail : ∀ e s t, E e s t → ∃ t', Reaches step ok t t' ∧ E' e s t') : Follows step ok P' x Q' E' := by
  intro s t hst
  obtain ⟨first, hfirst, hP⟩ := hpre s t hst
  obtain ⟨mid, hmid, hmatched⟩ := h s first hP
  cases hx : StateT.run (ExceptT.run x) s with
  | mk r s' =>
      rw [hx] at hmatched
      cases r with
      | ok a =>
          obtain ⟨t', ht', hQ⟩ := hpost a s' mid hmatched
          exact ⟨t', (hfirst.trans hmid).trans ht', hQ⟩
      | error e =>
          obtain ⟨t', ht', hE⟩ := hfail e s' mid hmatched
          exact ⟨t', (hfirst.trans hmid).trans ht', hE⟩

end Refinement
