/-!
# Procedures that may fail

A procedure changes a state and returns a value or fails, and its failure undoes nothing. `Triple P x Q E`
says of a procedure begun where `P` holds that `Q` holds when it returns, of the value and the state, and
`E` when it fails. There is a rule for each way in which procedures are put together.
-/

namespace Procedure

variable {σ ε α β : Type}

def Ends (Q : α → σ → Prop) (E : σ → Prop) : Except ε α × σ → Prop
  | (.ok a, s) => Q a s
  | (.error _, s) => E s

def Triple (P : σ → Prop) (x : ExceptT ε (StateM σ) α) (Q : α → σ → Prop) (E : σ → Prop) : Prop :=
  ∀ s, P s → Ends Q E (StateT.run (ExceptT.run x) s)

variable {P P' E E' R : σ → Prop} {Q Q' : α → σ → Prop} {S : β → σ → Prop}
variable {x y : ExceptT ε (StateM σ) α}

/-! ### Single steps -/

theorem triple_pure {a : α} (h : ∀ s, P s → Q a s) :
    Triple P (pure a : ExceptT ε (StateM σ) α) Q E := h

theorem triple_throw {e : ε} (h : ∀ s, P s → E s) :
    Triple P (throw e : ExceptT ε (StateM σ) α) Q E := h

theorem triple_modify {f : σ → σ} {Q : PUnit → σ → Prop} (h : ∀ s, P s → Q ⟨⟩ (f s)) :
    Triple P (modify f : ExceptT ε (StateM σ) PUnit) Q E := h

theorem triple_get {Q : σ → σ → Prop} (h : ∀ s, P s → Q s s) :
    Triple P (get : ExceptT ε (StateM σ) σ) Q E := h

theorem triple_ofExcept {r : Except ε α} (hok : ∀ a, r = .ok a → ∀ s, P s → Q a s)
    (herror : ∀ s, P s → E s) : Triple P (ofExcept r : ExceptT ε (StateM σ) α) Q E := by
  cases r with
  | ok a => exact hok a rfl
  | error e => exact herror

theorem triple_ofExcept_eq (r : Except ε α) : Triple P (ofExcept r : ExceptT ε (StateM σ) α)
    (fun a s => r = .ok a ∧ P s) (fun s => r.isOk = false ∧ P s) := by
  cases r with
  | ok a => exact fun _ h => ⟨rfl, h⟩
  | error e => exact fun _ h => ⟨rfl, h⟩

/-! ### Composition -/

theorem triple_bind {f : α → ExceptT ε (StateM σ) β} (hx : Triple P x Q E)
    (hf : ∀ a, Triple (Q a) (f a) S E) : Triple P (x >>= f) S E := by
  intro s hs
  have hends := hx s hs
  have hrun : StateT.run (ExceptT.run (x >>= f)) s =
      StateT.run (ExceptT.bindCont f (StateT.run (ExceptT.run x) s).1) (StateT.run (ExceptT.run x) s).2 := rfl
  rw [hrun]
  cases hx : StateT.run (ExceptT.run x) s with
  | mk r s' =>
      rw [hx] at hends
      cases r with
      | ok a => exact hf a s' hends
      | error e => exact hends

/-- The handler begins where the failure has left off. -/
theorem triple_tryCatch {handler : ε → ExceptT ε (StateM σ) α} (hx : Triple P x Q R)
    (hhandler : ∀ e, Triple R (handler e) Q E) : Triple P (tryCatch x handler) Q E := by
  intro s hs
  have hends := hx s hs
  have hrun : StateT.run (ExceptT.run (tryCatch x handler)) s =
      StateT.run (match (StateT.run (ExceptT.run x) s).1 with
        | .ok a => pure (.ok a)
        | .error e => ExceptT.run (handler e)) (StateT.run (ExceptT.run x) s).2 := rfl
  rw [hrun]
  cases hx : StateT.run (ExceptT.run x) s with
  | mk r s' =>
      rw [hx] at hends
      cases r with
      | ok a => exact hends
      | error e => exact hhandler e s' hends

theorem triple_ite {c : Prop} [Decidable c] (hpos : c → Triple P x Q E) (hneg : ¬ c → Triple P y Q E) :
    Triple P (if c then x else y) Q E := by
  by_cases hc : c
  · rw [if_pos hc]
    exact hpos hc
  · rw [if_neg hc]
    exact hneg hc

/-! ### Consequence -/

theorem Triple.mono (h : Triple P x Q E) (hpre : ∀ s, P' s → P s) (hpost : ∀ a s, Q a s → Q' a s)
    (hfail : ∀ s, E s → E' s) : Triple P' x Q' E' := by
  intro s hs
  have hends := h s (hpre s hs)
  cases hx : StateT.run (ExceptT.run x) s with
  | mk r s' =>
      rw [hx] at hends
      cases r with
      | ok a => exact hpost a s' hends
      | error e => exact hfail s' hends

theorem Triple.mono_post (h : Triple P x Q E) (hpost : ∀ a s, Q a s → Q' a s)
    (hfail : ∀ s, E s → E' s) : Triple P x Q' E' := h.mono (fun _ hs => hs) hpost hfail

theorem Triple.mono_fail (h : Triple P x Q E) (hfail : ∀ s, E s → E' s) : Triple P x Q E' :=
  h.mono_post (fun _ _ hs => hs) hfail

/-- What holds however a procedure ends holds of the state it leaves. -/
theorem Triple.final (h : Triple P x (fun _ => R) R) {s : σ} (hs : P s) :
    R (StateT.run (ExceptT.run x) s).2 := by
  have hends := h s hs
  cases hx : StateT.run (ExceptT.run x) s with
  | mk r s' =>
      rw [hx] at hends
      cases r with
      | ok a => exact hends
      | error e => exact hends

/-- What holds of a procedure that has returned. -/
theorem Triple.returns (h : Triple P x Q E) {s s' : σ} {a : α} (hs : P s)
    (hrun : StateT.run (ExceptT.run x) s = (.ok a, s')) : Q a s' := by
  have hends := h s hs
  rw [hrun] at hends
  exact hends

/-- Two specifications of one procedure hold together. -/
theorem Triple.and (h : Triple P x Q E) (h' : Triple P' x Q' E') :
    Triple (fun s => P s ∧ P' s) x (fun a s => Q a s ∧ Q' a s) (fun s => E s ∧ E' s) := by
  intro s hs
  have hends := h s hs.1
  have hends' := h' s hs.2
  cases hx : StateT.run (ExceptT.run x) s with
  | mk r s' =>
      rw [hx] at hends hends'
      cases r with
      | ok a => exact ⟨hends, hends'⟩
      | error e => exact ⟨hends, hends'⟩

/-- What a precondition says of no state can be assumed. -/
theorem triple_of_fact {p : Prop} (h : p → Triple P x Q E) : Triple (fun s => p ∧ P s) x Q E :=
  fun s hs => h hs.1 s hs.2

theorem triple_of_exists {ι : Type} {P : ι → σ → Prop} (h : ∀ i, Triple (P i) x Q E) :
    Triple (fun s => ∃ i, P i s) x Q E :=
  fun s ⟨i, hs⟩ => h i s hs

/-- A procedure that begins with what is given, or fails where it is not. -/
theorem triple_bind_ofExcept {r : Except ε α} {f : α → ExceptT ε (StateM σ) β} (herror : ∀ s, P s → E s)
    (hf : ∀ a, r = .ok a → Triple P (f a) S E) : Triple P (ofExcept r >>= f) S E := by
  apply triple_bind ((triple_ofExcept_eq r).mono_fail fun s h => herror s h.2)
  exact fun a => triple_of_fact (hf a)

/-- A procedure that begins with a look at the state. -/
theorem triple_bind_get {f : σ → ExceptT ε (StateM σ) β} (hf : ∀ s, P s → Triple P (f s) S E) :
    Triple P (get >>= f) S E :=
  triple_bind (Q := fun a s => P a ∧ P s) (triple_get fun _ h => ⟨h, h⟩) fun a => triple_of_fact (hf a)

/-! ### Invariants -/

/-- `P` holds after the procedure if it holds before, however it ends. -/
def Preserves (P : σ → Prop) (x : ExceptT ε (StateM σ) α) : Prop := Triple P x (fun _ => P) P

/-- A property of the state carries over what a procedure does to each state. -/
theorem preserves_of_frame {R : σ → σ → Prop} (hx : ∀ s, Triple (fun t => t = s) x (fun _ => R s) (R s))
    (hR : ∀ s s', R s s' → P s → P s') : Preserves P x := by
  intro s hs
  exact (hx s).mono_post (fun _ s' h => hR s s' h hs) (fun s' h => hR s s' h hs) s rfl

theorem preserves_pure (a : α) : Preserves P (pure a : ExceptT ε (StateM σ) α) := triple_pure fun _ h => h

theorem preserves_throw (e : ε) : Preserves P (throw e : ExceptT ε (StateM σ) α) := triple_throw fun _ h => h

theorem preserves_get : Preserves P (get : ExceptT ε (StateM σ) σ) := triple_get fun _ h => h

theorem preserves_modify {f : σ → σ} (h : ∀ s, P s → P (f s)) :
    Preserves P (modify f : ExceptT ε (StateM σ) PUnit) := triple_modify h

theorem preserves_ofExcept (r : Except ε α) : Preserves P (ofExcept r : ExceptT ε (StateM σ) α) :=
  triple_ofExcept (fun _ _ _ h => h) fun _ h => h

theorem Preserves.bind {f : α → ExceptT ε (StateM σ) β} (hx : Preserves P x)
    (hf : ∀ a, Preserves P (f a)) : Preserves P (x >>= f) := triple_bind hx hf

theorem Preserves.ite {c : Prop} [Decidable c] (hx : Preserves P x) (hy : Preserves P y) :
    Preserves P (if c then x else y) := triple_ite (fun _ => hx) fun _ => hy

theorem Preserves.tryCatch {handler : ε → ExceptT ε (StateM σ) α} (hx : Preserves P x)
    (hhandler : ∀ e, Preserves P (handler e)) : Preserves P (tryCatch x handler) :=
  triple_tryCatch hx hhandler

/-! ### Procedures that cannot fail -/

/-- The procedure returns. -/
def CannotFail (x : ExceptT ε (StateM σ) α) : Prop := Triple (fun _ => True) x (fun _ _ => True) fun _ => False

theorem cannotFail_pure (a : α) : CannotFail (pure a : ExceptT ε (StateM σ) α) := triple_pure fun _ h => h

theorem cannotFail_modify (f : σ → σ) : CannotFail (modify f : ExceptT ε (StateM σ) PUnit) :=
  triple_modify fun _ h => h

theorem cannotFail_ofExcept {r : Except ε α} (h : r.isOk = true) :
    CannotFail (ofExcept r : ExceptT ε (StateM σ) α) := by
  cases r with
  | ok a => exact fun _ h => h
  | error e => cases h

theorem CannotFail.bind {f : α → ExceptT ε (StateM σ) β} (hx : CannotFail x) (hf : ∀ a, CannotFail (f a)) :
    CannotFail (x >>= f) := triple_bind hx hf

theorem CannotFail.ite {c : Prop} [Decidable c] (hx : CannotFail x) (hy : CannotFail y) :
    CannotFail (if c then x else y) := triple_ite (fun _ => hx) fun _ => hy

theorem Triple.isOk (h : Triple P x Q fun _ => False) {s : σ} (hs : P s) :
    (StateT.run (ExceptT.run x) s).1.isOk = true := by
  have hends := h s hs
  cases hx : StateT.run (ExceptT.run x) s with
  | mk r s' =>
      rw [hx] at hends
      cases r with
      | ok a => rfl
      | error e => exact hends.elim

/-! ### When a procedure returns -/

/-- The procedure returns this value, or it fails if there is none. -/
def Yields (value : Option α) (x : ExceptT ε (StateM σ) α) : Prop :=
  Triple (fun _ => True) x (fun a _ => value = some a) fun _ => value = none

/-- The procedure returns exactly if `fact` holds. -/
def ReturnsIff (fact : Prop) (x : ExceptT ε (StateM σ) α) : Prop :=
  Triple (fun _ => True) x (fun _ _ => fact) fun _ => ¬ fact

/-- Begun where `P` holds, the procedure returns with `Q` if `fact` holds, and otherwise fails with `E`. -/
def Exact (fact : Prop) (P : σ → Prop) (x : ExceptT ε (StateM σ) α) (Q : α → σ → Prop) (E : σ → Prop) : Prop :=
  Triple P x (fun a s => fact ∧ Q a s) fun s => ¬ fact ∧ E s

section

variable {fact fact' : Prop}

theorem ReturnsIff.exact (h : ReturnsIff fact x) (hx : Triple P x Q E) : Exact fact P x Q E :=
  (Triple.and h hx).mono (fun _ hs => ⟨trivial, hs⟩) (fun _ _ hs => hs) fun _ hs => hs

theorem Yields.and {value : Option α} (h : Yields value x) (hx : Triple P x Q E) :
    Triple P x (fun a s => value = some a ∧ Q a s) fun s => value = none ∧ E s :=
  (Triple.and h hx).mono (fun _ hs => ⟨trivial, hs⟩) (fun _ _ hs => hs) fun _ hs => hs

theorem exact_ofExcept (r : Except ε α) :
    Exact (r.isOk = true) P (ofExcept r : ExceptT ε (StateM σ) α) (fun _ => P) P := by
  cases r with
  | ok a => exact fun _ h => ⟨rfl, h⟩
  | error e => exact fun _ h => ⟨Bool.false_ne_true, h⟩

theorem Exact.bind {f : α → ExceptT ε (StateM σ) β} (hx : Exact fact P x Q E)
    (hf : ∀ a, Exact fact' (Q a) (f a) S E) : Exact (fact ∧ fact') P (x >>= f) S E := by
  apply triple_bind (Triple.mono_fail hx fun _ hs => ⟨fun hboth => hs.1 hboth.1, hs.2⟩)
  intro a
  apply triple_of_fact
  exact fun h => Triple.mono_post (hf a) (fun _ _ hs => ⟨⟨h, hs.1⟩, hs.2⟩) fun _ hs =>
    ⟨fun hboth => hs.1 hboth.2, hs.2⟩

theorem Exact.bind_sure {f : α → ExceptT ε (StateM σ) β} (hx : Exact fact P x Q E)
    (hf : ∀ a, Triple (Q a) (f a) S fun _ => False) : Exact fact P (x >>= f) S E := by
  apply triple_bind hx
  intro a
  apply triple_of_fact
  exact fun h => (hf a).mono_post (fun _ _ hs => ⟨h, hs⟩) fun _ hs => hs.elim

theorem exact_sure_bind {f : α → ExceptT ε (StateM σ) β} (hx : Triple P x Q fun _ => False)
    (hf : ∀ a, Exact fact (Q a) (f a) S E) : Exact fact P (x >>= f) S E :=
  triple_bind (hx.mono_fail fun _ hs => hs.elim) hf

theorem Exact.congr (h : Exact fact P x Q E) (hfact : fact ↔ fact') : Exact fact' P x Q E :=
  Triple.mono_post h (fun _ _ hs => ⟨hfact.mp hs.1, hs.2⟩) fun _ hs => ⟨fun h' => hs.1 (hfact.mpr h'), hs.2⟩

theorem Exact.weaken (h : Exact fact P x Q E) (hpost : ∀ a s, Q a s → Q' a s) (hfail : ∀ s, E s → E' s) :
    Exact fact P x Q' E' :=
  Triple.mono_post h (fun a s hs => ⟨hs.1, hpost a s hs.2⟩) fun s hs => ⟨hs.1, hfail s hs.2⟩

end

end Procedure
