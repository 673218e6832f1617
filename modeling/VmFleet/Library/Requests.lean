import VmFleet.Library.Transition
import Mathlib.Data.List.Infix

/-!
# Requests over a bad line

A client makes its requests one after another. A request may arrive late, more than once or never, and its
reply may get lost, so each one is tried several times and given up in the end. What the client takes for
done is done, provided that serving a request makes a fact of it that lasts. What it has given up may be
done or not, and may still be done later.
-/

namespace Requests

/-- What serving a request makes of the server, and what the server does by itself. -/
structure Server (σ ρ ε : Type) where
  serve : ρ → σ → σ
  own : ε → σ → Option σ

structure Policy where
  tries : Nat
  /-- Whether the client goes on after a request it has given up. -/
  goesOn : Bool

structure State (σ ρ : Type) where
  server : σ
  /-- All requests sent so far. The client waits for the reply to the last of them. -/
  sent : List ρ
  /-- Which of them a reply has been sent to. -/
  replied : List Nat
  todo : List ρ
  attempt : Nat
  /-- The requests the client is done with, and whether they were answered. -/
  outcomes : List (ρ × Bool)
  deriving DecidableEq

inductive Event (ε : Type) where
  | arrive (k : Nat)
  | reply
  /-- The attempt fails, whether the request has arrived or not. -/
  | fails
  | own (e : ε)
  deriving DecidableEq

variable {σ ρ ε : Type}

def State.ask (s : State σ ρ) : State σ ρ := { s with sent := s.sent ++ s.todo.take 1 }

def State.settle (s : State σ ρ) (r : ρ) (answered : Bool) (rest : List ρ) : State σ ρ :=
  State.ask { s with todo := rest, attempt := 1, outcomes := s.outcomes ++ [(r, answered)] }

def start (server : σ) (todo : List ρ) : State σ ρ := State.ask ⟨server, [], [], todo, 1, []⟩

def step (sv : Server σ ρ ε) (p : Policy) (s : State σ ρ) : Event ε → Option (State σ ρ)
  | .arrive k =>
    match s.sent[k]? with
    | some r => some { s with server := sv.serve r s.server, replied := k :: s.replied }
    | none => none
  | .reply =>
    match s.todo with
    | r :: rest => if s.sent.length - 1 ∈ s.replied then some (s.settle r true rest) else none
    | [] => none
  | .fails =>
    match s.todo with
    | r :: rest =>
      if s.attempt < p.tries then some (State.ask { s with attempt := s.attempt + 1 })
      else some (s.settle r false (if p.goesOn then rest else []))
    | [] => none
  | .own e => (sv.own e s.server).map fun server => { s with server := server }

variable {sv : Server σ ρ ε} {p : Policy} {s s' : State σ ρ} {all : List ρ}

/-- **What a step does.** -/
theorem step_cases {e : Event ε} (h : step sv p s e = some s') :
    (∃ k r, e = .arrive k ∧ s.sent[k]? = some r ∧
      s' = { s with server := sv.serve r s.server, replied := k :: s.replied }) ∨
    (∃ r rest, e = .reply ∧ s.todo = r :: rest ∧ s.sent.length - 1 ∈ s.replied ∧
      s' = s.settle r true rest) ∨
    (∃ r rest, e = .fails ∧ s.todo = r :: rest ∧ s.attempt < p.tries ∧
      s' = State.ask { s with attempt := s.attempt + 1 }) ∨
    (∃ r rest, e = .fails ∧ s.todo = r :: rest ∧ ¬ s.attempt < p.tries ∧
      s' = s.settle r false (if p.goesOn then rest else [])) ∨
    ∃ d server, e = .own d ∧ sv.own d s.server = some server ∧ s' = { s with server := server } := by
  cases e with
  | arrive k =>
      simp only [step] at h
      split at h
      · rename_i r hr
        exact Or.inl ⟨k, r, rfl, hr, (Option.some.inj h).symm⟩
      · cases h
  | reply =>
      simp only [step] at h
      split at h
      · rename_i r rest htodo
        obtain ⟨hreplied, h⟩ := Option.ite_none_right_eq_some.mp h
        exact Or.inr (Or.inl ⟨r, rest, rfl, htodo, hreplied, (Option.some.inj h).symm⟩)
      · cases h
  | fails =>
      simp only [step] at h
      split at h
      · rename_i r rest htodo
        split at h
        · rename_i hlt
          exact Or.inr (Or.inr (Or.inl ⟨r, rest, rfl, htodo, hlt, (Option.some.inj h).symm⟩))
        · rename_i hge
          exact Or.inr (Or.inr (Or.inr (Or.inl ⟨r, rest, rfl, htodo, hge, (Option.some.inj h).symm⟩)))
      · cases h
  | own d =>
      obtain ⟨server, hserver, h⟩ := Option.map_eq_some_iff.mp h
      exact Or.inr (Or.inr (Or.inr (Or.inr ⟨d, server, rfl, hserver, h.symm⟩)))

/-! ### What has been asked for -/

/-- How far the client has come with the requests `all`. -/
structure Progress (p : Policy) (all : List ρ) (s : State σ ρ) : Prop where
  served : s.outcomes.map Prod.fst ++ s.todo <+: all
  complete : p.goesOn = true ∨ (∀ o ∈ s.outcomes, o.2 = true) → s.outcomes.map Prod.fst ++ s.todo = all
  /-- A client that does not go on has nothing to do after the first failure. -/
  stops : p.goesOn = false → (∀ o ∈ s.outcomes, o.2 = true) ∨
    ∃ before r, s.outcomes = before ++ [(r, false)] ∧ (∀ o ∈ before, o.2 = true) ∧ s.todo = []
  sent_mem : ∀ r ∈ s.sent, r ∈ s.outcomes.map Prod.fst ++ s.todo.take 1
  asked : ∀ r rest, s.todo = r :: rest → s.sent.getLast? = some r
  attempt_le : s.attempt ≤ p.tries
  sent_le : s.sent.length ≤ p.tries * s.outcomes.length + s.attempt * (s.todo.take 1).length

theorem Progress.start (server : σ) (htries : 1 ≤ p.tries) : Progress p all (start server all) where
  served := by simp [Requests.start, State.ask]
  complete := by simp [Requests.start, State.ask]
  stops := by simp [Requests.start, State.ask]
  sent_mem := by simp [Requests.start, State.ask]
  asked := by
    rintro r rest h
    rw [Requests.start, State.ask] at h ⊢
    simp only at h
    simp [h]
  attempt_le := htries
  sent_le := by simp [Requests.start, State.ask]

/-- While something is to be done, nothing has gone wrong that would have stopped the client. -/
theorem Progress.answered_of_todo (h : Progress p all s) {r : ρ} {rest : List ρ} (htodo : s.todo = r :: rest)
    (hstop : p.goesOn = false) : ∀ o ∈ s.outcomes, o.2 = true := by
  rcases h.stops hstop with hall | ⟨before, last, -, -, hnil⟩
  · exact hall
  · rw [htodo] at hnil
    cases hnil

theorem Progress.all_eq (h : Progress p all s) {r : ρ} {rest : List ρ} (htodo : s.todo = r :: rest) :
    s.outcomes.map Prod.fst ++ r :: rest = all := by
  rw [← htodo]
  apply h.complete
  by_cases hgoes : p.goesOn = true
  · exact Or.inl hgoes
  · exact Or.inr (h.answered_of_todo htodo (by simpa using hgoes))

/-- The client is done with one request, and the next one is sent for the first time. -/
theorem Progress.settle (h : Progress p all s) (htries : 1 ≤ p.tries) {r : ρ} {rest rest' : List ρ}
    {answered : Bool} (htodo : s.todo = r :: rest) (hrest : answered = true ∨ p.goesOn = true → rest' = rest)
    (hnil : answered = false → p.goesOn = false → rest' = []) : Progress p all (s.settle r answered rest') := by
  have hall : s.outcomes.map Prod.fst ++ r :: rest = all := h.all_eq htodo
  have hfront : (s.outcomes ++ [(r, answered)]).map Prod.fst ++ rest' <+: all := by
    rw [← hall, List.map_append, List.append_assoc]
    apply (List.prefix_append_right_inj _).mpr
    by_cases hgoes : answered = true ∨ p.goesOn = true
    · rw [hrest hgoes]
      simp
    · rw [hnil (by simpa using (not_or.mp hgoes).1) (by simpa using (not_or.mp hgoes).2)]
      simp
  refine ⟨hfront, fun hcomplete => ?_, fun hstop => ?_, fun q hq => ?_, fun q rest'' hq => ?_, htries, ?_⟩
  · have hkept : rest' = rest := by
      apply hrest
      rcases hcomplete with hgoes | hok
      · exact Or.inr hgoes
      · exact Or.inl (hok (r, answered) (by simp [State.settle, State.ask]))
    rw [← hall, hkept]
    simp [State.settle, State.ask]
  · have hok : ∀ o ∈ s.outcomes, o.2 = true := h.answered_of_todo htodo hstop
    cases answered with
    | true =>
        left
        intro o ho
        simp only [State.settle, State.ask, List.mem_append, List.mem_singleton] at ho
        rcases ho with ho | rfl
        · exact hok o ho
        · rfl
    | false => exact Or.inr ⟨s.outcomes, r, rfl, hok, hnil rfl hstop⟩
  · simp only [State.settle, State.ask, List.mem_append] at hq ⊢
    rcases hq with hq | hq
    · have hmem := h.sent_mem q hq
      rw [htodo] at hmem
      simp only [List.mem_append, List.take_succ_cons, List.take_zero, List.mem_singleton] at hmem
      left
      rw [List.map_append, List.mem_append]
      simpa using hmem
    · exact Or.inr hq
  · simp only [State.settle, State.ask] at hq ⊢
    simp [hq]
  · have hsent := h.sent_le
    have hattempt := h.attempt_le
    rw [htodo] at hsent
    simp only [List.take_succ_cons, List.take_zero, List.length_singleton, Nat.mul_one] at hsent
    simp only [State.settle, State.ask, List.length_append, List.length_singleton, Nat.one_mul, Nat.mul_add,
      Nat.mul_one]
    omega

theorem Progress.again (h : Progress p all s) {r : ρ} {rest : List ρ} (htodo : s.todo = r :: rest)
    (hlt : s.attempt < p.tries) : Progress p all (State.ask { s with attempt := s.attempt + 1 }) := by
  refine ⟨h.served, h.complete, h.stops, fun q hq => ?_, fun q rest' hq => ?_, hlt, ?_⟩
  · simp only [State.ask, List.mem_append] at hq ⊢
    rcases hq with hq | hq
    · exact List.mem_append.mp (h.sent_mem q hq)
    · exact Or.inr hq
  · simp only [State.ask] at hq ⊢
    simp [hq]
  · have hsent := h.sent_le
    rw [htodo] at hsent
    simp only [List.take_succ_cons, List.take_zero, List.length_singleton, Nat.mul_one] at hsent
    simp only [State.ask, htodo, List.length_append, List.take_succ_cons, List.take_zero, List.length_singleton,
      Nat.mul_one]
    omega

theorem Progress.step (h : Progress p all s) (htries : 1 ≤ p.tries) {e : Event ε}
    (hstep : step sv p s e = some s') : Progress p all s' := by
  rcases step_cases hstep with ⟨k, r, -, -, rfl⟩ | ⟨r, rest, -, htodo, -, rfl⟩ |
    ⟨r, rest, -, htodo, hlt, rfl⟩ | ⟨r, rest, -, htodo, -, rfl⟩ | ⟨d, server, -, -, rfl⟩
  · exact ⟨h.served, h.complete, h.stops, h.sent_mem, h.asked, h.attempt_le, h.sent_le⟩
  · exact h.settle htries htodo (fun _ => rfl) (by simp)
  · exact h.again htodo hlt
  · apply h.settle htries htodo
    · intro hgoes
      simp only [Bool.false_eq_true, false_or] at hgoes
      rw [if_pos hgoes]
    · intro _ hstop
      simp [hstop]
  · exact ⟨h.served, h.complete, h.stops, h.sent_mem, h.asked, h.attempt_le, h.sent_le⟩

/-- No request is sent more often than there are tries. -/
theorem Progress.sent_le_all (h : Progress p all s) : s.sent.length ≤ p.tries * all.length := by
  have hlength : s.outcomes.length + s.todo.length ≤ all.length := by
    simpa using h.served.length_le
  have htake : (s.todo.take 1).length ≤ s.todo.length := (List.take_sublist 1 s.todo).length_le
  calc s.sent.length ≤ p.tries * s.outcomes.length + s.attempt * (s.todo.take 1).length := h.sent_le
    _ ≤ p.tries * s.outcomes.length + p.tries * s.todo.length :=
        Nat.add_le_add_left (Nat.mul_le_mul h.attempt_le htake) _
    _ = p.tries * (s.outcomes.length + s.todo.length) := (Nat.mul_add ..).symm
    _ ≤ p.tries * all.length := Nat.mul_le_mul_left _ hlength

theorem Progress.sent_mem_all (h : Progress p all s) {r : ρ} (hr : r ∈ s.sent) : r ∈ all := by
  have hmem := h.sent_mem r hr
  apply h.served.subset
  rw [List.mem_append] at hmem ⊢
  exact hmem.imp_right List.mem_of_mem_take

/-- **Where a client has stopped,** it has been answered what comes before, and has asked for nothing after. -/
theorem Progress.split_of_failed (h : Progress p all s) (hstop : p.goesOn = false) {r : ρ}
    (hr : (r, false) ∈ s.outcomes) :
    ∃ before after, all = before ++ r :: after ∧ (∀ q ∈ before, (q, true) ∈ s.outcomes) ∧
      ∀ q ∈ s.sent, q ∈ before ++ [r] := by
  rcases h.stops hstop with hall | ⟨before, last, houtcomes, hok, htodo⟩
  · cases hall _ hr
  · have hlast : r = last := by
      rw [houtcomes, List.mem_append, List.mem_singleton] at hr
      rcases hr with hr | hr
      · cases hok _ hr
      · exact congrArg Prod.fst hr
    obtain ⟨after, hafter⟩ := h.served
    rw [htodo, houtcomes] at hafter
    refine ⟨before.map Prod.fst, after, ?_, fun q hq => ?_, fun q hq => ?_⟩
    · rw [← hafter, hlast]
      simp
    · obtain ⟨o, ho, rfl⟩ := List.mem_map.mp hq
      rw [houtcomes, ← hok o ho]
      exact List.mem_append_left _ ho
    · have hmem := h.sent_mem q hq
      rw [htodo, houtcomes, ← hlast] at hmem
      simpa using hmem

/-! ### What has been done -/

/-- While `Inv` holds of the server, serving a request of `all` makes `Done` true of it for good. -/
structure Lasting (sv : Server σ ρ ε) (Inv : σ → Prop) (Done : ρ → σ → Prop) (all : List ρ) : Prop where
  serve_inv : ∀ r ∈ all, ∀ t, Inv t → Inv (sv.serve r t)
  own_inv : ∀ e t t', Inv t → sv.own e t = some t' → Inv t'
  serve_done : ∀ r ∈ all, ∀ t, Inv t → Done r (sv.serve r t)
  serve_keeps : ∀ r ∈ all, ∀ q t, Inv t → Done q t → Done q (sv.serve r t)
  own_keeps : ∀ e q t t', Inv t → Done q t → sv.own e t = some t' → Done q t'

/-- A reply stands for a request that has been served. -/
structure Effects (Inv : σ → Prop) (Done : ρ → σ → Prop) (s : State σ ρ) : Prop where
  server : Inv s.server
  replied : ∀ k ∈ s.replied, ∃ r, s.sent[k]? = some r ∧ Done r s.server
  answered : ∀ r, (r, true) ∈ s.outcomes → Done r s.server

variable {Inv : σ → Prop} {Done : ρ → σ → Prop}

theorem Effects.start {server : σ} (h : Inv server) : Effects Inv Done (start server all) := by
  constructor <;> simp [Requests.start, State.ask, h]

/-- Sending changes nothing on the server, and the numbers of earlier requests stay. -/
theorem Effects.replied_ask (h : Effects Inv Done s) (todo : List ρ) {k : Nat} (hk : k ∈ s.replied) :
    ∃ r, (s.sent ++ todo.take 1)[k]? = some r ∧ Done r s.server := by
  obtain ⟨r, hr, hdone⟩ := h.replied k hk
  refine ⟨r, ?_, hdone⟩
  rw [List.getElem?_append_left (List.getElem?_eq_some_iff.mp hr).1, hr]

/-- The reply to the last request says that this request has been served. -/
theorem Effects.done_of_reply (h : Effects Inv Done s) (hprogress : Progress p all s) {r : ρ} {rest : List ρ}
    (htodo : s.todo = r :: rest) (hreplied : s.sent.length - 1 ∈ s.replied) : Done r s.server := by
  obtain ⟨q, hq, hdone⟩ := h.replied _ hreplied
  have hlast : s.sent.getLast? = some r := hprogress.asked r rest htodo
  rw [List.getLast?_eq_getElem?, hq] at hlast
  rw [← Option.some.inj hlast]
  exact hdone

theorem Effects.step (h : Effects Inv Done s) (hlasting : Lasting sv Inv Done all)
    (hprogress : Progress p all s) {e : Event ε} (hstep : step sv p s e = some s') :
    Effects Inv Done s' := by
  rcases step_cases hstep with ⟨k, r, -, hr, rfl⟩ | ⟨r, rest, -, htodo, hreplied, rfl⟩ |
    ⟨r, rest, -, htodo, -, rfl⟩ | ⟨r, rest, -, htodo, -, rfl⟩ | ⟨d, server, -, hown, rfl⟩
  · have hmem : r ∈ all := hprogress.sent_mem_all (List.mem_of_getElem? hr)
    refine ⟨hlasting.serve_inv r hmem _ h.server, fun j hj => ?_, fun q hq => ?_⟩
    · rcases List.mem_cons.mp hj with rfl | hj
      · exact ⟨r, hr, hlasting.serve_done r hmem _ h.server⟩
      · obtain ⟨q, hq, hdone⟩ := h.replied j hj
        exact ⟨q, hq, hlasting.serve_keeps r hmem q _ h.server hdone⟩
    · exact hlasting.serve_keeps r hmem q _ h.server (h.answered q hq)
  · refine ⟨h.server, fun j hj => h.replied_ask rest hj, fun q hq => ?_⟩
    simp only [State.settle, State.ask, List.mem_append, List.mem_singleton, Prod.mk.injEq, and_true] at hq
    rcases hq with hq | rfl
    · exact h.answered q hq
    · exact h.done_of_reply hprogress htodo hreplied
  · exact ⟨h.server, fun j hj => h.replied_ask s.todo hj, h.answered⟩
  · refine ⟨h.server, fun j hj => h.replied_ask _ hj, fun q hq => ?_⟩
    simp only [State.settle, State.ask, List.mem_append, List.mem_singleton, Prod.mk.injEq] at hq
    rcases hq with hq | hq
    · exact h.answered q hq
    · cases hq.2
  · refine ⟨hlasting.own_inv d _ _ h.server hown, fun j hj => ?_, fun q hq => ?_⟩
    · obtain ⟨q, hq, hdone⟩ := h.replied j hj
      exact ⟨q, hq, hlasting.own_keeps d q _ _ h.server hdone hown⟩
    · exact hlasting.own_keeps d q _ _ h.server (h.answered q hq) hown

end Requests
