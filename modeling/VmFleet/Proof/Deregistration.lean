import VmFleet.Source.Deregistration

/-!
# Which records are deleted

However requests and replies get lost or come late, only records that were listed and picked are deleted,
under the name they were listed with, since GitHub gives no id twice. Who comes to the end without an error
has deleted all of them. `delete_runners_by_prefix` stops at the first runner whose three attempts fail, and
has asked for none of the later ones.
-/

namespace VmFleet

/-! ### The server -/

namespace RunnerServer

/-- Ids name one record each. -/
structure Consistent (s : RunnerServer) : Prop where
  nodup : (s.records.map (·.id)).Nodup
  used : ∀ r ∈ s.records, r.id ∈ s.usedIds

/-- The server still knows the listed runners under their ids, or has no such record any more. -/
structure Knows (listed : List Runner) (s : RunnerServer) : Prop extends s.Consistent where
  used_listed : ∀ q ∈ listed, q.id ∈ s.usedIds
  named : ∀ q ∈ listed, ∀ r ∈ s.records, r.id = q.id → r.name = q.name

/-- Deleted, and the id will not be given out any more. -/
def Gone (id : UInt64) (s : RunnerServer) : Prop := id ∈ s.usedIds ∧ ∀ r ∈ s.records, r.id ≠ id

variable {s s' : RunnerServer} {listed : List Runner} {id : UInt64} {r : Runner}

@[simp] theorem mem_delete : r ∈ (s.delete id).records ↔ r ∈ s.records ∧ r.id ≠ id := by simp [delete]

@[simp] theorem delete_usedIds : (s.delete id).usedIds = s.usedIds := rfl

theorem Consistent.delete (h : s.Consistent) (id : UInt64) : (s.delete id).Consistent where
  nodup := h.nodup.sublist (List.filter_sublist.map _)
  used := fun r hr => h.used r (mem_delete.mp hr).1

theorem Consistent.eq_of_id_eq (h : s.Consistent) {q : Runner} (hq : q ∈ s.records) (hr : r ∈ s.records)
    (hid : r.id = q.id) : r = q :=
  List.inj_on_of_nodup_map h.nodup hr hq hid

theorem Knows.delete (h : s.Knows listed) (id : UInt64) : (s.delete id).Knows listed where
  toConsistent := h.toConsistent.delete id
  used_listed := h.used_listed
  named := fun q hq r hr => h.named q hq r (mem_delete.mp hr).1

theorem gone_delete (h : id ∈ s.usedIds) : (s.delete id).Gone id := ⟨h, by simp⟩

theorem Gone.delete (h : s.Gone id) (other : UInt64) : (s.delete other).Gone id :=
  ⟨h.1, fun r hr => h.2 r (mem_delete.mp hr).1⟩

/-- What is shown of a runner leaves its id and its name. -/
theorem exists_of_mem_shown {status : String} {busy : Bool}
    (h : r ∈ s.records.map fun r => if r.id = id then { r with status := status, busy := busy } else r) :
    ∃ q ∈ s.records, q.id = r.id ∧ q.name = r.name := by
  obtain ⟨q, hq, rfl⟩ := List.mem_map.mp h
  refine ⟨q, hq, ?_⟩
  split <;> exact ⟨rfl, rfl⟩

theorem Consistent.own {e : RecordEvent} (h : s.Consistent) (hown : own e s = some s') : s'.Consistent := by
  cases e with
  | register r =>
      simp only [RunnerServer.own] at hown
      split at hown
      · cases hown
      · rename_i hfresh
        cases hown
        have hnew : r.id ∉ s.records.map (·.id) := by
          intro hmem
          obtain ⟨q, hq, hid⟩ := List.mem_map.mp hmem
          exact hfresh (hid ▸ h.used q hq)
        refine ⟨?_, fun q hq => ?_⟩
        · rw [List.map_append, List.map_singleton]
          apply List.nodup_append.mpr
          exact ⟨h.nodup, List.nodup_singleton _, by
            rintro a ha b hb rfl
            exact hnew (List.mem_singleton.mp hb ▸ ha)⟩
        · rcases List.mem_append.mp hq with hq | hq
          · exact List.mem_cons_of_mem _ (h.used q hq)
          · rw [List.mem_singleton.mp hq]
            exact List.mem_cons_self
  | remove id =>
      cases hown
      exact h.delete id
  | shown id status busy =>
      cases hown
      refine ⟨?_, fun r hr => ?_⟩
      · have hids : (s.records.map fun r =>
            if r.id = id then { r with status := status, busy := busy } else r).map (·.id) =
            s.records.map (·.id) := by
          rw [List.map_map]
          apply List.map_congr_left
          intro r _
          simp only [Function.comp_apply]
          split <;> rfl
        rw [hids]
        exact h.nodup
      · obtain ⟨q, hq, hid, _⟩ := exists_of_mem_shown hr
        exact hid ▸ h.used q hq

theorem own_usedIds {e : RecordEvent} (hown : own e s = some s') (h : id ∈ s.usedIds) : id ∈ s'.usedIds := by
  cases e with
  | register r =>
      simp only [RunnerServer.own] at hown
      split at hown
      · cases hown
      · cases hown
        exact List.mem_cons_of_mem _ h
  | remove id =>
      cases hown
      exact h
  | shown id status busy =>
      cases hown
      exact h

/-- A record that is there after the server has changed is new, or is of a runner that was there before. -/
theorem exists_of_mem_own {e : RecordEvent} (hown : own e s = some s') (hr : r ∈ s'.records) :
    r.id ∉ s.usedIds ∨ ∃ q ∈ s.records, q.id = r.id ∧ q.name = r.name := by
  cases e with
  | register new =>
      simp only [RunnerServer.own] at hown
      split at hown
      · cases hown
      · rename_i hfresh
        cases hown
        rcases List.mem_append.mp hr with hr | hr
        · exact Or.inr ⟨r, hr, rfl, rfl⟩
        · left
          rw [List.mem_singleton.mp hr]
          exact hfresh
  | remove id =>
      cases hown
      exact Or.inr ⟨r, (mem_delete.mp hr).1, rfl, rfl⟩
  | shown id status busy =>
      cases hown
      exact Or.inr (exists_of_mem_shown hr)

theorem Knows.own {e : RecordEvent} (h : s.Knows listed) (hown : own e s = some s') : s'.Knows listed where
  toConsistent := h.toConsistent.own hown
  used_listed := fun q hq => own_usedIds hown (h.used_listed q hq)
  named := by
    intro q hq r hr hid
    rcases exists_of_mem_own hown hr with hnew | ⟨old, hold, holdId, hname⟩
    · exact absurd (h.used_listed q hq) (hid ▸ hnew)
    · rw [← hname]
      exact h.named q hq old hold (holdId.trans hid)

theorem Gone.own {e : RecordEvent} (h : s.Gone id) (hown : own e s = some s') : s'.Gone id := by
  refine ⟨own_usedIds hown h.1, fun r hr hid => ?_⟩
  rcases exists_of_mem_own hown hr with hnew | ⟨old, hold, holdId, _⟩
  · exact hnew (hid ▸ h.1)
  · exact h.2 old hold (holdId.trans hid)

/-- A page lists runners as the server knows them. -/
theorem Knows.page (h : s.Knows listed) {runners : List Runner} (hpage : ∀ r ∈ runners, r ∈ s.records) :
    s.Knows (listed ++ runners) where
  toConsistent := h.toConsistent
  used_listed := by
    intro q hq
    rcases List.mem_append.mp hq with hq | hq
    · exact h.used_listed q hq
    · exact h.used q (hpage q hq)
  named := by
    intro q hq r hr hid
    rcases List.mem_append.mp hq with hq | hq
    · exact h.named q hq r hr hid
    · rw [h.eq_of_id_eq (hpage q hq) hr hid]

end RunnerServer

/-! ### One deleter -/

namespace Deregistration

variable {d : Deleter} {s s' : Deregistration} {listed : List Runner}

/-- A deletion that GitHub has made stays made. -/
theorem lasting (listed : List Runner) (d : Deleter) :
    Requests.Lasting server (RunnerServer.Knows listed) RunnerServer.Gone
      ((listed.filter d.picks).map (·.id)) where
  serve_inv := fun id _ _ h => h.delete id
  own_inv := fun _ _ _ h hown => h.own hown
  serve_done := by
    intro id hid t h
    obtain ⟨q, hq, rfl⟩ := List.mem_map.mp hid
    exact RunnerServer.gone_delete (h.used_listed q (List.mem_of_mem_filter hq))
  serve_keeps := fun other _ _ _ _ h => h.delete other
  own_keeps := fun _ _ _ _ _ h hown => h.own hown

theorem tries (d : Deleter) : d.policy.tries = 3 := by cases d <;> rfl

/-- The requests are those for the runners picked, and what they have done GitHub has done. -/
structure Inv (d : Deleter) (s : Deregistration) : Prop where
  effects : Requests.Effects (RunnerServer.Knows s.listed) RunnerServer.Gone s.link
  progress : Requests.Progress d.policy (if s.listing then [] else (s.picked d).map (·.id)) s.link

theorem Inv.init {t : RunnerServer} (h : t.Consistent) : Inv d (init t) where
  effects := Requests.Effects.start ⟨h, by simp [Deregistration.init], by simp [Deregistration.init]⟩
  progress := Requests.Progress.start t (by simp [tries])

theorem Inv.step {e : DeregistrationEvent} (h : Inv d s) (hstep : step d s e = some s') : Inv d s' := by
  cases e with
  | page runners =>
      obtain ⟨⟨hlisting, hpage⟩, hs⟩ := Option.ite_none_right_eq_some.mp hstep
      cases hs
      have hprogress := h.progress
      rw [if_pos hlisting] at hprogress
      refine ⟨⟨h.effects.server.page hpage, h.effects.replied, h.effects.answered⟩, ?_⟩
      rw [if_pos hlisting]
      exact hprogress
  | lastPage =>
      obtain ⟨hlisting, hs⟩ := Option.ite_none_right_eq_some.mp hstep
      cases hs
      exact ⟨Requests.Effects.start h.effects.server, Requests.Progress.start _ (by simp [tries])⟩
  | link e =>
      obtain ⟨link, hlink, hs⟩ := Option.map_eq_some_iff.mp hstep
      cases hs
      refine ⟨?_, h.progress.step (by simp [tries]) hlink⟩
      by_cases hlisting : s.listing = true
      · have hprogress := h.progress
        rw [if_pos hlisting] at hprogress
        have hnothing : Requests.Lasting server (RunnerServer.Knows s.listed) RunnerServer.Gone [] := by
          have hall := lasting s.listed d
          exact ⟨by simp, hall.own_inv, by simp, by simp, hall.own_keeps⟩
        exact h.effects.step hnothing hprogress hlink
      · have hprogress := h.progress
        rw [if_neg hlisting] at hprogress
        exact h.effects.step (lasting s.listed d) hprogress hlink

/-- **Only listed and picked runners are deleted.** -/
theorem Inv.deletes {e : DeregistrationEvent} (h : Inv d s) (hstep : Deregistration.step d s e = some s')
    (hown : ∀ own, e ≠ .link (.own own)) :
    ∀ r ∈ s.link.server.records, r ∈ s'.link.server.records ∨ ∃ q ∈ s.picked d, q.id = r.id ∧ q.name = r.name := by
  intro r hr
  cases e with
  | page runners =>
      obtain ⟨_, hs⟩ := Option.ite_none_right_eq_some.mp hstep
      cases hs
      exact Or.inl hr
  | lastPage =>
      obtain ⟨_, hs⟩ := Option.ite_none_right_eq_some.mp hstep
      cases hs
      exact Or.inl hr
  | link e =>
      obtain ⟨link, hlink, hs⟩ := Option.map_eq_some_iff.mp hstep
      cases hs
      rcases Requests.step_cases hlink with ⟨k, id, -, hsent, rfl⟩ | ⟨_, _, -, -, -, rfl⟩ |
        ⟨_, _, -, -, -, rfl⟩ | ⟨_, _, -, -, -, rfl⟩ | ⟨own, _, rfl, -, -⟩
      · by_cases hid : r.id = id
        · right
          have hmem := h.progress.sent_mem_all (List.mem_of_getElem? hsent)
          split at hmem
          · cases hmem
          · obtain ⟨q, hq, hqid⟩ := List.mem_map.mp hmem
            refine ⟨q, hq, hqid.trans hid.symm, ?_⟩
            exact (h.effects.server.named q (List.mem_of_mem_filter hq) r hr (hid.trans hqid.symm)).symm
        · exact Or.inl (RunnerServer.mem_delete.mpr ⟨hr, hid⟩)
      · exact Or.inl hr
      · exact Or.inl hr
      · exact Or.inl hr
      · exact absurd rfl (hown own)

theorem Inv.sent_le (h : Inv d s) : s.link.sent.length ≤ 3 * (s.picked d).length := by
  have hle := h.progress.sent_le_all
  rw [tries] at hle
  split at hle
  · simp only [List.length_nil, Nat.mul_zero, Nat.le_zero_eq] at hle
    omega
  · rwa [List.length_map] at hle

/-! ### What is returned -/

theorem result_cases {r : Except UInt64 Nat} (h : s.result = some r) :
    s.listing = false ∧ s.link.todo = [] ∧
      ((∃ id, r = .error id ∧ (id, false) ∈ s.link.outcomes) ∨
        (r = .ok s.link.outcomes.length ∧ ∀ o ∈ s.link.outcomes, o.2 = true)) := by
  rw [result] at h
  split at h
  · cases h
  · rename_i hdone
    simp only [not_or, Bool.not_eq_true, not_not] at hdone
    refine ⟨hdone.1, hdone.2, ?_⟩
    split at h
    · rename_i o ho
      cases h
      have hfalse : o.2 = false := by simpa using List.find?_some ho
      refine Or.inl ⟨o.1, rfl, ?_⟩
      rw [← hfalse]
      exact List.mem_of_find?_eq_some ho
    · rename_i hnone
      cases h
      exact Or.inr ⟨rfl, fun o ho => by simpa using List.find?_eq_none.mp hnone o ho⟩

theorem Inv.progress_of_listed (h : Inv d s) (hlisting : s.listing = false) :
    Requests.Progress d.policy ((s.picked d).map (·.id)) s.link := by
  simpa [hlisting] using h.progress

theorem Inv.ok (h : Inv d s) {n : Nat} (hresult : s.result = some (.ok n)) :
    n = (s.picked d).length ∧ ∀ q ∈ s.picked d, ∀ r ∈ s.link.server.records, r.id ≠ q.id := by
  obtain ⟨hlisting, htodo, ⟨id, herror, _⟩ | ⟨hok, hall⟩⟩ := result_cases hresult
  · cases herror
  · cases hok
    have hdone := (h.progress_of_listed hlisting).complete (Or.inr hall)
    rw [htodo, List.append_nil] at hdone
    refine ⟨?_, fun q hq => ?_⟩
    · simpa using congrArg List.length hdone
    · have hmem : q.id ∈ s.link.outcomes.map Prod.fst := by
        rw [hdone]
        exact List.mem_map.mpr ⟨q, hq, rfl⟩
      obtain ⟨o, ho, hid⟩ := List.mem_map.mp hmem
      rw [← hid]
      apply (h.effects.answered o.1 _).2
      rw [← hall o ho]
      exact ho

theorem Inv.error (h : Inv .uninstall s) {id : UInt64} (hresult : s.result = some (.error id)) :
    ∃ before q after, s.picked .uninstall = before ++ q :: after ∧ q.id = id ∧
      (∀ q' ∈ before, ∀ r ∈ s.link.server.records, r.id ≠ q'.id) ∧
      ∀ sent ∈ s.link.sent, sent ∈ (before ++ [q]).map (·.id) := by
  obtain ⟨hlisting, _, ⟨id', herror, hfailed⟩ | ⟨hok, _⟩⟩ := result_cases hresult
  · cases herror
    obtain ⟨before, after, hsplit, hbefore, hsent⟩ :=
      (h.progress_of_listed hlisting).split_of_failed rfl hfailed
    obtain ⟨front, back, hpicked, rfl, hback⟩ := List.map_eq_append_iff.mp hsplit
    obtain ⟨q, rest, rfl, rfl, rfl⟩ := List.map_eq_cons_iff.mp hback
    refine ⟨front, q, rest, hpicked, rfl, fun q' hq' => ?_, fun sent hmem => ?_⟩
    · exact (h.effects.answered q'.id (hbefore _ (List.mem_map.mpr ⟨q', hq', rfl⟩))).2
    · simpa using hsent sent hmem
  · cases hok

/-- **What deleting comes to,** whatever is lost, is late or goes on meanwhile. The requests are bounded in
total: three for each runner that is picked. -/
theorem deletes_what_it_picked {server : RunnerServer} {events : List DeregistrationEvent}
    (hserver : server.Consistent)
    (hexec : Transition.exec (step d) (init server) events = some s) :
    (∀ e s', step d s e = some s' → (∀ own, e ≠ .link (.own own)) → ∀ r ∈ s.link.server.records,
      r ∈ s'.link.server.records ∨ ∃ q ∈ s.picked d, q.id = r.id ∧ q.name = r.name) ∧
    s.link.sent.length ≤ 3 * (s.picked d).length ∧
    (∀ n, s.result = some (.ok n) →
      n = (s.picked d).length ∧ ∀ q ∈ s.picked d, ∀ r ∈ s.link.server.records, r.id ≠ q.id) ∧
    (d = .uninstall → ∀ id, s.result = some (.error id) →
      ∃ before q after, s.picked d = before ++ q :: after ∧ q.id = id ∧
        (∀ q' ∈ before, ∀ r ∈ s.link.server.records, r.id ≠ q'.id) ∧
        ∀ sent ∈ s.link.sent, sent ∈ (before ++ [q]).map (·.id)) := by
  have hinv : Inv d s := Transition.Reachable.invariant (fun _ _ _ h hstep => h.step hstep)
    (Inv.init hserver) ⟨events, hexec⟩
  refine ⟨fun e s' hstep hown => hinv.deletes hstep hown, hinv.sent_le, fun n => hinv.ok, ?_⟩
  rintro rfl id
  exact hinv.error

/-! Two runners of the fleet and a foreign one. The reply for the first runner is lost, and the second try
finds no record any more; the three requests for the second one are lost, and one of them comes late. -/

def threeRunners : RunnerServer where
  records := [
    { id := 1, name := "vmfleet-ci-100-1700000000-4242", status := "offline" },
    { id := 2, name := "build-host", status := "online" },
    { id := 3, name := "vmfleet-ci-101-1700000000-4243", status := "online", busy := true }]
  usedIds := [1, 2, 3]

def lossyDeletion : List DeregistrationEvent :=
  [.page (threeRunners.records.take 2), .page (threeRunners.records.drop 2), .lastPage,
    .link (.arrive 0), .link .fails, .link (.arrive 1), .link .reply,
    .link .fails, .link .fails, .link .fails, .link (.arrive 3)]

theorem deletes_what_it_picked_lossy :
    ∃ s, Transition.exec (step .uninstall) (init threeRunners) lossyDeletion = some s ∧
      s.result = some (.error 3) ∧ s.link.server.records.map (·.id) = [2] ∧ s.link.sent.length ≤ 6 := by
  obtain ⟨s, hs⟩ := Option.isSome_iff_exists.mp
    (show (Transition.exec (step .uninstall) (init threeRunners) lossyDeletion).isSome = true by decide +kernel)
  have hsteps : (Transition.exec (step .uninstall) (init threeRunners) lossyDeletion).map
      (fun s => (s.result, s.link.server.records.map (·.id), (s.picked .uninstall).length)) =
      some (some (.error 3), [2], 2) := by
    decide +kernel
  rw [hs, Option.map_some, Option.some.injEq, Prod.mk.injEq, Prod.mk.injEq] at hsteps
  have hserver : threeRunners.Consistent := ⟨by decide, by decide⟩
  obtain ⟨_, hsent, _⟩ := deletes_what_it_picked (d := .uninstall) hserver hs
  rw [hsteps.2.2] at hsent
  exact ⟨s, hs, hsteps.1, hsteps.2.1, hsent⟩

end Deregistration

end VmFleet
