import VmFleet.Proof.BuildBase
import VmFleet.Proof.WorkerRefinement
import VmFleet.Source.Doctor

/-!
# What a clean bill of health is worth

The doctor is the preflight. `doctor_clears` says what follows when it has found nothing wrong: as long as
the host answers as it did, no worker of any pool fails before the token and the gate, and the gate holds no
launch back for want of disk space.
-/

namespace VmFleet

namespace Doctor

open Procedure

/-! ### Counting failures -/

variable {α β : Type} {fact fact' : Prop}

/-- The count stays at 0 if `fact` holds, and only then. -/
def Judges (fact : Prop) (x : Doctor α) : Prop :=
  ∀ p : Prop, Triple (fun s => s.fails = 0 ↔ p) x (fun _ s => s.fails = 0 ↔ p ∧ fact) fun _ => False

theorem judges_pure (a : α) : Judges True (pure a) := fun p => triple_pure fun s h => by rw [h, and_true]

theorem judges_issue (c : Command) : Judges True (issue c) := fun p =>
  triple_modify fun s h => by rw [and_true]; exact h

theorem judges_printLine (line : String) : Judges True (printLine line) := fun p =>
  triple_modify fun s h => by rw [and_true]; exact h

theorem judges_check (name : String) (ok : Bool) (detail : String) :
    Judges (ok = true) (check name ok detail) := by
  intro p
  apply triple_modify
  intro s h
  cases ok <;> simp [h]

theorem Judges.bind {x : Doctor α} {f : α → Doctor β} (hx : Judges fact x) (hf : ∀ a, Judges fact' (f a)) :
    Judges (fact ∧ fact') (x >>= f) := by
  intro p
  apply triple_bind (hx p)
  intro a
  rw [← and_assoc]
  exact hf a (p ∧ fact)

theorem Judges.congr {x : Doctor α} (h : Judges fact x) (hfact : fact ↔ fact') : Judges fact' x :=
  propext hfact ▸ h

/-! ### The checks -/

section

variable (host : DoctorHost)

theorem judges_checkMultipass : Judges (exitsZero host.multipass = true) (checkMultipass host) :=
  ((judges_issue _).bind fun _ => judges_check _ _ _).congr (iff_of_eq (true_and _))

theorem judges_checkLinger : Judges (Systemd.lingerEnabled host.linger = true) (checkLinger host) :=
  ((judges_issue _).bind fun _ => judges_check _ _ _).congr (iff_of_eq (true_and _))

theorem judges_checkBaseVms (bases : List Base) :
    Judges (∀ b ∈ bases, exitsZero (host.info b.name) = true) (checkBaseVms host bases) := by
  induction bases with
  | nil => exact (judges_pure ()).congr (by simp)
  | cons b rest ih =>
      rw [checkBaseVms]
      have hrest := (judges_issue (Multipass.infoCommand b.name)).bind fun _ =>
        (judges_check ("base VM " ++ b.name) (exitsZero (host.info b.name)) b.name).bind fun _ => ih
      exact hrest.congr (by simp)

variable {host} in
theorem scopePath_of_tokenVerdict {cfg : Config} (h : tokenVerdict host cfg = .ok ()) :
    ∃ scope, cfg.github.scopePath = .ok scope := by
  obtain ⟨token, _, hchecked⟩ := Fallible.bind_eq_ok_iff.mp h
  obtain ⟨c, hclient, _⟩ := Fallible.bind_eq_ok_iff.mp hchecked
  obtain ⟨scope, hscope, _⟩ := Fallible.bind_eq_ok_iff.mp hclient
  exact ⟨scope, hscope⟩

theorem judges_checkGitHub (cfg : Config) :
    Judges (tokenVerdict host cfg = .ok ()) (checkGitHub host cfg) := by
  rw [checkGitHub]
  cases hverdict : tokenVerdict host cfg with
  | ok u =>
      obtain ⟨scope, hscope⟩ := scopePath_of_tokenVerdict hverdict
      rw [hscope]
      exact (judges_check "github token" true ("scope " ++ scope)).congr (by simp)
  | error e => exact (judges_check "github token" false e).congr (by simp)

theorem judges_warnMode (cfg : Config) : Judges True (warnMode host cfg) := by
  rw [warnMode]
  cases host.mode cfg.github.tokenFile with
  | none => exact judges_pure ()
  | some mode =>
      dsimp only
      split
      · exact judges_printLine _
      · exact judges_pure ()

/-- What the doctor asks of a config. -/
structure Sound (host : DoctorHost) (cfg : Config) : Prop where
  disk : cfg.admission.minDiskGib ≤ freeGib host cfg.storage.vaultPath
  bases : ∀ b ∈ cfg.bases, exitsZero (host.info b.name) = true
  token : tokenVerdict host cfg = .ok ()

theorem judges_checkConfigured (cfg : Config) : Judges (Sound host cfg) (checkConfigured host cfg) := by
  have hdisk := judges_check "disk" (decide (cfg.admission.minDiskGib ≤ freeGib host cfg.storage.vaultPath))
    (toString (freeGib host cfg.storage.vaultPath).toNat ++ " GiB free at " ++ cfg.storage.vaultPath)
  have hall := hdisk.bind fun _ => (judges_checkBaseVms host cfg.bases).bind fun _ =>
    (judges_checkGitHub host cfg).bind fun _ => judges_warnMode host cfg
  apply Judges.congr hall
  rw [decide_eq_true_iff, and_true]
  exact ⟨fun h => ⟨h.1, h.2.1, h.2.2⟩, fun h => ⟨h.disk, h.bases, h.token⟩⟩

end

variable {host : DoctorHost}

/-! ### The verdict -/

/-- The config the doctor goes on with. -/
def loaded (host : DoctorHost) : Option Config :=
  if host.configExists then (Config.loadFile host.home host.configFile host.config).toOption else none

theorem checkConfig_spec (p : Prop) : Triple (fun s => s.fails = 0 ↔ p) (checkConfig host)
    (fun cfg s => cfg = loaded host ∧ (s.fails = 0 ↔ p ∧ (loaded host).isSome = true)) fun _ => False := by
  have hchecked : ∀ (cfg : Option Config) (ok : Bool) (detail : String), loaded host = cfg →
      cfg.isSome = ok → Triple (fun s => s.fails = 0 ↔ p) (do
        check "config" ok detail
        return cfg) (fun cfg s => cfg = loaded host ∧ (s.fails = 0 ↔ p ∧ (loaded host).isSome = true))
        fun _ => False := by
    rintro cfg ok detail hloaded rfl
    apply triple_bind (judges_check "config" cfg.isSome detail p)
    exact fun _ => triple_pure fun s h => ⟨hloaded.symm, by rw [hloaded]; exact h⟩
  rw [checkConfig]
  split
  · next hexists =>
      cases hload : Config.loadFile host.home host.configFile host.config with
      | ok cfg => exact hchecked (some cfg) true _ (by rw [loaded, if_pos hexists, hload]; rfl) rfl
      | error e => exact hchecked none false _ (by rw [loaded, if_pos hexists, hload]; rfl) rfl
  · next hmissing => exact hchecked none false _ (by rw [loaded, if_neg hmissing]) rfl

variable (host) in
theorem judges_checkIfConfigured (cfg : Option Config) :
    Judges (∀ c, cfg = some c → Sound host c) (checkIfConfigured host cfg) := by
  cases cfg with
  | none => exact (judges_pure ()).congr (by simp)
  | some c => exact (judges_checkConfigured host c).congr (by simp)

theorem verdict_spec (fact : Prop) :
    Triple (fun s => s.fails = 0 ↔ fact) verdict (fun _ _ => fact) fun _ => ¬ fact := by
  apply triple_bind_get
  intro s hs
  apply triple_ite
  · intro hfails
    apply triple_throw
    intro _ _ hfact
    have hzero := hs.mpr hfact
    omega
  · intro hnone
    apply triple_modify
    intro _ _
    exact hs.mp (by omega)

/-- What the doctor asks of a host. -/
structure Healthy (host : DoctorHost) (cfg : Config) : Prop where
  multipass : exitsZero host.multipass = true
  loaded : loaded host = some cfg
  linger : Systemd.lingerEnabled host.linger = true
  sound : Sound host cfg

variable (host) in
theorem doctor_spec : Triple (fun s => s.fails = 0) (doctor host) (fun _ _ => ∃ cfg, Healthy host cfg)
    fun _ => ¬ ∃ cfg, Healthy host cfg := by
  have hfact : (((((True ∧ exitsZero host.multipass = true) ∧ (loaded host).isSome = true) ∧ true = true) ∧
      Systemd.lingerEnabled host.linger = true) ∧ ∀ c, loaded host = some c → Sound host c) ↔
      ∃ cfg, Healthy host cfg := by
    refine ⟨fun h => ?_, fun h => ?_⟩
    · obtain ⟨⟨⟨⟨⟨_, hmultipass⟩, hsome⟩, _⟩, hlinger⟩, hsound⟩ := h
      obtain ⟨cfg, hloaded⟩ := Option.isSome_iff_exists.mp hsome
      exact ⟨cfg, hmultipass, hloaded, hlinger, hsound cfg hloaded⟩
    · obtain ⟨cfg, hmultipass, hloaded, hlinger, hsound⟩ := h
      refine ⟨⟨⟨⟨⟨trivial, hmultipass⟩, by rw [hloaded]; rfl⟩, rfl⟩, hlinger⟩, fun c hc => ?_⟩
      rw [hloaded] at hc
      cases hc
      exact hsound
  apply triple_bind ((judges_checkMultipass host True).mono (fun s h => iff_true_intro h) (fun _ _ h => h)
    fun _ h => h.elim)
  intro _
  apply triple_bind ((checkConfig_spec _).mono_fail fun _ h => h.elim)
  intro cfg
  apply triple_of_fact
  rintro rfl
  apply triple_bind ((judges_check _ _ _ _).mono_fail fun _ h => h.elim)
  intro _
  apply triple_bind ((judges_checkLinger host _).mono_fail fun _ h => h.elim)
  intro _
  apply triple_bind ((judges_checkIfConfigured host _ _).mono_fail fun _ h => h.elim)
  intro _
  rw [hfact]
  exact verdict_spec _

theorem healthy_of_passes (h : (StateT.run (ExceptT.run (doctor host)) {}).1 = .ok ()) :
    ∃ cfg, Healthy host cfg := by
  have hends := doctor_spec host {} rfl
  cases hrun : StateT.run (ExceptT.run (doctor host)) {} with
  | mk r s =>
      rw [hrun] at h hends
      cases h
      exact hends

/-! ### What follows -/

/-- A worker of the pool finds the host as the doctor has found it. -/
structure Alike (host : DoctorHost) (cfg : Config) (pool : Pool) (out : LifeOutcomes) : Prop where
  version : out.version = host.multipass
  info : ∀ b, cfg.baseFor pool = some b → out.info = host.info b.name
  reachable : ∀ token c, cfg.token host.envToken (host.tokenFile cfg.github.tokenFile) = .ok token →
    Client.new cfg.github token = .ok c → out.reachable = (host.runners c).map fun _ => ()

theorem mem_bases_of_baseFor {cfg : Config} {pool : Pool} {b : Base} (h : cfg.baseFor pool = some b) :
    b ∈ cfg.bases := by
  rw [Config.baseFor] at h
  split at h
  · rcases Option.or_eq_some_iff.mp h with hfound | ⟨_, hhead⟩
    · exact List.mem_of_find?_eq_some hfound
    · exact List.mem_of_head? hhead
  · exact List.mem_of_head? h

theorem runners_of_tokenVerdict {cfg : Config} (h : tokenVerdict host cfg = .ok ()) :
    ∃ token c runners, cfg.token host.envToken (host.tokenFile cfg.github.tokenFile) = .ok token ∧
      Client.new cfg.github token = .ok c ∧ host.runners c = .ok runners := by
  obtain ⟨token, htoken, hchecked⟩ := Fallible.bind_eq_ok_iff.mp h
  obtain ⟨c, hclient, hlisted⟩ := Fallible.bind_eq_ok_iff.mp hchecked
  cases hrunners : host.runners c with
  | ok runners => exact ⟨token, c, runners, htoken, hclient, hrunners⟩
  | error e =>
      rw [hrunners] at hlisted
      cases hlisted

theorem Healthy.load {cfg : Config} (h : Healthy host cfg) :
    Config.loadFile host.home host.configFile host.config = .ok cfg := by
  have hloaded := h.loaded
  rw [Doctor.loaded] at hloaded
  split at hloaded
  · cases hload : Config.loadFile host.home host.configFile host.config with
    | ok c =>
        rw [hload] at hloaded
        cases hloaded
        rfl
    | error e =>
        rw [hload] at hloaded
        cases hloaded
  · cases hloaded

/-- No check of a worker fails that the doctor has made. -/
theorem Healthy.reachesClone {cfg : Config} (h : Healthy host cfg) {pool : Pool} {out : LifeOutcomes}
    (halike : Alike host cfg pool out) : WorkerLife.reachesClone cfg pool out =
      ((cfg.supervisor.useJit || out.registrationToken.isOk) && out.acquired.any Except.isOk) := by
  obtain ⟨base, hbase⟩ := WorkerLife.baseFor_isSome (BuildBase.valid_of_loadFile h.load).bases_ne_nil pool
  obtain ⟨token, c, runners, htoken, hclient, hrunners⟩ := runners_of_tokenVerdict h.sound.token
  have hversion : exitsZero out.version = true := halike.version ▸ h.multipass
  have hinfo : exitsZero out.info = true := by
    rw [halike.info base hbase]
    exact h.sound.bases base (mem_bases_of_baseFor hbase)
  have hreachable : out.reachable.isOk = true := by
    rw [halike.reachable token c htoken hclient, hrunners]
    rfl
  simp [WorkerLife.reachesClone, hversion, hbase, hinfo, hreachable]

/-- The disk the doctor has found enough is enough for the gate. -/
theorem Healthy.not_lowDisk {cfg : Config} (h : Healthy host cfg) {r : Resources}
    (hdisk : r.disk = host.disk cfg.storage.vaultPath) (free : UInt64) :
    gateBlocked cfg.admission r ≠ some (.lowDisk free) := by
  have henough : ¬ r.diskGib < cfg.admission.minDiskGib := by
    have hfree := h.sound.disk
    rw [freeGib, ← hdisk] at hfree
    rw [Resources.diskGib]
    cases hr : r.disk with
    | ok free =>
        rw [hr] at hfree
        exact UInt64.not_lt.mpr hfree
    | error e =>
        -- what cannot be read is none to the doctor, and without limit to the gate
        have hbound := cfg.admission.minDiskGib.toNat_lt
        rw [UInt64.lt_iff_toNat_lt]
        simp
        omega
  rw [gateBlocked, decideBlock, if_neg henough]
  split
  · nofun
  · split
    · nofun
    · nofun

/-- **A host that the doctor passes is fit for every worker,** also for one that is still at work. -/
theorem doctor_clears (hpasses : (StateT.run (ExceptT.run (doctor host)) {}).1 = .ok ()) :
    ∃ cfg, Config.loadFile host.home host.configFile host.config = .ok cfg ∧
      (∀ pool slot own out, Alike host cfg pool out →
        (StateT.run (ExceptT.run (WorkerLife.lifecycle cfg pool slot own out))
          { stateFile := out.sweep.stateFile }).2.created =
        ((cfg.supervisor.useJit || out.registrationToken.isOk) && out.acquired.any Except.isOk &&
          exitsZero out.clone)) ∧
      ∀ r : Resources, r.disk = host.disk cfg.storage.vaultPath →
        ∀ free, gateBlocked cfg.admission r ≠ some (.lowDisk free) := by
  obtain ⟨cfg, h⟩ := healthy_of_passes hpasses
  refine ⟨cfg, h.load, fun pool slot own out halike => ?_, fun r hdisk => h.not_lowDisk hdisk⟩
  have hmarks := (WorkerLife.lifecycle_spec cfg pool slot own out).final
    (show WorkerLife.Marks false false { stateFile := out.sweep.stateFile } from ⟨rfl, rfl⟩)
  rw [hmarks.2, h.reachesClone halike]

end Doctor

/-- All is well. -/
def soundHost : DoctorHost where
  home := "/root"
  configFile := "/etc/vmfleet/vmfleet.toml"
  configExists := true
  config := .tables (configWith [smallPool])
  user := "ci"
  multipass := .ok ⟨0, "", ""⟩
  availMib := 16000
  psi := "0"
  linger := .ok ⟨0, "yes\n", ""⟩
  disk := fun _ => .ok 100
  info := fun _ => .ok ⟨0, "", ""⟩
  envToken := none
  tokenFile := fun _ => some "ghp_0123456789\n"
  runners := fun _ => .ok []
  mode := fun _ => some 384

theorem doctor_clears_smoothLife :
    ∃ cfg, Config.loadFile soundHost.home soundHost.configFile soundHost.config = .ok cfg ∧
      (StateT.run (ExceptT.run (WorkerLife.lifecycle cfg smallPool 100 ownName smoothLife))
        { stateFile := smoothLife.sweep.stateFile }).2.created = true := by
  have hpasses : (StateT.run (ExceptT.run (Doctor.doctor soundHost)) {}).1 = .ok () := by decide +kernel
  obtain ⟨cfg, hload, hlife, _⟩ := Doctor.doctor_clears hpasses
  have hcfg : Config.loadFile soundHost.home soundHost.configFile soundHost.config =
      .ok (configWith [smallPool]) := by decide +kernel
  obtain rfl : configWith [smallPool] = cfg := Except.ok.inj (hcfg.symm.trans hload)
  refine ⟨_, hload, ?_⟩
  rw [hlife smallPool 100 ownName smoothLife ⟨rfl, fun _ _ => rfl, fun _ _ _ _ => rfl⟩]
  rfl

end VmFleet
