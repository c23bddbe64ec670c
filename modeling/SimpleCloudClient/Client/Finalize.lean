import SimpleCloudClient.Client.Init

/-!
# Finalising the FCC

After an `fcc_init` that was accepted, an `init` that fails is to finalise the FCC once and an
`init` that returns 0 not at all. `sotp_init` finalises on its own errors. After the first
`sotp_init` its caller finalises as well, and after the storage initialisation, a reset or a
verification that fails nobody does.
-/
namespace SimpleCloudClient
open Procedure StorageHelper SimpleMbedCloudClient

def fccAccepts (cfg : StorageConfig) (status : Int) : StatusCall → Bool
  | .fccInit => status = fccStatusSuccess ∨ status = cfg.entropyError ∨ status = cfg.rotError
  | _ => false

/-- An `fcc_init` after which `init` goes on. -/
def FccAccepted (cfg : StorageConfig) : StorageEvent → Bool
  | ⟨.status call, status⟩ => fccAccepts cfg status call
  | _ => false

def Finalizes (e : StorageEvent) : Bool := e.1 = .status .fccFinalize

/-- Every reset begins with such a call. -/
def Deletes (e : StorageEvent) : Bool := e.1 = .status .fccStorageDelete

def verifies (status : Int) : StatusCall → Bool
  | .fccVerifyDeviceConfigured4mbedCloud => status = fccStatusSuccess
  | _ => false

/-- A verification of the configuration that succeeded. -/
def Verifies : StorageEvent → Bool
  | ⟨.status call, status⟩ => verifies status call
  | _ => false

def setFails (cfg : StorageConfig) (status : Int) : StatusCall → Bool
  | .fccEntropySet => status ≠ fccStatusSuccess ∧ status ≠ cfg.entropyError
  | .fccRotSet => status ≠ fccStatusSuccess ∧ status ≠ cfg.rotError
  | _ => false

/-- Entropy or Root of Trust can not be set, and they do not exist already. -/
def SetFails (cfg : StorageConfig) : StorageEvent → Bool
  | ⟨.status call, status⟩ => setFails cfg status call
  | _ => false

/-- Since an `fcc_init` that was accepted, one finalisation when `init` fails and none when it
returns 0. -/
def FinalizedOnce (cfg : StorageConfig) (status : Int) (tr : List StorageEvent) : Prop :=
  ∀ before e later, tr = before ++ e :: later → FccAccepted cfg e = true →
    later.countP Finalizes = if status = 0 then 0 else 1

/-- A `sotp_init` fails after a reset. -/
def FailsAfterReset (cfg : StorageConfig) (tr : List StorageEvent) : Prop :=
  ∃ d e, [d, e].Sublist tr ∧ Deletes d = true ∧ SetFails cfg e = true

/-- `fcc_init` is not accepted, a verification succeeds, or a `sotp_init` fails after a reset. -/
def FinalizationFits (cfg : StorageConfig) (tr : List StorageEvent) : Prop :=
  (∀ e ∈ tr, FccAccepted cfg e = false) ∨ (∃ e ∈ tr, Verifies e = true) ∨
    FailsAfterReset cfg tr

/-! ## What has happened so far -/

/-- The calls that matter, since an `fcc_init` that is not called again. -/
structure FccLog where
  finalized : Nat := 0
  deleted : Bool := false
  failedAfter : Bool := false
  verified : Bool := false

def fccLog (cfg : StorageConfig) : Monitor StorageEvent FccLog where
  next log e :=
    { finalized := log.finalized + (Finalizes e).toNat
      deleted := log.deleted || Deletes e
      failedAfter := log.failedAfter || log.deleted && SetFails cfg e
      verified := log.verified || Verifies e }
  safe _ e := FccAccepted cfg e = false

variable {cfg : StorageConfig} {format : Bool} {s : StorageState} {log : FccLog}
variable {tr : List StorageEvent}

theorem finalized_after :
    ((fccLog cfg).after log tr).finalized = log.finalized + tr.countP Finalizes := by
  induction tr generalizing log with
  | nil => rfl
  | cons e tr ih =>
    rw [Monitor.after_cons, ih, List.countP_cons]
    cases hfinalizes : Finalizes e
    · simp [fccLog, hfinalizes]
    · simp only [fccLog, hfinalizes, Bool.toNat_true, if_true]
      omega

theorem verified_after : ((fccLog cfg).after log tr).verified = true ↔
    log.verified = true ∨ ∃ e ∈ tr, Verifies e = true := by
  induction tr generalizing log with
  | nil => simp
  | cons e tr ih =>
    rw [Monitor.after_cons, ih]
    simp [fccLog, or_assoc]

theorem failedAfter_after : ((fccLog cfg).after log tr).failedAfter = true ↔
    log.failedAfter = true ∨ (log.deleted = true ∧ ∃ e ∈ tr, SetFails cfg e = true) ∨
      FailsAfterReset cfg tr := by
  induction tr generalizing log with
  | nil => simp [FailsAfterReset]
  | cons e tr ih =>
    have hsplit : FailsAfterReset cfg (e :: tr) ↔ FailsAfterReset cfg tr ∨
        Deletes e = true ∧ ∃ x ∈ tr, SetFails cfg x = true := by
      constructor
      · rintro ⟨d, x, hsub, hd, hx⟩
        cases hsub with
        | cons _ hsub => exact .inl ⟨d, x, hsub, hd, hx⟩
        | cons_cons _ hsub => exact .inr ⟨hd, x, List.singleton_sublist.mp hsub, hx⟩
      · rintro (⟨d, x, hsub, hd, hx⟩ | ⟨hd, x, hmem, hx⟩)
        · exact ⟨d, x, hsub.cons e, hd, hx⟩
        · exact ⟨e, x, (List.singleton_sublist.mpr hmem).cons_cons e, hd, hx⟩
    rw [Monitor.after_cons, ih, hsplit]
    simp only [fccLog, Bool.or_eq_true, Bool.and_eq_true, List.mem_cons, exists_eq_or_imp]
    grind

namespace FccLog

/-- A failing `sotp_init` finalises. -/
def fail (log : FccLog) : FccLog :=
  { log with
    finalized := log.finalized + 1
    failedAfter := log.failedAfter || log.deleted }

/-- Nothing has been finalised, and `init` may still fail. -/
structure Open (log : FccLog) : Prop where
  finalized : log.finalized = 0
  failedAfter : log.failedAfter = false
  verified : log.verified = false

/-- `init` returns with this log. -/
def Ends (log : FccLog) (status : Int) : Prop :=
  log.finalized = (if status = 0 then 0 else 1) ↔ log.verified = true ∨ log.failedAfter = true

variable {status : Int}

theorem Open.ends (h : log.Open) (hstatus : status ≠ 0) : log.Ends status := by
  simp [Ends, h.finalized, h.failedAfter, h.verified, hstatus]

theorem Open.ends_fail (h : log.Open) (hdeleted : log.deleted = true) (hstatus : status ≠ 0) :
    log.fail.Ends status := by
  simp [Ends, fail, h.finalized, hdeleted, hstatus]

/-- Only whether `init` fails matters. -/
theorem Ends.congr {other : Int} (h : log.Ends status) (hstatus : status ≠ 0) (hother : other ≠ 0) :
    log.Ends other := by
  simpa [Ends, hstatus, hother] using h

end FccLog

open FccLog

/-! ## The functions -/

@[simp] theorem next_fccFinalize (status : Int) :
    (fccLog cfg).next log ⟨.status .fccFinalize, status⟩ =
      { log with finalized := log.finalized + 1 } := by
  simp [fccLog, Finalizes, Deletes, SetFails, setFails, Verifies, verifies]

@[simp] theorem next_fccStorageDelete (status : Int) :
    (fccLog cfg).next log ⟨.status .fccStorageDelete, status⟩ = { log with deleted := true } := by
  simp [fccLog, Finalizes, Deletes, SetFails, setFails, Verifies, verifies]

@[simp] theorem next_fccVerify (status : Int) :
    (fccLog cfg).next log ⟨.status .fccVerifyDeviceConfigured4mbedCloud, status⟩ =
      { log with verified := log.verified || decide (status = fccStatusSuccess) } := by
  simp [fccLog, Finalizes, Deletes, SetFails, setFails, Verifies, verifies]

/-- The calls of `sotp_init` that install something. -/
theorem next_set {call : StatusCall} (status : Int)
    (hcall : call = .fccEntropySet ∨ call = .fccRotSet) :
    (fccLog cfg).next log ⟨.status call, status⟩ =
      { log with failedAfter := log.failedAfter || log.deleted && setFails cfg status call } := by
  obtain rfl | rfl := hcall <;> simp [fccLog, Finalizes, Deletes, SetFails, Verifies, verifies]

/-- Calls on devices do not matter. -/
theorem frame_of_onDevices {call : StorageCall} (r : call.Reply) (h : OnDevices call) :
    (fccLog cfg).safe log ⟨call, r⟩ ∧ (fccLog cfg).next log ⟨call, r⟩ = log := by
  cases call with
  | status call =>
    cases call <;> first
    | exact h.elim
    | simp [fccLog, FccAccepted, fccAccepts, Finalizes, Deletes, SetFails, setFails, Verifies,
        verifies]
  | _ => simp [fccLog, FccAccepted, Finalizes, Deletes, SetFails, Verifies]

@[simp] theorem next_sotpInit (status : Int) :
    (fccLog cfg).next log ⟨.note (.sotpInit status), ()⟩ = log := by
  simp [fccLog, Finalizes, Deletes, SetFails, Verifies]

@[simp] theorem next_fccDeveloperFlow (status : Int) :
    (fccLog cfg).next log ⟨.status .fccDeveloperFlow, status⟩ = log := by
  simp [fccLog, Finalizes, Deletes, SetFails, setFails, Verifies, verifies]

theorem wp_onDevices {A : Type} {p : StorageM A} (h : Calls OnDevices p) :
    wp (fccLog cfg) p (Returns fun _ _ log' => log' = log) s log :=
  h.frame_returns fun _ _ r hcall => frame_of_onDevices r hcall

/-- The log after a part of `sotp_init` that returns `status`. -/
def SotpResult (log : FccLog) (status : Int) (log' : FccLog) : Prop :=
  log' = if status = fccStatusSuccess then log else log.fail

/-- Both calls of `sotp_init` are followed by the same reaction to their result. -/
theorem wp_setOrFinalize {call : StatusCall} {status accepted : Int}
    (hcall : call = .fccEntropySet ∨ call = .fccRotSet)
    (hfails : setFails cfg status call = decide (status ≠ fccStatusSuccess ∧ status ≠ accepted)) :
    wp (fccLog cfg) (do
      if status ≠ fccStatusSuccess ∧ status ≠ accepted then
        let _ ← ask .fccFinalize
        return status
      return fccStatusSuccess)
      (Returns fun status _ log' => SotpResult log status log') s
      ((fccLog cfg).next log ⟨.status call, status⟩) := by
  rw [next_set status hcall, hfails]
  refine wp_if (fun hstatus => ?_) fun hstatus => ?_
  · refine wp_ask_bind.mpr fun result => ⟨rfl, ?_⟩
    rw [next_fccFinalize]
    simp [SotpResult, hstatus, fail]
  · simp [SotpResult, hstatus]

theorem wp_log_sotpEntropy : wp (fccLog cfg) (sotpEntropy cfg)
    (Returns fun status _ log' => SotpResult log status log') s log := by
  unfold sotpEntropy
  rw [wp_ite]
  split
  · rfl
  · exact fun status => ⟨rfl, wp_setOrFinalize (.inl rfl) rfl⟩

theorem wp_log_sotpRot : wp (fccLog cfg) (sotpRot cfg)
    (Returns fun status _ log' => SotpResult log status log') s log := fun _ =>
  ⟨rfl, wp_setOrFinalize (.inr rfl) rfl⟩

theorem wp_log_sotpInit : wp (fccLog cfg) (sotpInit cfg)
    (Returns fun status _ log' => SotpResult log status log') s log := by
  have hset : wp (fccLog cfg) (sotpSet cfg)
      (Returns fun status _ log' => SotpResult log status log') s log := by
    unfold sotpSet
    rw [wp_ite]
    split
    · rfl
    · refine wp_then wp_log_sotpEntropy fun status t log' hentropy => ?_
      refine wp_if (fun _ => ?_) fun hstatus => ?_
      · exact hentropy
      · obtain rfl : log' = log := by simpa [SotpResult, not_not.mp hstatus] using hentropy
        exact wp_log_sotpRot
  refine wp_then hset fun status t log' hresult => wp_note_bind.mpr ⟨rfl, ?_⟩
  rwa [next_sotpInit]

theorem wp_log_resetStorage : wp (fccLog cfg) (resetStorage cfg)
    (Returns fun _ _ log' => log' = { log with deleted := true }) s log := by
  refine wp_ask_bind.mpr fun status => ⟨rfl, ?_⟩
  rw [next_fccStorageDelete, wp_ite]
  split
  · refine wp_then (wp_onDevices calls_reformatStorage) fun status t log' hlog => ?_
    rw [hlog, wp_ite]
    split
    · exact wp_ask.mpr fun again => ⟨rfl, next_fccStorageDelete again⟩
    · rfl
  · rfl

/-- A reset with the `sotp_init` after it: the case in which `init` finalises once. -/
theorem wp_log_resetAndSotpInit (hlog : log.Open) : wp (fccLog cfg) (resetAndSotpInit cfg)
    (Returns fun status _ log' => (status = 0 → log'.Open) ∧ (status ≠ 0 → log'.Ends status))
    s log := by
  have hdeleted : ({ log with deleted := true } : FccLog).Open :=
    ⟨hlog.finalized, hlog.failedAfter, hlog.verified⟩
  refine wp_then wp_log_resetStorage fun status t _ hreset => ?_
  subst hreset
  refine wp_if (fun hfailed => ?_) fun _ => ?_
  · exact ⟨fun hzero => absurd hzero hfailed, hdeleted.ends⟩
  · refine wp_returns_mono wp_log_sotpInit fun status t log' hsotp => ?_
    refine ⟨fun hzero => ?_, fun hstatus => ?_⟩
    · obtain rfl := hsotp.trans (if_pos hzero)
      exact hdeleted
    · obtain rfl := hsotp.trans (if_neg hstatus)
      exact hdeleted.ends_fail rfl hstatus

theorem wp_log_provision (hlog : log.Open) : wp (fccLog cfg) (provision cfg format)
    (Returns fun _ _ log' => log'.Open) s log := by
  have hflow : ∀ {log : FccLog} {t : StorageState}, log.Open →
      wp (fccLog cfg) (developerFlow cfg) (Returns fun _ _ log' => log'.Open) t log := by
    intro log t hopen
    refine wp_ask_bind.mpr fun status => ⟨rfl, ?_⟩
    rw [next_fccDeveloperFlow, wp_ite]
    split <;> exact hopen
  unfold provision
  rw [wp_ite]
  split
  · refine wp_then wp_log_resetStorage fun status t log' hreset => ?_
    have hopen : log'.Open := hreset ▸ ⟨hlog.finalized, hlog.failedAfter, hlog.verified⟩
    rw [wp_ite]
    split
    · exact hopen
    · exact hflow hopen
  · exact hflow hlog

theorem wp_log_verify (hlog : log.Open) :
    wp (fccLog cfg) (ask .fccVerifyDeviceConfigured4mbedCloud)
      (Returns fun status _ log' => (status = 0 → log'.Ends 0) ∧ (status ≠ 0 → log'.Open))
      s log := by
  refine wp_ask.mpr fun status => ⟨rfl, fun hzero => ?_, fun hstatus => ?_⟩
  · rw [next_fccVerify]
    simp [Ends, hlog.finalized, hzero, fccStatusSuccess]
  · rw [next_fccVerify]
    exact ⟨hlog.finalized, hlog.failedAfter, by simp [hlog.verified, hstatus, fccStatusSuccess]⟩

/-- The verification returns 0 exactly if its last call succeeds. -/
theorem wp_log_verifyCloudConfiguration (hlog : log.Open) :
    wp (fccLog cfg) (verifyCloudConfiguration cfg format)
      (Returns fun status _ log' => (status = 0 → log'.Ends 0) ∧ (status ≠ 0 → log'.Open))
      s log := by
  unfold verifyCloudConfiguration
  rw [wp_ite]
  split
  · refine wp_then (wp_log_provision hlog) fun status t log' hopen => ?_
    refine wp_if (fun hfailed => ?_) fun _ => ?_
    · exact ⟨fun hzero => absurd hzero hfailed, fun _ => hopen⟩
    · exact wp_log_verify hopen
  · exact wp_log_verify hlog

theorem wp_log_resetOnError (hlog : log.Open) : wp (fccLog cfg) (resetOnError cfg format)
    (Returns fun status _ log' => log'.Ends status) s log := by
  refine wp_then (wp_log_resetAndSotpInit hlog) fun status t log' hreset => ?_
  refine wp_if (fun hstatus => ?_) fun hstatus => ?_
  · exact hreset.2 hstatus
  · have hopen := hreset.1 (not_not.mp hstatus)
    refine wp_returns_mono (wp_log_verifyCloudConfiguration hopen) fun status t log' hverify => ?_
    by_cases hzero : status = 0
    · exact hzero ▸ hverify.1 hzero
    · exact (hverify.2 hzero).ends hzero

theorem wp_log_initConfiguration (hlog : log.Open) (hfirst : log.deleted = false) :
    wp (fccLog cfg) (initConfiguration cfg format) (Returns fun status _ log' => log'.Ends status)
      s log := by
  refine wp_then wp_log_sotpInit fun status t log' hsotp => ?_
  refine wp_if (fun hstatus => ?_) fun hstatus => ?_
  · obtain rfl := hsotp.trans (if_neg hstatus)
    refine wp_ask_bind.mpr fun result => ⟨rfl, ?_⟩
    rw [next_fccFinalize]
    simp [Ends, fail, hlog.finalized, hlog.failedAfter, hlog.verified, hfirst]
  · obtain rfl := hsotp.trans (if_pos (not_not.mp hstatus))
    have hstart : wp (fccLog cfg) (resetAtStart cfg) (Returns fun status _ log₁ =>
        (status = 0 → log₁.Open) ∧ (status ≠ 0 → log₁.Ends status)) t log' := by
      unfold resetAtStart
      rw [wp_ite]
      split
      · exact wp_log_resetAndSotpInit hlog
      · exact ⟨fun _ => hlog, fun hnonzero => absurd rfl hnonzero⟩
    refine wp_then hstart fun status t₁ log₁ hreset => ?_
    refine wp_if (fun hfailed => ?_) fun hgood => ?_
    · exact (hreset.2 hfailed).congr hfailed (by decide)
    · have hopen := hreset.1 (not_not.mp hgood)
      refine wp_then (wp_log_verifyCloudConfiguration hopen) fun status t₂ log₂ hverify => ?_
      refine wp_if (fun hfailed => ?_) fun hzero => ?_
      · rw [wp_ite]
        split
        · exact wp_log_resetOnError (hverify.2 hfailed)
        · exact (hverify.2 hfailed).ends (by decide)
      · exact hverify.1 (not_not.mp hzero)

/-! ## init -/

/-- An `init` that returns has ended by the return of `fcc_init`, or it leaves a log. -/
theorem exec_client_init {status : Int} {t : StorageState}
    (hx : Exec (SimpleMbedCloudClient.init cfg format) s tr (.ok status) t) :
    (∀ e ∈ tr, FccAccepted cfg e = false) ∨
    ∃ (created again : Bool) (e : StorageEvent) (later : List StorageEvent),
      tr = ⟨.createMutex, created⟩ :: ⟨.createMutex, again⟩ :: e :: later ∧
      FccAccepted cfg e = true ∧ (∀ x ∈ later, FccAccepted cfg x = false) ∧
      (fccLog cfg).next {} e = {} ∧ ((fccLog cfg).after {} later).Ends status := by
  obtain ⟨created, rfl, -⟩ | ⟨created, again, code, later, rfl, hcode⟩ := exec_init_cases hx
  · exact .inl fun e he => List.mem_singleton.mp he ▸ rfl
  · split at hcode
    · rename_i hrejected
      left
      simp [hcode.1, FccAccepted, fccAccepts, hrejected]
    · rename_i haccepted
      have hrest : wp (fccLog cfg) (do
          let status ← StorageHelper.init cfg
          if status ≠ fccStatusSuccess then
            return 1
          initConfiguration cfg format)
          (Returns fun status _ log => log.Ends status) s {} := by
        refine wp_then (wp_onDevices calls_init) fun status t log hlog => ?_
        subst hlog
        rw [wp_ite]
        split
        · exact Open.ends ⟨rfl, rfl, rfl⟩ (by decide)
        · exact wp_log_initConfiguration ⟨rfl, rfl, rfl⟩ rfl
      obtain ⟨hsafe, hends⟩ := wp_sound hrest hcode
      refine .inr ⟨created, again, _, later, rfl, ?_, Monitor.allAt_forall.mp hsafe, ?_, hends⟩
      · have : code = fccStatusSuccess ∨ code = cfg.entropyError ∨ code = cfg.rotError := by
          grind
        simpa [FccAccepted, fccAccepts] using this
      · simp [fccLog, Finalizes, Deletes, SetFails, setFails, Verifies, verifies]

theorem finalizedOnce_cons {status : Int} {e : StorageEvent} :
    FinalizedOnce cfg status (e :: tr) ↔
      (FccAccepted cfg e = true → tr.countP Finalizes = if status = 0 then 0 else 1) ∧
        FinalizedOnce cfg status tr := by
  constructor
  · intro h
    exact ⟨h [] e tr rfl, fun before x later htr => h (e :: before) x later (by simp [htr])⟩
  · rintro ⟨hfirst, hrest⟩ before x later htr
    cases before with
    | nil =>
      obtain ⟨rfl, rfl⟩ := List.cons.inj htr
      exact hfirst
    | cons y before =>
      exact hrest before x later (List.cons.inj htr).2

theorem finalizedOnce_of_none {status : Int} (hnone : ∀ e ∈ tr, FccAccepted cfg e = false) :
    FinalizedOnce cfg status tr := by
  intro before e later htr haccepted
  exact absurd haccepted (by simp [hnone e (by simp [htr])])

instance decidableFinalizedOnce (cfg : StorageConfig) (status : Int) :
    ∀ tr, Decidable (FinalizedOnce cfg status tr)
  | [] => isTrue (finalizedOnce_of_none nofun)
  | _ :: tr =>
    have := decidableFinalizedOnce cfg status tr
    decidable_of_iff _ finalizedOnce_cons.symm

/-- Whatever the calls return, `init` finalises as often as it should exactly if `fcc_init` is not
accepted, a verification succeeds, or a `sotp_init` fails after a reset. -/
theorem finalizedOnce_iff {status : Int} {t : StorageState}
    (hx : Exec (SimpleMbedCloudClient.init cfg format) s tr (.ok status) t) :
    FinalizedOnce cfg status tr ↔ FinalizationFits cfg tr := by
  obtain hnone | ⟨created, again, e, later, rfl, haccepted, hlater, hnext, hends⟩ :=
    exec_client_init hx
  · exact iff_of_true (finalizedOnce_of_none hnone) (.inl hnone)
  · have hmutex : ∀ created : Bool, FccAccepted cfg ⟨.createMutex, created⟩ = false := fun _ => rfl
    have hafter : (fccLog cfg).after {} (⟨.createMutex, created⟩ :: ⟨.createMutex, again⟩ ::
        e :: later) = (fccLog cfg).after {} later :=
      congrArg (fun log => (fccLog cfg).after log later) hnext
    have honce : FinalizedOnce cfg status (⟨.createMutex, created⟩ :: ⟨.createMutex, again⟩ ::
        e :: later) ↔ ((fccLog cfg).after {} later).finalized = if status = 0 then 0 else 1 := by
      simp [finalizedOnce_cons, hmutex, haccepted, finalizedOnce_of_none hlater, finalized_after]
    have hfits : FinalizationFits cfg (⟨.createMutex, created⟩ :: ⟨.createMutex, again⟩ ::
        e :: later) ↔ ((fccLog cfg).after {} later).verified = true ∨
          ((fccLog cfg).after {} later).failedAfter = true := by
      rw [← hafter, verified_after, failedAfter_after]
      simp [FinalizationFits, haccepted]
    rw [honce, hfits]
    exact hends

/-- A fresh client. -/
def unusedClient : StorageState := ⟨false, .construct 0 (some 0) (some 0) 0⟩

/-- Everything succeeds but one call. -/
def failing (call : StatusCall) : List StorageEvent → (c : StorageCall) → c.Reply
  | _, .createMutex => true
  | past, .status other => if other = call then (7 : Int) else allSucceed past (.status other)
  | past, c => allSucceed past c

theorem exec_failing (call : StatusCall) (status : Int)
    (hok : ((SimpleMbedCloudClient.init .wholeDevice false).run (failing call)
      unusedClient []).2.1 = .ok status) :
    ∃ t, Exec (SimpleMbedCloudClient.init .wholeDevice false) unusedClient
      ((SimpleMbedCloudClient.init .wholeDevice false).run (failing call) unusedClient []).1
      (.ok status) t :=
  ⟨_, exec_of_run (failing call) hok⟩

/-- A client that becomes ready. -/
theorem finalizedOnce_iff_ready : ∃ tr t,
    Exec (SimpleMbedCloudClient.init .wholeDevice false) unusedClient tr (.ok 0) t ∧
    FinalizationFits .wholeDevice tr ∧ FinalizedOnce .wholeDevice 0 tr := by
  obtain ⟨t, hexec⟩ := exec_failing .fccFinalize 0 (by decide +kernel)
  have hfits : FinalizationFits .wholeDevice ((SimpleMbedCloudClient.init .wholeDevice false).run
      (failing .fccFinalize) unusedClient []).1 := .inr (.inl (by decide +kernel))
  exact ⟨_, t, hexec, hfits, (finalizedOnce_iff hexec).mpr hfits⟩

/-- The block device can not be initialised and nothing is finalised; the Root of Trust can not be
set and the FCC is finalised twice. -/
theorem not_finalizedOnce :
    (∃ tr t, Exec (SimpleMbedCloudClient.init .wholeDevice false) unusedClient tr (.ok 1) t ∧
      tr.countP Finalizes = 0 ∧ ¬FinalizedOnce .wholeDevice 1 tr) ∧
    ∃ tr t, Exec (SimpleMbedCloudClient.init .wholeDevice false) unusedClient tr (.ok 1) t ∧
      tr.countP Finalizes = 2 ∧ ¬FinalizedOnce .wholeDevice 1 tr := by
  constructor
  · obtain ⟨t, hexec⟩ := exec_failing (.bdInit (.given 0)) 1 (by decide +kernel)
    exact ⟨_, t, hexec, by decide +kernel, by decide +kernel⟩
  · obtain ⟨t, hexec⟩ := exec_failing .fccRotSet 1 (by decide +kernel)
    exact ⟨_, t, hexec, by decide +kernel, by decide +kernel⟩

end SimpleCloudClient
