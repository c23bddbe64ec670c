import SimpleCloudClient.Client.Init
import SimpleCloudClient.Storage.Start

/-!
# Entropy and Root of Trust before credentials

A successful `fcc_storage_delete` removes the entropy and the Root of Trust that `sotp_init`
installs. Credentials are to be written or verified only while both are in place: a `sotp_init`
has succeeded, and no deletion since.
-/
namespace SimpleCloudClient
open Procedure StorageHelper SimpleMbedCloudClient

/-- A `sotp_init` that succeeded. -/
def SotpDone : StorageEvent → Bool
  | ⟨.note (.sotpInit status), _⟩ => status = fccStatusSuccess
  | _ => false

def deletes (status : Int) : StatusCall → Bool
  | .fccStorageDelete => status = fccStatusSuccess
  | _ => false

/-- An `fcc_storage_delete` that succeeded. -/
def StorageDeleted : StorageEvent → Bool
  | ⟨.status call, status⟩ => deletes status call
  | _ => false

/-- A call that writes or verifies credentials. -/
def CredentialCall : StorageCall → Bool
  | .status .fccDeveloperFlow | .status .fccVerifyDeviceConfigured4mbedCloud => true
  | _ => false

/-- Before each such call a `sotp_init` has succeeded, with no deletion since. -/
def SotpFirst (tr : List StorageEvent) : Prop :=
  ∀ before e later, tr = before ++ e :: later → CredentialCall e.1 = true →
    ∃ front x back, before = front ++ x :: back ∧ SotpDone x = true ∧
      ∀ y ∈ back, StorageDeleted y = false

def sotp : Monitor StorageEvent Bool :=
  { since SotpDone StorageDeleted with
    safe := fun inPlace e => CredentialCall e.1 = true → inPlace = true }

instance : ∀ inPlace e, Decidable (sotp.safe inPlace e) := fun inPlace e =>
  inferInstanceAs (Decidable (CredentialCall e.1 = true → inPlace = true))

theorem sotpFirst_iff {tr : List StorageEvent} : SotpFirst tr ↔ sotp.AllAt sotp.safe false tr := by
  rw [Monitor.allAt_iff]
  refine forall_congr' fun before => forall_congr' fun e => forall_congr' fun later =>
    forall_congr' fun _ => forall_congr' fun _ => ?_
  change _ ↔ (since SotpDone StorageDeleted).after false before = true
  simp [since_iff]

variable {cfg : StorageConfig} {format : Bool} {s : StorageState} {inPlace : Bool}

/-! ## The functions -/

/-- Not a call that writes or verifies credentials. -/
def NoCredentials : StorageCall → Prop
  | .status .fccDeveloperFlow | .status .fccVerifyDeviceConfigured4mbedCloud => False
  | _ => True

theorem NoCredentials.credentialCall {call : StorageCall} (h : NoCredentials call) :
    CredentialCall call = false := by
  cases call with
  | status call => cases call <;> first | rfl | exact h.elim
  | _ => rfl

theorem wp_noCredentials {A : Type} {p : StorageM A} (h : Calls NoCredentials p) :
    wp sotp p (Returns fun _ _ _ => True) s inPlace :=
  h.wp_returns_true fun _ _ _ hcall hcredential =>
    nomatch hcall.credentialCall.symm.trans hcredential

theorem noCredentials_of_onDevices (call : StorageCall) (h : OnDevices call) :
    NoCredentials call := by
  cases call with
  | status call => cases call <;> trivial
  | _ => trivial

theorem wp_sotpInit : wp sotp (sotpInit cfg)
    (Returns fun status _ inPlace' => status = fccStatusSuccess → inPlace' = true) s inPlace := by
  have hentropy : Calls NoCredentials (sotpEntropy cfg) :=
    .ite trivial <| (calls_ask trivial).bind fun _ =>
      .ite ((calls_ask trivial).bind fun _ => trivial) trivial
  have hrot : Calls NoCredentials (sotpRot cfg) :=
    (calls_ask trivial).bind fun _ => .ite ((calls_ask trivial).bind fun _ => trivial) trivial
  have hset : Calls NoCredentials (sotpSet cfg) :=
    .ite trivial <| hentropy.bind fun _ => .ite trivial hrot
  refine wp_then (wp_noCredentials hset) fun status t _ _ => ?_
  refine wp_note_bind.mpr ⟨nofun, fun hstatus => ?_⟩
  simp [sotp, since, SotpDone, hstatus]

theorem calls_resetStorage : Calls NoCredentials (resetStorage cfg) :=
  (calls_ask trivial).bind fun _ =>
    .ite ((calls_reformatStorage.mono noCredentials_of_onDevices).bind fun _ =>
      .ite (calls_ask trivial) trivial) trivial

theorem wp_resetAndSotpInit : wp sotp (resetAndSotpInit cfg)
    (Returns fun status _ inPlace' => status = fccStatusSuccess → inPlace' = true) s inPlace := by
  refine wp_then (wp_noCredentials calls_resetStorage) fun status t _ _ => ?_
  refine wp_if (fun hfailed => ?_) fun _ => ?_
  · exact fun hstatus => absurd hstatus hfailed
  · exact wp_sotpInit

/-- Without `format`, or outside developer mode, nothing is deleted. -/
theorem wp_verifyCloudConfiguration (hformat : cfg.developerMode = true → format = false) :
    wp sotp (verifyCloudConfiguration cfg format) (Returns fun _ _ _ => True) s true := by
  have hverify : ∀ {t : StorageState}, wp sotp (ask .fccVerifyDeviceConfigured4mbedCloud)
      (Returns fun _ _ _ => True) t true := fun _ => ⟨fun _ => rfl, trivial⟩
  unfold verifyCloudConfiguration
  refine wp_if (fun hmode => ?_) fun _ => ?_
  · have hflow : wp sotp (provision cfg format) (Returns fun _ _ inPlace' => inPlace' = true)
        s true := by
      unfold provision developerFlow
      rw [hformat hmode, if_neg nofun]
      refine wp_ask_bind.mpr fun status => ⟨fun _ => rfl, ?_⟩
      rw [wp_ite]
      split <;> rfl
    refine wp_then hflow fun status t _ hinPlace => ?_
    rw [hinPlace, wp_ite]
    split
    · trivial
    · exact hverify
  · exact hverify

theorem wp_initConfiguration (hformat : cfg.developerMode = true → format = false) :
    wp sotp (initConfiguration cfg format) (Returns fun _ _ _ => True) s inPlace := by
  refine wp_then wp_sotpInit fun status t inPlace₁ hsotp => ?_
  refine wp_if (fun _ => ?_) fun hset => ?_
  · exact wp_noCredentials ((calls_ask trivial).bind fun _ => trivial)
  · have hstart : wp sotp (resetAtStart cfg) (Returns fun status _ inPlace' =>
        status = fccStatusSuccess → inPlace' = true) t inPlace₁ :=
      wp_if (fun _ => wp_resetAndSotpInit) fun _ _ => hsotp (not_not.mp hset)
    refine wp_then hstart fun status t₁ inPlace₂ hreset => ?_
    refine wp_if (fun _ => trivial) fun hdone => ?_
    rw [hreset (not_not.mp hdone)]
    refine wp_then (wp_verifyCloudConfiguration hformat) fun status t₂ inPlace₃ _ => ?_
    rw [wp_ite, wp_ite]
    split
    · split
      · refine wp_then wp_resetAndSotpInit fun status t₃ inPlace₄ hagain => ?_
        refine wp_if (fun _ => trivial) fun hdone => ?_
        rw [hagain (not_not.mp hdone)]
        exact wp_verifyCloudConfiguration hformat
      · trivial
    · trivial

/-- Safe when the storage is not reset within the verification, or `init` never gets that far. -/
theorem wp_client_init (h : cfg.developerMode = true → format = true →
      ∀ tr status t, Exec (StorageHelper.init cfg) s tr (.ok status) t → status ≠ 0) :
    wp sotp (SimpleMbedCloudClient.init cfg format) (Returns fun _ _ _ => True) s inPlace := by
  unfold SimpleMbedCloudClient.init
  refine wp_createMutex_bind.mpr fun created => ⟨nofun, ?_⟩
  rw [wp_ite]
  split
  · trivial
  · refine wp_createMutex_bind.mpr fun _ => ⟨nofun, wp_ask_bind.mpr fun status => ⟨nofun, ?_⟩⟩
    rw [wp_ite]
    split
    · trivial
    · have hquiet : wp sotp (StorageHelper.init cfg) (Returns fun _ _ _ => True) s inPlace :=
        wp_noCredentials (calls_init.mono noCredentials_of_onDevices)
      have hstorage := wp_returns_and hquiet fun tr status t hx =>
        show cfg.developerMode = true → format = true → status ≠ 0 from
          fun hmode hformat => h hmode hformat tr status t hx
      refine wp_then hstorage fun status t _ hstatus => ?_
      refine wp_if (fun _ => trivial) fun hdone => ?_
      refine wp_initConfiguration fun hmode => Bool.eq_false_iff.mpr fun hformat => ?_
      exact hstatus.2 hmode hformat (not_not.mp hdone)

/-! ## Results that lead to a violation -/

section
variable {Q : Except StorageFault Int → StorageState → Bool → Prop}

theorem follow_sotpEntropy (h : wp sotp (sotpEntropy cfg) Q s inPlace) :
    ∃ inPlace', Q (.ok fccStatusSuccess) s inPlace' := by
  unfold sotpEntropy at h
  rw [wp_ite] at h
  split at h
  · exact ⟨_, h⟩
  · have hanswer := (wp_ask_bind.mp h fccStatusSuccess).2
    rw [wp_ite, if_neg (by simp)] at hanswer
    exact ⟨_, hanswer⟩

theorem follow_sotpInit (h : wp sotp (sotpInit cfg) Q s inPlace) :
    ∃ inPlace', Q (.ok fccStatusSuccess) s inPlace' := by
  have hset := wp_bind.mp h
  unfold sotpSet at hset
  rw [wp_ite] at hset
  split at hset
  · exact ⟨_, (wp_note_bind.mp hset).2⟩
  · obtain ⟨m, hrot⟩ := follow_sotpEntropy (wp_bind.mp hset)
    dsimp only at hrot
    rw [wp_ite, if_neg (by simp)] at hrot
    have hanswer := (wp_ask_bind.mp hrot fccStatusSuccess).2
    rw [wp_ite, if_neg (by simp)] at hanswer
    exact ⟨_, (wp_note_bind.mp hanswer).2⟩

theorem follow_resetStorage (h : wp sotp (resetStorage cfg) Q s inPlace) :
    Q (.ok fccStatusSuccess) s false := by
  have hanswer := (wp_ask_bind.mp h fccStatusSuccess).2
  rw [wp_ite, if_neg (by simp)] at hanswer
  exact hanswer

theorem follow_resetAtStart (h : wp sotp (resetAtStart cfg) Q s inPlace) :
    ∃ inPlace', Q (.ok fccStatusSuccess) s inPlace' := by
  unfold resetAtStart at h
  rw [wp_ite] at h
  split at h
  · have hsotp := follow_resetStorage (wp_bind.mp h)
    dsimp only at hsotp
    rw [wp_ite, if_neg (by simp)] at hsotp
    exact follow_sotpInit hsotp
  · exact ⟨_, h⟩

/-- With `format` the developer flow can be entered right after a deletion. -/
theorem not_wp_verifyCloudConfiguration (hmode : cfg.developerMode = true) :
    ¬wp sotp (verifyCloudConfiguration cfg true) Q s inPlace := by
  intro h
  unfold verifyCloudConfiguration at h
  rw [wp_ite, if_pos hmode] at h
  have hreset := wp_bind.mp (wp_bind.mp h)
  have hflow := follow_resetStorage hreset
  dsimp only at hflow
  rw [wp_ite, if_neg (by simp)] at hflow
  exact nomatch (wp_ask_bind.mp hflow 0).1 rfl

theorem storage_fails_of_wp (h : wp sotp (SimpleMbedCloudClient.init cfg true) Q s inPlace)
    (hmode : cfg.developerMode = true) {tr : List StorageEvent} {status : Int} {t : StorageState}
    (hx : Exec (StorageHelper.init cfg) s tr (.ok status) t) : status ≠ 0 := by
  rintro rfl
  unfold SimpleMbedCloudClient.init at h
  replace h := (wp_createMutex_bind.mp h true).2
  rw [wp_ite, if_neg (by simp)] at h
  replace h := (wp_ask_bind.mp (wp_createMutex_bind.mp h true).2 fccStatusSuccess).2
  rw [wp_ite, if_neg (by simp)] at h
  replace h := wp_follow h hx
  rw [wp_ite, if_neg (by simp [fccStatusSuccess])] at h
  obtain ⟨m₁, hstart⟩ := follow_sotpInit (wp_bind.mp h)
  dsimp only at hstart
  rw [wp_ite, if_neg (by simp)] at hstart
  obtain ⟨m₂, hverify⟩ := follow_resetAtStart (wp_bind.mp hstart)
  dsimp only at hverify
  rw [wp_ite, if_neg (by simp)] at hverify
  exact not_wp_verifyCloudConfiguration hmode (wp_bind.mp hverify)

end

/-- On the fields of the helper: no `init` has succeeded yet, and a pointer that mounting needs is
NULL. -/
theorem storage_fails_iff :
    (∀ tr status t, Exec (StorageHelper.init cfg) s tr (.ok status) t → status ≠ 0) ↔
      s.initDone = false ∧ ¬s.self.Startable cfg := by
  have hzero : ¬(∃ tr t, Exec (StorageHelper.init cfg) s tr (.ok 0) t) ↔ _ :=
    not_congr init_zero_iff
  rw [not_or, Bool.not_eq_true] at hzero
  rw [← hzero]
  constructor
  · rintro h ⟨tr, t, hx⟩
    exact h tr 0 t hx rfl
  · rintro h tr _ t hx rfl
    exact h ⟨tr, t, hx⟩

/-- Whatever the calls return, the entropy and the Root of Trust are in place before credentials
are written or verified exactly if, in developer mode, `format` is false or the storage cannot be
initialised at all. -/
theorem sotp_before_credentials_iff :
    (∀ tr o t, Exec (SimpleMbedCloudClient.init cfg format) s tr o t → SotpFirst tr) ↔
      (cfg.developerMode = true → format = true →
        ∀ tr status t, Exec (StorageHelper.init cfg) s tr (.ok status) t → status ≠ 0) := by
  have hwp : (∀ tr o t, Exec (SimpleMbedCloudClient.init cfg format) s tr o t → SotpFirst tr) ↔
      wp sotp (SimpleMbedCloudClient.init cfg format) (fun _ _ _ => True) s false := by
    simp [wp_iff, sotpFirst_iff]
  rw [hwp]
  constructor
  · rintro h hmode rfl tr status t hx
    exact storage_fails_of_wp h hmode hx
  · exact fun h => wp_mono (wp_client_init h) fun _ _ _ _ => trivial

/-- A fresh client is formatted, and the developer flow runs right after the deletion. -/
theorem not_sotpFirst_format : ∃ tr t,
    Exec (SimpleMbedCloudClient.init .wholeDevice true)
      ⟨false, .construct 0 (some 0) (some 0) 0⟩ tr (.ok 0) t ∧ ¬SotpFirst tr := by
  let fresh : StorageState := ⟨false, .construct 0 (some 0) (some 0) 0⟩
  have hexec : Exec (SimpleMbedCloudClient.init .wholeDevice true) fresh _ (.ok 0) _ :=
    exec_of_run everythingWorks (by decide +kernel)
  refine ⟨_, _, hexec, fun h => ?_⟩
  exact absurd (sotpFirst_iff.mp h) (by decide +kernel)

end SimpleCloudClient
