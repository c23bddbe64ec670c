import SimpleCloudClient.Storage.Helper

/-!
# Initialising the client

`SimpleMbedCloudClient::init` with the functions that it calls. The client's storage helper is
its only state here. The factory configurator client is part of the environment.
-/
namespace SimpleCloudClient
open Procedure

namespace SimpleMbedCloudClient
open StorageHelper

def resetStorage (cfg : StorageConfig) : StorageM Int := do
  let status ← ask .fccStorageDelete
  if status ≠ fccStatusSuccess then
    let status ← reformatStorage cfg
    if status = 0 then
      -- it is required to delete after formatting
      ask .fccStorageDelete
    else
      return status
  else
    return status

/-- The part of `verify_cloud_configuration` for developer mode; credentials that exist already
are as good as new ones. -/
def developerFlow (cfg : StorageConfig) : StorageM Int := do
  let status ← ask .fccDeveloperFlow
  if status = cfg.kcmFileExistError then
    return fccStatusSuccess
  return status

/-- With `format` the storage is reset before the developer flow. -/
def provision (cfg : StorageConfig) (format : Bool) : StorageM Int := do
  if format then
    let status ← resetStorage cfg
    if status ≠ fccStatusSuccess then
      return status
    developerFlow cfg
  else
    developerFlow cfg

def verifyCloudConfiguration (cfg : StorageConfig) (format : Bool) : StorageM Int := do
  if cfg.developerMode then
    let status ← provision cfg format
    if status ≠ fccStatusSuccess then
      return status
    ask .fccVerifyDeviceConfigured4mbedCloud
  else
    ask .fccVerifyDeviceConfigured4mbedCloud

/-- Both places of `init` that reset the storage install entropy and Root of Trust again. -/
def resetAndSotpInit (cfg : StorageConfig) : StorageM Int := do
  let status ← resetStorage cfg
  if status ≠ fccStatusSuccess then
    return status
  sotpInit cfg

/-- The block under `RESET_STORAGE`. -/
def resetAtStart (cfg : StorageConfig) : StorageM Int := do
  if cfg.resetStorage then
    resetAndSotpInit cfg
  else
    return fccStatusSuccess

/-- The block under `MBED_CONF_APP_FORMAT_STORAGE_LAYER_ON_ERROR`. -/
def resetOnError (cfg : StorageConfig) (format : Bool) : StorageM Int := do
  let status ← resetAndSotpInit cfg
  if status ≠ fccStatusSuccess then
    return status
  verifyCloudConfiguration cfg format

/-- From the first `sotp_init` on. -/
def initConfiguration (cfg : StorageConfig) (format : Bool) : StorageM Int := do
  let status ← sotpInit cfg
  if status ≠ fccStatusSuccess then
    let _ ← ask .fccFinalize
    return 1
  let status ← resetAtStart cfg
  if status ≠ fccStatusSuccess then
    return 1
  let status ← verifyCloudConfiguration cfg format
  if status ≠ 0 then
    if cfg.formatOnError then
      resetOnError cfg format
    else
      return 1
  else
    return 0

def init (cfg : StorageConfig) (format : Bool) : StorageM Int := do
  let created ← createMutex
  if !created then
    return 1
  let _ ← createMutex
  let status ← ask .fccInit
  if status ≠ fccStatusSuccess ∧ status ≠ cfg.entropyError ∧ status ≠ cfg.rotError then
    return 1
  let status ← StorageHelper.init cfg
  if status ≠ fccStatusSuccess then
    return 1
  initConfiguration cfg format

variable {cfg : StorageConfig} {format : Bool} {s t : StorageState} {status : Int}
variable {tr : List StorageEvent}

/-- What has happened when `init` returns: the mutex failed, `fcc_init` was not accepted, or the
storage has been initialised. -/
theorem exec_init_cases (hx : Exec (init cfg format) s tr (.ok status) t) :
    (∃ created, tr = [⟨.createMutex, created⟩] ∧ t = s) ∨
    ∃ (created again : Bool) (code : Int) (later : List StorageEvent),
      tr = ⟨.createMutex, created⟩ :: ⟨.createMutex, again⟩ :: ⟨.status .fccInit, code⟩ :: later ∧
      if code ≠ fccStatusSuccess ∧ code ≠ cfg.entropyError ∧ code ≠ cfg.rotError then
        later = [] ∧ t = s
      else
        Exec (do
          let status ← StorageHelper.init cfg
          if status ≠ fccStatusSuccess then
            return 1
          initConfiguration cfg format) s later (.ok status) t := by
  unfold init at hx
  obtain ⟨created, rest, rfl, hcreated⟩ := exec_perform_bind.mp hx
  split at hcreated
  · obtain ⟨rfl, -, rfl⟩ := exec_pure.mp hcreated
    exact .inl ⟨created, rfl, rfl⟩
  · obtain ⟨again, rest, rfl, hagain⟩ := exec_perform_bind.mp hcreated
    obtain ⟨(code : Int), later, rfl, hcode⟩ := exec_perform_bind.mp hagain
    refine .inr ⟨created, again, code, later, rfl, ?_⟩
    split at hcode
    · rename_i hrejected
      obtain ⟨rfl, -, rfl⟩ := exec_pure.mp hcode
      rw [if_pos hrejected]
      exact ⟨rfl, rfl⟩
    · rename_i haccepted
      rw [if_neg haccepted]
      exact hcode

end SimpleMbedCloudClient

/-- The mutexes are created, and every status is 0. -/
def everythingWorks : List StorageEvent → (c : StorageCall) → c.Reply
  | _, .createMutex => true
  | past, c => allSucceed past c

end SimpleCloudClient
