import SimpleCloudClient.Storage.Basic

/-!
# StorageHelper

The member functions, with `#if` as a choice on the configuration. `init_and_mount_partition` and
the two halves of `create_partitions` take the partition as an argument.
-/
namespace SimpleCloudClient
open Procedure

namespace StorageHelper

def reformatPartition (fs : Option FileSystem) (part : Option BlockDevice) : StorageM Int := do
  let fs ← deref .nullPointer fs
  ask (.reformat fs part)

/-- Unmounts and mounts again; that unmounting may fail is ignored. -/
def testFilesystem (fs : Option FileSystem) (part : Option BlockDevice) : StorageM Int := do
  let fs ← deref .nullPointer fs
  let _ ← ask (.unmount fs)
  let status ← ask (.mount fs part)
  if status ≠ 0 then
    return -1
  return status

/-! ## Partitions -/

/-- `(**part).init()`, undone when it fails. -/
def initPart (part : BlockDevice) : StorageM Int := do
  let status ← ask (.bdInit part)
  if status ≠ 0 then
    let _ ← ask (.bdDeinit part)
    return status
  return status

/-- `*part = new MBRBlockDevice(_bd, number_of_partition)`, which uses `_bd`. -/
def newPart (cfg : StorageConfig) (slot : Slot) : StorageM BlockDevice := do
  let s ← get
  let bd ← deref .nullPointer s.self.bd
  let part := BlockDevice.mbr s.self.id slot
  note (.newMBRBlockDevice part bd (cfg.partition slot).number)
  modifySelf (·.setPart part slot)
  return part

/-- The device of the partition, created when there is none. -/
def obtainPart (cfg : StorageConfig) (slot : Slot) : StorageM BlockDevice := do
  let s ← get
  match s.self.partAt slot with
  | some part => return part
  | none => newPart cfg slot

/-- The first branch of `init_and_mount_partition`: there is no file system yet. -/
def mountNew (cfg : StorageConfig) (slot : Slot) : StorageM Int := do
  let part ← obtainPart cfg slot
  let status ← initPart part
  if status ≠ 0 then
    return status
  let s ← get
  note (.newFATFileSystem (.fat s.self.id slot) (cfg.partition slot).mountPoint.tail part)
  modifySelf (·.setFs (.fat s.self.id slot) slot)
  return status

/-- The second branch: re-init and format. -/
def reinit (slot : Slot) : StorageM Int := do
  let s ← get
  let part ← deref .nullPointer (s.self.partAt slot)
  let status ← initPart part
  if status ≠ 0 then
    return status
  reformatPartition (s.self.fsAt slot) part

/-- `Init fs only once`: the branch depends on the pointer to the file system. -/
def mountOrReinit (cfg : StorageConfig) (slot : Slot) : StorageM Int := do
  let s ← get
  if (s.self.fsAt slot).isNone then
    mountNew cfg slot
  else
    reinit slot

def initAndMountPartition (cfg : StorageConfig) (slot : Slot) : StorageM Int := do
  let status ← mountOrReinit cfg slot
  if status ≠ 0 then
    return status
  let s ← get
  let status ← testFilesystem (s.self.fsAt slot) (s.self.partAt slot)
  if status ≠ 0 then
    reformatPartition (s.self.fsAt slot) (s.self.partAt slot)
  else
    return status

/-- What the storage has to hold for the partition to be created. -/
def requiredSize (cfg : StorageConfig) : Slot → UInt64
  | .primary => cfg.primary.size
  | .secondary => cfg.primary.size + cfg.secondary.size

/-- `assert(0)` when the storage is too small. -/
def checkSize (cfg : StorageConfig) (slot : Slot) : StorageM Unit := do
  let s ← get
  if s.self.storageSize < requiredSize cfg slot ∧ cfg.asserts then
    .crash .assertion

theorem wp_checkSize {M : Type*} {μ : Monitor StorageEvent M} {cfg : StorageConfig} {slot : Slot}
    {s : StorageState} {m : M} {Q : Except StorageFault Unit → StorageState → M → Prop} :
    wp μ (checkSize cfg slot) Q s m ↔
      if s.self.storageSize < requiredSize cfg slot ∧ cfg.asserts then Q (.error .assertion) s m
      else Q (.ok ()) s m := by
  unfold checkSize
  rw [wp_get_bind, wp_ite]
  rfl

/-- `START + SIZE`. Only for the secondary partition the macros are cast to `uint64_t`; the sum of
the primary one is computed in their own type. -/
def partitionStop (cfg : StorageConfig) : Slot → UInt64
  | .primary => cfg.primaryType.add cfg.primary.start cfg.primary.size
  | .secondary => cfg.secondary.start + cfg.secondary.size

/-- One half of `create_partitions`. -/
def createPartition (cfg : StorageConfig) (slot : Slot) : StorageM Int := do
  checkSize cfg slot
  let s ← get
  let bd ← deref .nullPointer s.self.bd
  let part := cfg.partition slot
  let status ← ask (.partition bd part.number 0x83 part.start (partitionStop cfg slot))
  if status ≠ 0 then
    return status
  initAndMountPartition cfg slot

/-- Only called when there are partitions. -/
def createPartitions (cfg : StorageConfig) : StorageM Int := do
  let status ← createPartition cfg .primary
  if status ≠ 0 then
    return status
  if cfg.numberOfPartitions = 2 then
    createPartition cfg .secondary
  else
    return status

/-! ## init -/

/-- `if (_bd)`: the device is initialised and its size is read. -/
def initDevice (cfg : StorageConfig) : StorageM Int := do
  let s ← get
  match s.self.bd with
  | none => return 0
  | some bd =>
    let status ← ask (.bdInit bd)
    if status ≠ 0 then
      return -1
    let size ← sizeOf bd
    if cfg.partitionMode then
      modifySelf (·.setStorageSize size)
    return status

/-- A partition is mounted, or else, if that is configured, all are created. -/
def mountOrCreate (cfg : StorageConfig) (slot : Slot) : StorageM Int := do
  let status ← initAndMountPartition cfg slot
  if status ≠ 0 ∧ cfg.autoPartition then
    createPartitions cfg
  else
    return status

def mountPartitions (cfg : StorageConfig) : StorageM Int := do
  if cfg.numberOfPartitions = 0 then
    return 0
  let status ← mountOrCreate cfg .primary
  if status ≠ 0 then
    return status
  if cfg.numberOfPartitions = 2 then
    mountOrCreate cfg .secondary
  else
    return status

/-- Without partitions the file system of the application is used. -/
def mountWhole : StorageM Int := do
  modifySelf fun h => { h with fs1 := h.fs, part1 := h.bd }
  let s ← get
  let status ← testFilesystem s.self.fs1 s.self.bd
  if status ≠ 0 then
    reformatPartition s.self.fs1 s.self.bd
  else
    return status

def mountConfigured (cfg : StorageConfig) : StorageM Int :=
  if cfg.partitionMode then mountPartitions cfg else mountWhole

def init (cfg : StorageConfig) : StorageM Int := do
  let s ← get
  if s.initDone then
    return 0
  let status ← initDevice cfg
  if status ≠ 0 then
    return status
  let status ← mountConfigured cfg
  if status ≠ 0 then
    return status
  update fun s => { s with initDone := true }
  return status

/-! ## Formatting -/

def format (fs : Option FileSystem) (bd : Option BlockDevice) : StorageM Int := do
  match fs, bd with
  | some fs, some bd =>
    let status ← ask (.bdInit bd)
    if status ≠ 0 then
      return status
    -- might fail because already mounted, so ignore
    let _ ← ask (.mount fs bd)
    let status ← ask (.reformat fs bd)
    if status ≠ 0 then
      let size ← sizeOf bd
      let erased ← ask (.bdErase bd 0 size)
      if erased = 0 then
        let again ← ask (.reformat fs bd)
        if again = 0 then
          return 0
      return status
    return status
  | _, _ => return -1

def reformatStorage (cfg : StorageConfig) : StorageM Int := do
  let s ← get
  if s.self.bd.isNone then
    return -1
  if cfg.numberOfPartitions = 0 then
    format s.self.fs s.self.bd
  else
    let status ← reformatPartition s.self.fs1 s.self.part1
    if status ≠ 0 then
      return status
    if cfg.numberOfPartitions = 2 then
      reformatPartition s.self.fs2 s.self.part2
    else
      return status

/-! ## Entropy and Root of Trust -/

def sotpEntropy (cfg : StorageConfig) : StorageM Int := do
  if cfg.palUseHwTrng then
    return fccStatusSuccess
  let status ← ask .fccEntropySet
  if status ≠ fccStatusSuccess ∧ status ≠ cfg.entropyError then
    let _ ← ask .fccFinalize
    return status
  return fccStatusSuccess

def sotpRot (cfg : StorageConfig) : StorageM Int := do
  let status ← ask .fccRotSet
  if status ≠ fccStatusSuccess ∧ status ≠ cfg.rotError then
    let _ ← ask .fccFinalize
    return status
  return fccStatusSuccess

/-- Only developer mode with a user defined PAL configuration has anything to set. -/
def sotpSet (cfg : StorageConfig) : StorageM Int := do
  if ¬(cfg.developerMode ∧ cfg.palUserDefined) then
    return fccStatusSuccess
  let status ← sotpEntropy cfg
  if status ≠ fccStatusSuccess then
    return status
  sotpRot cfg

/-- The status that is returned is recorded, so that it can be seen in a trace. -/
def sotpInit (cfg : StorageConfig) : StorageM Int := do
  let status ← sotpSet cfg
  note (.sotpInit status)
  return status

/-! ## What the functions call -/

/-- Calls that start or create a device. -/
def Preparing : StorageCall → Prop
  | .status (.bdInit _) | .status (.bdDeinit _) | .size _
  | .note (.newMBRBlockDevice ..) | .note (.newFATFileSystem ..) => True
  | _ => False

/-- Calls on block devices and file systems. -/
def OnDevices : StorageCall → Prop
  | .status (.bdErase ..) | .status (.mount ..) | .status (.unmount _) | .status (.reformat ..)
  | .status (.partition ..) => True
  | call => Preparing call

theorem Preparing.onDevices (call : StorageCall) (h : Preparing call) : OnDevices call := by
  cases call with
  | status call => cases call <;> first | exact trivial | exact h
  | _ => exact h

section
variable {cfg : StorageConfig} {slot : Slot} {fs : Option FileSystem} {part : Option BlockDevice}

theorem calls_initPart {part : BlockDevice} : Calls Preparing (initPart part) :=
  (calls_ask trivial).bind fun _ => .ite ((calls_ask trivial).bind fun _ => trivial) trivial

theorem calls_newPart : Calls Preparing (newPart cfg slot) := fun _ =>
  Calls.deref.bind fun _ => (calls_note trivial).bind fun _ => trivial

theorem calls_obtainPart : Calls Preparing (obtainPart cfg slot) := by
  intro s
  change Calls Preparing (match s.self.partAt slot with | some part => _ | none => _)
  split
  · exact trivial
  · exact calls_newPart

theorem calls_mountNew : Calls Preparing (mountNew cfg slot) :=
  calls_obtainPart.bind fun _ => calls_initPart.bind fun _ => .ite trivial fun _ =>
    (calls_note trivial).bind fun _ => trivial

theorem calls_initDevice : Calls Preparing (initDevice cfg) := by
  intro s
  change Calls Preparing (match s.self.bd with | none => _ | some bd => _)
  split
  · exact trivial
  · exact (calls_ask trivial).bind fun _ => .ite trivial <|
      (calls_sizeOf trivial).bind fun _ => .ite trivial trivial

theorem calls_reformatPartition : Calls OnDevices (reformatPartition fs part) :=
  Calls.deref.bind fun _ => calls_ask trivial

theorem calls_testFilesystem : Calls OnDevices (testFilesystem fs part) :=
  Calls.deref.bind fun _ => (calls_ask trivial).bind fun _ => (calls_ask trivial).bind fun _ =>
    .ite trivial trivial

theorem calls_initAndMountPartition : Calls OnDevices (initAndMountPartition cfg slot) := by
  have hreinit : Calls OnDevices (reinit slot) := fun _ => Calls.deref.bind fun _ =>
    (calls_initPart.mono Preparing.onDevices).bind fun _ => .ite trivial calls_reformatPartition
  have hmount : Calls OnDevices (mountOrReinit cfg slot) := fun _ =>
    .ite (calls_mountNew.mono Preparing.onDevices) hreinit
  exact hmount.bind fun _ => .ite trivial fun _ => calls_testFilesystem.bind fun _ =>
    .ite calls_reformatPartition trivial

theorem calls_createPartitions : Calls OnDevices (createPartitions cfg) := by
  have hcreate : ∀ slot, Calls OnDevices (createPartition cfg slot) := fun slot =>
    Calls.bind (fun _ => .ite trivial trivial) fun _ _ => Calls.deref.bind fun _ =>
      (calls_ask trivial).bind fun _ => .ite trivial calls_initAndMountPartition
  exact (hcreate .primary).bind fun _ => .ite trivial (.ite (hcreate .secondary) trivial)

theorem calls_init : Calls OnDevices (init cfg) := by
  have hslot : ∀ slot, Calls OnDevices (mountOrCreate cfg slot) := fun slot =>
    calls_initAndMountPartition.bind fun _ => .ite calls_createPartitions trivial
  have hpartitions : Calls OnDevices (mountPartitions cfg) :=
    .ite trivial ((hslot .primary).bind fun _ => .ite trivial (.ite (hslot .secondary) trivial))
  have hwhole : Calls OnDevices mountWhole := fun _ =>
    calls_testFilesystem.bind fun _ => .ite calls_reformatPartition trivial
  exact fun _ => .ite trivial <| (calls_initDevice.mono Preparing.onDevices).bind fun _ =>
    .ite trivial <| Calls.bind (.ite hpartitions hwhole) fun _ => .ite trivial trivial

theorem calls_format : Calls OnDevices (format fs part) := by
  cases fs with
  | none => exact trivial
  | some fs =>
    cases part with
    | none => exact trivial
    | some bd =>
      exact (calls_ask trivial).bind fun _ => .ite trivial <| (calls_ask trivial).bind fun _ =>
        (calls_ask trivial).bind fun _ => .ite ((calls_sizeOf trivial).bind fun _ =>
          (calls_ask trivial).bind fun _ => .ite ((calls_ask trivial).bind fun _ =>
            .ite trivial trivial) trivial) trivial

theorem calls_reformatStorage : Calls OnDevices (reformatStorage cfg) := fun _ =>
  .ite trivial <| .ite calls_format <| calls_reformatPartition.bind fun _ =>
    .ite trivial (.ite calls_reformatPartition trivial)

end

/-! ## Rules for init

For monitors that only look at the calls, the result of `init` does not matter. -/

section
variable {M : Type*} {μ : Monitor StorageEvent M} {cfg : StorageConfig} {s : StorageState} {m : M}

theorem wp_init_returns {P : Int → StorageState → M → Prop}
    (hdevice : wp μ (initDevice cfg) (Returns P) s m)
    (hmount : ∀ status t m, status = 0 → P status t m →
      wp μ (mountConfigured cfg) (Returns fun _ _ _ => True) t m) :
    wp μ (init cfg) (Returns fun _ _ _ => True) s m := by
  unfold init
  rw [wp_get_bind, wp_ite]
  split
  · trivial
  · refine wp_then hdevice fun status t m hP => ?_
    refine wp_if (fun _ => ?_) fun hstatus => ?_
    · trivial
    · refine wp_then (hmount status t m (not_not.mp hstatus) hP) fun mounted u m _ => ?_
      rw [wp_ite]
      split <;> trivial

theorem wp_mountPartitions_returns {P : StorageState → M → Prop}
    (hprimary : wp μ (mountOrCreate cfg .primary) (Returns fun _ => P) s m)
    (hsecondary : ∀ t m, P t m →
      wp μ (mountOrCreate cfg .secondary) (Returns fun _ _ _ => True) t m) :
    wp μ (mountPartitions cfg) (Returns fun _ _ _ => True) s m := by
  unfold mountPartitions
  rw [wp_ite]
  split
  · trivial
  · refine wp_then hprimary fun status t m hP => ?_
    rw [wp_ite, wp_ite]
    split
    · trivial
    · split
      · exact hsecondary t m hP
      · trivial

end

/-! ## What the functions keep -/

section
variable {X : Type*} {g : StorageState → X} {cfg : StorageConfig}
variable {fs : Option FileSystem} {part : Option BlockDevice}

theorem keeps_ask {call : StatusCall} : Keeps g (ask call) := .perform

theorem keeps_reformatPartition : Keeps g (reformatPartition fs part) :=
  Keeps.deref.bind fun _ => keeps_ask

theorem keeps_testFilesystem : Keeps g (testFilesystem fs part) :=
  Keeps.deref.bind fun _ => keeps_ask.bind fun _ => keeps_ask.bind fun _ =>
    .ite trivial trivial

theorem keeps_format : Keeps g (format fs part) := by
  cases fs with
  | none => exact trivial
  | some fs =>
    cases part with
    | none => exact trivial
    | some bd =>
      exact keeps_ask.bind fun _ => .ite trivial <| keeps_ask.bind fun _ =>
        keeps_ask.bind fun _ => .ite (Keeps.perform.bind fun _ => keeps_ask.bind fun _ =>
          .ite (keeps_ask.bind fun _ => .ite trivial trivial) trivial) trivial

theorem keeps_reformatStorage : Keeps g (reformatStorage cfg) := fun _ =>
  .ite trivial <| .ite keeps_format <| keeps_reformatPartition.bind fun _ =>
    .ite trivial (.ite keeps_reformatPartition trivial)

theorem keeps_sotpInit : Keeps g (sotpInit cfg) := by
  have hentropy : Keeps g (sotpEntropy cfg) := .ite trivial <| keeps_ask.bind fun _ =>
    .ite (keeps_ask.bind fun _ => trivial) trivial
  have hrot : Keeps g (sotpRot cfg) := keeps_ask.bind fun _ =>
    .ite (keeps_ask.bind fun _ => trivial) trivial
  have hset : Keeps g (sotpSet cfg) := .ite trivial <| hentropy.bind fun _ => .ite trivial hrot
  exact hset.bind fun _ => Keeps.perform.bind fun _ => trivial

/-- Mounting a partition sets nothing but its two pointers. -/
theorem keeps_initAndMountPartition {slot : Slot}
    (hpart : ∀ s part, g { s with self := s.self.setPart part slot } = g s)
    (hfs : ∀ s fs, g { s with self := s.self.setFs fs slot } = g s) :
    Keeps g (initAndMountPartition cfg slot) := by
  have hinit : ∀ {part}, Keeps g (initPart part) :=
    keeps_ask.bind fun _ => .ite (keeps_ask.bind fun _ => trivial) trivial
  have hobtain : Keeps g (obtainPart cfg slot) := by
    refine Keeps.get_bind fun s => ?_
    split
    · exact trivial
    · exact Keeps.get_bind fun _ => Keeps.deref.bind fun _ => Keeps.perform.bind fun _ =>
        ⟨fun s => hpart s _, trivial⟩
  have hnew : Keeps g (mountNew cfg slot) :=
    hobtain.bind fun _ => hinit.bind fun _ => .ite trivial <| Keeps.get_bind fun _ =>
      Keeps.perform.bind fun _ => ⟨fun s => hfs s _, trivial⟩
  have hreinit : Keeps g (reinit slot) :=
    Keeps.get_bind fun _ => Keeps.deref.bind fun _ => hinit.bind fun _ =>
      .ite trivial keeps_reformatPartition
  have hmount : Keeps g (mountOrReinit cfg slot) :=
    Keeps.get_bind fun _ => .ite hnew hreinit
  exact hmount.bind fun _ => .ite trivial <| Keeps.get_bind fun _ =>
    keeps_testFilesystem.bind fun _ => .ite keeps_reformatPartition trivial

/-- Only with partitions the size is stored. -/
theorem keeps_initDevice (hmode : cfg.partitionMode = false) : Keeps g (initDevice cfg) := by
  refine Keeps.get_bind fun s => ?_
  split
  · exact trivial
  · refine keeps_ask.bind fun _ => .ite trivial <| Keeps.perform.bind fun _ => ?_
    rw [if_neg (by simp [hmode])]
    exact trivial

end

end StorageHelper

/-- One file system on the whole device; nothing is reset. -/
def StorageConfig.wholeDevice : StorageConfig where
  partitionMode := false
  autoPartition := false
  numberOfPartitions := 0
  atMostTwo := by decide
  primary := ⟨1, 0, 0x40000000, []⟩
  secondary := ⟨2, 0x40000000, 0x40000000, []⟩
  primaryType := .int
  primaryMacros := by decide
  asserts := true
  developerMode := true
  palUserDefined := true
  palUseHwTrng := false
  resetStorage := false
  formatOnError := false
  entropyError := 1
  rotError := 2
  kcmFileExistError := 3

/-- Two partitions with the default sizes. -/
def StorageConfig.twoPartitions (autoPartition : Bool) : StorageConfig :=
  { wholeDevice with
    partitionMode := true
    autoPartition
    numberOfPartitions := 2
    atMostTwo := by decide }

/-- Every status is 0. -/
def allSucceed : List StorageEvent → (c : StorageCall) → c.Reply := fun _ _ => default

end SimpleCloudClient
