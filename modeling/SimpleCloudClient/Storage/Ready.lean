import SimpleCloudClient.Library.Transition
import SimpleCloudClient.Storage.Helper

/-!
# A helper whose init returned 0

A block device is initialised once its `init` has succeeded. A file system is known to be mounted
while the last of its mounts, unmounts and reformats is a mount or a reformat that succeeded. The
helpers of a program share the static variable `init_done`: only the first `init` to succeed
mounts anything.
-/
namespace SimpleCloudClient
open Procedure StorageHelper Transition

/-- What is known of the devices and file systems from the calls made so far. -/
structure Devices where
  initialised : BlockDevice → Bool := fun _ => false
  mounted : FileSystem → Option (Option BlockDevice) := fun _ => none

namespace Devices

def setInitialised (d : Devices) (bd : BlockDevice) : Devices :=
  { d with initialised := Function.update d.initialised bd true }

def setMounted (d : Devices) (fs : FileSystem) (bd : Option (Option BlockDevice)) : Devices :=
  { d with mounted := Function.update d.mounted fs bd }

def onStatus (d : Devices) (status : Int) : StatusCall → Devices
  | .bdInit bd => if status = 0 then d.setInitialised bd else d
  | .mount fs bd | .reformat fs bd => d.setMounted fs (if status = 0 then some bd else none)
  | .unmount fs => d.setMounted fs none
  | _ => d

def next (d : Devices) : StorageEvent → Devices
  | ⟨.status call, status⟩ => d.onStatus status call
  | _ => d

/-- At most this file system was mounted or unmounted. -/
structure Touches (fs : FileSystem) (d d' : Devices) : Prop where
  initialised : ∀ bd, d.initialised bd = true → d'.initialised bd = true
  others : ∀ g, g ≠ fs → d'.mounted g = d.mounted g

variable {fs : FileSystem} {d d' d'' : Devices} {bd : BlockDevice}

@[refl] theorem Touches.refl : Touches fs d d := ⟨fun _ h => h, fun _ _ => rfl⟩

theorem Touches.trans (h : Touches fs d d') (g : Touches fs d' d'') : Touches fs d d'' :=
  ⟨fun bd hbd => g.initialised bd (h.initialised bd hbd),
    fun x hx => (g.others x hx).trans (h.others x hx)⟩

theorem touches_setMounted {x : Option (Option BlockDevice)} : Touches fs d (d.setMounted fs x) :=
  ⟨fun _ h => h, fun _ hg => Function.update_of_ne hg _ _⟩

theorem touches_setInitialised : Touches fs d (d.setInitialised bd) := by
  refine ⟨fun x hx => ?_, fun _ _ => rfl⟩
  by_cases hbd : x = bd
  · simp [setInitialised, hbd]
  · simpa [setInitialised, hbd] using hx

@[simp] theorem mounted_setMounted {x : Option (Option BlockDevice)} :
    (d.setMounted fs x).mounted fs = x := by simp [setMounted]

end Devices

open Devices

def devices : Monitor StorageEvent Devices := { next := Devices.next }

/-- The partition is compiled in. -/
def StorageConfig.Configured (cfg : StorageConfig) : Slot → Prop
  | .primary => 0 < cfg.numberOfPartitions
  | .secondary => cfg.numberOfPartitions = 2

/-- The file system of the partition is mounted on the partition. -/
def MountedAt (h : StorageHelper) (d : Devices) (slot : Slot) : Prop :=
  ∃ fs part, h.fsAt slot = some fs ∧ h.partAt slot = some part ∧ d.mounted fs = some (some part)

/-- The device is initialised and what is configured is mounted. -/
structure Ready (cfg : StorageConfig) (h : StorageHelper) (d : Devices) : Prop where
  initialised : ∀ bd, h.bd = some bd → d.initialised bd = true
  partitions : cfg.partitionMode = true → ∀ slot, cfg.Configured slot → MountedAt h d slot
  whole : cfg.partitionMode = false → ∃ fs, h.fs = some fs ∧ d.mounted fs = some h.bd

/-- The file systems of the partitions are the helper's own, each has its partition, and these
are on the device of the helper. -/
structure Own (h : StorageHelper) : Prop where
  fs : ∀ slot fs, h.fsAt slot = some fs → fs = .fat h.id slot
  part : ∀ slot fs, h.fsAt slot = some fs → ∃ part, h.partAt slot = some part
  bd : ∀ slot part, h.partAt slot = some part → ∃ bd, h.bd = some bd

theorem own_construct {i : Nat} {bd fs : Option Nat} {memory : UInt64} :
    Own (.construct i bd fs memory) := by
  constructor <;> rintro (_ | _) _ ⟨⟩

/-! ## The functions -/

variable {cfg : StorageConfig} {s : StorageState} {d : Devices} {slot : Slot}

theorem wp_reformatPartition {fs : Option FileSystem} {part : Option BlockDevice} :
    wp devices (reformatPartition fs part) (Returns fun status s' d' => s' = s ∧
      ∃ g, fs = some g ∧ Touches g d d' ∧ (status = 0 → d'.mounted g = some part)) s d := by
  cases fs with
  | none => trivial
  | some g =>
    refine wp_ask.mpr fun status => ⟨trivial, rfl, g, rfl, touches_setMounted, fun hstatus => ?_⟩
    simp [devices, Devices.next, onStatus, hstatus]

theorem wp_testFilesystem {fs : Option FileSystem} {part : Option BlockDevice} :
    wp devices (testFilesystem fs part) (Returns fun status s' d' => s' = s ∧
      ∃ g, fs = some g ∧ Touches g d d' ∧ (status = 0 → d'.mounted g = some part)) s d := by
  cases fs with
  | none => trivial
  | some g =>
    refine wp_ask_bind.mpr fun _ => ⟨trivial, wp_ask_bind.mpr fun status => ⟨trivial, ?_⟩⟩
    have hunmount : Touches g d (d.setMounted g none) := touches_setMounted
    rw [wp_ite]
    split
    · exact ⟨rfl, g, rfl, hunmount.trans touches_setMounted, nofun⟩
    · refine ⟨rfl, g, rfl, hunmount.trans touches_setMounted, fun hstatus => ?_⟩
      simp [devices, Devices.next, onStatus, hstatus]

theorem wp_initPart {part : BlockDevice} (fs : FileSystem) :
    wp devices (initPart part) (Returns fun _ s' d' => s' = s ∧ Touches fs d d') s d := by
  have hnext : ∀ status : Int, Touches fs d (devices.next d ⟨.status (.bdInit part), status⟩) := by
    intro status
    by_cases hstatus : status = 0
    · simpa [devices, Devices.next, onStatus, hstatus] using touches_setInitialised
    · simpa [devices, Devices.next, onStatus, hstatus] using Touches.refl
  refine wp_ask_bind.mpr fun status => ⟨trivial, ?_⟩
  rw [wp_ite]
  split
  · exact fun _ => ⟨trivial, rfl, hnext status⟩
  · exact ⟨rfl, hnext status⟩

/-- Work on one partition: nothing else of the helper and no other file system is touched. -/
structure AtSlot (slot : Slot) (s : StorageState) (d : Devices) (s' : StorageState)
    (d' : Devices) : Prop where
  initDone : s'.initDone = s.initDone
  id : s'.self.id = s.self.id
  bd : s'.self.bd = s.self.bd
  storageSize : s'.self.storageSize = s.self.storageSize
  pointers : ∀ other, other ≠ slot →
    s'.self.fsAt other = s.self.fsAt other ∧ s'.self.partAt other = s.self.partAt other
  own : Own s.self → Own s'.self
  touches : Touches (.fat s.self.id slot) d d'

theorem AtSlot.trans {s' s'' : StorageState} {d' d'' : Devices} (h : AtSlot slot s d s' d')
    (g : AtSlot slot s' d' s'' d'') : AtSlot slot s d s'' d'' where
  initDone := g.initDone.trans h.initDone
  id := g.id.trans h.id
  bd := g.bd.trans h.bd
  storageSize := g.storageSize.trans h.storageSize
  pointers other hne := ⟨(g.pointers other hne).1.trans (h.pointers other hne).1,
    (g.pointers other hne).2.trans (h.pointers other hne).2⟩
  own hown := g.own (h.own hown)
  touches := h.touches.trans (h.id ▸ g.touches)

theorem atSlot_of_touches {d' : Devices} (h : Touches (.fat s.self.id slot) d d') :
    AtSlot slot s d s d' :=
  ⟨rfl, rfl, rfl, rfl, fun _ _ => ⟨rfl, rfl⟩, fun hown => hown, h⟩

/-- What is mounted on the other partition stays mounted. -/
theorem AtSlot.mountedAt {s' : StorageState} {d' : Devices} {other : Slot}
    (h : AtSlot slot s d s' d') (hown : Own s.self) (hne : other ≠ slot)
    (hm : MountedAt s.self d other) : MountedAt s'.self d' other := by
  obtain ⟨fs, part, hfs, hpart, hmounted⟩ := hm
  refine ⟨fs, part, by rw [(h.pointers other hne).1, hfs], by rw [(h.pointers other hne).2, hpart],
    ?_⟩
  rw [h.touches.others, hmounted]
  rw [hown.fs other fs hfs]
  simpa using hne

theorem atSlot_setPart {part bd : BlockDevice} (hbd : s.self.bd = some bd) :
    AtSlot slot s d { s with self := s.self.setPart part slot } d where
  initDone := rfl
  id := by simp
  bd := by simp
  storageSize := by simp
  pointers other hne := by simp [hne]
  own hown := by
    refine ⟨by simpa using hown.fs, fun x fs hfs => ?_, fun _ _ _ => ⟨bd, by simpa using hbd⟩⟩
    by_cases hx : x = slot
    · simp [hx]
    · simpa [hx] using hown.part x fs (by simpa using hfs)
  touches := .refl

theorem atSlot_setFs {part : BlockDevice} (hpart : s.self.partAt slot = some part) :
    AtSlot slot s d { s with self := s.self.setFs (.fat s.self.id slot) slot } d where
  initDone := rfl
  id := by simp
  bd := by simp
  storageSize := by simp
  pointers other hne := by simp [hne]
  own hown := by
    refine ⟨fun x fs hfs => ?_, fun x fs hfs => ?_, by simpa using hown.bd⟩ <;>
      by_cases hx : x = slot
    · simpa [hx, eq_comm] using hfs
    · simpa using hown.fs x fs (by simpa [hx] using hfs)
    · simpa [hx] using ⟨part, hpart⟩
    · simpa using hown.part x fs (by simpa [hx] using hfs)
  touches := .refl

theorem wp_obtainPart : wp devices (obtainPart cfg slot) (Returns fun part s' d' =>
    AtSlot slot s d s' d' ∧ s'.self.partAt slot = some part) s d := by
  unfold obtainPart
  rw [wp_get_bind]
  cases hpart : s.self.partAt slot with
  | some part => exact ⟨atSlot_of_touches .refl, hpart⟩
  | none =>
    unfold newPart
    rw [wp_get_bind, wp_deref_bind]
    cases hbd : s.self.bd with
    | none => trivial
    | some bd => exact wp_note_bind.mpr ⟨trivial, atSlot_setPart hbd, by simp⟩

theorem wp_mountNew : wp devices (mountNew cfg slot) (Returns fun _ s' d' =>
    AtSlot slot s d s' d' ∧ ∃ part, s'.self.partAt slot = some part) s d := by
  refine wp_then wp_obtainPart fun part s₁ d₁ => ?_
  rintro ⟨h₁, hpart⟩
  refine wp_then (wp_initPart (.fat s.self.id slot)) fun status s₂ d₂ => ?_
  rintro ⟨rfl, h₂⟩
  have h := h₁.trans (atSlot_of_touches (h₁.id ▸ h₂))
  rw [wp_ite]
  split
  · exact ⟨h, part, hpart⟩
  · exact wp_note_bind.mpr ⟨trivial, h.trans (atSlot_setFs hpart), part, by simpa using hpart⟩

theorem wp_reinit (hown : Own s.self) : wp devices (reinit slot) (Returns fun _ s' d' =>
    AtSlot slot s d s' d' ∧ ∃ part, s'.self.partAt slot = some part) s d := by
  unfold reinit
  rw [wp_get_bind, wp_deref_bind]
  cases hpart : s.self.partAt slot with
  | none => trivial
  | some part =>
    refine wp_then (wp_initPart (.fat s.self.id slot)) fun status s₁ d₁ => ?_
    rintro ⟨rfl, h₁⟩
    rw [wp_ite]
    split
    · exact ⟨atSlot_of_touches h₁, part, hpart⟩
    · refine wp_returns_mono wp_reformatPartition fun _ s₂ d₂ => ?_
      rintro ⟨rfl, g, hg, h₂, -⟩
      exact ⟨atSlot_of_touches (h₁.trans (hown.fs slot g hg ▸ h₂)), part, hpart⟩

theorem wp_mountOrReinit (hown : Own s.self) :
    wp devices (mountOrReinit cfg slot) (Returns fun _ s' d' =>
      AtSlot slot s d s' d' ∧ ∃ part, s'.self.partAt slot = some part) s d := by
  unfold mountOrReinit
  rw [wp_get_bind, wp_ite]
  split
  · exact wp_mountNew
  · exact wp_reinit hown

theorem wp_initAndMountPartition (hown : Own s.self) :
    wp devices (initAndMountPartition cfg slot) (Returns fun status s' d' =>
      AtSlot slot s d s' d' ∧ (status = 0 → MountedAt s'.self d' slot)) s d := by
  refine wp_then (wp_mountOrReinit hown) fun status s₁ d₁ => ?_
  rintro ⟨h₁, part, hpart⟩
  -- the test, and the formatting after it, mount the file system when they return 0
  have hdone : ∀ {status : Int} {d₂ : Devices}, (∃ g, s₁.self.fsAt slot = some g ∧
      Touches g d₁ d₂ ∧ (status = 0 → d₂.mounted g = some (s₁.self.partAt slot))) →
      AtSlot slot s d s₁ d₂ ∧ (status = 0 → MountedAt s₁.self d₂ slot) := by
    rintro status d₂ ⟨g, hg, htouches, hmounted⟩
    obtain rfl : g = .fat s₁.self.id slot := (h₁.own hown).fs slot g hg
    exact ⟨h₁.trans (atSlot_of_touches htouches), fun hzero =>
      ⟨_, part, hg, hpart, hpart ▸ hmounted hzero⟩⟩
  refine wp_if (fun hfailed => ?_) fun _ => ?_
  · exact ⟨h₁, fun hzero => absurd hzero hfailed⟩
  · rw [wp_get_bind]
    refine wp_then wp_testFilesystem fun tested s₂ d₂ => ?_
    rintro ⟨rfl, hmount⟩
    rw [wp_ite]
    split
    · obtain ⟨g, hg, htouches, -⟩ := hmount
      refine wp_returns_mono wp_reformatPartition fun formatted s₃ d₃ => ?_
      rintro ⟨rfl, g', hg', htouches', hmounted⟩
      obtain rfl := Option.some.inj (hg.symm.trans hg')
      exact hdone ⟨g, hg, htouches.trans htouches', hmounted⟩
    · exact hdone hmount

theorem wp_createPartition (hown : Own s.self) :
    wp devices (createPartition cfg slot) (Returns fun status s' d' =>
      AtSlot slot s d s' d' ∧ (status = 0 → MountedAt s'.self d' slot)) s d := by
  have hcheck : wp devices (checkSize cfg slot) (Returns fun _ s' d' => s' = s ∧ d' = d) s d := by
    rw [wp_checkSize]
    split
    · trivial
    · exact ⟨rfl, rfl⟩
  refine wp_then hcheck fun _ s₁ d₁ => ?_
  rintro ⟨rfl, rfl⟩
  rw [wp_get_bind, wp_deref_bind]
  cases s₁.self.bd with
  | none => trivial
  | some bd =>
    refine wp_ask_bind.mpr fun status => ⟨trivial, ?_⟩
    refine wp_if (fun hfailed => ?_) fun _ => ?_
    · exact ⟨atSlot_of_touches .refl, fun hzero => absurd hzero hfailed⟩
    · exact wp_initAndMountPartition hown

/-- Work on any of the partitions. -/
structure Kept (s : StorageState) (d : Devices) (s' : StorageState) (d' : Devices) : Prop where
  id : s'.self.id = s.self.id
  bd : s'.self.bd = s.self.bd
  own : Own s.self → Own s'.self
  initialised : ∀ bd, d.initialised bd = true → d'.initialised bd = true

theorem AtSlot.kept {s' : StorageState} {d' : Devices} (h : AtSlot slot s d s' d') :
    Kept s d s' d' := ⟨h.id, h.bd, h.own, h.touches.initialised⟩

theorem Kept.trans {s' s'' : StorageState} {d' d'' : Devices} (h : Kept s d s' d')
    (g : Kept s' d' s'' d'') : Kept s d s'' d'' :=
  ⟨g.id.trans h.id, g.bd.trans h.bd, fun hown => g.own (h.own hown),
    fun bd hbd => g.initialised bd (h.initialised bd hbd)⟩

theorem wp_createPartitions (hown : Own s.self) :
    wp devices (createPartitions cfg) (Returns fun status s' d' =>
      Kept s d s' d' ∧ (status = 0 → ∀ slot, cfg.Configured slot → MountedAt s'.self d' slot))
      s d := by
  refine wp_then (wp_createPartition hown) fun status s₁ d₁ => ?_
  rintro ⟨h₁, hprimary⟩
  refine wp_if (fun hfailed => ?_) fun hstatus => ?_
  · exact ⟨h₁.kept, fun hzero => absurd hzero hfailed⟩
  · refine wp_if (fun _ => ?_) fun hone => ?_
    · refine wp_returns_mono (wp_createPartition (h₁.own hown)) fun status s₂ d₂ => ?_
      rintro ⟨h₂, hsecondary⟩
      refine ⟨h₁.kept.trans h₂.kept, fun hzero slot _ => ?_⟩
      cases slot with
      | primary => exact h₂.mountedAt (h₁.own hown) nofun (hprimary (not_not.mp hstatus))
      | secondary => exact hsecondary hzero
    · refine ⟨h₁.kept, fun hzero slot hslot => ?_⟩
      cases slot with
      | primary => exact hprimary hzero
      | secondary => exact absurd hslot hone

/-- When a partition is mounted or created, those mounted before are mounted still. -/
theorem wp_mountOrCreate (hown : Own s.self) :
    wp devices (mountOrCreate cfg slot) (Returns fun status s' d' => Kept s d s' d' ∧
      (status = 0 → cfg.Configured slot → MountedAt s'.self d' slot ∧
        ∀ other, cfg.Configured other → MountedAt s.self d other → MountedAt s'.self d' other))
      s d := by
  refine wp_then (wp_initAndMountPartition hown) fun status s₁ d₁ => ?_
  rintro ⟨h₁, hmounted⟩
  rw [wp_ite]
  split
  · refine wp_returns_mono (wp_createPartitions (h₁.own hown)) fun status s₂ d₂ => ?_
    rintro ⟨h₂, hall⟩
    exact ⟨h₁.kept.trans h₂, fun hzero hslot =>
      ⟨hall hzero slot hslot, fun other hother _ => hall hzero other hother⟩⟩
  · refine ⟨h₁.kept, fun hzero _ => ⟨hmounted hzero, fun other _ hbefore => ?_⟩⟩
    by_cases hother : other = slot
    · exact hother ▸ hmounted hzero
    · exact h₁.mountedAt hown hother hbefore

theorem wp_mountPartitions (hown : Own s.self) :
    wp devices (mountPartitions cfg) (Returns fun status s' d' => Kept s d s' d' ∧
      (status = 0 → ∀ slot, cfg.Configured slot → MountedAt s'.self d' slot)) s d := by
  unfold mountPartitions
  refine wp_if (fun hnone => ?_) fun hsome => ?_
  · refine ⟨⟨rfl, rfl, fun h => h, fun _ h => h⟩, fun _ slot hslot => ?_⟩
    cases slot <;> simp [StorageConfig.Configured, hnone] at hslot
  · have hconfigured : cfg.Configured .primary := Nat.pos_of_ne_zero hsome
    refine wp_then (wp_mountOrCreate hown) fun status s₁ d₁ => ?_
    rintro ⟨h₁, hprimary⟩
    refine wp_if (fun hfailed => ?_) fun hstatus => ?_
    · exact ⟨h₁, fun hzero => absurd hzero hfailed⟩
    · have hfirst := (hprimary (not_not.mp hstatus) hconfigured).1
      refine wp_if (fun htwo => ?_) fun hone => ?_
      · refine wp_returns_mono (wp_mountOrCreate (h₁.own hown)) fun status s₂ d₂ => ?_
        rintro ⟨h₂, hsecondary⟩
        refine ⟨h₁.trans h₂, fun hzero slot _ => ?_⟩
        obtain ⟨hsecond, hothers⟩ := hsecondary hzero htwo
        cases slot with
        | primary => exact hothers .primary hconfigured hfirst
        | secondary => exact hsecond
      · refine ⟨h₁, fun _ slot hslot => ?_⟩
        cases slot with
        | primary => exact hfirst
        | secondary => exact absurd hslot hone

theorem wp_mountWhole : wp devices mountWhole (Returns fun status s' d' =>
    s'.self.id = s.self.id ∧ s'.self.bd = s.self.bd ∧ s'.self.fs = s.self.fs ∧
    (∀ bd, d.initialised bd = true → d'.initialised bd = true) ∧
    (status = 0 → ∃ fs, s.self.fs = some fs ∧ d'.mounted fs = some s.self.bd)) s d := by
  unfold mountWhole
  rw [wp_modifySelf_bind, wp_get_bind]
  refine wp_then wp_testFilesystem fun tested s₁ d₁ => ?_
  rintro ⟨rfl, g, hg, htouches, hmounted⟩
  rw [wp_ite]
  split
  · refine wp_returns_mono wp_reformatPartition fun formatted s₂ d₂ => ?_
    rintro ⟨rfl, g', hg', htouches', hmounted'⟩
    obtain rfl := Option.some.inj (hg.symm.trans hg')
    exact ⟨rfl, rfl, rfl, (htouches.trans htouches').initialised, fun h => ⟨g, hg, hmounted' h⟩⟩
  · exact ⟨rfl, rfl, rfl, htouches.initialised, fun h => ⟨g, hg, hmounted h⟩⟩

theorem own_setStorageSize {h : StorageHelper} {size : UInt64} (hown : Own h) :
    Own (h.setStorageSize size) :=
  ⟨by simpa using hown.fs, by simpa using hown.part, by simpa using hown.bd⟩

theorem wp_initDevice : wp devices (initDevice cfg) (Returns fun status s' d' =>
    s'.self.id = s.self.id ∧ s'.self.bd = s.self.bd ∧ s'.self.fs = s.self.fs ∧
    (∀ slot, s'.self.fsAt slot = s.self.fsAt slot) ∧ (Own s.self → Own s'.self) ∧
    (status = 0 → ∀ bd, s.self.bd = some bd → d'.initialised bd = true)) s d := by
  unfold initDevice
  rw [wp_get_bind]
  cases hbd : s.self.bd with
  | none => exact ⟨rfl, hbd, rfl, fun _ => rfl, fun h => h, nofun⟩
  | some bd =>
    refine wp_ask_bind.mpr fun status => ⟨trivial, ?_⟩
    refine wp_if (fun _ => ?_) fun hstatus => ?_
    · exact ⟨rfl, hbd, rfl, fun _ => rfl, fun h => h, nofun⟩
    · have hinit : ∀ x, some bd = some x →
          (devices.next d ⟨.status (.bdInit bd), status⟩).initialised x = true := by
        rintro _ ⟨⟩
        simp [devices, Devices.next, onStatus, not_not.mp hstatus, setInitialised]
      refine wp_sizeOf_bind.mpr fun size => ⟨trivial, ?_⟩
      dsimp only
      rw [wp_ite]
      split
      · exact ⟨rfl, hbd, rfl, fun _ => fsAt_setStorageSize, own_setStorageSize, fun _ => hinit⟩
      · exact ⟨rfl, hbd, rfl, fun _ => rfl, fun h => h, fun _ => hinit⟩

/-- The device and what is configured on it, when both parts return 0. -/
theorem wp_mountConfigured (hown : cfg.partitionMode = true → Own s.self)
    (hdevice : ∀ bd, s.self.bd = some bd → d.initialised bd = true) :
    wp devices (mountConfigured cfg) (Returns fun status s' d' => s'.self.id = s.self.id ∧
      (cfg.partitionMode = true → Own s'.self) ∧ (status = 0 → Ready cfg s'.self d')) s d := by
  unfold mountConfigured
  cases hmode : cfg.partitionMode with
  | true =>
    rw [if_pos rfl]
    refine wp_returns_mono (wp_mountPartitions (hown hmode)) fun status s₁ d₁ => ?_
    rintro ⟨h₁, hmounted⟩
    refine ⟨h₁.id, fun _ => h₁.own (hown hmode), fun hzero => ⟨fun bd hbd => ?_,
      fun _ => hmounted hzero, fun hwhole => nomatch hmode.symm.trans hwhole⟩⟩
    exact h₁.initialised bd (hdevice bd (h₁.bd ▸ hbd))
  | false =>
    rw [if_neg nofun]
    refine wp_returns_mono wp_mountWhole fun status s₁ d₁ => ?_
    rintro ⟨hid, hbd₁, hfs₁, hkept, hmounted⟩
    refine ⟨hid, nofun, fun hzero => ⟨fun bd hbd => hkept bd (hdevice bd (hbd₁ ▸ hbd)),
      fun hparts => (nomatch hmode.symm.trans hparts), fun _ => ?_⟩⟩
    rw [hfs₁, hbd₁]
    exact hmounted hzero

/-- The first `init` to succeed leaves its helper ready; later ones do nothing. -/
theorem wp_init (hown : cfg.partitionMode = true → Own s.self) :
    wp devices (init cfg) (Returns fun status s' d' => s'.self.id = s.self.id ∧
      (cfg.partitionMode = true → Own s'.self) ∧
      if s.initDone then s' = s ∧ d' = d ∧ status = 0
      else (status = 0 → Ready cfg s'.self d')) s d := by
  unfold init
  rw [wp_get_bind, wp_ite]
  split
  · exact ⟨rfl, hown, rfl, rfl, rfl⟩
  · refine wp_then wp_initDevice fun status s₁ d₁ => ?_
    rintro ⟨hid₁, hbd₁, hfs₁, -, hown₁, hdevice⟩
    refine wp_if (fun hfailed => ?_) fun hstatus => ?_
    · exact ⟨hid₁, fun hmode => hown₁ (hown hmode), fun hzero => absurd hzero hfailed⟩
    · refine wp_then (wp_mountConfigured (fun hmode => hown₁ (hown hmode)) fun bd hbd =>
        hdevice (not_not.mp hstatus) bd (hbd₁ ▸ hbd)) fun mounted s₂ d₂ => ?_
      rintro ⟨hid₂, hown₂, hready⟩
      refine wp_if (fun hfailed => ?_) fun _ => ?_
      · exact ⟨hid₂.trans hid₁, hown₂, fun hzero => absurd hzero hfailed⟩
      · exact ⟨hid₂.trans hid₁, hown₂, hready⟩

/-! ## The helpers of a program -/

/-- The helpers of a program with the static variable that they share. -/
structure HelperWorld where
  initDone : Bool := false
  helpers : Nat → StorageHelper

def HelperWorld.state (w : HelperWorld) (helper : Nat) : StorageState :=
  ⟨w.initDone, w.helpers helper⟩

def HelperWorld.put (w : HelperWorld) (helper : Nat) (s : StorageState) : HelperWorld :=
  ⟨s.initDone, Function.update w.helpers helper s.self⟩

/-- Nothing has been initialised, over arbitrary devices, file systems and memory. -/
def HelperWorld.Constructed (w : HelperWorld) : Prop :=
  w.initDone = false ∧ ∀ i, ∃ bd fs memory, w.helpers i = .construct i bd fs memory

/-- A call of `init` of one of the helpers that has returned. -/
structure InitCall where
  helper : Nat
  trace : List StorageEvent
  status : Int

def InitStep (cfg : StorageConfig) (w : HelperWorld) (l : InitCall) (w' : HelperWorld) : Prop :=
  ∃ s, Exec (init cfg) (w.state l.helper) l.trace (.ok l.status) s ∧ w' = w.put l.helper s

/-- What is known after a run. -/
def devicesAfter (labels : List InitCall) : Devices :=
  devices.after {} (labels.flatMap (·.trace))

/-- If the call that has just returned returned 0, its helper is ready. -/
def ReadyWhenZero (cfg : StorageConfig) (labels : List InitCall) (w : HelperWorld) : Prop :=
  ∀ l, labels.getLast? = some l → l.status = 0 →
    Ready cfg (w.helpers l.helper) (devicesAfter labels)

/-- `init_done` is not set, or it is and the helper is ready already. -/
def FirstOrReady (cfg : StorageConfig) (labels : List InitCall) (w : HelperWorld)
    (l : InitCall) : Prop :=
  w.initDone = true → Ready cfg (w.helpers l.helper) (devicesAfter labels)

variable {w w' : HelperWorld} {l : InitCall} {labels : List InitCall}

@[simp] theorem devicesAfter_concat :
    devicesAfter (labels ++ [l]) = devices.after (devicesAfter labels) l.trace := by
  simp [devicesAfter]

def HelperWorld.Owned (cfg : StorageConfig) (w : HelperWorld) : Prop :=
  cfg.partitionMode = true → ∀ i, Own (w.helpers i)

theorem HelperWorld.Constructed.owned (h : w.Constructed) : w.Owned cfg := by
  intro _ i
  obtain ⟨bd, fs, memory, hi⟩ := h.2 i
  exact hi ▸ own_construct

theorem InitStep.spec (labels : List InitCall) (h : InitStep cfg w l w') (howned : w.Owned cfg) :
    w'.Owned cfg ∧ (ReadyWhenZero cfg (labels ++ [l]) w' ↔ FirstOrReady cfg labels w l) := by
  obtain ⟨s, hexec, rfl⟩ := h
  have hown : cfg.partitionMode = true → Own (w.state l.helper).self :=
    fun hmode => howned hmode l.helper
  obtain ⟨-, hown', hcases⟩ := (wp_sound (wp_init hown (d := devicesAfter labels)) hexec).2
  refine ⟨fun hmode i => ?_, ?_⟩
  · by_cases hi : i = l.helper
    · simpa [HelperWorld.put, hi] using hown' hmode
    · simpa [HelperWorld.put, hi] using howned hmode i
  · have hself : (w.put l.helper s).helpers l.helper = s.self := by simp [HelperWorld.put]
    have hgood : ReadyWhenZero cfg (labels ++ [l]) (w.put l.helper s) ↔
        (l.status = 0 → Ready cfg s.self (devices.after (devicesAfter labels) l.trace)) := by
      simp [ReadyWhenZero, hself]
    rw [hgood, FirstOrReady]
    cases hdone : w.initDone with
    | true =>
      rw [if_pos (show (w.state l.helper).initDone = true from hdone)] at hcases
      obtain ⟨rfl, hdevices, hstatus⟩ := hcases
      simp [hdevices, hstatus, HelperWorld.state]
    | false =>
      rw [if_neg (by simp [HelperWorld.state, hdone])] at hcases
      exact iff_of_true hcases nofun

/-- The runs of any number of helpers in which every call finds `init_done` unset or its helper
ready, and no others, are the runs in which every call that returns 0 leaves its helper ready. -/
theorem ready_run_iff (hw : w.Constructed) :
    RunWhen (InitStep cfg) (FirstOrReady cfg) w labels w' ↔
      RunAlong (InitStep cfg) (ReadyWhenZero cfg) w labels w' :=
  runWhen_iff_runAlong (fun _ u => u.Owned cfg) hw.owned nofun
    (fun labels _ _ _ howned _ hstep => (hstep.spec labels howned).1)
    fun labels _ _ _ howned _ hstep => (hstep.spec labels howned).2

/-- Helper `i` has device `i` and file system `i`. -/
def numberedHelpers : HelperWorld where
  helpers i := .construct i (some i) (some i) 0

/-- A call of `init` in which everything succeeds. -/
def HelperWorld.succeed (w : HelperWorld) (helper : Nat) : HelperWorld :=
  w.put helper ((init .wholeDevice).run allSucceed (w.state helper) []).2.2

theorem initStep_succeed (w : HelperWorld) (helper : Nat)
    (h : ((init .wholeDevice).run allSucceed (w.state helper) []).2.1 = .ok 0) :
    InitStep .wholeDevice w
      ⟨helper, ((init .wholeDevice).run allSucceed (w.state helper) []).1, 0⟩
      (w.succeed helper) :=
  ⟨_, exec_of_run allSucceed h, rfl⟩

/-- One helper that is initialised twice. -/
theorem ready_run_iff_twice : ∃ labels w',
    RunAlong (InitStep .wholeDevice) (ReadyWhenZero .wholeDevice) numberedHelpers labels w' ∧
    labels.map (·.helper) = [0, 0] ∧ labels.map (·.status) = [0, 0] := by
  have hworld : numberedHelpers.Constructed := ⟨rfl, fun i => ⟨some i, some i, 0, rfl⟩⟩
  have hfirst := initStep_succeed numberedHelpers 0 rfl
  have hsecond := initStep_succeed (numberedHelpers.succeed 0) 0 rfl
  have hstart : RunWhen (InitStep .wholeDevice) (FirstOrReady .wholeDevice) numberedHelpers []
    numberedHelpers := .refl
  have hone := hstart.snoc nofun hfirst
  have hready := ((ready_run_iff hworld).mp hone).last_good _ rfl rfl
  have htwo := fun hcond => hone.snoc hcond hsecond
  exact ⟨_, _, (ready_run_iff hworld).mp (htwo fun _ => hready), rfl, rfl⟩

/-- The second helper returns 0 without its device or file system having been touched. -/
theorem not_ready_second_helper : ∃ labels w',
    Run (InitStep .wholeDevice) numberedHelpers labels w' ∧
    labels.map (·.helper) = [0, 1] ∧ labels.map (·.status) = [0, 0] ∧
    ¬ReadyWhenZero .wholeDevice labels w' := by
  have hfirst := initStep_succeed numberedHelpers 0 rfl
  have hsecond := initStep_succeed (numberedHelpers.succeed 0) 1 rfl
  refine ⟨_, _, (Run.single hfirst).snoc hsecond, rfl, rfl, fun h => ?_⟩
  exact absurd ((h _ rfl rfl).initialised (.given 1) rfl) (by decide)

end SimpleCloudClient
