import SimpleCloudClient.Library.Monitor
import Mathlib.Algebra.Ring.Nat

/-!
# Storage: devices, file systems and the calls on them

A block device or file system is one that the application passed in, or one that a helper
created for a partition. A helper creates these only while its pointer is NULL and never clears
the pointer, so there is at most one per helper and partition. All results are arbitrary.
-/
namespace SimpleCloudClient
open Procedure

/-- The configured partitions. -/
inductive Slot where
  | primary
  | secondary
  deriving DecidableEq, Repr

instance {p : Slot → Prop} [DecidablePred p] : Decidable (∀ slot, p slot) :=
  decidable_of_iff (p .primary ∧ p .secondary)
    ⟨fun h slot => by cases slot; exacts [h.1, h.2], fun h => ⟨h _, h _⟩⟩

inductive BlockDevice where
  | given (id : Nat)
  | mbr (helper : Nat) (slot : Slot)
  deriving DecidableEq, Repr

inductive FileSystem where
  | given (id : Nat)
  | fat (helper : Nat) (slot : Slot)
  deriving DecidableEq, Repr

/-- The operations that return a status. -/
inductive StatusCall where
  | bdInit (bd : BlockDevice)
  | bdDeinit (bd : BlockDevice)
  | bdErase (bd : BlockDevice) (addr size : UInt64)
  | mount (fs : FileSystem) (bd : Option BlockDevice)
  | unmount (fs : FileSystem)
  | reformat (fs : FileSystem) (bd : Option BlockDevice)
  | partition (bd : BlockDevice) (number : Int32) (type : UInt8) (start stop : UInt64)
  | fccInit
  | fccFinalize
  | fccEntropySet
  | fccRotSet
  | fccStorageDelete
  | fccDeveloperFlow
  | fccVerifyDeviceConfigured4mbedCloud
  deriving DecidableEq, Repr

/-- The constructors of a partition's device and file system, and the return of `sotp_init`. -/
inductive StorageNote where
  | newMBRBlockDevice (part bd : BlockDevice) (number : Int32)
  | newFATFileSystem (fs : FileSystem) (mountPoint : List UInt8) (part : BlockDevice)
  | sotpInit (status : Int)
  deriving DecidableEq, Repr

inductive StorageCall where
  | status (call : StatusCall)
  | size (bd : BlockDevice)
  | createMutex
  | note (note : StorageNote)
  deriving DecidableEq, Repr

def StorageCall.Reply : StorageCall → Type
  | .status _ => Int
  | .size _ => UInt64
  | .createMutex => Bool
  | .note _ => Unit

instance StorageCall.inhabitedReply : ∀ c : StorageCall, Inhabited c.Reply
  | .status _ => inferInstanceAs (Inhabited Int)
  | .size _ => inferInstanceAs (Inhabited UInt64)
  | .createMutex => inferInstanceAs (Inhabited Bool)
  | .note _ => inferInstanceAs (Inhabited Unit)

abbrev StorageEvent := Event StorageCall.Reply

inductive StorageFault where
  | nullPointer
  | assertion
  deriving DecidableEq, Repr

/-- The type of a sum of two macros that are not negative: `int`, `unsigned int`, or a type of 64
bits. The default macros are `int`. -/
inductive MacroType where
  | int
  | unsigned
  | wide
  deriving DecidableEq, Repr

namespace MacroType

/-- No value of the type reaches the bound. -/
def bound : MacroType → Nat
  | .int => 2 ^ 31
  | .unsigned => 2 ^ 32
  | .wide => 2 ^ 64

/-- The sum, passed on as a `uint64_t`. The overflow of an `int` is undefined; the sum is taken to
wrap, and a negative one is sign-extended. -/
def add : MacroType → UInt64 → UInt64 → UInt64
  | .int, x, y => (x.toUInt32.toInt32 + y.toUInt32.toInt32).toInt64.toUInt64
  | .unsigned, x, y => (x.toUInt32 + y.toUInt32).toUInt64
  | .wide, x, y => x + y

variable {x y : UInt64}

theorem toNat_signExtend (x : UInt32) : x.toInt32.toInt64.toUInt64.toNat =
    x.toNat + if x.toNat < 2 ^ 31 then 0 else 2 ^ 64 - 2 ^ 32 := by
  have hx := x.toNat_lt
  have hmsb : x.toBitVec.msb = decide (2 ^ 31 ≤ x.toNat) := BitVec.msb_eq_decide _
  calc (x.toBitVec.signExtend 64).toNat
      = x.toNat % 2 ^ 64 + if x.toBitVec.msb then 2 ^ 64 - 2 ^ 32 else 0 := by
        rw [BitVec.toNat_signExtend, BitVec.toNat_setWidth]
        rfl
    _ = _ := by
        rw [hmsb, Nat.mod_eq_of_lt (by omega)]
        by_cases h : x.toNat < 2 ^ 31
        · rw [if_pos h, decide_eq_false (Nat.not_le.mpr h)]
          rfl
        · rw [if_neg h, decide_eq_true (Nat.not_lt.mp h)]
          rfl

theorem toNat_add_int (hx : x.toNat < bound .int) (hy : y.toNat < bound .int) :
    (add .int x y).toNat = x.toNat + y.toNat +
      if x.toNat + y.toNat < 2 ^ 31 then 0 else 2 ^ 64 - 2 ^ 32 := by
  simp only [bound] at hx hy
  have hsum : (x.toUInt32 + y.toUInt32).toNat = x.toNat + y.toNat := by
    simp only [UInt32.toNat_add, UInt64.toNat_toUInt32]
    omega
  exact hsum ▸ toNat_signExtend (x.toUInt32 + y.toUInt32)

/-- A sum below the bound is the sum of the integers. -/
theorem toNat_add (type : MacroType) (h : x.toNat + y.toNat < type.bound) :
    (type.add x y).toNat = x.toNat + y.toNat := by
  cases type with
  | int =>
    simp only [bound] at h
    rw [toNat_add_int (by simp only [bound]; omega) (by simp only [bound]; omega), if_pos h]
    rfl
  | unsigned =>
    simp only [bound] at h
    simp only [add, UInt32.toNat_toUInt64, UInt32.toNat_add, UInt64.toNat_toUInt32]
    omega
  | wide =>
    simp only [bound] at h
    simp only [add, UInt64.toNat_add]
    omega

example : add .int 0x40000000 0x40000000 = 0xFFFFFFFF80000000 := by decide

end MacroType

/-- One `PRIMARY_PARTITION_` or `SECONDARY_PARTITION_` group of macros. -/
structure PartitionConfig where
  number : Int32
  start : UInt64
  size : UInt64
  mountPoint : List UInt8

/-- The macros that select code, and the status codes of the FCC. `FCC_STATUS_SUCCESS` is 0. -/
structure StorageConfig where
  partitionMode : Bool
  autoPartition : Bool
  numberOfPartitions : Nat
  /-- More than two are an `#error`. -/
  atMostTwo : numberOfPartitions ≤ 2
  primary : PartitionConfig
  secondary : PartitionConfig
  /-- In this type `PRIMARY_PARTITION_START + PRIMARY_PARTITION_SIZE` is computed. -/
  primaryType : MacroType
  primaryMacros : primary.start.toNat < primaryType.bound ∧ primary.size.toNat < primaryType.bound
  /-- `NDEBUG` is not defined. -/
  asserts : Bool
  developerMode : Bool
  palUserDefined : Bool
  palUseHwTrng : Bool
  resetStorage : Bool
  formatOnError : Bool
  entropyError : Int
  rotError : Int
  kcmFileExistError : Int

def StorageConfig.partition (cfg : StorageConfig) : Slot → PartitionConfig
  | .primary => cfg.primary
  | .secondary => cfg.secondary

/-- `FCC_STATUS_SUCCESS`. -/
def fccStatusSuccess : Int := 0

structure StorageHelper where
  id : Nat
  bd : Option BlockDevice
  fs : Option FileSystem
  fs1 : Option FileSystem := none
  fs2 : Option FileSystem := none
  part1 : Option BlockDevice := none
  part2 : Option BlockDevice := none
  /-- `mcc_platform_storage_size`, not initialised by the constructor. -/
  storageSize : UInt64
  deriving DecidableEq

/-- The constructor, in memory that holds `memory` where the size will be. -/
def StorageHelper.construct (id : Nat) (bd : Option Nat) (fs : Option Nat) (memory : UInt64) :
    StorageHelper where
  id
  bd := bd.map .given
  fs := fs.map .given
  storageSize := memory

/-- `initDone` is the static variable of `init`, shared by all helpers. -/
structure StorageState where
  initDone : Bool := false
  self : StorageHelper
  deriving DecidableEq

abbrev StorageM := Proc StorageState StorageCall StorageCall.Reply StorageFault

def ask (call : StatusCall) : StorageM Int := perform (StorageCall.status call)
def sizeOf (bd : BlockDevice) : StorageM UInt64 := perform (StorageCall.size bd)
def createMutex : StorageM Bool := perform StorageCall.createMutex
def note (note : StorageNote) : StorageM Unit := perform (StorageCall.note note)

def modifySelf (f : StorageHelper → StorageHelper) : StorageM Unit :=
  update fun s => { s with self := f s.self }

namespace StorageHelper

def fsAt (h : StorageHelper) : Slot → Option FileSystem
  | .primary => h.fs1
  | .secondary => h.fs2

def partAt (h : StorageHelper) : Slot → Option BlockDevice
  | .primary => h.part1
  | .secondary => h.part2

def setFs (h : StorageHelper) (fs : FileSystem) : Slot → StorageHelper
  | .primary => { h with fs1 := some fs }
  | .secondary => { h with fs2 := some fs }

def setPart (h : StorageHelper) (part : BlockDevice) : Slot → StorageHelper
  | .primary => { h with part1 := some part }
  | .secondary => { h with part2 := some part }

def setStorageSize (h : StorageHelper) (size : UInt64) : StorageHelper :=
  { h with storageSize := size }

variable {h : StorageHelper} {fs : FileSystem} {part : BlockDevice} {slot slot' : Slot}
variable {size : UInt64}

@[simp] theorem fsAt_setFs :
    (h.setFs fs slot).fsAt slot' = if slot' = slot then some fs else h.fsAt slot' := by
  cases slot <;> cases slot' <;> rfl

@[simp] theorem partAt_setPart :
    (h.setPart part slot).partAt slot' = if slot' = slot then some part else h.partAt slot' := by
  cases slot <;> cases slot' <;> rfl

@[simp] theorem partAt_setFs : (h.setFs fs slot).partAt slot' = h.partAt slot' := by
  cases slot <;> cases slot' <;> rfl

@[simp] theorem fsAt_setPart : (h.setPart part slot).fsAt slot' = h.fsAt slot' := by
  cases slot <;> cases slot' <;> rfl

@[simp] theorem fsAt_setStorageSize : (h.setStorageSize size).fsAt slot = h.fsAt slot := by
  cases slot <;> rfl

@[simp] theorem partAt_setStorageSize : (h.setStorageSize size).partAt slot = h.partAt slot := by
  cases slot <;> rfl

@[simp] theorem id_setStorageSize : (h.setStorageSize size).id = h.id := rfl
@[simp] theorem bd_setStorageSize : (h.setStorageSize size).bd = h.bd := rfl
@[simp] theorem bd_setFs : (h.setFs fs slot).bd = h.bd := by cases slot <;> rfl
@[simp] theorem bd_setPart : (h.setPart part slot).bd = h.bd := by cases slot <;> rfl
@[simp] theorem id_setFs : (h.setFs fs slot).id = h.id := by cases slot <;> rfl
@[simp] theorem id_setPart : (h.setPart part slot).id = h.id := by cases slot <;> rfl

@[simp] theorem storageSize_setFs : (h.setFs fs slot).storageSize = h.storageSize := by
  cases slot <;> rfl

@[simp] theorem storageSize_setPart : (h.setPart part slot).storageSize = h.storageSize := by
  cases slot <;> rfl

end StorageHelper

/-! ## Rules of the calls -/

section
variable {M : Type*} {A : Type} {μ : Monitor StorageEvent M} {s : StorageState} {m : M}
variable {Q : Except StorageFault A → StorageState → M → Prop}

@[simp] theorem wp_ask_bind {call : StatusCall} {next : Int → StorageM A} :
    wp μ (ask call >>= next) Q s m ↔ ∀ status : Int, μ.safe m ⟨.status call, status⟩ ∧
      wp μ (next status) Q s (μ.next m ⟨.status call, status⟩) := Iff.rfl

@[simp] theorem wp_ask {call : StatusCall}
    {Q : Except StorageFault Int → StorageState → M → Prop} :
    wp μ (ask call) Q s m ↔ ∀ status : Int, μ.safe m ⟨.status call, status⟩ ∧
      Q (.ok status) s (μ.next m ⟨.status call, status⟩) := Iff.rfl

@[simp] theorem wp_sizeOf_bind {bd : BlockDevice} {next : UInt64 → StorageM A} :
    wp μ (sizeOf bd >>= next) Q s m ↔ ∀ size : UInt64, μ.safe m ⟨.size bd, size⟩ ∧
      wp μ (next size) Q s (μ.next m ⟨.size bd, size⟩) := Iff.rfl

@[simp] theorem wp_createMutex_bind {next : Bool → StorageM A} :
    wp μ (createMutex >>= next) Q s m ↔ ∀ created : Bool, μ.safe m ⟨.createMutex, created⟩ ∧
      wp μ (next created) Q s (μ.next m ⟨.createMutex, created⟩) := Iff.rfl

@[simp] theorem wp_note_bind {n : StorageNote} {next : Unit → StorageM A} :
    wp μ (note n >>= next) Q s m ↔ μ.safe m ⟨.note n, ()⟩ ∧
      wp μ (next ()) Q s (μ.next m ⟨.note n, ()⟩) :=
  ⟨fun h => h (), fun h _ => h⟩

theorem calls_ask {ok : StorageCall → Prop} {call : StatusCall} (h : ok (.status call)) :
    Calls ok (ask call) := .perform h

theorem calls_sizeOf {ok : StorageCall → Prop} {bd : BlockDevice} (h : ok (.size bd)) :
    Calls ok (sizeOf bd) := .perform h

theorem calls_note {ok : StorageCall → Prop} {n : StorageNote} (h : ok (.note n)) :
    Calls ok (note n) := .perform h

@[simp] theorem wp_modifySelf_bind {f : StorageHelper → StorageHelper} {next : Unit → StorageM A} :
    wp μ (modifySelf f >>= next) Q s m ↔ wp μ (next ()) Q { s with self := f s.self } m := Iff.rfl

end

end SimpleCloudClient
