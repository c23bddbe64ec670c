import SimpleCloudClient.Storage.Helper

/-!
# The ranges of the partitions

`create_partitions` compares the sizes of the partitions with the size of the device and hands
ranges that begin at the start addresses to `MBRBlockDevice::partition`. The default start of the
secondary partition is the size of the primary one, wherever that starts.
-/
namespace SimpleCloudClient
open Procedure StorageHelper

/-- The addresses from `start` on, below `stop`. -/
structure AddressRange where
  start : UInt64
  stop : UInt64
  deriving DecidableEq, Repr

namespace AddressRange

/-- The range begins and ends on a device of this size. -/
def Inside (r : AddressRange) (size : UInt64) : Prop := r.start ≤ r.stop ∧ r.stop ≤ size

def Contains (r : AddressRange) (address : UInt64) : Prop := r.start ≤ address ∧ address < r.stop

def Apart (r r' : AddressRange) : Prop := ∀ address, ¬(r.Contains address ∧ r'.Contains address)

instance (r : AddressRange) (size : UInt64) : Decidable (r.Inside size) :=
  inferInstanceAs (Decidable (_ ∧ _))

variable {r r' : AddressRange}

/-- Two ranges have an address in common exactly if the larger start is one. -/
theorem apart_iff : r.Apart r' ↔
    ¬(r.start < r.stop ∧ r'.start < r'.stop ∧ r.start < r'.stop ∧ r'.start < r.stop) := by
  simp only [Apart, Contains, UInt64.lt_iff_toNat_lt, UInt64.le_iff_toNat_le]
  constructor
  · intro h hcommon
    by_cases hfirst : r.start.toNat ≤ r'.start.toNat
    · exact h r'.start (by omega)
    · exact h r.start (by omega)
  · intro h address hboth
    omega

theorem inside_add (start size device : UInt64) :
    (⟨start, start + size⟩ : AddressRange).Inside device ↔
      start.toNat + size.toNat ≤ device.toNat := by
  have hstart := start.toNat_lt
  have hsize := size.toNat_lt
  have hdevice := device.toNat_lt
  simp only [Inside, UInt64.le_iff_toNat_le, UInt64.toNat_add]
  omega

/-- A sum that its type cannot hold ends before the range begins, except that of an `int`, which
ends near the largest address. -/
theorem inside_macros (type : MacroType) {start size : UInt64} (device : UInt64)
    (hstart : start.toNat < type.bound) (hsize : size.toNat < type.bound) :
    (⟨start, type.add start size⟩ : AddressRange).Inside device ↔
      start.toNat + size.toNat ≤ device.toNat ∧ (start.toNat + size.toNat < type.bound ∨
        type = .int ∧ start.toNat + size.toNat + (2 ^ 64 - 2 ^ 32) ≤ device.toNat) := by
  have hdevice := device.toNat_lt
  cases type with
  | int =>
    rw [Inside, UInt64.le_iff_toNat_le, UInt64.le_iff_toNat_le,
      MacroType.toNat_add_int hstart hsize]
    simp only [MacroType.bound, true_and] at *
    split <;> omega
  | unsigned =>
    simp only [MacroType.bound, MacroType.add, Inside, UInt64.le_iff_toNat_le,
      UInt32.toNat_toUInt64, UInt32.toNat_add, UInt64.toNat_toUInt32, reduceCtorEq, false_and,
      or_false] at *
    omega
  | wide =>
    rw [MacroType.add, inside_add]
    simp only [MacroType.bound, reduceCtorEq, false_and, or_false]
    omega

end AddressRange

/-- What `create_partitions` hands to `MBRBlockDevice::partition` for the partition. -/
def rangeFor (cfg : StorageConfig) (slot : Slot) : AddressRange :=
  ⟨(cfg.partition slot).start, partitionStop cfg slot⟩

def handed : StatusCall → Option AddressRange
  | .partition _ _ _ start stop => some ⟨start, stop⟩
  | _ => none

/-- The range of an event that creates a partition. -/
def rangeOf : StorageEvent → Option AddressRange
  | ⟨.status call, _⟩ => handed call
  | _ => none

/-- The ranges on a device of this size are what they should be; the start of the secondary
partition is the default if it is the size of the primary one. -/
structure RangesFit (cfg : StorageConfig) (device : UInt64) (ranges : List AddressRange) :
    Prop where
  inside : ∀ r ∈ ranges, r.Inside device
  apart : cfg.numberOfPartitions = 2 → cfg.secondary.start = cfg.primary.size →
    ranges.Pairwise AddressRange.Apart

/-- This is so whenever no check stops `create_partitions`. -/
def CreatesFitting (cfg : StorageConfig) (device : UInt64) : Prop :=
  ∀ s tr o t, s.self.storageSize = device → Exec (createPartitions cfg) s tr o t →
    o ≠ .error .assertion → RangesFit cfg device (tr.filterMap rangeOf)

/-- A check stops `create_partitions`. -/
def TooSmall (cfg : StorageConfig) (device : UInt64) (slot : Slot) : Prop :=
  device < requiredSize cfg slot ∧ cfg.asserts = true

instance (cfg : StorageConfig) (device : UInt64) (slot : Slot) :
    Decidable (TooSmall cfg device slot) := inferInstanceAs (Decidable (_ ∧ _))

/-- The type of the macros holds the sum. Where it is `int` and does not, the end that is passed on
lies on no device but the largest. -/
structure PrimaryFits (cfg : StorageConfig) (device : UInt64) : Prop where
  ends : cfg.primary.start.toNat + cfg.primary.size.toNat ≤ device.toNat
  held : cfg.primary.start.toNat + cfg.primary.size.toNat < cfg.primaryType.bound ∨
    cfg.primaryType = .int ∧
      cfg.primary.start.toNat + cfg.primary.size.toNat + (2 ^ 64 - 2 ^ 32) ≤ device.toNat

/-- With the default start of the secondary partition, the primary one has to begin at 0 or behind
the secondary one, unless one of them is empty. -/
structure SecondaryFits (cfg : StorageConfig) (device : UInt64) : Prop where
  ends : cfg.secondary.start.toNat + cfg.secondary.size.toNat ≤ device.toNat
  apart : cfg.secondary.start = cfg.primary.size →
    cfg.primary.start = 0 ∨ cfg.primary.size = 0 ∨ cfg.secondary.size = 0 ∨
      cfg.primary.size.toNat + cfg.secondary.size.toNat ≤ cfg.primary.start.toNat

variable {cfg : StorageConfig} {device : UInt64}

theorem inside_primary_iff : (rangeFor cfg .primary).Inside device ↔ PrimaryFits cfg device :=
  (AddressRange.inside_macros cfg.primaryType device cfg.primaryMacros.1
    cfg.primaryMacros.2).trans ⟨fun h => ⟨h.1, h.2⟩, fun h => ⟨h.ends, h.held⟩⟩

theorem inside_secondary_iff : (rangeFor cfg .secondary).Inside device ↔
    cfg.secondary.start.toNat + cfg.secondary.size.toNat ≤ device.toNat :=
  AddressRange.inside_add cfg.secondary.start cfg.secondary.size device

/-- The range ends at the sum or, where an `int` does not hold it, behind. -/
theorem stop_primary (h : PrimaryFits cfg device) :
    (rangeFor cfg .primary).stop.toNat = cfg.primary.start.toNat + cfg.primary.size.toNat ∨
      cfg.primary.start.toNat + cfg.primary.size.toNat < (rangeFor cfg .primary).stop.toNat ∧
        0 < cfg.primary.start.toNat ∧ 0 < cfg.primary.size.toNat := by
  obtain hheld | ⟨hint, -⟩ := h.held
  · exact .inl (cfg.primaryType.toNat_add hheld)
  · obtain ⟨hstart, hsize⟩ := cfg.primaryMacros
    rw [hint] at hstart hsize
    have hstop : (rangeFor cfg .primary).stop.toNat = _ :=
      hint ▸ MacroType.toNat_add_int hstart hsize
    simp only [MacroType.bound] at hstart hsize
    rw [hstop]
    split <;> omega

theorem stop_secondary (h : cfg.secondary.start.toNat + cfg.secondary.size.toNat ≤ device.toNat) :
    (rangeFor cfg .secondary).stop.toNat =
      cfg.secondary.start.toNat + cfg.secondary.size.toNat := by
  have hdevice := device.toNat_lt
  simp only [rangeFor, partitionStop, UInt64.toNat_add]
  omega

/-- Where the primary partition begins decides whether it meets a secondary one that begins at
its size. -/
theorem apart_iff_start (hdefault : cfg.secondary.start = cfg.primary.size)
    (hprimary : PrimaryFits cfg device)
    (hsecondary : cfg.secondary.start.toNat + cfg.secondary.size.toNat ≤ device.toNat) :
    (rangeFor cfg .primary).Apart (rangeFor cfg .secondary) ↔
      cfg.primary.start = 0 ∨ cfg.primary.size = 0 ∨ cfg.secondary.size = 0 ∨
        cfg.primary.size.toNat + cfg.secondary.size.toNat ≤ cfg.primary.start.toNat := by
  have hfirst := stop_primary hprimary
  have hsecond := stop_secondary hsecondary
  have hzero : ∀ x : UInt64, x = 0 ↔ x.toNat = 0 := fun x => by
    rw [← UInt64.toNat_inj, UInt64.toNat_zero]
  rw [AddressRange.apart_iff, hzero, hzero, hzero]
  simp only [UInt64.lt_iff_toNat_lt, hsecond]
  simp only [rangeFor, StorageConfig.partition, hdefault] at hfirst ⊢
  omega

theorem rangesFit_primary : RangesFit cfg device [rangeFor cfg .primary] ↔
    PrimaryFits cfg device := by
  rw [← inside_primary_iff]
  constructor
  · intro h
    exact h.inside _ (List.mem_singleton.mpr rfl)
  · intro h
    exact ⟨by simpa using h, fun _ _ => List.pairwise_singleton _ _⟩

theorem rangesFit_both (htwo : cfg.numberOfPartitions = 2) :
    RangesFit cfg device [rangeFor cfg .primary, rangeFor cfg .secondary] ↔
      PrimaryFits cfg device ∧ SecondaryFits cfg device := by
  constructor
  · intro h
    have hprimary := inside_primary_iff.mp (h.inside (rangeFor cfg .primary) (by simp))
    have hsecondary := inside_secondary_iff.mp (h.inside (rangeFor cfg .secondary) (by simp))
    refine ⟨hprimary, hsecondary, fun hdefault => ?_⟩
    have hapart := h.apart htwo hdefault
    exact (apart_iff_start hdefault hprimary hsecondary).mp (by simpa using hapart)
  · rintro ⟨hprimary, hsecondary⟩
    have hfirst := inside_primary_iff.mpr hprimary
    have hlast := inside_secondary_iff.mpr hsecondary.ends
    refine ⟨by simp [hfirst, hlast], fun _ hdefault => ?_⟩
    have hapart := (apart_iff_start hdefault hprimary hsecondary.ends).mpr
      (hsecondary.apart hdefault)
    simpa using hapart

/-! ## create_partitions -/

/-- The ranges handed out so far. -/
def handedOut : Monitor StorageEvent (List AddressRange) where
  next ranges e := ranges ++ (rangeOf e).toList

variable {s : StorageState} {ranges : List AddressRange} {slot : Slot}

theorem after_handedOut {tr : List StorageEvent} :
    handedOut.after ranges tr = ranges ++ tr.filterMap rangeOf := by
  induction tr generalizing ranges with
  | nil => simp
  | cons e tr ih =>
    rw [Monitor.after_cons, ih]
    cases hrange : rangeOf e <;> simp [handedOut, hrange]

/-- A call that creates no partition and asks for no size. -/
def Mounting : StorageCall → Prop
  | .status (.partition ..) | .size _ => False
  | _ => True

theorem frame_of_mounting {call : StorageCall} (r : call.Reply) (h : Mounting call) :
    handedOut.safe ranges ⟨call, r⟩ ∧ handedOut.next ranges ⟨call, r⟩ = ranges := by
  cases call with
  | status call => cases call <;> first | exact h.elim | simp [handedOut, rangeOf, handed]
  | _ => simp [handedOut, rangeOf]

theorem mounting_testFilesystem {fs : Option FileSystem} {part : Option BlockDevice} :
    Calls Mounting (testFilesystem fs part) :=
  Calls.deref.bind fun _ => (calls_ask trivial).bind fun _ => (calls_ask trivial).bind fun _ =>
    .ite trivial trivial

theorem mounting_reformatPartition {fs : Option FileSystem} {part : Option BlockDevice} :
    Calls Mounting (reformatPartition fs part) :=
  Calls.deref.bind fun _ => calls_ask trivial

theorem mounting_initAndMountPartition : Calls Mounting (initAndMountPartition cfg slot) := by
  have hinit : ∀ {part}, Calls Mounting (initPart part) :=
    (calls_ask trivial).bind fun _ => .ite ((calls_ask trivial).bind fun _ => trivial) trivial
  have hobtain : Calls Mounting (obtainPart cfg slot) := by
    refine Calls.get_bind fun s => ?_
    split
    · exact trivial
    · exact Calls.get_bind fun _ => Calls.deref.bind fun _ => (calls_note trivial).bind fun _ =>
        trivial
  have hnew : Calls Mounting (mountNew cfg slot) :=
    hobtain.bind fun _ => hinit.bind fun _ => .ite trivial <| Calls.get_bind fun _ =>
      (calls_note trivial).bind fun _ => trivial
  have hreinit : Calls Mounting (reinit slot) := Calls.get_bind fun _ => Calls.deref.bind fun _ =>
    hinit.bind fun _ => .ite trivial mounting_reformatPartition
  have hmount : Calls Mounting (mountOrReinit cfg slot) :=
    Calls.get_bind fun _ => .ite hnew hreinit
  exact hmount.bind fun _ => .ite trivial <| Calls.get_bind fun _ =>
    mounting_testFilesystem.bind fun _ => .ite mounting_reformatPartition trivial

/-- The device of a helper, and its size. -/
def deviceOf (s : StorageState) : Option BlockDevice × UInt64 := (s.self.bd, s.self.storageSize)

theorem keeps_deviceOf : Keeps deviceOf (initAndMountPartition cfg slot) :=
  keeps_initAndMountPartition (fun _ _ => by simp [deviceOf]) fun _ _ => by simp [deviceOf]

/-- How one half of `create_partitions` ends: a check stops it, there is no device, or it has handed
out its range. -/
def Creation (cfg : StorageConfig) (slot : Slot) (s : StorageState) (ranges : List AddressRange)
    (o : Except StorageFault Int) (s' : StorageState) (ranges' : List AddressRange) : Prop :=
  deviceOf s' = deviceOf s ∧
    (o = .error .assertion ∨ o = .error .nullPointer ∧ ranges' = ranges ∨
      ¬TooSmall cfg s.self.storageSize slot ∧ ranges' = ranges ++ [rangeFor cfg slot])

theorem wp_creation : wp handedOut (createPartition cfg slot)
    (fun o s' ranges' => Creation cfg slot s ranges o s' ranges') s ranges := by
  unfold createPartition
  rw [wp_bind, wp_checkSize]
  split
  · exact ⟨rfl, .inl rfl⟩
  · rename_i hcheck
    dsimp only
    rw [wp_get_bind, wp_deref_bind]
    cases s.self.bd with
    | none => exact ⟨rfl, .inr (.inl ⟨rfl, rfl⟩)⟩
    | some bd =>
      refine wp_ask_bind.mpr fun status => ⟨trivial, ?_⟩
      rw [wp_ite]
      split
      · exact ⟨rfl, .inr (.inr ⟨hcheck, rfl⟩)⟩
      · have hquiet : wp handedOut (initAndMountPartition cfg slot)
            (fun _ _ ranges' => ranges' = ranges ++ [rangeFor cfg slot]) s
            (ranges ++ [rangeFor cfg slot]) :=
          mounting_initAndMountPartition.frame fun _ _ r hcall => frame_of_mounting r hcall
        refine wp_mono (wp_and hquiet fun _ _ _ hx => keeps_deviceOf.exec hx) ?_
        rintro o s' ranges' ⟨hranges, hsize⟩
        exact ⟨hsize, .inr (.inr ⟨hcheck, hranges⟩)⟩

/-- The settings with which all ranges are what they should be. -/
def SettingsFit (cfg : StorageConfig) (device : UInt64) : Prop :=
  TooSmall cfg device .primary ∨ PrimaryFits cfg device ∧
    (cfg.numberOfPartitions = 2 → TooSmall cfg device .secondary ∨ SecondaryFits cfg device)

theorem wp_createPartitions_fitting (hfits : SettingsFit cfg s.self.storageSize) :
    wp handedOut (createPartitions cfg) (fun o _ ranges => o ≠ .error .assertion →
      RangesFit cfg s.self.storageSize ranges) s [] := by
  have hnone : RangesFit cfg s.self.storageSize [] := ⟨nofun, fun _ _ => .nil⟩
  have hone : ¬TooSmall cfg s.self.storageSize .primary →
      RangesFit cfg s.self.storageSize [rangeFor cfg .primary] := fun hcheck =>
    rangesFit_primary.mpr (hfits.resolve_left hcheck).1
  refine wp_seq wp_creation (fun status t ranges h => ?_) fun fault t ranges h => ?_
  · obtain ⟨hsize, hstopped | ⟨hnull, -⟩ | ⟨hcheck, rfl⟩⟩ := h
    · exact nomatch hstopped
    · exact nomatch hnull
    · rw [wp_ite]
      split
      · exact fun _ => hone hcheck
      · refine wp_if (fun htwo => ?_) fun _ => ?_
        · refine wp_mono wp_creation ?_
          rintro o t' ranges ⟨-, rfl | ⟨-, rfl⟩ | ⟨hsecond, rfl⟩⟩ hgood
          · exact absurd rfl hgood
          · exact hone hcheck
          · have hsame : t.self.storageSize = s.self.storageSize := congrArg Prod.snd hsize
            obtain ⟨hprimary, hsecondary⟩ := hfits.resolve_left hcheck
            exact (rangesFit_both htwo).mpr
              ⟨hprimary, (hsecondary htwo).resolve_left (hsame ▸ hsecond)⟩
        · exact fun _ => hone hcheck
  · obtain ⟨-, hstopped | ⟨-, rfl⟩ | ⟨hcheck, rfl⟩⟩ := h
    · exact fun hgood => absurd hstopped hgood
    · exact fun _ => hnone
    · exact fun _ => hone hcheck

/-! ## Results that lead to each range -/

section
variable {Q : Except StorageFault Int → StorageState → List AddressRange → Prop}
variable {bd : BlockDevice}

/-- What follows the call that creates the partition. -/
theorem follow_creation (h : wp handedOut (createPartition cfg slot) Q s ranges)
    (hbd : s.self.bd = some bd) (hcheck : ¬TooSmall cfg s.self.storageSize slot) (status : Int) :
    wp handedOut (if status ≠ 0 then pure status else initAndMountPartition cfg slot) Q s
      (ranges ++ [rangeFor cfg slot]) := by
  have hpassed := wp_checkSize.mp (wp_bind.mp h)
  rw [if_neg (show ¬(_ ∧ _) from hcheck)] at hpassed
  dsimp only at hpassed
  rw [wp_get_bind, wp_deref_bind, hbd] at hpassed
  exact (wp_ask_bind.mp hpassed status).2

end

/-- A helper that has created nothing, on a device of this size. -/
def emptyHelper (device : UInt64) : StorageState := ⟨false, .construct 0 (some 0) (some 0) device⟩

theorem wp_of_creates (h : CreatesFitting cfg device) : wp handedOut (createPartitions cfg)
    (fun o _ ranges => o ≠ .error .assertion → RangesFit cfg device ranges)
    (emptyHelper device) [] :=
  wp_iff.mpr fun tr o t hx =>
    ⟨Monitor.allAt_forall.mpr fun _ _ => trivial, after_handedOut ▸ h _ tr o t rfl hx⟩

theorem primaryFits_of_creates (h : CreatesFitting cfg device)
    (hcheck : ¬TooSmall cfg device .primary) : PrimaryFits cfg device := by
  have hfirst := follow_creation (wp_bind.mp (wp_of_creates h)) rfl hcheck 1
  rw [wp_ite, if_pos (by decide), wp_pure] at hfirst
  dsimp only at hfirst
  rw [wp_ite, if_pos (by decide)] at hfirst
  exact rangesFit_primary.mp (hfirst nofun)

theorem secondaryFits_of_creates (h : CreatesFitting cfg device)
    (htwo : cfg.numberOfPartitions = 2) (hcheck : ¬TooSmall cfg device .primary)
    (hsecond : ¬TooSmall cfg device .secondary) : SecondaryFits cfg device := by
  have hfirst := follow_creation (wp_bind.mp (wp_of_creates h)) rfl hcheck 0
  rw [wp_ite, if_neg (by decide)] at hfirst
  -- the primary partition is mounted, so that the secondary one is created
  have hmount : Exec (initAndMountPartition cfg .primary) (emptyHelper device) _ (.ok 0) _ :=
    exec_of_run allSucceed rfl
  have hnext := (wp_sound hfirst hmount).2
  dsimp only at hnext
  rw [wp_ite, if_neg (by decide), wp_ite, if_pos htwo] at hnext
  have hlast := follow_creation hnext rfl hsecond 1
  rw [wp_ite, if_pos (by decide), wp_pure] at hlast
  exact ((rangesFit_both htwo).mp (hlast nofun)).2

/-- On a device of any size, no range goes beyond the device or into the other one exactly if the
settings fit. -/
theorem createsFitting_iff : CreatesFitting cfg device ↔ SettingsFit cfg device := by
  constructor
  · intro h
    by_cases hcheck : TooSmall cfg device .primary
    · exact .inl hcheck
    · refine .inr ⟨primaryFits_of_creates h hcheck, fun htwo => ?_⟩
      by_cases hsecond : TooSmall cfg device .secondary
      · exact .inl hsecond
      · exact .inr (secondaryFits_of_creates h htwo hcheck hsecond)
  · rintro hfits s tr o t rfl hx hgood
    have hranges := (wp_sound (wp_createPartitions_fitting hfits) hx).2 hgood
    rwa [after_handedOut] at hranges

/-! ## init -/

/-- The size that a device reported last. If the settings fit it, the ranges lie inside. -/
def reported (cfg : StorageConfig) : Monitor StorageEvent (Option UInt64) where
  next size
    | ⟨.size _, device⟩ => some device
    | _ => size
  safe size e := ∀ r, rangeOf e = some r →
    ∃ device, size = some device ∧ (SettingsFit cfg device → r.Inside device)

/-- The helper knows what its device reported. -/
def Knows (s : StorageState) (size : Option UInt64) : Prop :=
  s.self.bd = none ∨ size = some s.self.storageSize

variable {size : Option UInt64}

theorem Knows.congr {t : StorageState} (h : Knows s size) (hsame : deviceOf t = deviceOf s) :
    Knows t size := by
  obtain ⟨hbd, hsize⟩ := Prod.ext_iff.mp hsame
  exact h.imp (fun hnone => hbd.trans hnone) fun hsome => hsome.trans (congrArg some hsize.symm)

theorem reported_of_mounting {call : StorageCall} (r : call.Reply) (h : Mounting call) :
    (reported cfg).safe size ⟨call, r⟩ ∧ (reported cfg).next size ⟨call, r⟩ = size := by
  refine ⟨fun range hrange => ?_, ?_⟩ <;> cases call with
  | status call => cases call <;> first | exact h.elim | exact nomatch hrange | rfl
  | size => exact h.elim
  | _ => first | exact nomatch hrange | rfl

/-- Mounting keeps what the helper knows. -/
theorem wp_knows {A : Type} {p : StorageM A} (hcalls : Calls Mounting p)
    (hkeeps : Keeps deviceOf p) (hknows : Knows s size) :
    wp (reported cfg) p (Returns fun _ s' size' => deviceOf s' = deviceOf s ∧ Knows s' size')
      s size := by
  have hframe : wp (reported cfg) p (Returns fun _ _ size' => size' = size) s size :=
    hcalls.frame_returns fun _ _ r hcall => reported_of_mounting r hcall
  refine wp_returns_mono (wp_returns_and hframe fun _ _ _ hx => hkeeps.exec hx) ?_
  rintro _ s' _ ⟨rfl, hsame⟩
  exact ⟨hsame, hknows.congr hsame⟩

/-- A half of `create_partitions`, given that the range it hands out is as it should be. -/
theorem wp_knows_createPartition (hknows : Knows s size)
    (hinside : ¬TooSmall cfg s.self.storageSize slot → SettingsFit cfg s.self.storageSize →
      (rangeFor cfg slot).Inside s.self.storageSize) :
    wp (reported cfg) (createPartition cfg slot) (Returns fun _ s' size' =>
      deviceOf s' = deviceOf s ∧ Knows s' size' ∧ ¬TooSmall cfg s.self.storageSize slot)
      s size := by
  unfold createPartition
  rw [wp_bind, wp_checkSize]
  split
  · trivial
  · rename_i hcheck
    dsimp only
    rw [wp_get_bind, wp_deref_bind]
    cases hbd : s.self.bd with
    | none => trivial
    | some bd =>
      have hsize : size = some s.self.storageSize := hknows.resolve_left (by simp [hbd])
      refine wp_ask_bind.mpr fun status => ⟨fun range hrange => ?_, ?_⟩
      · obtain rfl := Option.some.inj hrange
        exact ⟨_, hsize, hinside hcheck⟩
      · rw [wp_ite]
        split
        · exact ⟨rfl, hknows, hcheck⟩
        · exact wp_returns_mono (wp_knows mounting_initAndMountPartition
            keeps_deviceOf hknows) fun _ _ _ h => ⟨h.1, h.2, hcheck⟩

theorem wp_knows_createPartitions (hknows : Knows s size) :
    wp (reported cfg) (createPartitions cfg) (Returns fun _ s' size' => Knows s' size') s size := by
  refine wp_then (wp_knows_createPartition hknows fun hcheck hfits =>
    inside_primary_iff.mpr (hfits.resolve_left hcheck).1) fun status t size₁ => ?_
  rintro ⟨hsame, hknows₁, hcheck⟩
  rw [wp_ite]
  split
  · exact hknows₁
  · refine wp_if (fun htwo => ?_) fun _ => ?_
    · have hdevice : t.self.storageSize = s.self.storageSize := congrArg Prod.snd hsame
      refine wp_returns_mono (wp_knows_createPartition hknows₁ fun hsecond hfits => ?_)
        fun _ _ _ h => h.2.1
      have hsecondary := (hfits.resolve_left (hdevice ▸ hcheck)).2 htwo
      exact inside_secondary_iff.mpr (hsecondary.resolve_left hsecond).ends
    · exact hknows₁

theorem wp_knows_mountPartitions (hknows : Knows s size) :
    wp (reported cfg) (mountPartitions cfg) (Returns fun _ _ _ => True) s size := by
  have hslot : ∀ {slot} {s : StorageState} {size : Option UInt64}, Knows s size →
      wp (reported cfg) (mountOrCreate cfg slot) (Returns fun _ s' size' => Knows s' size')
        s size := by
    intro slot s size hknows
    refine wp_then (wp_knows mounting_initAndMountPartition keeps_deviceOf hknows)
      fun status t size₁ h => ?_
    rw [wp_ite]
    split
    · exact wp_knows_createPartitions h.2
    · exact h.2
  exact wp_mountPartitions_returns (hslot hknows) fun _ _ hknows₁ =>
    wp_returns_mono (hslot hknows₁) fun _ _ _ _ => trivial

/-- With partitions the size that is reported is stored. -/
theorem wp_knows_initDevice : wp (reported cfg) (initDevice cfg) (Returns fun status s' size' =>
    status = 0 → cfg.partitionMode = true → Knows s' size') s size := by
  unfold initDevice
  rw [wp_get_bind]
  cases hbd : s.self.bd with
  | none => exact fun _ _ => .inl hbd
  | some bd =>
    refine wp_ask_bind.mpr fun status => ⟨nofun, ?_⟩
    rw [wp_ite]
    split
    · exact fun hzero => absurd hzero (by decide)
    · refine wp_sizeOf_bind.mpr fun device => ⟨nofun, ?_⟩
      dsimp only
      refine wp_if (fun _ => ?_) fun hwhole => ?_
      · exact fun _ _ => .inr rfl
      · exact fun _ hmode => absurd hmode hwhole

theorem wp_knows_init : wp (reported cfg) (StorageHelper.init cfg) (Returns fun _ _ _ => True)
    s size := by
  refine wp_init_returns wp_knows_initDevice fun status t size₁ hzero hknows => ?_
  unfold mountConfigured
  split
  · rename_i hmode
    exact wp_knows_mountPartitions (hknows hzero hmode)
  · have hwhole : Calls Mounting mountWhole := Calls.get_bind fun _ =>
      mounting_testFilesystem.bind fun _ => .ite mounting_reformatPartition trivial
    exact hwhole.wp_returns_true fun _ _ r hcall => (reported_of_mounting r hcall).1

theorem reported_after {tr : List StorageEvent} {device : UInt64}
    (h : (reported cfg).after size tr = some device) :
    size = some device ∨ ∃ bd, ⟨.size bd, device⟩ ∈ tr := by
  induction tr generalizing size with
  | nil => exact .inl h
  | cons e tr ih =>
    obtain hnext | ⟨bd, hbd⟩ := ih h
    · obtain ⟨call, r⟩ := e
      cases call with
      | size bd =>
        obtain rfl : r = device := Option.some.inj hnext
        exact .inr ⟨bd, List.mem_cons_self⟩
      | status | createMutex | note => exact .inl hnext
    · exact .inr ⟨bd, List.mem_cons_of_mem _ hbd⟩

/-- Every range that `init` hands out lies inside the device if the settings fit the size that the
device has reported. -/
theorem init_ranges_inside {tr : List StorageEvent} {o : Except StorageFault Int} {t : StorageState}
    (hx : Exec (StorageHelper.init cfg) s tr o t) {r : AddressRange}
    (hr : r ∈ tr.filterMap rangeOf) : ∃ bd, ∃ device : UInt64, ⟨.size bd, device⟩ ∈ tr ∧
      (SettingsFit cfg device → r.Inside device) := by
  obtain ⟨e, he, hrange⟩ := List.mem_filterMap.mp hr
  obtain ⟨before, later, rfl⟩ := List.append_of_mem he
  have hinit : wp (reported cfg) (StorageHelper.init cfg) (Returns fun _ _ _ => True) s none :=
    wp_knows_init
  obtain ⟨device, hdevice, hinside⟩ :=
    Monitor.allAt_iff.mp (wp_sound hinit hx).1 before e later rfl r hrange
  obtain hnone | ⟨bd, hbd⟩ := reported_after hdevice
  · exact nomatch hnone
  · exact ⟨bd, device, List.mem_append_left _ hbd, hinside⟩

/-- Two partitions of 256 MiB, the primary one moved to 384 MiB. -/
def movedPrimary : StorageConfig :=
  { StorageConfig.twoPartitions true with
    primary := ⟨1, 0x18000000, 0x10000000, []⟩
    secondary := ⟨2, 0x10000000, 0x10000000, []⟩
    primaryMacros := by decide }

/-- A device of 512 MiB on which no partition can be started before it is created. -/
def blankDevice : List StorageEvent → (c : StorageCall) → c.Reply
  | _, .size _ => (0x20000000 : UInt64)
  | past, .status (.bdInit (.mbr _ _)) =>
    if past.any fun e => (rangeOf e).isSome then (0 : Int) else (7 : Int)
  | past, c => allSucceed past c

/-- The primary partition ends behind the device, and it covers part of the secondary one. -/
theorem not_createsFitting_moved : (∃ tr t,
      Exec (StorageHelper.init movedPrimary) (emptyHelper 0) tr (.ok 0) t ∧
      tr[1]? = some ⟨.size (.given 0), (0x20000000 : UInt64)⟩ ∧
      tr.filterMap rangeOf = [⟨0x18000000, 0x28000000⟩, ⟨0x10000000, 0x20000000⟩]) ∧
    ¬CreatesFitting movedPrimary 0x20000000 := by
  have hexec : Exec (StorageHelper.init movedPrimary) (emptyHelper 0) _ (.ok 0) _ :=
    exec_of_run blankDevice (by decide +kernel)
  refine ⟨⟨_, _, hexec, rfl, by decide +kernel⟩, fun h => ?_⟩
  have hcreate := exec_run allSucceed (createPartitions movedPrimary) (emptyHelper 0x20000000) []
  have hfits := h _ _ _ _ rfl hcreate (by decide +kernel)
  exact absurd (hfits.inside ⟨0x18000000, 0x28000000⟩ (by decide +kernel)) (by decide)

end SimpleCloudClient
