import SimpleCloudClient.Storage.Helper

/-!
# When the storage can be initialised

Whether `init` can return 0 at all, whatever the devices answer, is decided by the pointers of the
helper and by the configuration.
-/
namespace SimpleCloudClient
open Procedure

namespace StorageHelper

/-- The partition has a device, or it has no file system yet and a device can be created. -/
def Mountable (h : StorageHelper) (slot : Slot) : Prop :=
  (h.partAt slot).isSome = true ∨ h.fsAt slot = none ∧ h.bd.isSome = true

/-- Without partitions there has to be a file system, with partitions each has to be mountable. -/
def Startable (h : StorageHelper) (cfg : StorageConfig) : Prop :=
  if cfg.partitionMode then
    cfg.numberOfPartitions ≠ 0 →
      h.Mountable .primary ∧ (cfg.numberOfPartitions = 2 → h.Mountable .secondary)
  else
    h.fs.isSome = true

variable {cfg : StorageConfig} {s t : StorageState} {slot : Slot} {tr : List StorageEvent}
  {status : Int}

/-- Two steps succeed exactly if the first does and the second does after it. -/
theorem exec_checked {p : StorageM Int} {rest : Int → StorageM Int} :
    Exec (p >>= fun status => if status ≠ 0 then pure status else rest status) s tr (.ok 0) t ↔
      ∃ front u back, tr = front ++ back ∧ Exec p s front (.ok 0) u ∧
        Exec (rest 0) u back (.ok 0) t := by
  rw [exec_bind_ok]
  constructor
  · rintro ⟨front, status, u, back, htr, hp, hrest⟩
    split at hrest
    · rename_i hfailed
      exact absurd (Except.ok.inj (exec_pure.mp hrest).2.1).symm hfailed
    · rename_i hzero
      obtain rfl := not_not.mp hzero
      exact ⟨front, u, back, htr, hp, hrest⟩
  · rintro ⟨front, u, back, htr, hp, hrest⟩
    refine ⟨front, 0, u, back, htr, hp, ?_⟩
    rwa [if_neg (by simp)]

/-- Mounting uses a pointer that is NULL unless the partition is mountable. -/
theorem mountable_of_exec (hx : Exec (initAndMountPartition cfg slot) s tr (.ok status) t) :
    s.self.Mountable slot := by
  obtain ⟨_, _, _, _, -, hmount, -⟩ := exec_bind_ok.mp hx
  have hmount := exec_get_bind.mp hmount
  split at hmount
  · rename_i hfs
    obtain ⟨_, _, _, _, -, hobtain, -⟩ := exec_bind_ok.mp hmount
    have hobtain := exec_get_bind.mp hobtain
    split at hobtain
    · rename_i part hpart
      exact .inl (by simp [hpart])
    · rcases exec_deref_bind.mp (exec_get_bind.mp hobtain) with ⟨bd, hbd, -⟩ | ⟨-, -, hfault, -⟩
      · exact .inr ⟨Option.isNone_iff_eq_none.mp hfs, by simp [hbd]⟩
      · cases hfault
  · rcases exec_deref_bind.mp (exec_get_bind.mp hmount) with ⟨part, hpart, -⟩ | ⟨-, -, hfault, -⟩
    · exact .inl (by simp [hpart])
    · cases hfault

/-- If it is and every call succeeds, it is mounted. -/
theorem exists_exec_of_mountable (h : s.self.Mountable slot) :
    ∃ tr t, Exec (initAndMountPartition cfg slot) s tr (.ok 0) t := by
  obtain ⟨initDone, ⟨id, bd, fs, fs1, fs2, part1, part2, size⟩⟩ := s
  cases slot with
  | primary =>
    rcases part1 with _ | part
    · obtain ⟨rfl : fs1 = none, hbd : bd.isSome = true⟩ := h.resolve_left nofun
      obtain ⟨bd, rfl⟩ := Option.isSome_iff_exists.mp hbd
      exact ⟨_, _, exec_of_run allSucceed rfl⟩
    · cases fs1 <;> exact ⟨_, _, exec_of_run allSucceed rfl⟩
  | secondary =>
    rcases part2 with _ | part
    · obtain ⟨rfl : fs2 = none, hbd : bd.isSome = true⟩ := h.resolve_left nofun
      obtain ⟨bd, rfl⟩ := Option.isSome_iff_exists.mp hbd
      exact ⟨_, _, exec_of_run allSucceed rfl⟩
    · cases fs2 <;> exact ⟨_, _, exec_of_run allSucceed rfl⟩

/-- What decides whether the secondary partition is mountable. -/
def secondaryOf (s : StorageState) : Option BlockDevice × Option FileSystem × Option BlockDevice :=
  (s.self.bd, s.self.fsAt .secondary, s.self.partAt .secondary)

theorem mountable_congr (h : secondaryOf t = secondaryOf s) :
    t.self.Mountable .secondary ↔ s.self.Mountable .secondary := by
  obtain ⟨hbd, hfs, hpart⟩ : t.self.bd = s.self.bd ∧ _ ∧ _ := by simpa [secondaryOf] using h
  rw [Mountable, Mountable, hbd, hfs, hpart]

theorem keeps_secondaryOf : Keeps secondaryOf (initAndMountPartition cfg .primary) :=
  keeps_initAndMountPartition (fun _ _ => by simp [secondaryOf]) fun _ _ => by simp [secondaryOf]

theorem keeps_createPrimary : Keeps secondaryOf (createPartition cfg .primary) :=
  Keeps.bind (Keeps.get_bind fun _ => .ite trivial trivial) fun _ => Keeps.get_bind fun _ =>
    Keeps.deref.bind fun _ => keeps_ask.bind fun _ => .ite trivial keeps_secondaryOf

/-- A partition that is created is mounted in the end. -/
theorem mountable_of_create (hx : Exec (createPartition cfg slot) s tr (.ok 0) t) :
    s.self.Mountable slot := by
  have hkeeps : Keeps (fun s => s) (checkSize cfg slot) :=
    Keeps.get_bind fun _ => .ite trivial trivial
  obtain ⟨_, _, u, _, -, hcheck, hrest⟩ := exec_bind_ok.mp hx
  obtain rfl : u = s := hkeeps.exec hcheck
  rcases exec_deref_bind.mp (exec_get_bind.mp hrest) with ⟨bd, -, hask⟩ | ⟨-, -, hfault, -⟩
  · obtain ⟨_, v, _, -, hpartition, hmount⟩ := exec_checked.mp hask
    obtain rfl : v = u := (keeps_ask (g := fun s => s)).exec hpartition
    exact mountable_of_exec hmount
  · cases hfault

/-- If the primary partition is mounted, or both are created, then with two partitions the secondary
one has been mountable, or nothing that decides it has changed. -/
theorem of_mountOrCreate (hx : Exec (mountOrCreate cfg .primary) s tr (.ok 0) t) :
    s.self.Mountable .primary ∧ (cfg.numberOfPartitions = 2 →
      s.self.Mountable .secondary ∨ secondaryOf t = secondaryOf s) := by
  obtain ⟨_, _, u, _, -, hmount, hx⟩ := exec_bind_ok.mp hx
  refine ⟨mountable_of_exec hmount, fun htwo => ?_⟩
  have hsame := keeps_secondaryOf.exec hmount
  split at hx
  · obtain ⟨_, v, _, -, hfirst, hlast⟩ := exec_checked.mp hx
    have hv := (keeps_createPrimary.exec hfirst).trans hsame
    rw [if_pos htwo] at hlast
    exact .inl ((mountable_congr hv).mp (mountable_of_create hlast))
  · obtain ⟨-, -, rfl⟩ := exec_pure.mp hx
    exact .inr hsame

/-! ## init -/

/-- Nothing is created when mounting succeeds. -/
theorem exec_mountOrCreate (h : Exec (initAndMountPartition cfg slot) s tr (.ok 0) t) :
    Exec (mountOrCreate cfg slot) s tr (.ok 0) t := by
  refine exec_bind_ok.mpr ⟨tr, 0, t, [], (List.append_nil _).symm, h, ?_⟩
  rw [if_neg (by simp)]
  exact .ret ..

theorem mountPartitions_zero_iff : (∃ tr t, Exec (mountPartitions cfg) s tr (.ok 0) t) ↔
    (cfg.numberOfPartitions ≠ 0 → s.self.Mountable .primary ∧
      (cfg.numberOfPartitions = 2 → s.self.Mountable .secondary)) := by
  unfold mountPartitions
  by_cases hnone : cfg.numberOfPartitions = 0
  · simp [hnone]
  simp only [ne_eq, hnone, not_false_eq_true, forall_const]
  constructor
  · rintro ⟨tr, t, hx⟩
    obtain ⟨_, u, _, -, hfirst, hx⟩ := exec_checked.mp hx
    obtain ⟨hprimary, hsecondary⟩ := of_mountOrCreate hfirst
    refine ⟨hprimary, fun htwo => ?_⟩
    rcases hsecondary htwo with hmountable | hsame
    · exact hmountable
    · rw [if_pos htwo] at hx
      obtain ⟨_, _, _, _, -, hmount, -⟩ := exec_bind_ok.mp hx
      exact (mountable_congr hsame).mp (mountable_of_exec hmount)
  · rintro ⟨hprimary, hsecondary⟩
    obtain ⟨front, u, hfirst⟩ :
        ∃ tr t, Exec (initAndMountPartition cfg .primary) s tr (.ok 0) t :=
      exists_exec_of_mountable hprimary
    have hsame := keeps_secondaryOf.exec hfirst
    by_cases htwo : cfg.numberOfPartitions = 2
    · obtain ⟨back, t, hlast⟩ :
          ∃ tr t, Exec (initAndMountPartition cfg .secondary) u tr (.ok 0) t :=
        exists_exec_of_mountable ((mountable_congr hsame).mpr (hsecondary htwo))
      refine ⟨_, t, exec_checked.mpr ⟨front, u, back, rfl, exec_mountOrCreate hfirst, ?_⟩⟩
      rw [if_pos htwo]
      exact exec_mountOrCreate hlast
    · refine ⟨_, u, exec_checked.mpr ⟨front, u, [], rfl, exec_mountOrCreate hfirst, ?_⟩⟩
      rw [if_neg htwo]
      exact .ret ..

theorem mountWhole_zero_iff : (∃ tr t, Exec mountWhole s tr (.ok 0) t) ↔
    s.self.fs.isSome = true := by
  obtain ⟨initDone, ⟨id, bd, fs, fs1, fs2, part1, part2, size⟩⟩ := s
  cases fs with
  | none =>
    refine iff_of_false ?_ nofun
    rintro ⟨tr, t, hx⟩
    obtain ⟨_, _, _, _, -, htest, -⟩ := exec_bind_ok.mp (exec_get_bind.mp (exec_update_bind.mp hx))
    have htest := exec_deref_bind.mp htest
    simp at htest
  | some fs => exact iff_of_true ⟨_, _, exec_of_run allSucceed rfl⟩ rfl

theorem mountConfigured_zero_iff : (∃ tr t, Exec (mountConfigured cfg) s tr (.ok 0) t) ↔
    s.self.Startable cfg := by
  unfold mountConfigured Startable
  split
  · exact mountPartitions_zero_iff
  · exact mountWhole_zero_iff

@[simp] theorem startable_setStorageSize {h : StorageHelper} {size : UInt64} :
    (h.setStorageSize size).Startable cfg ↔ h.Startable cfg := by
  simp only [Startable, Mountable, partAt_setStorageSize, fsAt_setStorageSize, bd_setStorageSize]
  rfl

/-- `init` stores the size and nothing else before it mounts. -/
theorem keeps_pointers : Keeps (fun s => s.self.setStorageSize 0) (initDevice cfg) := by
  refine Keeps.get_bind fun s => ?_
  split
  · exact trivial
  · refine keeps_ask.bind fun _ => .ite trivial <| Keeps.perform.bind fun _ => ?_
    exact .ite ⟨fun _ => rfl, trivial⟩ trivial

theorem startable_of_initDevice {o : Except StorageFault Int}
    (hx : Exec (initDevice cfg) s tr o t) : t.self.Startable cfg ↔ s.self.Startable cfg := by
  have hsame : t.self.setStorageSize 0 = s.self.setStorageSize 0 := keeps_pointers.exec hx
  calc t.self.Startable cfg
      ↔ (t.self.setStorageSize 0).Startable cfg := startable_setStorageSize.symm
    _ ↔ (s.self.setStorageSize 0).Startable cfg := by rw [hsame]
    _ ↔ s.self.Startable cfg := startable_setStorageSize

theorem exists_exec_initDevice : ∃ tr t, Exec (initDevice cfg) s tr (.ok 0) t := by
  obtain ⟨initDone, ⟨id, bd, fs, fs1, fs2, part1, part2, size⟩⟩ := s
  cases hmode : cfg.partitionMode <;> cases bd <;>
    exact ⟨_, _, exec_of_run allSucceed (by simp [initDevice, hmode]; rfl)⟩

/-- `init` can return 0 exactly if some `init` has done so, or the pointers allow it. -/
theorem init_zero_iff : (∃ tr t, Exec (init cfg) s tr (.ok 0) t) ↔
    s.initDone = true ∨ s.self.Startable cfg := by
  unfold init
  simp only [exec_get_bind]
  cases hdone : s.initDone with
  | true => exact iff_of_true ⟨[], s, .ret ..⟩ (.inl rfl)
  | false =>
    simp only [Bool.false_eq_true, if_false, false_or]
    constructor
    · rintro ⟨tr, t, hx⟩
      obtain ⟨_, u, _, -, hdevice, hx⟩ := exec_checked.mp hx
      obtain ⟨_, v, _, -, hmount, -⟩ := exec_checked.mp hx
      exact (startable_of_initDevice hdevice).mp (mountConfigured_zero_iff.mp ⟨_, _, hmount⟩)
    · intro h
      obtain ⟨front, u, hdevice⟩ : ∃ tr t, Exec (initDevice cfg) s tr (.ok 0) t :=
        exists_exec_initDevice
      obtain ⟨back, v, hmount⟩ :=
        mountConfigured_zero_iff.mpr ((startable_of_initDevice hdevice).mpr h)
      refine ⟨_, { v with initDone := true }, exec_checked.mpr ⟨front, u, back, rfl, hdevice, ?_⟩⟩
      refine exec_checked.mpr ⟨back, v, [], (List.append_nil _).symm, hmount, ?_⟩
      exact .modify (.ret ..)

end StorageHelper

end SimpleCloudClient
