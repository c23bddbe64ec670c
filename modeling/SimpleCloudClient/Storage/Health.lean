import SimpleCloudClient.Storage.Ready

/-!
# What init does to a healthy partition

A partition is healthy while the most recent `test_filesystem` of it succeeded. A test ends with
the mount of the file system and succeeds exactly if this mount does; `init` mounts nowhere else.
`init_and_mount_partition` formats whenever the pointer to the file system is set, and
`create_partitions` writes every entry, whatever the tests said.
-/
namespace SimpleCloudClient
open Procedure StorageHelper Transition

/-- The healthy partitions after a call. -/
def tested (helper : Nat) (healthy : Slot → Bool) (status : Int) : StatusCall → Slot → Bool
  | .mount fs _ => fun slot => if fs = .fat helper slot then status = 0 else healthy slot
  | _ => healthy

/-- The call formats no healthy partition and writes no entry of one. -/
def Spares (cfg : StorageConfig) (helper : Nat) (healthy : Slot → Bool) : StatusCall → Prop
  | .reformat fs _ => ∀ slot, fs = .fat helper slot → healthy slot = false
  | .partition _ number _ _ _ =>
    ∀ slot, (cfg.partition slot).number = number → healthy slot = false
  | _ => True

instance (cfg : StorageConfig) (helper : Nat) (healthy : Slot → Bool) :
    ∀ call, Decidable (Spares cfg helper healthy call)
  | .reformat .. | .partition .. => inferInstanceAs (Decidable (∀ _ : Slot, _ → _))
  | .bdInit .. | .bdDeinit .. | .bdErase .. | .mount .. | .unmount .. | .fccInit | .fccFinalize
  | .fccEntropySet | .fccRotSet | .fccStorageDelete | .fccDeveloperFlow
  | .fccVerifyDeviceConfigured4mbedCloud => isTrue trivial

def health (cfg : StorageConfig) (helper : Nat) : Monitor StorageEvent (Slot → Bool) where
  next healthy
    | ⟨.status call, status⟩ => tested helper healthy status call
    | _ => healthy
  safe healthy
    | ⟨.status call, _⟩ => Spares cfg helper healthy call
    | _ => True

instance (cfg : StorageConfig) (helper : Nat) (healthy : Slot → Bool) :
    ∀ e, Decidable ((health cfg helper).safe healthy e)
  | ⟨.status call, _⟩ => inferInstanceAs (Decidable (Spares cfg helper healthy call))
  | ⟨.size _, _⟩ | ⟨.createMutex, _⟩ | ⟨.note _, _⟩ => isTrue trivial

variable {cfg : StorageConfig} {s : StorageState} {healthy : Slot → Bool} {slot : Slot}

theorem frame_of_preparing {call : StorageCall} (r : call.Reply) (h : Preparing call)
    (helper : Nat) : (health cfg helper).safe healthy ⟨call, r⟩ ∧
      (health cfg helper).next healthy ⟨call, r⟩ = healthy := by
  cases call with
  | status call => cases call <;> first | exact h.elim | exact ⟨trivial, rfl⟩
  | _ => exact ⟨trivial, rfl⟩

theorem wp_preparing {A : Type} {p : StorageM A} {helper : Nat} (h : Calls Preparing p) :
    wp (health cfg helper) p (Returns fun _ _ healthy' => healthy' = healthy) s healthy :=
  h.frame_returns fun _ _ r hcall => frame_of_preparing r hcall helper

/-! ## A partition that is not healthy -/

/-- The helper and the file systems that it has created. -/
structure Mine (helper : Nat) (s : StorageState) : Prop where
  id : s.self.id = helper
  own : Own s.self

variable {helper : Nat}

theorem Mine.fsAt (h : Mine helper s) {fs : FileSystem} (hfs : s.self.fsAt slot = some fs) :
    fs = .fat helper slot := h.id ▸ h.own.fs slot fs hfs

/-- The next `init_and_mount_partition` would format a healthy partition. -/
def AtStake (s : StorageState) (healthy : Slot → Bool) (slot : Slot) : Prop :=
  s.self.fsAt slot ≠ none ∧ healthy slot = true

/-- Work on one partition that leaves the other alone. -/
structure Beside (slot : Slot) (s : StorageState) (healthy : Slot → Bool) (s' : StorageState)
    (healthy' : Slot → Bool) : Prop where
  state : ∃ d', AtSlot slot s {} s' d'
  others : ∀ other, other ≠ slot → healthy' other = healthy other

theorem Beside.mine {s' : StorageState} {healthy' : Slot → Bool}
    (h : Beside slot s healthy s' healthy') (hs : Mine helper s) : Mine helper s' := by
  obtain ⟨d', hslot⟩ := h.state
  exact ⟨hslot.id.trans hs.id, hslot.own hs.own⟩

theorem Beside.atStake {s' : StorageState} {healthy' : Slot → Bool} {other : Slot}
    (h : Beside slot s healthy s' healthy') (hne : other ≠ slot) :
    AtStake s' healthy' other ↔ AtStake s healthy other := by
  obtain ⟨d', hslot⟩ := h.state
  rw [AtStake, AtStake, (hslot.pointers other hne).1, h.others other hne]

theorem beside_of_exec {p : StorageM Int} {status : Int} {tr : List StorageEvent}
    {t : StorageState} (hx : Exec p s tr (.ok status) t)
    (hp : wp devices p (Returns fun _ s' d' => AtSlot slot s {} s' d') s {}) :
    ∃ d', AtSlot slot s {} t d' := ⟨_, (wp_sound hp hx).2⟩

theorem wp_health_reformatPartition {fs : Option FileSystem} {part : Option BlockDevice}
    (hfs : ∀ g, fs = some g → g = .fat helper slot) (hslot : healthy slot = false) :
    wp (health cfg helper) (reformatPartition fs part)
      (Returns fun _ s' healthy' => s' = s ∧ healthy' = healthy) s healthy := by
  cases fs with
  | none => trivial
  | some g =>
    refine wp_ask.mpr fun status => ⟨fun other hother => ?_, rfl, rfl⟩
    have hsame : slot = other := by simpa [hfs g rfl] using hother
    exact hsame ▸ hslot

theorem wp_health_testFilesystem {part : Option BlockDevice} {fs : Option FileSystem}
    (hfs : ∀ g, fs = some g → g = .fat helper slot) :
    wp (health cfg helper) (testFilesystem fs part) (Returns fun status s' healthy' => s' = s ∧
      healthy' = Function.update healthy slot (status = 0)) s healthy := by
  cases fs with
  | none => trivial
  | some g =>
    obtain rfl := hfs g rfl
    refine wp_ask_bind.mpr fun _ => ⟨trivial, wp_ask_bind.mpr fun status => ⟨trivial, ?_⟩⟩
    have hnext : tested helper healthy status (.mount (.fat helper slot) part) =
        Function.update healthy slot (status = 0) := by
      funext other
      by_cases hother : other = slot
      · simp [tested, hother]
      · simp [tested, hother, Ne.symm hother]
    refine wp_if (fun hstatus => ?_) fun _ => ?_
    · refine ⟨rfl, hnext.trans ?_⟩
      simp [hstatus]
    · exact ⟨rfl, hnext⟩

theorem wp_health_mountOrReinit (hs : Mine helper s) (hslot : ¬AtStake s healthy slot) :
    wp (health cfg helper) (mountOrReinit cfg slot) (Returns fun _ s' healthy' =>
      healthy' = healthy ∧ ∃ d', AtSlot slot s {} s' d') s healthy := by
  refine wp_returns_and (P := fun _ _ healthy' => healthy' = healthy) ?_ fun tr a t hx =>
    beside_of_exec hx (wp_returns_mono (wp_mountOrReinit hs.own) fun _ _ _ h => h.1)
  unfold mountOrReinit reinit
  rw [wp_get_bind]
  refine wp_if (fun _ => ?_) fun hfs => ?_
  · exact wp_preparing calls_mountNew
  · have hunhealthy : healthy slot = false := by simpa [AtStake, ← Option.isNone_iff_eq_none, hfs]
      using hslot
    rw [wp_get_bind, wp_deref_bind]
    cases s.self.partAt slot with
    | none => trivial
    | some part =>
      refine wp_then (wp_preparing calls_initPart) fun status s₁ _ hquiet => ?_
      obtain rfl := hquiet
      rw [wp_ite]
      split
      · rfl
      · exact wp_returns_mono (wp_health_reformatPartition (fun _ => hs.fsAt) hunhealthy)
          fun _ _ _ h => h.2

/-- A partition that is not at stake may be mounted in any way. -/
theorem wp_health_initAndMountPartition (hs : Mine helper s) (hslot : ¬AtStake s healthy slot) :
    wp (health cfg helper) (initAndMountPartition cfg slot)
      (Returns fun _ s' healthy' => Beside slot s healthy s' healthy') s healthy := by
  refine wp_then (wp_health_mountOrReinit hs hslot) fun status s₁ healthy₁ => ?_
  rintro ⟨rfl, hstate⟩
  have hfirst : Beside slot s healthy₁ s₁ healthy₁ := ⟨hstate, fun _ _ => rfl⟩
  have hs₁ := hfirst.mine hs
  rw [wp_ite]
  split
  · exact hfirst
  · rw [wp_get_bind]
    refine wp_then (wp_health_testFilesystem fun _ => hs₁.fsAt) fun tested s₂ healthy₂ => ?_
    rintro ⟨rfl, rfl⟩
    have htest : Beside slot s healthy₁ s₂ (Function.update healthy₁ slot (tested = 0)) :=
      ⟨hstate, fun other hother => Function.update_of_ne hother _ _⟩
    refine wp_if (fun hfailed => ?_) fun _ => ?_
    · have hunhealthy : Function.update healthy₁ slot (decide (tested = 0)) slot = false := by
        simpa using hfailed
      refine wp_returns_mono (wp_health_reformatPartition (fun _ => hs₁.fsAt) hunhealthy) ?_
      rintro _ _ _ ⟨rfl, rfl⟩
      exact htest
    · exact htest

/-- Without automatic partitioning `init` does no harm while nothing is at stake. -/
theorem wp_health_init (hs : Mine helper s) (hauto : cfg.autoPartition = false)
    (hmode : cfg.partitionMode = true) (hstake : ∀ slot, ¬AtStake s healthy slot) :
    wp (health cfg helper) (init cfg) (Returns fun _ _ _ => True) s healthy := by
  have hmount : ∀ {s : StorageState} {healthy : Slot → Bool} {slot : Slot}, Mine helper s →
      ¬AtStake s healthy slot → wp (health cfg helper) (mountOrCreate cfg slot)
        (Returns fun _ s' healthy' => Beside slot s healthy s' healthy') s healthy := by
    intro s healthy slot hs hslot
    refine wp_then (wp_health_initAndMountPartition hs hslot) fun status s₁ healthy₁ h₁ => ?_
    rw [wp_ite, if_neg (by simp [hauto])]
    exact h₁
  have hdevice : wp (health cfg helper) (initDevice cfg) (Returns fun _ s' healthy' =>
      healthy' = healthy ∧ Mine helper s' ∧ ∀ slot, s'.self.fsAt slot = s.self.fsAt slot)
      s healthy := by
    refine wp_returns_and (wp_preparing calls_initDevice) fun tr status t hx => ?_
    obtain ⟨hid, -, -, hfs, hown, -⟩ := (wp_sound (wp_initDevice (d := {})) hx).2
    exact ⟨⟨hid.trans hs.id, hown hs.own⟩, hfs⟩
  refine wp_init_returns hdevice fun status s₁ healthy₁ _ => ?_
  rintro ⟨rfl, hs₁, hfs⟩
  have hstake₁ : ∀ slot, ¬AtStake s₁ healthy₁ slot := by simpa [AtStake, hfs] using hstake
  unfold mountConfigured
  rw [if_pos hmode]
  refine wp_mountPartitions_returns (hmount hs₁ (hstake₁ .primary)) fun s₂ healthy₂ h₂ => ?_
  refine wp_returns_mono (hmount (h₂.mine hs₁) ?_) fun _ _ _ _ => trivial
  exact fun h => hstake₁ .secondary ((h₂.atStake (by decide)).mp h)

/-! ## Results that do harm

A precondition speaks about all results, so it can be followed along any of them. -/

section
variable {Q : Except StorageFault Int → StorageState → (Slot → Bool) → Prop}
variable {bd : BlockDevice}

theorem follow_initDevice (h : wp (health cfg helper) (initDevice cfg) Q s healthy)
    (hmode : cfg.partitionMode = true) (hbd : s.self.bd = some bd) (size : UInt64) :
    Q (.ok 0) { s with self := s.self.setStorageSize size } healthy := by
  unfold initDevice at h
  rw [wp_get_bind, hbd] at h
  have hinit := (wp_ask_bind.mp h 0).2
  rw [wp_ite, if_neg (by decide)] at hinit
  have hsize := (wp_sizeOf_bind.mp hinit size).2
  dsimp only at hsize
  rw [wp_ite, if_pos hmode] at hsize
  exact hsize

theorem follow_obtainPart
    {Q : Except StorageFault BlockDevice → StorageState → (Slot → Bool) → Prop}
    (h : wp (health cfg helper) (obtainPart cfg slot) Q s healthy) (hbd : s.self.bd = some bd) :
    ∃ part t, AtSlot slot s {} t {} ∧ t.self.fsAt slot = s.self.fsAt slot ∧
      t.self.partAt slot = some part ∧ Q (.ok part) t healthy := by
  unfold obtainPart at h
  rw [wp_get_bind] at h
  cases hpart : s.self.partAt slot with
  | some part =>
    rw [hpart] at h
    exact ⟨part, s, atSlot_of_touches .refl, rfl, hpart, h⟩
  | none =>
    rw [hpart] at h
    unfold newPart at h
    rw [wp_get_bind, wp_deref_bind, hbd] at h
    exact ⟨_, _, atSlot_setPart hbd, by simp, by simp, (wp_note_bind.mp h).2⟩

/-- The file system can be obtained without a test. -/
theorem follow_mountOrReinit (h : wp (health cfg helper) (mountOrReinit cfg slot) Q s healthy)
    (hs : Mine helper s) (hbd : s.self.bd = some bd) :
    ∃ t, AtSlot slot s {} t {} ∧ t.self.fsAt slot = some (.fat helper slot) ∧
      Q (.ok 0) t healthy := by
  unfold mountOrReinit at h
  rw [wp_get_bind, wp_ite] at h
  cases hfs : s.self.fsAt slot with
  | none =>
    rw [hfs, if_pos Option.isNone_none] at h
    obtain ⟨part, t, ht, -, hpart, hrest⟩ := follow_obtainPart (wp_bind.mp h) hbd
    have hinit := (wp_ask_bind.mp (wp_bind.mp hrest) 0).2
    have hnew := (wp_note_bind.mp hinit).2
    refine ⟨_, ht.trans (atSlot_setFs hpart), ?_, hnew⟩
    simp [ht.id, hs.id]
  | some fs =>
    obtain rfl := hs.fsAt hfs
    obtain ⟨part, hpart⟩ := hs.own.part slot _ hfs
    rw [hfs, if_neg nofun] at h
    unfold reinit at h
    rw [wp_get_bind, wp_deref_bind, hpart] at h
    have hinit := (wp_ask_bind.mp (wp_bind.mp h) 0).2
    have hformat : wp (health cfg helper) (reformatPartition (s.self.fsAt slot) part) Q s healthy :=
      hinit
    rw [hfs] at hformat
    exact ⟨s, atSlot_of_touches .refl, hfs, (wp_ask.mp hformat 0).2⟩

/-- A partition can be mounted and pass its test. -/
theorem follow_success (h : wp (health cfg helper) (initAndMountPartition cfg slot) Q s healthy)
    (hs : Mine helper s) (hbd : s.self.bd = some bd) :
    ∃ t, AtSlot slot s {} t {} ∧ Q (.ok 0) t (Function.update healthy slot true) := by
  obtain ⟨t, ht, hfs, hrest⟩ := follow_mountOrReinit (wp_bind.mp h) hs hbd
  refine ⟨t, ht, ?_⟩
  have htest : wp (health cfg helper) (testFilesystem (t.self.fsAt slot) (t.self.partAt slot) >>=
      fun status => if status ≠ 0 then
        reformatPartition (t.self.fsAt slot) (t.self.partAt slot) else pure status) Q t healthy :=
    hrest
  rw [hfs] at htest
  have hmount := (wp_ask_bind.mp (wp_ask_bind.mp (wp_bind.mp htest) 0).2 0).2
  have hnext : tested helper healthy 0 (.mount (.fat helper slot) (t.self.partAt slot)) =
      Function.update healthy slot true := by
    funext other
    by_cases hother : other = slot
    · simp [tested, hother]
    · simp [tested, hother, Ne.symm hother]
  exact hnext ▸ hmount

/-- The device of a partition can fail. -/
theorem follow_failure (h : wp (health cfg helper) (initAndMountPartition cfg slot) Q s healthy)
    (hs : Mine helper s) (hbd : s.self.bd = some bd) :
    ∃ t, AtSlot slot s {} t {} ∧ Q (.ok (-1)) t healthy := by
  have hmount := wp_bind.mp h
  unfold mountOrReinit at hmount
  rw [wp_get_bind, wp_ite] at hmount
  cases hfs : s.self.fsAt slot with
  | none =>
    rw [hfs, if_pos Option.isNone_none] at hmount
    obtain ⟨part, t, ht, -, -, hrest⟩ := follow_obtainPart (wp_bind.mp hmount) hbd
    have hdeinit := (wp_ask_bind.mp (wp_bind.mp hrest) (-1)).2
    exact ⟨t, ht, (hdeinit (0 : Int)).2⟩
  | some fs =>
    obtain ⟨part, hpart⟩ := hs.own.part slot fs hfs
    rw [hfs, if_neg nofun] at hmount
    unfold reinit at hmount
    rw [wp_get_bind, wp_deref_bind, hpart] at hmount
    have hdeinit := (wp_ask_bind.mp (wp_bind.mp hmount) (-1)).2
    exact ⟨s, atSlot_of_touches .refl, (hdeinit (0 : Int)).2⟩

/-- A partition that is at stake can be formatted. -/
theorem not_atStake (h : wp (health cfg helper) (initAndMountPartition cfg slot) Q s healthy)
    (hs : Mine helper s) : ¬AtStake s healthy slot := by
  rintro ⟨hsome, hhealthy⟩
  obtain ⟨fs, hfs⟩ := Option.ne_none_iff_exists'.mp hsome
  obtain rfl := hs.fsAt hfs
  obtain ⟨part, hpart⟩ := hs.own.part slot _ hfs
  have hmount := wp_bind.mp h
  unfold mountOrReinit reinit at hmount
  rw [wp_get_bind, wp_ite, hfs, if_neg nofun, wp_get_bind, wp_deref_bind, hpart] at hmount
  have hformat : wp (health cfg helper) (reformatPartition (s.self.fsAt slot) part) _ s healthy :=
    (wp_ask_bind.mp (wp_bind.mp hmount) 0).2
  rw [hfs] at hformat
  have hsafe : Spares cfg helper healthy (.reformat (.fat helper slot) part) :=
    (wp_ask.mp hformat 0).1
  rw [hsafe slot rfl] at hhealthy
  cases hhealthy

/-- The entry of a healthy primary partition can be rewritten. -/
theorem not_healthy_of_create (h : wp (health cfg helper) (createPartitions cfg) Q s healthy)
    (hbd : s.self.bd = some bd)
    (hsize : ¬s.self.storageSize < requiredSize cfg .primary) : healthy .primary = false := by
  have hcheck := wp_checkSize.mp (wp_bind.mp (wp_bind.mp h))
  rw [if_neg fun hsmall => hsize hsmall.1] at hcheck
  rw [wp_get_bind, wp_deref_bind, hbd] at hcheck
  have hsafe : Spares cfg helper healthy (.partition bd cfg.primary.number 0x83 cfg.primary.start
      (partitionStop cfg .primary)) := (wp_ask_bind.mp hcheck 0).1
  exact hsafe .primary rfl

end

/-- `init` does no harm: it has been done, there is no device, or no recovery is configured and
nothing is at stake. -/
def NothingAtStake (cfg : StorageConfig) (s : StorageState) (healthy : Slot → Bool) : Prop :=
  s.initDone = true ∨ s.self.bd = none ∨
    cfg.autoPartition = false ∧ ∀ slot, ¬AtStake s healthy slot

/-- Automatic partitioning puts a healthy primary partition at risk; without it a partition is
at risk exactly if it is at stake. -/
theorem nothingAtStake_of_wp {Q : Except StorageFault Int → StorageState → (Slot → Bool) → Prop}
    (h : wp (health cfg helper) (init cfg) Q s healthy) (hs : Mine helper s)
    (hmode : cfg.partitionMode = true) (htwo : cfg.numberOfPartitions = 2) :
    NothingAtStake cfg s healthy := by
  refine or_iff_not_imp_left.mpr fun hdone => or_iff_not_imp_left.mpr fun hdevice => ?_
  obtain ⟨bd, hbd⟩ := Option.ne_none_iff_exists'.mp hdevice
  unfold init at h
  rw [wp_get_bind, wp_ite, if_neg hdone] at h
  have hmount := follow_initDevice (wp_bind.mp h) hmode hbd (requiredSize cfg .primary)
  have hs₁ : Mine helper { s with self := s.self.setStorageSize (requiredSize cfg .primary) } :=
    ⟨hs.id, own_setStorageSize hs.own⟩
  dsimp only at hmount
  rw [wp_ite, if_neg (by decide)] at hmount
  replace hmount := wp_bind.mp hmount
  unfold mountConfigured mountPartitions at hmount
  rw [if_pos hmode, wp_ite, if_neg (by omega)] at hmount
  have hprimary := wp_bind.mp (wp_bind.mp hmount)
  -- the primary partition is mounted and passes its test, then the secondary one is mounted
  obtain ⟨t, ht, hsecond⟩ := follow_success hprimary hs₁ hbd
  dsimp only at hsecond
  rw [wp_ite, if_neg (by simp), wp_pure] at hsecond
  dsimp only at hsecond
  rw [wp_ite, if_neg (by decide), wp_ite, if_pos htwo] at hsecond
  have hsecondary := wp_bind.mp hsecond
  have hs₂ : Mine helper t := ⟨ht.id.trans hs₁.id, ht.own hs₁.own⟩
  refine ⟨?_, fun slot => ?_⟩
  · refine Bool.eq_false_iff.mpr fun hauto => ?_
    obtain ⟨u, hu, hcreate⟩ := follow_failure hsecondary hs₂ (ht.bd.trans hbd)
    dsimp only at hcreate
    rw [wp_ite, if_pos ⟨by decide, hauto⟩] at hcreate
    have hhealthy := not_healthy_of_create hcreate ((hu.bd.trans ht.bd).trans hbd)
      (by simp [hu.storageSize, ht.storageSize, setStorageSize])
    simp at hhealthy
  · cases slot with
    | primary =>
      have hstake := not_atStake hprimary hs₁
      simpa [AtStake] using hstake
    | secondary =>
      have hstake := not_atStake hsecondary hs₂
      simpa [AtStake, (ht.pointers .secondary (by decide)).1] using hstake

/-- Without a device the first partition cannot be made. -/
theorem wp_health_noDevice (hs : Mine helper s) (hmode : cfg.partitionMode = true)
    (hbd : s.self.bd = none) :
    wp (health cfg helper) (init cfg) (Returns fun _ _ _ => True) s healthy := by
  have hpart : s.self.partAt .primary = none := by
    cases hpart : s.self.partAt .primary with
    | none => rfl
    | some part =>
      obtain ⟨bd, hsome⟩ := hs.own.bd _ part hpart
      cases hbd.symm.trans hsome
  have hfs : s.self.fsAt .primary = none := by
    cases hfs : s.self.fsAt .primary with
    | none => rfl
    | some fs =>
      obtain ⟨part, hsome⟩ := hs.own.part _ fs hfs
      cases hpart.symm.trans hsome
  have hcrash : wp (health cfg helper) (initAndMountPartition cfg .primary)
      (Returns fun _ _ _ => False) s healthy := by
    unfold initAndMountPartition mountOrReinit mountNew obtainPart newPart
    rw [wp_bind, wp_get_bind, hfs, if_pos Option.isNone_none, wp_bind, wp_get_bind, hpart,
      wp_get_bind, wp_deref_bind, hbd]
    trivial
  have hfirst : wp (health cfg helper) (mountOrCreate cfg .primary) (Returns fun _ _ _ => False)
      s healthy := wp_then hcrash fun _ _ _ h => h.elim
  have hdevice : wp (health cfg helper) (initDevice cfg) (Returns fun _ s' healthy' =>
      s' = s ∧ healthy' = healthy) s healthy := by
    unfold initDevice
    rw [wp_get_bind, hbd]
    exact ⟨rfl, rfl⟩
  refine wp_init_returns hdevice fun status _ _ _ => ?_
  rintro ⟨rfl, rfl⟩
  unfold mountConfigured
  rw [if_pos hmode]
  exact wp_mountPartitions_returns hfirst fun _ _ h => h.elim

/-! ## All calls of init -/

/-- Whatever its calls return, `init` formats no healthy partition and rewrites no entry of one. -/
def Harmless (cfg : StorageConfig) (helper : Nat) (s : StorageState) (healthy : Slot → Bool) :
    Prop :=
  ∀ tr o t, Exec (init cfg) s tr o t →
    (health cfg helper).AllAt (health cfg helper).safe healthy tr

theorem harmless_iff (hs : Mine helper s) (hmode : cfg.partitionMode = true)
    (htwo : cfg.numberOfPartitions = 2) :
    Harmless cfg helper s healthy ↔ NothingAtStake cfg s healthy := by
  have hwp : Harmless cfg helper s healthy ↔
      wp (health cfg helper) (init cfg) (fun _ _ _ => True) s healthy := by
    simp [Harmless, wp_iff]
  rw [hwp]
  refine ⟨fun h => nothingAtStake_of_wp h hs hmode htwo, ?_⟩
  rintro (hdone | hbd | ⟨hauto, hstake⟩)
  · unfold init
    rw [wp_get_bind, wp_ite, if_pos hdone]
    trivial
  · exact wp_mono (wp_health_noDevice hs hmode hbd) fun _ _ _ _ => trivial
  · exact wp_mono (wp_health_init hs hauto hmode hstake) fun _ _ _ _ => trivial

/-- A call of `init` that has returned: its trace and its status. -/
abbrev InitReturn := List StorageEvent × Int

def InitReturns (cfg : StorageConfig) (s : StorageState) (l : InitReturn) (t : StorageState) :
    Prop := Exec (init cfg) s l.1 (.ok l.2) t

/-- The partitions that are healthy after a run. -/
def healthyAfter (cfg : StorageConfig) (helper : Nat) (labels : List InitReturn) : Slot → Bool :=
  (health cfg helper).after (fun _ => false) (labels.flatMap (·.1))

theorem mine_of_init (hs : Mine helper s) (hmode : cfg.partitionMode = true) {l : InitReturn}
    {t : StorageState} (h : InitReturns cfg s l t) : Mine helper t := by
  obtain ⟨hid, hown, -⟩ := (wp_sound (wp_init (d := {}) fun _ => hs.own) h).2
  exact ⟨hid.trans hs.id, hown hmode⟩

/-- With two partitions, in the runs of one helper in which nothing is at stake before any call of
`init`, and in no others, no call can harm a healthy partition, whatever results it gets. -/
theorem harmless_run_iff (hmode : cfg.partitionMode = true) (htwo : cfg.numberOfPartitions = 2)
    {bd fs : Option Nat} {memory : UInt64} {labels : List InitReturn} {t : StorageState} :
    RunWhen (InitReturns cfg)
        (fun labels s _ => NothingAtStake cfg s (healthyAfter cfg helper labels))
        ⟨false, .construct helper bd fs memory⟩ labels t ↔
      RunWhen (InitReturns cfg)
        (fun labels s _ => Harmless cfg helper s (healthyAfter cfg helper labels))
        ⟨false, .construct helper bd fs memory⟩ labels t :=
  runWhen_congr (fun _ => Mine helper) ⟨rfl, own_construct⟩
    (fun _ _ _ _ hs hstep => mine_of_init hs hmode hstep)
    fun _ _ _ _ hs _ => (harmless_iff hs hmode htwo).symm

/-- A storage of 2 GiB on which the device of one partition does not start. -/
def deviceFails (part : BlockDevice) : List StorageEvent → (c : StorageCall) → c.Reply
  | _, .status (.bdInit bd) => if bd = part then (-1 : Int) else (0 : Int)
  | _, .size _ => (0x80000000 : UInt64)
  | _, _ => default

/-- A fresh helper. -/
def freshHelper : StorageState := ⟨false, .construct 0 (some 0) (some 0) 0⟩

theorem initReturns_run {cfg : StorageConfig}
    (answer : List StorageEvent → (c : StorageCall) → c.Reply) (s : StorageState) {status : Int}
    (h : ((init cfg).run answer s []).2.1 = .ok status) :
    InitReturns cfg s (((init cfg).run answer s []).1, status)
      ((init cfg).run answer s []).2.2 := exec_of_run answer h

/-- A first call fails on the primary partition, a second one succeeds. -/
theorem harmless_run_iff_retry : ∃ labels t,
    RunWhen (InitReturns (.twoPartitions false))
      (fun labels s _ => Harmless (.twoPartitions false) 0 s
        (healthyAfter (.twoPartitions false) 0 labels)) freshHelper labels t ∧
    labels.map (·.2) = [-1, 0] := by
  let first := (init (.twoPartitions false)).run (deviceFails (.mbr 0 .primary)) freshHelper []
  have hfirst : InitReturns (.twoPartitions false) freshHelper (first.1, -1) first.2.2 :=
    initReturns_run (deviceFails (.mbr 0 .primary)) freshHelper (by decide +kernel)
  have hsecond : InitReturns (.twoPartitions false) first.2.2 (_, 0) _ :=
    initReturns_run allSucceed first.2.2 (by decide +kernel)
  have hfs : ∀ slot, first.2.2.self.fsAt slot = none := by
    intro slot
    cases slot <;> decide +kernel
  have hstart : RunWhen (InitReturns (.twoPartitions false)) (fun labels s _ =>
      NothingAtStake (.twoPartitions false) s (healthyAfter (.twoPartitions false) 0 labels))
      freshHelper [] freshHelper := .refl
  have hone := hstart.snoc (.inr (.inr ⟨rfl, fun slot h => by cases slot <;> exact h.1 rfl⟩)) hfirst
  have htwo := hone.snoc (.inr (.inr ⟨rfl, fun slot h => h.1 (hfs slot)⟩)) hsecond
  exact ⟨_, _, (harmless_run_iff rfl rfl).mp htwo, rfl⟩

/-- Results that make `init` do harm. -/
theorem not_harmless_of_run (answer : List StorageEvent → (c : StorageCall) → c.Reply)
    (h : ¬(health cfg helper).AllAt (health cfg helper).safe healthy
      ((init cfg).run answer s []).1) : ¬Harmless cfg helper s healthy :=
  fun hall => h (hall _ _ _ (exec_run answer (init cfg) s []))

/-- The secondary partition fails: with automatic partitioning the same call, and without it the
next call, formats the primary partition, whose test had succeeded. -/
theorem not_harmless_secondary_fails :
    ¬Harmless (.twoPartitions true) 0 freshHelper (fun _ => false) ∧
    ∃ l s, InitReturns (.twoPartitions false) freshHelper l s ∧ l.2 = -1 ∧
      ¬Harmless (.twoPartitions false) 0 s (healthyAfter (.twoPartitions false) 0 [l]) := by
  let fails := deviceFails (.mbr 0 .secondary)
  have hfirst : InitReturns (.twoPartitions false) freshHelper (_, -1) _ :=
    initReturns_run fails freshHelper (by decide +kernel)
  exact ⟨not_harmless_of_run fails (by decide +kernel), _, _, hfirst, rfl,
    not_harmless_of_run allSucceed (by decide +kernel)⟩

end SimpleCloudClient
