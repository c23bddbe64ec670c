import SimpleCloudClient.Client.Init
import SimpleCloudClient.Storage.Ready

/-!
# Reformatting and resetting the storage

`reformat_storage` and `reset_storage` may be called at any time. `format` checks its pointers,
`reformat_partition` does not: with partitions the file systems of a helper exist only once its own
initialisation has created them. A `reformat_storage` that returns does so with 0 exactly if the
last reformat of every file system succeeded.
-/
namespace SimpleCloudClient
open Procedure StorageHelper SimpleMbedCloudClient Transition

/-- A call that is given NULL for the partition. -/
def NullPartition : StorageCall → Prop
  | .status (.mount _ none) | .status (.reformat _ none) => True
  | _ => False

/-- Whatever the calls return, no NULL file system and no NULL partition is used. -/
def NeverNull (p : StorageM Int) (s : StorageState) : Prop :=
  ∀ tr o t, Exec p s tr o t → o ≠ .error .nullPointer ∧ ∀ e ∈ tr, ¬NullPartition e.1

def reformatted (fs : FileSystem) (status : Int) : StatusCall → Option Int
  | .reformat g _ => if g = fs then some status else none
  | _ => none

/-- The result of an event that reformats the file system. -/
def reformatResult (fs : FileSystem) : StorageEvent → Option Int
  | ⟨.status call, status⟩ => reformatted fs status call
  | _ => none

def lastReformat (fs : FileSystem) (tr : List StorageEvent) : Option Int :=
  (tr.filterMap (reformatResult fs)).getLast?

/-- What `reformat_storage` is to reformat. -/
def configuredFileSystems (cfg : StorageConfig) (h : StorageHelper) : List (Option FileSystem) :=
  if cfg.numberOfPartitions = 0 then [h.fs]
  else if cfg.numberOfPartitions = 2 then [h.fs1, h.fs2]
  else [h.fs1]

/-- It returns 0 exactly if the last reformat of every configured file system succeeded. -/
def ReportsReformat (cfg : StorageConfig) (s : StorageState) : Prop :=
  ∀ tr status t, Exec (reformatStorage cfg) s tr (.ok status) t →
    (status = 0 ↔ ∀ fs ∈ configuredFileSystems cfg s.self,
      ∃ g, fs = some g ∧ lastReformat g tr = some 0)

/-- Both functions can be called in this state. -/
structure StorageSafe (cfg : StorageConfig) (s : StorageState) : Prop where
  reformat : NeverNull (reformatStorage cfg) s
  reset : NeverNull (resetStorage cfg) s
  reports : ReportsReformat cfg s

variable {cfg : StorageConfig} {s : StorageState}

/-! ## NULL pointers -/

def nullFree : Monitor StorageEvent Unit where
  next _ _ := ()
  safe _ e := ¬NullPartition e.1

theorem neverNull_iff {p : StorageM Int} :
    NeverNull p s ↔ wp nullFree p (fun o _ _ => o ≠ .error .nullPointer) s () := by
  have hsafe : ∀ tr, nullFree.AllAt nullFree.safe () tr ↔ ∀ e ∈ tr, ¬NullPartition e.1 := fun _ =>
    Monitor.allAt_forall
  simp only [NeverNull, wp_iff, hsafe, and_comm]

/-- The precondition is that both pointers are set. -/
theorem wp_null_reformatPartition {fs : Option FileSystem} {part : Option BlockDevice}
    {Q : Except StorageFault Int → StorageState → Unit → Prop}
    (hfault : ¬Q (.error .nullPointer) s ()) :
    wp nullFree (reformatPartition fs part) Q s () ↔
      fs ≠ none ∧ part ≠ none ∧ ∀ status, Q (.ok status) s () := by
  cases fs with
  | none => exact iff_of_false hfault fun h => h.1 rfl
  | some g =>
    have hcall : wp nullFree (reformatPartition (some g) part) Q s () ↔
        ∀ status : Int, ¬NullPartition (.status (.reformat g part)) ∧ Q (.ok status) s () := Iff.rfl
    rw [hcall, forall_and]
    cases part with
    | none => simp [NullPartition]
    | some bd => simp [NullPartition]

/-- The partition can be formatted. -/
def HasPartition (h : StorageHelper) (slot : Slot) : Prop :=
  h.fsAt slot ≠ none ∧ h.partAt slot ≠ none

theorem neverNull_format {fs : Option FileSystem} {bd : Option BlockDevice} :
    NeverNull (format fs bd) s := by
  rw [neverNull_iff]
  cases fs with
  | none => nofun
  | some fs =>
    cases bd with
    | none => nofun
    | some bd =>
      refine wp_ask_bind.mpr fun status => ⟨nofun, ?_⟩
      rw [wp_ite]
      split
      · nofun
      · refine wp_ask_bind.mpr fun _ => ⟨nofun, wp_ask_bind.mpr fun first => ⟨nofun, ?_⟩⟩
        rw [wp_ite]
        split
        · refine wp_sizeOf_bind.mpr fun size => ⟨nofun, wp_ask_bind.mpr fun erased => ⟨nofun, ?_⟩⟩
          rw [wp_ite]
          split
          · refine wp_ask_bind.mpr fun again => ⟨nofun, ?_⟩
            rw [wp_ite]
            split <;> nofun
          · nofun
        · nofun

theorem neverNull_reformatStorage_iff : NeverNull (reformatStorage cfg) s ↔
    s.self.bd = none ∨ cfg.numberOfPartitions = 0 ∨
      ∀ slot, cfg.Configured slot → HasPartition s.self slot := by
  rw [neverNull_iff]
  unfold reformatStorage
  rw [wp_get_bind, wp_ite]
  split
  · rename_i hbd
    exact iff_of_true nofun (.inl (Option.isNone_iff_eq_none.mp hbd))
  · rename_i hbd
    have hbd' : s.self.bd ≠ none := fun h => hbd (by simp [h])
    rw [wp_ite]
    split
    · rename_i hzero
      exact iff_of_true (neverNull_iff.mp neverNull_format) (.inr (.inl hzero))
    · rename_i hzero
      have hsecond : ∀ status : Int, wp nullFree (do
          if status ≠ 0 then
            return status
          if cfg.numberOfPartitions = 2 then
            reformatPartition s.self.fs2 s.self.part2
          else
            return status) (fun o _ _ => o ≠ .error .nullPointer) s () ↔
          (status = 0 → cfg.Configured .secondary → HasPartition s.self .secondary) := by
        intro status
        rw [wp_ite]
        split
        · exact iff_of_true nofun fun h => absurd h ‹_›
        · rename_i hstatus
          rw [wp_ite]
          split
          · rename_i htwo
            rw [wp_null_reformatPartition (by simp)]
            simp [not_not.mp hstatus, StorageConfig.Configured, htwo, HasPartition, fsAt, partAt]
          · rename_i htwo
            exact iff_of_true nofun fun _ h => absurd h htwo
      rw [wp_bind, wp_null_reformatPartition (by simp)]
      simp only [hsecond, hbd', hzero, false_or]
      constructor
      · rintro ⟨hfs, hpart, hrest⟩ slot hslot
        cases slot with
        | primary => exact ⟨hfs, hpart⟩
        | secondary => exact hrest 0 rfl hslot
      · intro h
        obtain ⟨hfs, hpart⟩ := h .primary (Nat.pos_of_ne_zero hzero)
        exact ⟨hfs, hpart, fun _ _ => h .secondary⟩

theorem neverNull_resetStorage (h : NeverNull (reformatStorage cfg) s) :
    NeverNull (resetStorage cfg) s := by
  rw [neverNull_iff] at h ⊢
  refine wp_ask_bind.mpr fun status => ⟨nofun, ?_⟩
  rw [wp_ite]
  split
  · refine wp_bind.mpr (wp_mono h fun o t _ ho => ?_)
    cases o with
    | ok status =>
      dsimp only
      rw [wp_ite]
      split
      · exact wp_ask.mpr fun _ => ⟨nofun, nofun⟩
      · nofun
    | error fault => simpa using ho
  · nofun

/-! ## The result -/

/-- The last reformat of each file system so far. -/
def reformats : Monitor StorageEvent (FileSystem → Option Int) where
  next last e := fun fs => (reformatResult fs e).or (last fs)

variable {last : FileSystem → Option Int} {fs : Option FileSystem} {part : Option BlockDevice}

theorem after_reformats {g : FileSystem} {tr : List StorageEvent} :
    reformats.after last tr g = (lastReformat g tr).or (last g) := by
  induction tr generalizing last with
  | nil => rfl
  | cons e tr ih =>
    rw [Monitor.after_cons, ih]
    cases hresult : reformatResult g e with
    | none => simp [reformats, lastReformat, hresult]
    | some status =>
      simp only [reformats, lastReformat, hresult, List.filterMap_cons, List.getLast?_cons]
      cases (tr.filterMap (reformatResult g)).getLast? <;> rfl

theorem next_reformat {g : FileSystem} (status : Int) :
    reformats.next last ⟨.status (.reformat g part), status⟩ =
      Function.update last g (some status) := by
  funext other
  by_cases hother : other = g
  · simp [reformats, reformatResult, reformatted, hother]
  · simp [reformats, reformatResult, reformatted, hother, Ne.symm hother]

theorem wp_reformats_reformatPartition : wp reformats (reformatPartition fs part)
    (Returns fun status s' last' => s' = s ∧
      ∃ g, fs = some g ∧ last' = Function.update last g (some status)) s last := by
  cases fs with
  | none => trivial
  | some g => exact wp_ask.mpr fun status => ⟨trivial, rfl, g, rfl, next_reformat status⟩

/-- After a first reformat that failed, the second counts. -/
theorem wp_reformats_format : wp reformats (format fs part) (Returns fun status _ last' =>
    (status = 0 ↔ ∃ g, fs = some g ∧ last' g = some 0)) s fun _ => none := by
  cases fs with
  | none => exact iff_of_false nofun nofun
  | some g =>
    cases part with
    | none => exact iff_of_false nofun nofun
    | some bd =>
      refine wp_ask_bind.mpr fun status => ⟨trivial, ?_⟩
      refine wp_if (fun hfailed => ?_) fun _ => ?_
      · exact iff_of_false hfailed fun ⟨_, _, h⟩ => nomatch h
      · refine wp_ask_bind.mpr fun _ => ⟨trivial, wp_ask_bind.mpr fun first => ⟨trivial, ?_⟩⟩
        rw [next_reformat]
        refine wp_if (fun hfirst => ?_) fun hfirst => ?_
        · refine wp_sizeOf_bind.mpr fun size => ⟨trivial, wp_ask_bind.mpr fun erased =>
            ⟨trivial, ?_⟩⟩
          rw [wp_ite]
          split
          · refine wp_ask_bind.mpr fun again => ⟨trivial, ?_⟩
            rw [next_reformat]
            refine wp_if (fun hagain => ?_) fun hagain => ?_
            · simp [hagain]
            · simp [hagain, hfirst]
          · simp [reformats, reformatResult, reformatted, hfirst]
        · simp [not_not.mp hfirst]

theorem wp_reformats_reformatStorage :
    wp reformats (reformatStorage cfg) (Returns fun status _ last' =>
      (status = 0 ↔ ∀ fs ∈ configuredFileSystems cfg s.self, ∃ g, fs = some g ∧ last' g = some 0))
      s fun _ => none := by
  unfold reformatStorage
  rw [wp_get_bind, wp_ite]
  split
  · refine iff_of_false nofun fun h => ?_
    obtain ⟨fs, hfs⟩ : ∃ fs, fs ∈ configuredFileSystems cfg s.self := by
      unfold configuredFileSystems
      split_ifs <;> exact ⟨_, List.mem_cons_self⟩
    exact nomatch (h fs hfs).choose_spec.2
  · refine wp_if (fun hzero => ?_) fun hzero => ?_
    · simp only [configuredFileSystems, if_pos hzero, List.mem_singleton, forall_eq]
      exact wp_reformats_format
    · simp only [configuredFileSystems, if_neg hzero]
      refine wp_then wp_reformats_reformatPartition fun first t last => ?_
      rintro ⟨rfl, g, hg, rfl⟩
      refine wp_if (fun hfirst => ?_) fun hfirst => ?_
      · -- the second file system is left alone
        have hfailed : ¬∀ fs ∈ (if cfg.numberOfPartitions = 2 then [t.self.fs1, t.self.fs2]
            else [t.self.fs1]), ∃ x, fs = some x ∧
              Function.update (fun _ => none) g (some first) x = some 0 := by
          intro h
          obtain ⟨x, hx, hlast⟩ := h t.self.fs1 (by split <;> exact List.mem_cons_self)
          obtain rfl := Option.some.inj (hg.symm.trans hx)
          simp [hfirst] at hlast
        exact iff_of_false hfirst hfailed
      · rw [wp_ite]
        split
        · refine wp_returns_mono wp_reformats_reformatPartition fun second t' last => ?_
          rintro ⟨rfl, x, hx, rfl⟩
          simp only [List.mem_cons, List.not_mem_nil, or_false, forall_eq_or_imp, forall_eq, hg,
            hx, Option.some.injEq, exists_eq_left']
          by_cases hsame : g = x
          · simp [hsame]
          · simp [hsame, not_not.mp hfirst]
        · simp [hg, not_not.mp hfirst]

theorem reportsReformat : ReportsReformat cfg s := by
  intro tr status t hx
  have hlast := (wp_sound wp_reformats_reformatStorage hx).2
  simpa [after_reformats] using hlast

/-! ## The states in which the functions can be called -/

/-- The functions of a client that use its storage, and the part of `init` after which it may call
the other two. -/
inductive StorageOperation where
  | init (format : Bool)
  | initStorage
  | reformatStorage
  | resetStorage
  deriving DecidableEq, Repr

def StorageOperation.body (cfg : StorageConfig) : StorageOperation → StorageM Int
  | .init format => SimpleMbedCloudClient.init cfg format
  | .initStorage => StorageHelper.init cfg
  | .reformatStorage => StorageHelper.reformatStorage cfg
  | .resetStorage => SimpleMbedCloudClient.resetStorage cfg

/-- A call of a function of one of the clients that has returned. -/
structure StorageReturn where
  client : Nat
  operation : StorageOperation
  trace : List StorageEvent
  status : Int

def StorageStep (cfg : StorageConfig) (w : HelperWorld) (l : StorageReturn) (w' : HelperWorld) :
    Prop :=
  ∃ s, Exec (l.operation.body cfg) (w.state l.client) l.trace (.ok l.status) s ∧
    w' = w.put l.client s

section
variable {X : Type*} {g : StorageState → X} {format : Bool}

theorem keeps_resetStorage : Keeps g (SimpleMbedCloudClient.resetStorage cfg) :=
  keeps_ask.bind fun _ => .ite (keeps_reformatStorage.bind fun _ =>
    .ite keeps_ask trivial) trivial

theorem keeps_initConfiguration : Keeps g (initConfiguration cfg format) := by
  have hreset : Keeps g (resetAndSotpInit cfg) :=
    keeps_resetStorage.bind fun _ => .ite trivial keeps_sotpInit
  have hflow : Keeps g (developerFlow cfg) := keeps_ask.bind fun _ => .ite trivial trivial
  have hprovision : Keeps g (provision cfg format) :=
    .ite (keeps_resetStorage.bind fun _ => .ite trivial hflow) hflow
  have hverify : Keeps g (verifyCloudConfiguration cfg format) :=
    .ite (hprovision.bind fun _ => .ite trivial keeps_ask) keeps_ask
  have hagain : Keeps g (resetOnError cfg format) := hreset.bind fun _ => .ite trivial hverify
  exact keeps_sotpInit.bind fun _ => .ite (keeps_ask.bind fun _ => trivial) <|
    Keeps.bind (.ite hreset trivial) fun _ => .ite trivial <|
      hverify.bind fun _ => .ite (.ite hagain trivial) trivial

end

/-- Only the initialisation of the storage changes the helper. -/
theorem exec_body {operation : StorageOperation} {tr : List StorageEvent} {status : Int}
    {t : StorageState} (hx : Exec (operation.body cfg) s tr (.ok status) t) :
    t = s ∨ ∃ tr status, Exec (StorageHelper.init cfg) s tr (.ok status) t := by
  cases operation with
  | reformatStorage => exact .inl (keeps_reformatStorage.unchanged hx)
  | resetStorage => exact .inl (keeps_resetStorage.unchanged hx)
  | initStorage => exact .inr ⟨tr, status, hx⟩
  | init format =>
    obtain ⟨_, -, rfl⟩ | ⟨_, _, _, later, -, hcode⟩ := exec_init_cases hx
    · exact .inl rfl
    · split at hcode
      · exact .inl hcode.2
      · obtain ⟨front, status, u, back, -, hinit, hrest⟩ | ⟨fault, hfault, -⟩ := exec_bind.mp hcode
        · have hstate : t = u := by
            split at hrest
            · exact (exec_pure.mp hrest).2.2
            · exact keeps_initConfiguration.unchanged hrest
          exact .inr ⟨front, status, hstate ▸ hinit⟩
        · exact nomatch hfault

/-- What holds of a helper between two calls. -/
structure Coherent (cfg : StorageConfig) (h : StorageHelper) : Prop where
  own : cfg.partitionMode = true → Own h
  whole : cfg.partitionMode = false → h.fs2 = none ∧ (h.fs1 ≠ none → h.part1 = h.bd)

/-- A file system never stands without its partition. -/
theorem Coherent.hasPartition {h : StorageHelper} {slot : Slot} (hcoherent : Coherent cfg h)
    (hbd : h.bd ≠ none) (hfs : h.fsAt slot ≠ none) : HasPartition h slot := by
  refine ⟨hfs, ?_⟩
  cases hmode : cfg.partitionMode with
  | true =>
    obtain ⟨fs, hsome⟩ := Option.ne_none_iff_exists'.mp hfs
    obtain ⟨part, hpart⟩ := (hcoherent.own hmode).part slot fs hsome
    simp [hpart]
  | false =>
    obtain ⟨hsecond, hfirst⟩ := hcoherent.whole hmode
    cases slot with
    | primary => exact fun hpart => hbd ((hfirst hfs).symm.trans hpart)
    | secondary => exact absurd hsecond hfs

theorem coherent_construct {i : Nat} {bd fs : Option Nat} {memory : UInt64} :
    Coherent cfg (.construct i bd fs memory) :=
  ⟨fun _ => own_construct, fun _ => ⟨rfl, fun h => absurd rfl h⟩⟩

theorem exec_mountWhole {tr : List StorageEvent} {o : Except StorageFault Int} {t : StorageState}
    (hx : Exec mountWhole s tr o t) :
    t.self = { s.self with fs1 := s.self.fs, part1 := s.self.bd } := by
  have hrest : ∀ u : StorageState, Keeps (fun v : StorageState => v) (do
      let status ← testFilesystem u.self.fs1 u.self.bd
      if status ≠ 0 then
        reformatPartition u.self.fs1 u.self.bd
      else
        return status) := fun _ =>
    keeps_testFilesystem.bind fun _ => .ite keeps_reformatPartition trivial
  obtain rfl := (hrest _).unchanged (exec_get_bind.mp (exec_update_bind.mp hx))
  rfl

/-- Without partitions `init` changes nothing, or it takes over the pointers of the client. -/
theorem exec_init_whole (hmode : cfg.partitionMode = false) {tr : List StorageEvent}
    {status : Int} {t : StorageState} (hx : Exec (StorageHelper.init cfg) s tr (.ok status) t) :
    t.self = s.self ∨ t.self.fs2 = s.self.fs2 ∧ t.self.part1 = t.self.bd := by
  unfold StorageHelper.init at hx
  have hdone := exec_get_bind.mp hx
  split at hdone
  · exact .inl (congrArg _ (exec_pure.mp hdone).2.2)
  · obtain ⟨_, first, u, _, -, hdevice, hnext⟩ | ⟨_, hfault, -⟩ := exec_bind.mp hdone
    · obtain rfl := (keeps_initDevice hmode).unchanged hdevice
      split at hnext
      · exact .inl (congrArg _ (exec_pure.mp hnext).2.2)
      · obtain ⟨_, second, u', _, -, hmount, hlast⟩ | ⟨_, hfault, -⟩ := exec_bind.mp hnext
        · unfold mountConfigured at hmount
          rw [if_neg (by simp [hmode])] at hmount
          have hself : t.self = u'.self := by
            split at hlast
            · exact congrArg _ (exec_pure.mp hlast).2.2
            · have hend := exec_update_bind.mp hlast
              rw [(exec_pure.mp hend).2.2]
          right
          rw [hself, exec_mountWhole hmount]
          exact ⟨rfl, rfl⟩
        · exact nomatch hfault
    · exact nomatch hfault

theorem Coherent.init {tr : List StorageEvent} {status : Int} {t : StorageState}
    (h : Coherent cfg s.self) (hx : Exec (StorageHelper.init cfg) s tr (.ok status) t) :
    Coherent cfg t.self := by
  constructor
  · exact (wp_sound (wp_init h.own (d := {})) hx).2.2.1
  · intro hmode
    obtain hsame | ⟨hsecond, hfirst⟩ := exec_init_whole hmode hx
    · exact hsame ▸ h.whole hmode
    · exact ⟨hsecond.trans (h.whole hmode).1, fun _ => hfirst⟩

variable {w w' : HelperWorld} {labels : List StorageReturn}

/-- A step keeps every helper coherent. -/
theorem StorageStep.coherent {l : StorageReturn} (hstep : StorageStep cfg w l w')
    (h : ∀ i, Coherent cfg (w.helpers i)) (i : Nat) : Coherent cfg (w'.helpers i) := by
  obtain ⟨s, hexec, rfl⟩ := hstep
  by_cases hi : i = l.client
  · have hself : Coherent cfg s.self := by
      obtain rfl | ⟨tr, status, hinit⟩ := exec_body hexec
      · exact h l.client
      · exact Coherent.init (h l.client) hinit
    simpa [HelperWorld.put, hi] using hself
  · simpa [HelperWorld.put, hi] using h i

theorem coherent_of_run (hw : w.Constructed) (hrun : Run (StorageStep cfg) w labels w') (i : Nat) :
    Coherent cfg (w'.helpers i) := by
  refine hrun.invariant (fun i => ?_) (fun _ _ _ h hstep => hstep.coherent h) i
  obtain ⟨bd, fs, memory, hi⟩ := hw.2 i
  exact hi ▸ coherent_construct

/-- In every state that any calls of any clients lead to, a client with a block device can reformat
and reset its storage exactly if there are no partitions, or it has a file system for each. -/
theorem storageSafe_iff (hw : w.Constructed) (hrun : Run (StorageStep cfg) w labels w') (i : Nat)
    (hbd : (w'.helpers i).bd ≠ none) :
    StorageSafe cfg (w'.state i) ↔ cfg.numberOfPartitions = 0 ∨
      ∀ slot, cfg.Configured slot → (w'.helpers i).fsAt slot ≠ none := by
  have hcoherent := coherent_of_run hw hrun i
  have hnever : NeverNull (StorageHelper.reformatStorage cfg) (w'.state i) ↔
      cfg.numberOfPartitions = 0 ∨
        ∀ slot, cfg.Configured slot → (w'.helpers i).fsAt slot ≠ none := by
    rw [neverNull_reformatStorage_iff, or_iff_right (show (w'.state i).self.bd ≠ none from hbd)]
    refine or_congr_right (forall_congr' fun slot => imp_congr_right fun _ => ?_)
    exact ⟨fun h => h.1, hcoherent.hasPartition hbd⟩
  rw [← hnever]
  exact ⟨fun h => h.reformat, fun h => ⟨h, neverNull_resetStorage h, reportsReformat⟩⟩

/-- A call of `init` in which everything succeeds, with two partitions. -/
def HelperWorld.initAll (w : HelperWorld) (client : Nat) : HelperWorld :=
  w.put client ((SimpleMbedCloudClient.init (.twoPartitions false) false).run everythingWorks
    (w.state client) []).2.2

theorem storageStep_initAll (w : HelperWorld) (client : Nat)
    (hok : ((SimpleMbedCloudClient.init (.twoPartitions false) false).run everythingWorks
      (w.state client) []).2.1 = .ok 0) :
    StorageStep (.twoPartitions false) w ⟨client, .init false,
      ((SimpleMbedCloudClient.init (.twoPartitions false) false).run everythingWorks
        (w.state client) []).1, 0⟩ (w.initAll client) :=
  ⟨_, exec_of_run everythingWorks hok, rfl⟩

/-- A client that has mounted its partitions. -/
theorem storageSafe_iff_mounted : ∃ labels w',
    Run (StorageStep (.twoPartitions false)) numberedHelpers labels w' ∧
    labels.map (·.status) = [0] ∧ StorageSafe (.twoPartitions false) (w'.state 0) := by
  have hworld : numberedHelpers.Constructed := ⟨rfl, fun i => ⟨some i, some i, 0, rfl⟩⟩
  have hrun := Run.single (storageStep_initAll numberedHelpers 0 (by decide +kernel))
  have hpointers : ∀ slot, ((numberedHelpers.initAll 0).helpers 0).fsAt slot ≠ none := by
    decide +kernel
  refine ⟨_, _, hrun, rfl, ?_⟩
  exact (storageSafe_iff hworld hrun 0 (by decide +kernel)).mpr (.inr fun slot _ => hpointers slot)

/-- The `init` of the second client returns 0 as well, and its `reformat_storage` uses NULL. -/
theorem not_storageSafe_second : ∃ labels w',
    Run (StorageStep (.twoPartitions false)) numberedHelpers labels w' ∧
    labels.map (·.client) = [0, 1] ∧ labels.map (·.status) = [0, 0] ∧
    (w'.helpers 1).bd ≠ none ∧ (w'.helpers 1).fs ≠ none ∧
    (∃ t, Exec (StorageHelper.reformatStorage (.twoPartitions false)) (w'.state 1) []
      (.error .nullPointer) t) ∧
    ¬StorageSafe (.twoPartitions false) (w'.state 1) := by
  have hfirst := storageStep_initAll numberedHelpers 0 (by decide +kernel)
  have hsecond := storageStep_initAll (numberedHelpers.initAll 0) 1 (by decide +kernel)
  have hfault : Exec (StorageHelper.reformatStorage (.twoPartitions false))
      (((numberedHelpers.initAll 0).initAll 1).state 1) [] (.error .nullPointer) _ :=
    exec_run everythingWorks (StorageHelper.reformatStorage (.twoPartitions false)) _ []
  refine ⟨_, _, (Run.single hfirst).snoc hsecond, rfl, rfl, by decide +kernel, by decide +kernel,
    ⟨_, hfault⟩, fun h => ?_⟩
  exact (h.reformat _ _ _ hfault).1 rfl

end SimpleCloudClient
