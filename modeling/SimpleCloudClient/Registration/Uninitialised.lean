import SimpleCloudClient.Registration.History
import SimpleCloudClient.Registration.Isolation
import SimpleCloudClient.Registration.Placement

/-!
# Does a registration depend on uninitialised memory?

The constructor of a resource leaves `isObservable` and `methodMask` as they were in memory. What
`register_and_connect` passes for a resource is compared between runs that agree on the path, the
name and the calls made on the resource, and may differ in everything else.
-/
namespace SimpleCloudClient
open CString Memory Procedure SimpleMbedCloudClient Transition

namespace ResourceChange

def observableSet : ResourceChange → Option Bool
  | observable flag => some flag
  | _ => none

def methodsSet : ResourceChange → Option UInt32
  | methods methodMask => some methodMask
  | _ => none

/-- The text that a setter leaves in the member `value`. -/
def valueSet (cfg : Config) : ResourceChange → Option Text
  | setValueInt value => some (cfg.mbedClient.appendInt value)
  | setValueString value => some value
  | _ => none

end ResourceChange

variable {cfg : Config} {changes : List ResourceChange} {memory memory' : RawMemory}
variable {path name : Text} {a a' : AddResourceArgs}

theorem isObservable_applyChanges (changes : List ResourceChange) (r : MbedCloudClientResource) :
    (applyChanges cfg changes r).isObservable =
      (latest ResourceChange.observableSet changes).getD r.isObservable :=
  member_applyChanges (·.isObservable) _ (fun _ change => by cases change <;> rfl) changes r

theorem methodMask_applyChanges (changes : List ResourceChange) (r : MbedCloudClientResource) :
    (applyChanges cfg changes r).methodMask =
      (latest ResourceChange.methodsSet changes).getD r.methodMask :=
  member_applyChanges (·.methodMask) _ (fun _ change => by cases change <;> rfl) changes r

theorem value_applyChanges (changes : List ResourceChange) (r : MbedCloudClientResource) :
    (applyChanges cfg changes r).value =
      (latest (ResourceChange.valueSet cfg) changes).getD r.value :=
  member_applyChanges (·.value) _ (fun _ change => by cases change <;> rfl) changes r

theorem name_applyChanges (changes : List ResourceChange) (r : MbedCloudClientResource) :
    (applyChanges cfg changes r).name = r.name := by
  induction changes using List.reverseRecOn with
  | nil => rfl
  | append_singleton changes change ih =>
    rw [applyChanges_concat, ← ih]
    cases change <;> rfl

/-- `a` is passed for a resource that was created with this path and name in this memory, and on
which these calls were made before `register_and_connect`. -/
inductive Passes (cfg : Config) (memory : RawMemory) (path name : Text)
    (changes : List ResourceChange) (a : AddResourceArgs) : Prop
  | intro {fresh s t : Context} {labels : List Label} {k : Nat} {resourceDef : MccResourceDef}
      {tr : List CloudEvent} {o : Except Fault Bool} :
      fresh.Fresh → Run (SetupStep cfg) fresh labels s →
      (creations labels)[k]? = some (.construct memory path name) →
      changesOf k labels = changes →
      Exec (registerAndConnect cfg resourceDef) s tr o t → (passed tr)[k]? = some a →
      Passes cfg memory path name changes a

/-- The same method mask, observable flag, name and value, and the same decision whether the
notification callback is wired. -/
structure AddResourceArgs.SameAttributes (a a' : AddResourceArgs) : Prop where
  allowed : a.allowed = a'.allowed
  observable : a.observable = a'.observable
  resourceType : a.resourceType = a'.resourceType
  value : a.value = a'.value
  wired : a.result.notificationDeliveryStatusCb.isSome =
    a'.result.notificationDeliveryStatusCb.isSome

theorem AddResourceArgs.wired_result (a : AddResourceArgs) (h : a.notificationStatusCb.isSome) :
    a.result.notificationDeliveryStatusCb.isSome = a.observable := by
  by_cases hobservable : a.observable = true <;> simp_all [AddResourceArgs.result]

/-- What is passed is what the calls have made of the constructed resource. -/
theorem Passes.attributes (h : Passes cfg memory path name changes a) :
    a.allowed = (latest ResourceChange.methodsSet changes).getD memory.methodMask ∧
    a.observable = (latest ResourceChange.observableSet changes).getD memory.isObservable ∧
    a.resourceType = name ∧
    a.value = (latest (ResourceChange.valueSet cfg) changes).getD empty ∧
    a.result.notificationDeliveryStatusCb.isSome = a.observable := by
  obtain ⟨hfresh, hsetup, hcreated, hchanges, hexec, ha⟩ := h
  rename_i k resourceDef tr o
  have hrecorded := recorded_of_run hfresh (hsetup.mono fun _ _ _ hstep => hstep.2)
  obtain ⟨r, heap, d, rfl, hr⟩ := registerAndConnect_passed hexec ha
  have hnone := (unregistered_of_setup hfresh hsetup).unbound r (List.mem_of_getElem? hr)
  have hr' : r = applyChanges cfg changes (.construct memory path name) := by
    have hmembers := hrecorded.members k
    rw [replayed, hr, hcreated, hchanges] at hmembers
    have hunbound : r.unbound = r := by
      rw [MbedCloudClientResource.unbound, ← hnone]
    rw [← hunbound]
    exact Option.some.inj hmembers
  refine ⟨?_, ?_, ?_, ?_, ?_⟩
  · change r.methodMask = _
    rw [hr', methodMask_applyChanges]
    rfl
  · change r.isObservable = _
    rw [hr', isObservable_applyChanges]
    rfl
  · change r.name = _
    rw [hr', name_applyChanges]
    rfl
  · change ofMemory (r.getValue heap) = _
    rw [MbedCloudClientResource.getValue_of_unbound hnone, ofMemory_bytes, hr', value_applyChanges]
    rfl
  · exact AddResourceArgs.wired_result _ rfl

/-- A fresh client that creates one resource and makes the calls on it. -/
theorem exists_setup (cfg : Config) (memory : RawMemory) (path name : Text)
    (changes : List ResourceChange) : ∃ (labels : List Label) (s : Context),
      Run (SetupStep cfg) {} labels s ∧
      s.self.resources = [applyChanges cfg changes (.construct memory path name)] ∧
      creations labels = [.construct memory path name] ∧ changesOf 0 labels = changes := by
  induction changes using List.reverseRecOn with
  | nil =>
    have hcreate : Step cfg {} ⟨.createResource memory path name, [], none⟩ _ :=
      exec_return_none.mpr ⟨rfl, exec_setSelf.mpr ⟨rfl, rfl, rfl⟩⟩
    exact ⟨_, _, Run.single ⟨by rintro ⟨_, ⟨⟩⟩, hcreate⟩, rfl, rfl, rfl⟩
  | append_singleton changes change ih =>
    obtain ⟨labels, s, hrun, hresources, hcreated, hchanges⟩ := ih
    have hr : s.self.resources[0]? =
        some (applyChanges cfg changes (.construct memory path name)) := by
      rw [hresources]
      rfl
    have hchange : Step cfg s ⟨.changeResource 0 change, [], none⟩ _ :=
      exec_return_none.mpr ⟨rfl, exec_onResource_ok.mpr ⟨rfl, _, hr, rfl⟩⟩
    refine ⟨_, _, hrun.snoc ⟨by rintro ⟨_, ⟨⟩⟩, hchange⟩, ?_, ?_, ?_⟩
    · simp [hresources, apply_member]
    · simp [hcreated, created]
    · simp [hchanges, changed]

theorem exists_passes (cfg : Config) (memory : RawMemory) (path name : Text)
    (changes : List ResourceChange) : ∃ a, Passes cfg memory path name changes a := by
  obtain ⟨labels, s, hrun, hresources, hcreated, hchanges⟩ :=
    exists_setup cfg memory path name changes
  have hfresh : Context.Fresh {} := rfl
  let resourceDef : MccResourceDef := ⟨⟨0, 0, 0⟩, empty, 0, [], false, none, none, none⟩
  obtain ⟨tr, o, t, hexec⟩ := exists_exec (registerAndConnect cfg resourceDef) s
  have hfirst := passed_first (unregistered_of_setup hfresh hrun).notCalled hresources hexec
  exact ⟨_, .intro hfresh hrun (by rw [hcreated]; rfl) hchanges hexec hfirst⟩

/-- What is passed is the same for any two contents of the memory, in any two runs. -/
def MemoryIndependent (cfg : Config) (path name : Text) (changes : List ResourceChange) : Prop :=
  ∀ memory memory' a a', Passes cfg memory path name changes a →
    Passes cfg memory' path name changes a' → a.SameAttributes a'

/-- Something has been set exactly if one of the changes that set it has been made. -/
theorem isSome_latest_iff {A : Type} {sets : ResourceChange → Option A} {make : A → ResourceChange}
    (hsets : ∀ change a, sets change = some a ↔ change = make a) :
    (latest sets changes).isSome ↔ ∃ a, make a ∈ changes := by
  have hsome : (latest sets changes).isSome ↔ changes.filterMap sets ≠ [] := by
    rw [latest, Option.isSome_iff_ne_none, ne_eq, List.getLast?_eq_none_iff]
  rw [hsome]
  constructor
  · intro hne
    obtain ⟨a, hmem⟩ := List.exists_mem_of_ne_nil _ hne
    obtain ⟨change, hchange, hsome⟩ := List.mem_filterMap.mp hmem
    rw [hsets] at hsome
    exact ⟨a, hsome ▸ hchange⟩
  · rintro ⟨a, hmem⟩
    exact List.ne_nil_of_mem (List.mem_filterMap.mpr ⟨_, hmem, (hsets _ a).mpr rfl⟩)

theorem observableSet_eq (change : ResourceChange) (flag : Bool) :
    change.observableSet = some flag ↔ change = .observable flag := by
  cases change <;> simp [ResourceChange.observableSet]

theorem methodsSet_eq (change : ResourceChange) (methodMask : UInt32) :
    change.methodsSet = some methodMask ↔ change = .methods methodMask := by
  cases change <;> simp [ResourceChange.methodsSet]

/-- A registration is independent of uninitialised memory exactly when both `observable` and
`methods` have been called on the resource. -/
theorem memoryIndependent_iff (cfg : Config) (path name : Text) (changes : List ResourceChange) :
    MemoryIndependent cfg path name changes ↔
      (∃ flag, .observable flag ∈ changes) ∧ ∃ methodMask, .methods methodMask ∈ changes := by
  rw [← isSome_latest_iff observableSet_eq, ← isSome_latest_iff methodsSet_eq]
  constructor
  · intro h
    obtain ⟨a, ha⟩ := exists_passes cfg ⟨false, 0⟩ path name changes
    obtain ⟨a', ha'⟩ := exists_passes cfg ⟨true, 1⟩ path name changes
    have hsame := h _ _ _ _ ha ha'
    have hobservable := hsame.observable
    have hallowed := hsame.allowed
    rw [ha.attributes.2.1, ha'.attributes.2.1] at hobservable
    rw [ha.attributes.1, ha'.attributes.1] at hallowed
    constructor
    · cases hset : latest ResourceChange.observableSet changes <;> simp_all
    · cases hset : latest ResourceChange.methodsSet changes <;> simp_all
  · rintro ⟨hflag, hmask⟩ memory memory' a a' ha ha'
    obtain ⟨flag, hflag⟩ := Option.isSome_iff_exists.mp hflag
    obtain ⟨mask, hmask⟩ := Option.isSome_iff_exists.mp hmask
    obtain ⟨allowed, observable, type, value, wired⟩ := ha.attributes
    obtain ⟨allowed', observable', type', value', wired'⟩ := ha'.attributes
    rw [hmask] at allowed allowed'
    rw [hflag] at observable observable'
    have hobservable := observable.trans observable'.symm
    exact ⟨allowed.trans allowed'.symm, hobservable, type.trans type'.symm, value.trans value'.symm,
      wired.trans (hobservable.trans wired'.symm)⟩

/-- A resource on which only `methods` is called, as in the connect test, is registered as
observable or not, depending on what the memory held. -/
theorem not_memoryIndependent_methods : ∃ a a',
    Passes .reference ⟨false, 0⟩ (Position.path ⟨3200, 0, 5501⟩) empty [.methods 3] a ∧
    Passes .reference ⟨true, 0⟩ (Position.path ⟨3200, 0, 5501⟩) empty [.methods 3] a' ∧
    a.observable = false ∧ a'.observable = true ∧ ¬a.SameAttributes a' := by
  obtain ⟨a, ha⟩ := exists_passes .reference ⟨false, 0⟩ (Position.path ⟨3200, 0, 5501⟩) empty
    [.methods 3]
  obtain ⟨a', ha'⟩ := exists_passes .reference ⟨true, 0⟩ (Position.path ⟨3200, 0, 5501⟩) empty
    [.methods 3]
  have hoff : a.observable = false := ha.attributes.2.1
  have hon : a'.observable = true := ha'.attributes.2.1
  refine ⟨a, a', ha, ha', hoff, hon, fun hsame => ?_⟩
  have := hsame.observable
  simp [hoff, hon] at this

end SimpleCloudClient
