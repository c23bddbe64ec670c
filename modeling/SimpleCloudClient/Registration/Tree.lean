import SimpleCloudClient.Library.AssocList
import SimpleCloudClient.Resource.AddResource

/-!
# The tree of objects, instances and resources

A list of objects is read as three partial functions: the object with a given id, the instance at
a pair of ids and the resource at a triple. In a well-formed tree the ids of siblings differ, so
that these functions describe the tree completely, and no instance hangs in two places, so that a
change made through one pointer shows at one position only.
-/
namespace SimpleCloudClient
open CString Memory AssocList

namespace M2M
variable (heap : M2M) (list : List (Ref M2MObject))

def findObject (o : Nat) : Option (Ref M2MObject) :=
  list.find? fun object => heap.nameId object == some o

def findInstance (o : Nat) (i : UInt16) : Option (Ref M2MObjectInstance) :=
  (heap.findObject list o).bind fun object => heap.objectInstance object i

/-- The resource of an instance with this id. -/
def resourceOf (objectInstance : Ref M2MObjectInstance) (r : Nat) : Option (Ref M2MResource) :=
  (heap.instances.get? objectInstance).bind fun i => i.resources.lookup r

def findResource (o : Nat) (i : UInt16) (r : Nat) : Option (Ref M2MResource) :=
  (heap.findInstance list o i).bind fun objectInstance => heap.resourceOf objectInstance r

def resourceAt (p : Position) : Option (Ref M2MResource) :=
  heap.findResource list p.objectId.toNat p.instanceId p.resourceId.toNat

/-- No dangling pointers, no duplicate ids among siblings, no shared instances. -/
structure WellFormed : Prop where
  objects : ∀ object ∈ list, ∃ x, heap.objects.get? object = some x ∧ (keys x.instances).Nodup
  ids : (list.map heap.nameId).Nodup
  instances : ∀ {o i objectInstance}, heap.findInstance list o i = some objectInstance →
    ∃ x, heap.instances.get? objectInstance = some x ∧ (keys x.resources).Nodup
  unshared : ∀ {o i o' i' objectInstance}, heap.findInstance list o i = some objectInstance →
    heap.findInstance list o' i' = some objectInstance → o' = o ∧ i' = i
  resources : ∀ {o i r resource}, heap.findResource list o i r = some resource →
    (heap.resources.get? resource).isSome

variable {heap list} {o o' : Nat} {i i' : UInt16} {r r' : Nat} {object : Ref M2MObject}
variable {objectInstance : Ref M2MObjectInstance} {resource : Ref M2MResource}

theorem wellFormed_nil : heap.WellFormed [] where
  objects := by simp
  ids := by simp
  instances := by simp [findInstance, findObject]
  unshared := by simp [findInstance, findObject]
  resources := by simp [findResource, findInstance, findObject]

theorem mem_of_findObject (h : heap.findObject list o = some object) : object ∈ list :=
  List.mem_of_find?_eq_some h

theorem nameId_of_findObject (h : heap.findObject list o = some object) :
    heap.nameId object = some o := by simpa using List.find?_some h

theorem findObject_congr {heap' : M2M}
    (h : ∀ object ∈ list, heap'.nameId object = heap.nameId object) :
    heap'.findObject list o = heap.findObject list o := by
  induction list with
  | nil => rfl
  | cons x xs ih =>
    have hx := h x (by simp)
    have hxs := ih fun y hy => h y (by simp [hy])
    simp only [findObject, List.find?_cons, hx] at hxs ⊢
    rw [hxs]

theorem nodup_ids_concat (ids : (list.map heap.nameId).Nodup) (h : heap.findObject list o = none)
    (hnew : heap.nameId object = some o) : ((list ++ [object]).map heap.nameId).Nodup := by
  have hnone : some o ∉ list.map heap.nameId := by
    simpa [findObject] using h
  rw [List.map_append]
  exact List.nodup_append.mpr ⟨ids, by simp, by grind⟩

/-! ## Creating an object -/

section AddObject

theorem nameId_addObject (id : Nat) (h : object ≠ heap.objects.next) :
    (heap.addObject id).nameId object = heap.nameId object := by
  simp [nameId, addObject, Store.get?_push_of_ne _ _ h]

@[simp] theorem nameId_addObject_next (id : Nat) :
    (heap.addObject id).nameId heap.objects.next = some id := by simp [nameId, addObject]

theorem WellFormed.ne_next (h : heap.WellFormed list) (hmem : object ∈ list) :
    object ≠ heap.objects.next := by
  obtain ⟨x, hx, -⟩ := h.objects object hmem
  exact Store.ne_next hx

theorem findObject_addObject (h : heap.WellFormed list) (hnone : heap.findObject list o = none) :
    (heap.addObject o).findObject (list ++ [heap.objects.next]) o' =
      if o' = o then some heap.objects.next else heap.findObject list o' := by
  have hold : (heap.addObject o).findObject list o' = heap.findObject list o' :=
    findObject_congr fun x hx => nameId_addObject o (h.ne_next hx)
  have happend : (heap.addObject o).findObject (list ++ [heap.objects.next]) o' =
      (heap.findObject list o').or (if o = o' then some heap.objects.next else none) := by
    rw [← hold]
    simp [findObject, List.find?_append, List.find?_cons]
    grind
  rw [happend]
  by_cases ho : o' = o
  · subst ho; simp [hnone]
  · simp [ho, Ne.symm ho]

theorem findInstance_addObject (h : heap.WellFormed list) (hnone : heap.findObject list o = none) :
    (heap.addObject o).findInstance (list ++ [heap.objects.next]) o' i' =
      heap.findInstance list o' i' := by
  rw [findInstance, findObject_addObject h hnone]
  by_cases ho : o' = o
  · subst ho
    simp [findInstance, hnone, objectInstance, addObject]
  · rw [if_neg ho, findInstance]
    cases hobject : heap.findObject list o' with
    | none => rfl
    | some object =>
      have hne := h.ne_next (mem_of_findObject hobject)
      simp [objectInstance, addObject, Store.get?_push_of_ne _ _ hne]

theorem findResource_addObject (h : heap.WellFormed list) (hnone : heap.findObject list o = none) :
    (heap.addObject o).findResource (list ++ [heap.objects.next]) o' i' r' =
      heap.findResource list o' i' r' := by
  rw [findResource, findInstance_addObject h hnone]
  rfl

theorem WellFormed.addObject (h : heap.WellFormed list) (hnone : heap.findObject list o = none) :
    (heap.addObject o).WellFormed (list ++ [heap.objects.next]) where
  objects := by
    intro object hmem
    rcases List.mem_append.mp hmem with hold | hnew
    · obtain ⟨x, hx, hkeys⟩ := h.objects object hold
      exact ⟨x, Store.get?_push _ _ _ hx, hkeys⟩
    · obtain rfl := List.mem_singleton.mp hnew
      exact ⟨{ nameId := o }, by simp [M2M.addObject], by simp [keys]⟩
  ids := by
    have hids : (list.map (heap.addObject o).nameId).Nodup := by
      rw [List.map_congr_left fun x hx => nameId_addObject o (h.ne_next hx)]
      exact h.ids
    refine nodup_ids_concat hids ?_ (nameId_addObject_next o)
    rw [findObject_congr fun x hx => nameId_addObject o (h.ne_next hx), hnone]
  instances := by
    intro o' i' x hx
    rw [findInstance_addObject h hnone] at hx
    exact h.instances hx
  unshared := by
    intro _ _ _ _ _ hx hy
    rw [findInstance_addObject h hnone] at hx hy
    exact h.unshared hx hy
  resources := by
    intro _ _ _ _ hx
    rw [findResource_addObject h hnone] at hx
    exact h.resources hx

end AddObject

/-! ## Creating an instance -/

section AddInstance

@[simp] theorem nameId_addInstance {x : Ref M2MObject} :
    (heap.addInstance object i).nameId x = heap.nameId x := by
  by_cases hx : object = x
  · subst hx
    cases h : heap.objects.get? object <;> simp [nameId, addInstance, h]
  · simp [nameId, addInstance, Store.get?_modify_of_ne _ _ hx]

@[simp] theorem findObject_addInstance :
    (heap.addInstance object i).findObject list o' = heap.findObject list o' :=
  findObject_congr fun _ _ => nameId_addInstance

/-- An instance that is found is not the next one to be allocated. -/
theorem WellFormed.instance_ne_next (h : heap.WellFormed list)
    (hi : heap.findInstance list o i = some objectInstance) :
    objectInstance ≠ heap.instances.next := by
  obtain ⟨x, hx, -⟩ := h.instances hi
  exact Store.ne_next hx

theorem notMem_instances {x : M2MObject} (hobject : heap.findObject list o = some object)
    (hnone : heap.findInstance list o i = none) (hx : heap.objects.get? object = some x) :
    i ∉ keys x.instances := by
  rw [findInstance, hobject] at hnone
  exact lookup_eq_none.mp (by simpa only [objectInstance, hx, Option.bind_some] using hnone)

variable (h : heap.WellFormed list) (hobject : heap.findObject list o = some object)
  (hnone : heap.findInstance list o i = none)
include h hobject hnone

theorem findInstance_addInstance :
    (heap.addInstance object i).findInstance list o' i' =
      if o' = o ∧ i' = i then some heap.instances.next else heap.findInstance list o' i' := by
  obtain ⟨x, hx, -⟩ := h.objects object (mem_of_findObject hobject)
  have hfresh := notMem_instances hobject hnone hx
  rw [findInstance, findObject_addInstance]
  by_cases ho : o' = o
  · subst ho
    simp [findInstance, hobject, objectInstance, addInstance, hx, lookup_concat hfresh]
  · rw [if_neg fun hand => ho hand.1, findInstance]
    cases hobject' : heap.findObject list o' with
    | none => rfl
    | some object' =>
      have hne : object ≠ object' := by
        rintro rfl
        have hids := (nameId_of_findObject hobject').symm.trans (nameId_of_findObject hobject)
        exact ho (Option.some.inj hids)
      simp [objectInstance, addInstance, Store.get?_modify_of_ne _ _ hne]

theorem findResource_addInstance :
    (heap.addInstance object i).findResource list o' i' r' = heap.findResource list o' i' r' := by
  rw [findResource, findInstance_addInstance h hobject hnone]
  by_cases hoi : o' = o ∧ i' = i
  · obtain ⟨rfl, rfl⟩ := hoi
    simp [findResource, hnone, resourceOf, addInstance]
  · rw [if_neg hoi, findResource]
    cases hi : heap.findInstance list o' i' with
    | none => rfl
    | some objectInstance =>
      have hne := h.instance_ne_next hi
      simp [resourceOf, addInstance, Store.get?_push_of_ne _ _ hne]

theorem WellFormed.addInstance :
    (heap.addInstance object i).WellFormed list where
  objects := by
    intro x hmem
    obtain ⟨y, hy, hkeys⟩ := h.objects x hmem
    by_cases hx : object = x
    · subst hx
      have hfresh := notMem_instances hobject hnone hy
      exact ⟨_, by simp [M2M.addInstance, hy]; rfl, nodup_keys_concat hkeys hfresh⟩
    · exact ⟨y, by simpa [M2M.addInstance, Store.get?_modify_of_ne _ _ hx] using hy, hkeys⟩
  ids := by
    rw [List.map_congr_left fun x _ => nameId_addInstance]
    exact h.ids
  instances := by
    intro o' i' x hx
    rw [findInstance_addInstance h hobject hnone] at hx
    split at hx
    · obtain rfl := Option.some.inj hx
      exact ⟨{}, by simp [M2M.addInstance], by simp [keys]⟩
    · obtain ⟨y, hy, hkeys⟩ := h.instances hx
      exact ⟨y, Store.get?_push _ _ _ hy, hkeys⟩
  unshared := by
    intro o₁ i₁ o₂ i₂ x hx hy
    rw [findInstance_addInstance h hobject hnone] at hx hy
    split at hx <;> split at hy
    · grind
    · obtain rfl := Option.some.inj hx
      exact absurd rfl (h.instance_ne_next hy)
    · obtain rfl := Option.some.inj hy
      exact absurd rfl (h.instance_ne_next hx)
    · exact h.unshared hx hy
  resources := by
    intro _ _ _ _ hx
    rw [findResource_addInstance h hobject hnone] at hx
    exact h.resources hx

end AddInstance

/-! ## Creating a resource -/

section AddResource
variable (new : M2MResource)

theorem notMem_resources {x : M2MObjectInstance}
    (hinstance : heap.findInstance list o i = some objectInstance)
    (hnone : heap.findResource list o i r = none)
    (hx : heap.instances.get? objectInstance = some x) :
    r ∉ keys x.resources := by
  rw [findResource, hinstance] at hnone
  exact lookup_eq_none.mp (by simpa only [resourceOf, hx, Option.bind_some] using hnone)

variable (h : heap.WellFormed list)
  (hinstance : heap.findInstance list o i = some objectInstance)
  (hnone : heap.findResource list o i r = none)
include h hinstance hnone

theorem findResource_addResource :
    (heap.addResource objectInstance r new).findResource list o' i' r' =
      if o' = o ∧ i' = i ∧ r' = r then some heap.resources.next
      else heap.findResource list o' i' r' := by
  obtain ⟨x, hx, -⟩ := h.instances hinstance
  have hfresh := notMem_resources hinstance hnone hx
  have hinst : (heap.addResource objectInstance r new).findInstance list o' i' =
      heap.findInstance list o' i' := rfl
  rw [findResource, hinst]
  by_cases hoi : o' = o ∧ i' = i
  · obtain ⟨rfl, rfl⟩ := hoi
    simp [findResource, hinstance, resourceOf, M2M.addResource, hx, lookup_concat hfresh]
  · rw [if_neg fun hand => hoi ⟨hand.1, hand.2.1⟩, findResource]
    cases hinstance' : heap.findInstance list o' i' with
    | none => rfl
    | some objectInstance' =>
      have hne : objectInstance ≠ objectInstance' := by
        rintro rfl
        exact hoi (h.unshared hinstance hinstance')
      simp [resourceOf, M2M.addResource, Store.get?_modify_of_ne _ _ hne]

theorem WellFormed.addResource : (heap.addResource objectInstance r new).WellFormed list where
  objects := h.objects
  ids := h.ids
  instances := by
    intro o' i' x hx
    obtain ⟨y, hy, hkeys⟩ := h.instances (show heap.findInstance list o' i' = some x from hx)
    by_cases hsame : objectInstance = x
    · subst hsame
      have hfresh := notMem_resources hinstance hnone hy
      exact ⟨_, by simp [M2M.addResource, hy]; rfl, nodup_keys_concat hkeys hfresh⟩
    · exact ⟨y, by simpa [M2M.addResource, Store.get?_modify_of_ne _ _ hsame] using hy, hkeys⟩
  unshared hx hy := h.unshared hx hy
  resources := by
    intro o' i' r' ρ hρ
    rw [findResource_addResource new h hinstance hnone] at hρ
    split at hρ
    · obtain rfl := Option.some.inj hρ
      simp [M2M.addResource]
    · obtain ⟨y, hy⟩ := Option.isSome_iff_exists.mp (h.resources hρ)
      exact Option.isSome_iff_exists.mpr ⟨y, Store.get?_push _ _ _ hy⟩

end AddResource

/-- Writing to a resource leaves the tree as it is. -/
theorem WellFormed.updateResource (h : heap.WellFormed list) (ρ : Ref M2MResource)
    (f : M2MResource → M2MResource) : (heap.updateResource ρ f).WellFormed list where
  objects := h.objects
  ids := h.ids
  instances := h.instances
  unshared := h.unshared
  resources hρ := (Store.isSome_get?_modify _ _ _ _).trans (h.resources hρ)

end M2M

/-! ## What add_resource does to the tree -/

/-- `resource`, with contents `x`, has been added at a position that was free; whatever of its
object and instance was missing has been added, and nothing else has changed. -/
structure Added (heap : M2M) (list : List (Ref M2MObject)) (heap' : M2M)
    (list' : List (Ref M2MObject)) (p : Position) (resource : Ref M2MResource)
    (x : M2MResource) : Prop where
  wellFormed : heap'.WellFormed list'
  objects : ∀ o, (heap'.findObject list' o).isSome ↔
    o = p.objectId.toNat ∨ (heap.findObject list o).isSome
  instances : ∀ o i, (heap'.findInstance list' o i).isSome ↔
    (o = p.objectId.toNat ∧ i = p.instanceId) ∨ (heap.findInstance list o i).isSome
  resources : ∀ o i r, heap'.findResource list' o i r =
    if o = p.objectId.toNat ∧ i = p.instanceId ∧ r = p.resourceId.toNat then some resource
    else heap.findResource list o i r
  fresh : heap.resources.get? resource = none
  contents : heap'.resources.get? resource = some x
  others : ∀ ρ, ρ ≠ resource → heap'.resources.get? ρ = heap.resources.get? ρ

section Added
variable {m : MbedClient} {heap heap₁ heap' : M2M} {list list₁ list' : List (Ref M2MObject)}
variable {o : Nat} {i : UInt16} {objectInstance : Ref M2MObjectInstance}

/-- The object and the instance of a position are in place, and no resource has been touched. -/
structure Prepared (heap : M2M) (list : List (Ref M2MObject)) (heap₁ : M2M)
    (list₁ : List (Ref M2MObject)) (o : Nat) (i : UInt16)
    (objectInstance : Ref M2MObjectInstance) : Prop where
  wellFormed : heap₁.WellFormed list₁
  found : heap₁.findInstance list₁ o i = some objectInstance
  objects : ∀ o', (heap₁.findObject list₁ o').isSome ↔ o' = o ∨ (heap.findObject list o').isSome
  instances : ∀ o' i', (heap₁.findInstance list₁ o' i').isSome ↔
    (o' = o ∧ i' = i) ∨ (heap.findInstance list o' i').isSome
  resources : ∀ o' i' r', heap₁.findResource list₁ o' i' r' = heap.findResource list o' i' r'
  store : heap₁.resources = heap.resources

theorem M2M.WellFormed.prepared (h : heap.WellFormed list)
    (hi : heap.findInstance list o i = some objectInstance) :
    Prepared heap list heap list o i objectInstance where
  wellFormed := h
  found := hi
  objects o' := by
    have hsome : (heap.findObject list o).isSome := by
      rw [M2M.findInstance, Option.bind_eq_some_iff] at hi
      obtain ⟨object, hobject, -⟩ := hi
      simp [hobject]
    grind
  instances o' i' := by grind
  resources _ _ _ := rfl
  store := rfl

theorem M2M.WellFormed.prepared_addInstance (h : heap.WellFormed list) {object : Ref M2MObject}
    (hobject : heap.findObject list o = some object)
    (hnone : heap.findInstance list o i = none) :
    Prepared heap list (heap.addInstance object i) list o i heap.instances.next where
  wellFormed := h.addInstance hobject hnone
  found := by simp [M2M.findInstance_addInstance h hobject hnone]
  objects o' := by
    rw [M2M.findObject_addInstance]
    grind
  instances o' i' := by
    rw [M2M.findInstance_addInstance h hobject hnone]
    grind
  resources o' i' r' := M2M.findResource_addInstance h hobject hnone
  store := rfl

theorem M2M.WellFormed.prepared_addObject (h : heap.WellFormed list)
    (hnone : heap.findObject list o = none)
    (p : Prepared (heap.addObject o) (list ++ [heap.objects.next]) heap₁ list₁ o i objectInstance) :
    Prepared heap list heap₁ list₁ o i objectInstance where
  wellFormed := p.wellFormed
  found := p.found
  objects o' := by
    rw [p.objects, M2M.findObject_addObject h hnone]
    grind
  instances o' i' := by rw [p.instances, M2M.findInstance_addObject h hnone]
  resources o' i' r' := by rw [p.resources, M2M.findResource_addObject h hnone]
  store := p.store

/-- In a prepared tree the resource is created, unless its position is taken. -/
theorem Prepared.createResource (hm : m.Lawful) {a : AddResourceArgs}
    (p : Prepared heap list heap₁ list₁ a.objectId.toNat a.instanceId objectInstance) :
    (∃ ρ, heap.resourceAt list a.position = some ρ ∧
      createResource m list₁ a objectInstance heap₁ = none) ∨
    heap.resourceAt list a.position = none ∧ ∃ heap',
      createResource m list₁ a objectInstance heap₁ =
        some (heap.resources.next, list₁, heap') ∧
      Added heap list heap' list₁ a.position heap.resources.next a.result := by
  obtain ⟨x, hx, -⟩ := p.wellFormed.instances p.found
  have hlt : a.resourceId.toNat < 2 ^ 16 := a.resourceId.toNat_lt
  rw [M2M.resourceAt, ← p.resources, AddResourceArgs.position]
  cases htaken : heap₁.findResource list₁ a.objectId.toNat a.instanceId a.resourceId.toNat with
  | some ρ =>
    have hmem : a.resourceId.toNat ∈ keys x.resources := by
      rw [← isSome_lookup]
      simpa only [M2M.findResource, p.found, Option.bind_some, M2M.resourceOf, hx]
        using Option.isSome_of_eq_some htaken
    refine .inl ⟨ρ, rfl, ?_⟩
    simp [SimpleCloudClient.createResource, snprintf_eq,
      hm.createDynamicResource_taken _ _ _ _ _ _ _ hlt hx hmem]
  | none =>
    have hfresh := M2M.notMem_resources p.found htaken hx
    have hconf := configure_eq hm a heap₁.resources.next
      (heap₁.addResource objectInstance a.resourceId.toNat a.created)
    have hcreate := hm.createDynamicResource objectInstance a.resourceId.toNat a.resourceType
      a.dataType a.observable heap₁ x hlt hx hfresh
    refine .inr ⟨rfl, _, by
      rw [SimpleCloudClient.createResource, snprintf_eq, hcreate, ← p.store]
      exact congrArg (fun h => some (heap₁.resources.next, list₁, h)) hconf, ?_⟩
    exact {
      wellFormed := (p.wellFormed.addResource _ p.found htaken).updateResource _ a.configured
      objects := p.objects
      instances := p.instances
      resources := fun o' i' r' => by
        rw [← p.resources, ← p.store]
        exact M2M.findResource_addResource a.created p.wellFormed p.found htaken
      fresh := by simp
      contents := by simp [M2M.updateResource, M2M.addResource, ← p.store, configured_created]
      others := fun ρ hρ => by
        rw [← p.store] at hρ ⊢
        simp [M2M.updateResource, M2M.addResource, Store.get?_modify_of_ne _ _ (Ne.symm hρ),
          Store.get?_push_of_ne _ _ hρ] }

/-- `add_resource` adds exactly the requested position, or meets the NULL pointer that
`create_dynamic_resource` returns for an id that is taken. -/
theorem addResource_cases (hm : m.Lawful) (h : heap.WellFormed list) (a : AddResourceArgs) :
    (∃ ρ, heap.resourceAt list a.position = some ρ ∧ addResource m list a heap = none) ∨
    heap.resourceAt list a.position = none ∧ ∃ list' heap',
      addResource m list a heap = some (heap.resources.next, list', heap') ∧
      Added heap list heap' list' a.position heap.resources.next a.result := by
  have hlt : a.objectId.toNat < 2 ^ 16 := a.objectId.toNat_lt
  suffices hprep : ∃ heap₁ list₁ objectInstance,
      Prepared heap list heap₁ list₁ a.objectId.toNat a.instanceId objectInstance ∧
      addResource m list a heap = createResource m list₁ a objectInstance heap₁ by
    obtain ⟨heap₁, list₁, objectInstance, p, heq⟩ := hprep
    rw [heq]
    rcases p.createResource hm with htaken | ⟨hfree, heap', hnew, hadded⟩
    · exact .inl htaken
    · exact .inr ⟨hfree, list₁, heap', hnew, hadded⟩
  cases hobject : heap.findObject list a.objectId.toNat with
  | some object =>
    obtain ⟨x, hx, -⟩ := h.objects object (M2M.mem_of_findObject hobject)
    have hfind := hobject
    rw [M2M.findObject] at hfind
    cases hinstance : heap.findInstance list a.objectId.toNat a.instanceId with
    | some objectInstance =>
      have hi : heap.objectInstance object a.instanceId = some objectInstance := by
        simpa [M2M.findInstance, hobject] using hinstance
      exact ⟨heap, list, objectInstance, h.prepared hinstance, by simp [addResource, hfind, hi]⟩
    | none =>
      have hi : heap.objectInstance object a.instanceId = none := by
        simpa [M2M.findInstance, hobject] using hinstance
      have hcreate := hm.createObjectInstance object a.instanceId heap x hx
        (M2M.notMem_instances hobject hinstance hx)
      exact ⟨_, list, _, h.prepared_addInstance hobject hinstance, by
        simp [addResource, hfind, hi, hcreate]⟩
  | none =>
    have hwf := h.addObject hobject
    have hnew : (heap.addObject a.objectId.toNat).findObject (list ++ [heap.objects.next])
        a.objectId.toNat = some heap.objects.next := by
      simp [M2M.findObject_addObject h hobject]
    have hinstance : (heap.addObject a.objectId.toNat).findInstance (list ++ [heap.objects.next])
        a.objectId.toNat a.instanceId = none := by
      rw [M2M.findInstance_addObject h hobject, M2M.findInstance, hobject]
      rfl
    have hcreate := hm.createObjectInstance heap.objects.next a.instanceId
      (heap.addObject a.objectId.toNat) { nameId := a.objectId.toNat } (by simp [M2M.addObject])
      (by simp)
    refine ⟨_, _, _, h.prepared_addObject hobject (hwf.prepared_addInstance hnew hinstance), ?_⟩
    rw [M2M.findObject] at hobject
    simp [addResource, hobject, snprintf_eq, hm.createObject _ _ hlt, hcreate]

end Added

end SimpleCloudClient
