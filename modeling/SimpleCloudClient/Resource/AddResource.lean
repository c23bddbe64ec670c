import SimpleCloudClient.Resource.M2M

/-!
# add_resource

The function finds the object and the instance of a resource, creating what is missing, creates
the resource and configures it. It dereferences whatever the find-or-create steps returned, so
the result is `none` where the code would use a NULL pointer.
-/
namespace SimpleCloudClient
open CString Memory

/-- The arguments of `add_resource` after the list. -/
structure AddResourceArgs where
  objectId : UInt16
  instanceId : UInt16
  resourceId : UInt16
  resourceType : Text
  dataType : ResourceType
  allowed : UInt32
  value : Text
  observable : Bool
  putCb : Option InternalCallback
  postCb : Option InternalCallback
  notificationStatusCb : Option InternalCallback
  deriving DecidableEq

/-- A place in the tree: three numbers of the 16-bit id space. -/
structure Position where
  objectId : UInt16
  instanceId : UInt16
  resourceId : UInt16
  deriving DecidableEq, Repr

def AddResourceArgs.position (a : AddResourceArgs) : Position :=
  ⟨a.objectId, a.instanceId, a.resourceId⟩

/-- `snprintf(name, 6, "%d", id)`: at most five characters fit. -/
def snprintf (id : UInt16) : Text where
  bytes := (decimal id.toNat).take 5
  noNul h := zero_notMem_decimal _ (List.mem_of_mem_take h)

/-- Value, operations and callbacks, in the order in which they are set. -/
def configure (m : MbedClient) (a : AddResourceArgs) (resource : Ref M2MResource) (heap : M2M) :
    M2M :=
  let heap := if a.value.bytes ≠ [] then m.setValue resource a.value.bytes heap else heap
  let heap := m.setOperation resource a.allowed heap
  let heap :=
    if a.observable then m.setNotificationDeliveryStatusCb resource a.notificationStatusCb heap
    else heap
  let heap :=
    match a.putCb with
    | some cb => m.setValueUpdatedFunction resource cb heap
    | none => heap
  match a.postCb with
  | some cb => m.setExecuteFunction resource cb heap
  | none => heap

/-- The last part of `add_resource`, from the creation of the resource on. -/
def createResource (m : MbedClient) (list : List (Ref M2MObject)) (a : AddResourceArgs)
    (objectInstance : Ref M2MObjectInstance) (heap : M2M) :
    Option (Ref M2MResource × List (Ref M2MObject) × M2M) := do
  let (resource, heap) := m.createDynamicResource objectInstance (snprintf a.resourceId)
    a.resourceType a.dataType a.observable heap
  let resource ← resource
  return (resource, list, configure m a resource heap)

def addResource (m : MbedClient) (list : List (Ref M2MObject)) (a : AddResourceArgs) (heap : M2M) :
    Option (Ref M2MResource × List (Ref M2MObject) × M2M) := do
  -- the object and, if the object existed, its instance
  let (object, objectInstance, list, heap) ←
    match list.find? fun object => heap.nameId object == some a.objectId.toNat with
    | some object => some (object, heap.objectInstance object a.instanceId, list, heap)
    | none =>
      let (object, heap) := m.createObject (snprintf a.objectId) heap
      object.map fun object => (object, none, list ++ [object], heap)
  let (objectInstance, heap) :=
    match objectInstance with
    | some objectInstance => (some objectInstance, heap)
    | none => m.createObjectInstance object a.instanceId heap
  let objectInstance ← objectInstance
  createResource m list a objectInstance heap

/-- The buffer is large enough for every 16-bit id. -/
theorem snprintf_eq (id : UInt16) : snprintf id = ofNat id.toNat := by
  have hlen : (decimal id.toNat).length ≤ 5 :=
    length_decimal_le (by decide) (Nat.lt_of_lt_of_le id.toNat_lt (by decide))
  simp [snprintf, ofNat, List.take_of_length_le hlen]

/-- The resource as `create_dynamic_resource` makes it. -/
def AddResourceArgs.created (a : AddResourceArgs) : M2MResource where
  resourceType := a.resourceType
  dataType := a.dataType
  observable := a.observable

/-- The resource after it has been configured. -/
def AddResourceArgs.result (a : AddResourceArgs) : M2MResource where
  resourceType := a.resourceType
  dataType := a.dataType
  observable := a.observable
  value := a.value.bytes
  operation := a.allowed
  notificationDeliveryStatusCb := if a.observable then a.notificationStatusCb else none
  valueUpdatedFunction := a.putCb
  executeFunction := a.postCb

theorem M2M.updateResource_updateResource (heap : M2M) (resource : Ref M2MResource)
    (f g : M2MResource → M2MResource) :
    (heap.updateResource resource f).updateResource resource g =
      heap.updateResource resource (g ∘ f) := by
  simp [M2M.updateResource, Store.modify, List.modify_modify_eq]

theorem M2M.updateResource_id (heap : M2M) (resource : Ref M2MResource) :
    heap.updateResource resource id = heap := by
  simp [M2M.updateResource, Store.modify]

/-- What the configuration steps make of a resource. -/
def AddResourceArgs.configured (a : AddResourceArgs) (x : M2MResource) : M2MResource :=
  { x with
    value := if a.value.bytes ≠ [] then a.value.bytes else x.value
    operation := a.allowed
    notificationDeliveryStatusCb :=
      if a.observable then a.notificationStatusCb else x.notificationDeliveryStatusCb
    valueUpdatedFunction := a.putCb <|> x.valueUpdatedFunction
    executeFunction := a.postCb <|> x.executeFunction }

/-- The configuration steps touch the new resource only. -/
theorem configure_eq {m : MbedClient} (hm : m.Lawful) (a : AddResourceArgs)
    (resource : Ref M2MResource) (heap : M2M) :
    configure m a resource heap = heap.updateResource resource a.configured := by
  -- a step that is left out is the update that changes nothing
  have hvalue (heap : M2M) :
      (if a.value.bytes ≠ [] then m.setValue resource a.value.bytes heap else heap) =
        heap.updateResource resource fun x =>
          { x with value := if a.value.bytes ≠ [] then a.value.bytes else x.value } := by
    split
    · exact hm.setValue ..
    · exact (heap.updateResource_id resource).symm
  have hnotification (heap : M2M) :
      (if a.observable then
        m.setNotificationDeliveryStatusCb resource a.notificationStatusCb heap else heap) =
        heap.updateResource resource fun x => { x with notificationDeliveryStatusCb :=
          if a.observable then a.notificationStatusCb else x.notificationDeliveryStatusCb } := by
    split
    · exact hm.setNotificationDeliveryStatusCb ..
    · exact (heap.updateResource_id resource).symm
  have hput (heap : M2M) :
      (match a.putCb with
        | some cb => m.setValueUpdatedFunction resource cb heap
        | none => heap) =
        heap.updateResource resource fun x =>
          { x with valueUpdatedFunction := a.putCb <|> x.valueUpdatedFunction } := by
    cases a.putCb with
    | some cb => exact hm.setValueUpdatedFunction ..
    | none => exact (heap.updateResource_id resource).symm
  have hpost (heap : M2M) :
      (match a.postCb with
        | some cb => m.setExecuteFunction resource cb heap
        | none => heap) =
        heap.updateResource resource fun x =>
          { x with executeFunction := a.postCb <|> x.executeFunction } := by
    cases a.postCb with
    | some cb => exact hm.setExecuteFunction ..
    | none => exact (heap.updateResource_id resource).symm
  simp only [configure, hvalue, hm.setOperation, hnotification]
  refine ((hpost _).trans (congrArg (M2M.updateResource · resource _) (hput _))).trans ?_
  simp only [M2M.updateResource_updateResource]
  rfl

theorem configured_created (a : AddResourceArgs) : a.configured a.created = a.result := by
  simp [AddResourceArgs.configured, AddResourceArgs.created, AddResourceArgs.result]

end SimpleCloudClient
