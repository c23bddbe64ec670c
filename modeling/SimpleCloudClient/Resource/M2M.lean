import SimpleCloudClient.Library.Store
import SimpleCloudClient.Library.CString

/-!
# The objects of mbed-client

mbed-client is a separate library: its functions are a parameter, and `Lawful` states what the
client relies on. The data here is what the library lets a caller observe: the id of an object,
its instances by id, the resources of an instance by id, and the attributes of a resource.
Objects live in stores and are handled by pointers, so that an instance found once keeps its
identity while others are added.
-/
namespace SimpleCloudClient
open CString Memory

/-- `M2MResourceInstance::ResourceType`; the client registers text resources only. -/
inductive ResourceType where
  | STRING
  deriving DecidableEq, Repr

/-- The address of an internal `Callback` member of an `MbedCloudClientResource`. Which of the
three members it is follows from where the address is used. -/
structure InternalCallback where
  owner : Nat
  deriving DecidableEq, Repr

structure M2MResource where
  resourceType : Text
  dataType : ResourceType
  observable : Bool
  value : List UInt8 := []
  operation : UInt32 := 0
  notificationDeliveryStatusCb : Option InternalCallback := none
  valueUpdatedFunction : Option InternalCallback := none
  executeFunction : Option InternalCallback := none
  deriving DecidableEq

structure M2MObjectInstance where
  resources : List (Nat × Ref M2MResource) := []
  deriving DecidableEq

structure M2MObject where
  nameId : Nat
  instances : List (UInt16 × Ref M2MObjectInstance) := []
  deriving DecidableEq

/-- Everything mbed-client has allocated. -/
structure M2M where
  objects : Store M2MObject := {}
  instances : Store M2MObjectInstance := {}
  resources : Store M2MResource := {}
  deriving DecidableEq

namespace M2M

/-- `M2MObject::name_id`. -/
def nameId (heap : M2M) (object : Ref M2MObject) : Option Nat :=
  (heap.objects.get? object).map (·.nameId)

/-- `M2MObject::object_instance`: the instance with this id, or NULL. -/
def objectInstance (heap : M2M) (object : Ref M2MObject) (id : UInt16) :
    Option (Ref M2MObjectInstance) :=
  (heap.objects.get? object).bind fun o => o.instances.lookup id

/-- `M2MResource::get_value_string`. -/
def getValueString (heap : M2M) (resource : Ref M2MResource) : List UInt8 :=
  ((heap.resources.get? resource).map (·.value)).getD []

def addObject (heap : M2M) (id : Nat) : M2M :=
  { heap with objects := heap.objects.push { nameId := id } }

def addInstance (heap : M2M) (object : Ref M2MObject) (id : UInt16) : M2M :=
  { heap with
    objects := heap.objects.modify object fun o =>
      { o with instances := o.instances ++ [(id, heap.instances.next)] }
    instances := heap.instances.push {} }

def addResource (heap : M2M) (parent : Ref M2MObjectInstance) (id : Nat) (r : M2MResource) : M2M :=
  { heap with
    instances := heap.instances.modify parent fun i =>
      { i with resources := i.resources ++ [(id, heap.resources.next)] }
    resources := heap.resources.push r }

def updateResource (heap : M2M) (resource : Ref M2MResource) (f : M2MResource → M2MResource) :
    M2M :=
  { heap with resources := heap.resources.modify resource f }

end M2M

/-- The functions of mbed-client that the client calls. A NULL result is `none`. -/
structure MbedClient where
  createObject : Text → M2M → Option (Ref M2MObject) × M2M
  createObjectInstance : Ref M2MObject → UInt16 → M2M → Option (Ref M2MObjectInstance) × M2M
  createDynamicResource : Ref M2MObjectInstance → Text → Text → ResourceType → Bool → M2M →
    Option (Ref M2MResource) × M2M
  setValue : Ref M2MResource → List UInt8 → M2M → M2M
  setOperation : Ref M2MResource → UInt32 → M2M → M2M
  setNotificationDeliveryStatusCb : Ref M2MResource → Option InternalCallback → M2M → M2M
  setValueUpdatedFunction : Ref M2MResource → InternalCallback → M2M → M2M
  setExecuteFunction : Ref M2MResource → InternalCallback → M2M → M2M
  /-- `m2m::String::append_int`, to an empty string. -/
  appendInt : Int32 → Text

/-- The documented behaviour of mbed-client. An object is created from a decimal name; a child
is added, fresh and empty, when the parent has none of that id, and is refused otherwise. A number
is appended in decimal. -/
structure MbedClient.Lawful (m : MbedClient) : Prop where
  createObject : ∀ (id : Nat) (heap : M2M), id < 2 ^ 16 →
    m.createObject (ofNat id) heap = (some heap.objects.next, heap.addObject id)
  createObjectInstance : ∀ (object : Ref M2MObject) (id : UInt16) (heap : M2M) (o : M2MObject),
    heap.objects.get? object = some o → id ∉ o.instances.map (·.1) →
    m.createObjectInstance object id heap =
      (some heap.instances.next, heap.addInstance object id)
  createObjectInstance_taken :
    ∀ (object : Ref M2MObject) (id : UInt16) (heap : M2M) (o : M2MObject),
    heap.objects.get? object = some o → id ∈ o.instances.map (·.1) →
    m.createObjectInstance object id heap = (none, heap)
  createDynamicResource : ∀ (parent : Ref M2MObjectInstance) (id : Nat) (type : Text)
    (dataType : ResourceType) (observable : Bool) (heap : M2M) (i : M2MObjectInstance),
    id < 2 ^ 16 → heap.instances.get? parent = some i → id ∉ i.resources.map (·.1) →
    m.createDynamicResource parent (ofNat id) type dataType observable heap =
      (some heap.resources.next,
        heap.addResource parent id { resourceType := type, dataType, observable })
  createDynamicResource_taken : ∀ (parent : Ref M2MObjectInstance) (id : Nat) (type : Text)
    (dataType : ResourceType) (observable : Bool) (heap : M2M) (i : M2MObjectInstance),
    id < 2 ^ 16 → heap.instances.get? parent = some i → id ∈ i.resources.map (·.1) →
    m.createDynamicResource parent (ofNat id) type dataType observable heap = (none, heap)
  setValue : ∀ (resource : Ref M2MResource) (value : List UInt8) (heap : M2M),
    m.setValue resource value heap = heap.updateResource resource ({ · with value })
  setOperation : ∀ (resource : Ref M2MResource) (operation : UInt32) (heap : M2M),
    m.setOperation resource operation heap = heap.updateResource resource ({ · with operation })
  setNotificationDeliveryStatusCb :
    ∀ (resource : Ref M2MResource) (cb : Option InternalCallback) (heap : M2M),
    m.setNotificationDeliveryStatusCb resource cb heap =
      heap.updateResource resource ({ · with notificationDeliveryStatusCb := cb })
  setValueUpdatedFunction : ∀ (resource : Ref M2MResource) (cb : InternalCallback) (heap : M2M),
    m.setValueUpdatedFunction resource cb heap =
      heap.updateResource resource ({ · with valueUpdatedFunction := some cb })
  setExecuteFunction : ∀ (resource : Ref M2MResource) (cb : InternalCallback) (heap : M2M),
    m.setExecuteFunction resource cb heap =
      heap.updateResource resource ({ · with executeFunction := some cb })
  appendInt : ∀ n : Int32, m.appendInt n = ofInt n.toInt

/-- An implementation that behaves as documented, to run the client against. -/
def MbedClient.reference : MbedClient where
  createObject name heap := (some heap.objects.next, heap.addObject (value name.bytes))
  createObjectInstance object id heap :=
    match heap.objects.get? object with
    | some o =>
      if id ∈ o.instances.map (·.1) then (none, heap)
      else (some heap.instances.next, heap.addInstance object id)
    | none => (none, heap)
  createDynamicResource parent name type dataType observable heap :=
    match heap.instances.get? parent with
    | some i =>
      if value name.bytes ∈ i.resources.map (·.1) then (none, heap)
      else (some heap.resources.next, heap.addResource parent (value name.bytes)
        { resourceType := type, dataType, observable })
    | none => (none, heap)
  setValue resource value heap := heap.updateResource resource ({ · with value })
  setOperation resource operation heap := heap.updateResource resource ({ · with operation })
  setNotificationDeliveryStatusCb resource cb heap :=
    heap.updateResource resource ({ · with notificationDeliveryStatusCb := cb })
  setValueUpdatedFunction resource cb heap :=
    heap.updateResource resource ({ · with valueUpdatedFunction := some cb })
  setExecuteFunction resource cb heap :=
    heap.updateResource resource ({ · with executeFunction := some cb })
  appendInt n := ofInt n.toInt

theorem MbedClient.reference_lawful : MbedClient.reference.Lawful where
  createObject id heap _ := by simp [reference, ofNat]
  createObjectInstance object id heap o ho hid := by simp only [reference, ho, if_neg hid]
  createObjectInstance_taken object id heap o ho hid := by simp only [reference, ho, if_pos hid]
  createDynamicResource parent id type dataType observable heap i _ hi hid := by
    simp only [reference, hi, ofNat, value_decimal, if_neg hid]
  createDynamicResource_taken parent id type dataType observable heap i _ hi hid := by
    simp only [reference, hi, ofNat, value_decimal, if_pos hid]
  setValue _ _ _ := rfl
  setOperation _ _ _ := rfl
  setNotificationDeliveryStatusCb _ _ _ := rfl
  setValueUpdatedFunction _ _ _ := rfl
  setExecuteFunction _ _ _ := rfl
  appendInt _ := rfl

end SimpleCloudClient
