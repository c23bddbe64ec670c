import SimpleCloudClient.Resource.M2M
import SimpleCloudClient.Resource.PathIds

/-!
# MbedCloudClientResource

A resource the application has created. Until it is registered its value lives in the member
`value`; from then on it lives in the M2M resource it is bound to. The constructor leaves
`isObservable` and `methodMask` as they were in memory, so their first contents are an argument.
-/
namespace SimpleCloudClient
open CString Memory

/-- A function of the application, attached as a callback. -/
structure AppCallback where
  id : Nat
  deriving DecidableEq, Repr

structure MbedCloudClientResource where
  resource : Option (Ref M2MResource)
  path : Text
  name : Text
  value : Text
  isObservable : Bool
  methodMask : UInt32
  putCallback : Option AppCallback
  postCallback : Option AppCallback
  notificationCallback : Option AppCallback
  deriving DecidableEq

/-- The members that no constructor initialises. -/
structure RawMemory where
  isObservable : Bool
  methodMask : UInt32
  deriving DecidableEq, Repr

/-- `mcc_resource_def`, through which a resource is handed to `add_resource`. -/
structure MccResourceDef where
  ids : Ids
  name : Text
  methodMask : UInt32
  value : List UInt8
  observable : Bool
  putCallback : Option InternalCallback
  postCallback : Option InternalCallback
  notificationCallback : Option InternalCallback
  deriving DecidableEq

/-- `M2MResource::get_value_int` on the stored text, and `atof` and `0.0f` of the type of floats. -/
structure Parsers (F : Type) where
  getValueInt : List UInt8 → Int32
  atof : Text → F
  zero : F

/-- The values of an `int`. -/
def FitsInt (n : Int) : Prop := -2 ^ 31 ≤ n ∧ n < 2 ^ 31

/-- mbed-client reads a decimal integer, and without a number `atof` is 0. -/
structure Parsers.Lawful {F : Type} (p : Parsers F) : Prop where
  getValueInt : ∀ text, FitsInt (readInt text) → (p.getValueInt text).toInt = readInt text
  atof_empty : p.atof empty = p.zero

namespace MbedCloudClientResource

def construct (memory : RawMemory) (path name : Text) : MbedCloudClientResource where
  resource := none
  path := path
  name := name
  value := empty
  isObservable := memory.isObservable
  methodMask := memory.methodMask
  putCallback := none
  postCallback := none
  notificationCallback := none

variable (r : MbedCloudClientResource)

def observable (observable : Bool) : MbedCloudClientResource :=
  { r with isObservable := observable }
def methods (methodMask : UInt32) : MbedCloudClientResource := { r with methodMask }

def attachPutCallback (callback : AppCallback) : MbedCloudClientResource :=
  { r with putCallback := some callback }
def attachPostCallback (callback : AppCallback) : MbedCloudClientResource :=
  { r with postCallback := some callback }
def attachNotificationCallback (callback : AppCallback) : MbedCloudClientResource :=
  { r with notificationCallback := some callback }

def detachPutCallback : MbedCloudClientResource := { r with putCallback := none }
def detachPostCallback : MbedCloudClientResource := { r with postCallback := none }
def detachNotificationCallback : MbedCloudClientResource := { r with notificationCallback := none }

/-- The second half of every setter: the M2M resource is told, if there is one. -/
def forward (m : MbedClient) (bytes : List UInt8) (heap : M2M) : M2M :=
  match r.resource with
  | some resource => m.setValue resource bytes heap
  | none => heap

/-- `set_value(int)`. -/
def setValueInt (m : MbedClient) (value : Int32) (heap : M2M) : MbedCloudClientResource × M2M :=
  let r := { r with value := m.appendInt value }
  (r, r.forward m r.value.bytes heap)

/-- `set_value(const char *)`. -/
def setValueString (m : MbedClient) (value : Text) (heap : M2M) : MbedCloudClientResource × M2M :=
  let r := { r with value }
  (r, r.forward m r.value.bytes heap)

/-- `set_value(float)`; `format` is the `%g` conversion. The text goes to the M2M resource only. -/
def setValueFloat (m : MbedClient) (format : Float32 → Text) (value : Float32) (heap : M2M) :
    MbedCloudClientResource × M2M :=
  (r, r.forward m (format value).bytes heap)

def getValue (heap : M2M) : List UInt8 :=
  match r.resource with
  | some resource => heap.getValueString resource
  | none => r.value.bytes

/-- `get_value_int`; 0 as long as there is no M2M resource. -/
def getValueInt {F : Type} (p : Parsers F) (heap : M2M) : Int32 :=
  match r.resource with
  | none => 0
  | some resource => p.getValueInt (heap.getValueString resource)

/-- `get_value_float`; `0.0f` as long as there is no M2M resource. -/
def getValueFloat {F : Type} (p : Parsers F) (heap : M2M) : F :=
  match r.resource with
  | none => p.zero
  | some _ => p.atof (ofMemory (r.getValue heap))

/-- `get_data`; `this` is the address of the resource and `resourceDef` what the structure held. -/
def getData (this : Nat) (heap : M2M) (resourceDef : MccResourceDef) : MccResourceDef where
  ids := pathToIds r.path resourceDef.ids
  name := r.name
  methodMask := r.methodMask
  observable := r.isObservable
  value := r.getValue heap
  putCallback := some ⟨this⟩
  postCallback := some ⟨this⟩
  notificationCallback := some ⟨this⟩

def setM2mResource (res : Ref M2MResource) : MbedCloudClientResource :=
  { r with resource := some res }

variable {r}

/-- An `int` is set as its decimal text. -/
theorem setValueInt_eq {m : MbedClient} (hm : m.Lawful) (value : Int32) (heap : M2M) :
    r.setValueInt m value heap = r.setValueString m (ofInt value.toInt) heap := by
  simp only [setValueInt, setValueString, hm.appendInt]

theorem getValue_of_unbound (h : r.resource = none) (heap : M2M) :
    r.getValue heap = r.value.bytes := by simp [getValue, h]

theorem getValue_of_bound {resource : Ref M2MResource} (h : r.resource = some resource)
    (heap : M2M) : r.getValue heap = heap.getValueString resource := by simp [getValue, h]

/-- Nothing but the path and the previous ids decides the ids. -/
theorem ids_getData (this : Nat) (heap : M2M) (d : MccResourceDef) :
    (r.getData this heap d).ids = pathToIds r.path d.ids := rfl

end MbedCloudClientResource

end SimpleCloudClient
