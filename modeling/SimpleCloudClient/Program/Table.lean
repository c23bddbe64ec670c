import SimpleCloudClient.Library.Simulation
import SimpleCloudClient.Registration.Values

/-!
# What a client is for

An application sees a client as a table of values with callbacks. Registration exposes the entries
to the cloud, with the methods and the observability that they have at that moment; from then on
the cloud can write, execute and acknowledge them. There are no pointers here, no objects of
mbed-client and no internal callbacks.
-/
namespace SimpleCloudClient
open CString Memory Procedure SimpleMbedCloudClient Transition

/-- What registration fixes about an entry. -/
structure Exposure where
  methodMask : UInt32
  notifies : Bool
  deriving DecidableEq, Repr

/-- A resource as its application sees it. -/
structure Entry where
  value : List UInt8
  isObservable : Bool
  methodMask : UInt32
  putCallback : Option AppCallback
  postCallback : Option AppCallback
  notificationCallback : Option AppCallback
  exposure : Option Exposure
  deriving DecidableEq

structure Table where
  entries : List Entry := []
  registered : Bool := false
  deriving DecidableEq

namespace Entry

def fresh (memory : RawMemory) : Entry where
  value := []
  isObservable := memory.isObservable
  methodMask := memory.methodMask
  putCallback := none
  postCallback := none
  notificationCallback := none
  exposure := none

def expose (e : Entry) : Entry := { e with exposure := some ⟨e.methodMask, e.isObservable⟩ }

/-- Every setter sets the value, but a float reaches exposed entries only. -/
def change (cfg : Config) (e : Entry) : ResourceChange → Entry
  | .observable isObservable => { e with isObservable }
  | .methods methodMask => { e with methodMask }
  | .attachPutCallback cb => { e with putCallback := some cb }
  | .attachPostCallback cb => { e with postCallback := some cb }
  | .attachNotificationCallback cb => { e with notificationCallback := some cb }
  | .detachPutCallback => { e with putCallback := none }
  | .detachPostCallback => { e with postCallback := none }
  | .detachNotificationCallback => { e with notificationCallback := none }
  | .setValueInt value => { e with value := (ofInt value.toInt).bytes }
  | .setValueString value => { e with value := value.bytes }
  | .setValueFloat value =>
    if e.exposure.isSome then { e with value := (cfg.formatG value).bytes } else e

end Entry

namespace Table

def set (t : Table) (i : Nat) (e : Entry) : Table := { t with entries := t.entries.set i e }

/-- The entry with index `i`, if the cloud can reach it, and its exposure. -/
def exposed (t : Table) (i : Nat) : Option (Entry × Exposure) :=
  t.entries[i]?.bind fun e => e.exposure.map fun exposure => (e, exposure)

/-- The first registration exposes the entries that there are. -/
def register (t : Table) : Table :=
  if t.registered then t else ⟨t.entries.map .expose, true⟩

/-- The response to an operation: the new table and the callbacks invoked. -/
def step (cfg : Config) : Machine Table Operation (List Command)
  | t, .registerAndConnect _ => some (t.register, [])
  | t, .createResource memory _ _ =>
    some ({ t with entries := t.entries ++ [.fresh memory] }, [])
  | t, .changeResource i change =>
    t.entries[i]?.map fun e => (t.set i (e.change cfg change), [])
  | t, .cloudWrite i value => (t.exposed i).map fun p =>
    (t.set i { p.1 with value }, (p.1.putCallback.map (Command.putCallback · i value)).toList)
  | t, .cloudExecute i params => (t.exposed i).map fun p =>
    (t, (p.1.postCallback.bind fun cb => params.map (.postCallback cb i)).toList)
  | t, .cloudNotification i status => (t.exposed i).map fun p =>
    (t, if p.2.notifies then
      (p.1.notificationCallback.map (Command.notificationCallback · i status)).toList else [])
  | t, _ => some (t, [])

end Table

/-! ## The table of a client -/

/-- The M2M resource that a resource is bound to. -/
def MbedCloudClientResource.bound (r : MbedCloudClientResource) (heap : M2M) :
    Option M2MResource := r.resource.bind heap.resources.get?

def M2MResource.exposure (x : M2MResource) : Exposure :=
  ⟨x.operation, x.notificationDeliveryStatusCb.isSome⟩

def MbedCloudClientResource.entry (r : MbedCloudClientResource) (heap : M2M) : Entry where
  value := r.getValue heap
  isObservable := r.isObservable
  methodMask := r.methodMask
  putCallback := r.putCallback
  postCallback := r.postCallback
  notificationCallback := r.notificationCallback
  exposure := (r.bound heap).map (·.exposure)

def Context.table (c : Context) : Table where
  entries := c.self.resources.map (·.entry c.heap)
  registered := c.self.registerAndConnectCalled

/-- The callbacks of resources invoked in a trace. -/
def invoked (tr : List CloudEvent) : List Command :=
  tr.filterMap fun
    | ⟨.command (.putCallback cb i value), _⟩ => some (.putCallback cb i value)
    | ⟨.command (.postCallback cb i buffer), _⟩ => some (.postCallback cb i buffer)
    | ⟨.command (.notificationCallback cb i status), _⟩ => some (.notificationCallback cb i status)
    | _ => none

/-- The internal callbacks of a bound M2M resource belong to the resource that is bound to it. -/
def M2MResource.OwnedBy (x : M2MResource) (k : Nat) : Prop :=
  x.valueUpdatedFunction = some ⟨k⟩ ∧ x.executeFunction = some ⟨k⟩ ∧
    x.notificationDeliveryStatusCb = if x.exposure.notifies then some ⟨k⟩ else none

/-- What carries the abstraction: bound resources exist, are not shared and call back their own
resource. -/
structure Sound (c : Context) : Prop where
  linked : Linked c
  owned : ∀ {k : Nat} {r : MbedCloudClientResource} {ρ : Ref M2MResource} {x : M2MResource},
    c.self.resources[k]? = some r → r.resource = some ρ → c.heap.resources.get? ρ = some x →
    x.OwnedBy k

variable {c : Context} {k : Nat} {r : MbedCloudClientResource} {ρ : Ref M2MResource}
variable {x : M2MResource} {heap : M2M}

theorem getElem?_table : c.table.entries[k]? = c.self.resources[k]?.map (·.entry c.heap) := by
  simp [Context.table]

theorem table_exposed (hr : c.self.resources[k]? = some r) (hρ : r.resource = some ρ)
    (hx : c.heap.resources.get? ρ = some x) :
    c.table.exposed k = some (r.entry c.heap, x.exposure) := by
  simp [Table.exposed, getElem?_table, hr, MbedCloudClientResource.entry,
    MbedCloudClientResource.bound, hρ, hx]

/-- An entry is not exposed exactly if its resource is not bound. -/
theorem Sound.table_exposed_eq_none (h : Sound c) : c.table.exposed k = none ↔
    ∀ r, c.self.resources[k]? = some r → r.resource = none := by
  cases hr : c.self.resources[k]? with
  | none => simp [Table.exposed, getElem?_table, hr]
  | some r =>
    cases hρ : r.resource with
    | none => simp [Table.exposed, getElem?_table, hr, MbedCloudClientResource.entry,
        MbedCloudClientResource.bound, hρ]
    | some ρ =>
      obtain ⟨x, hx⟩ := Option.isSome_iff_exists.mp (h.linked.exist hr hρ)
      simp [table_exposed hr hρ hx, hρ]

/-- What a resource shows depends on nothing but the M2M resource it is bound to. -/
theorem entry_congr {heap' : M2M}
    (h : ∀ ρ, r.resource = some ρ → heap'.resources.get? ρ = heap.resources.get? ρ) :
    r.entry heap' = r.entry heap := by
  cases hρ : r.resource with
  | none =>
    simp [MbedCloudClientResource.entry, MbedCloudClientResource.getValue,
      MbedCloudClientResource.bound, hρ]
  | some ρ =>
    simp [MbedCloudClientResource.entry, MbedCloudClientResource.getValue,
      MbedCloudClientResource.bound, M2M.getValueString, hρ, h ρ hρ]

end SimpleCloudClient
