import SimpleCloudClient.Library.Procedure
import SimpleCloudClient.Resource.AddResource
import SimpleCloudClient.Resource.CloudClientResource

/-!
# SimpleMbedCloudClient

The part of the client that registers with the cloud. The cloud client it drives, the setup of
the connection and the application's callbacks are calls with arbitrary results; entering
`add_resource` is recorded as a call too, so that its arguments can be seen in a trace. The
static variable of `client_registered` and the objects of mbed-client are shared by all
instances.
-/
namespace SimpleCloudClient
open CString Memory Procedure

/-- What `MbedCloudClient::endpoint_info` points to. -/
structure ConnectorClientEndpointInfo where
  id : Nat
  deriving DecidableEq, Repr

/-- An update handler: the one built into the client, or one of the application. -/
inductive UpdateHandler where
  | builtin
  | application (cb : AppCallback)
  deriving DecidableEq, Repr

structure SimpleMbedCloudClient where
  registered : Bool := false
  registerCalled : Bool := false
  registerAndConnectCalled : Bool := false
  registeredCb : Option AppCallback := none
  unregisteredCb : Option AppCallback := none
  objList : List (Ref M2MObject) := []
  resources : List MbedCloudClientResource := []
  deriving DecidableEq

/-- What a member function of one instance can reach. -/
structure Context where
  endpoint : Option ConnectorClientEndpointInfo := none
  heap : M2M := {}
  self : SimpleMbedCloudClient := {}
  deriving DecidableEq

/-- The calls that return nothing, and the entry of `add_resource`. -/
inductive Command where
  | addResource (args : AddResourceArgs)
  | addObjects (list : List (Ref M2MObject))
  | onRegistered
  | onUnregistered
  | onError
  | updateHelperSetCloudClient
  | setUpdateAuthorizeHandler (handler : UpdateHandler)
  | setUpdateProgressHandler (handler : UpdateHandler)
  | registeredCb (cb : AppCallback) (endpoint : ConnectorClientEndpointInfo)
  | unregisteredCb (cb : AppCallback)
  | putCallback (cb : AppCallback) (resource : Nat) (value : List UInt8)
  | postCallback (cb : AppCallback) (resource : Nat) (buffer : List UInt8)
  | notificationCallback (cb : AppCallback) (resource : Nat) (status : Nat)
  deriving DecidableEq

inductive CloudCall where
  | command (command : Command)
  | setup
  | endpointInfo
  deriving DecidableEq

def CloudCall.Reply : CloudCall → Type
  | .command _ => Unit
  | .setup => Bool
  | .endpointInfo => Option ConnectorClientEndpointInfo

instance CloudCall.decidableEqReply : ∀ c : CloudCall, DecidableEq c.Reply
  | .command _ => inferInstanceAs (DecidableEq Unit)
  | .setup => inferInstanceAs (DecidableEq Bool)
  | .endpointInfo => inferInstanceAs (DecidableEq (Option ConnectorClientEndpointInfo))

instance CloudCall.inhabitedReply : ∀ c : CloudCall, Inhabited c.Reply
  | .command _ => inferInstanceAs (Inhabited Unit)
  | .setup => inferInstanceAs (Inhabited Bool)
  | .endpointInfo => inferInstanceAs (Inhabited (Option ConnectorClientEndpointInfo))

inductive Fault where
  | nullPointer
  | badIndex
  deriving DecidableEq, Repr

abbrev ClientM := Proc Context CloudCall CloudCall.Reply Fault

/-- mbed-client, the `%g` conversion and `MBED_CLOUD_CLIENT_SUPPORT_UPDATE`. -/
structure Config where
  mbedClient : MbedClient
  formatG : Float32 → Text
  supportUpdate : Bool

def command (c : Command) : ClientM Unit := perform (CloudCall.command c)
def cloudSetup : ClientM Bool := perform CloudCall.setup
def cloudEndpointInfo : ClientM (Option ConnectorClientEndpointInfo) :=
  perform CloudCall.endpointInfo

/-- An update of the members of the instance. -/
def setSelf (f : SimpleMbedCloudClient → SimpleMbedCloudClient) : ClientM Unit :=
  update fun c => { c with self := f c.self }

namespace SimpleMbedCloudClient

/-! ## Registration -/

def callRegister (cfg : Config) : ClientM Bool := do
  let c ← get
  -- need to unregister first before calling this function again
  if c.self.registerCalled then
    return false
  command .onRegistered
  command .onUnregistered
  command .onError
  let setup ← cloudSetup
  setSelf fun self => { self with registerCalled := true }
  if !setup then
    return false
  if cfg.supportUpdate then
    command .updateHelperSetCloudClient
    command (.setUpdateAuthorizeHandler .builtin)
    command (.setUpdateProgressHandler .builtin)
  return true

/-- What `register_and_connect` passes on; the ids are narrowed to `uint16_t` by the call. -/
def argsOf (resourceDef : MccResourceDef) : AddResourceArgs where
  objectId := resourceDef.ids.objectId.toUInt16
  instanceId := resourceDef.ids.instanceId.toUInt16
  resourceId := resourceDef.ids.resourceId.toUInt16
  resourceType := resourceDef.name
  dataType := .STRING
  allowed := resourceDef.methodMask
  value := ofMemory resourceDef.value
  observable := resourceDef.observable
  putCb := resourceDef.putCallback
  postCb := resourceDef.postCallback
  notificationStatusCb := resourceDef.notificationCallback

/-- The loop of `register_and_connect` from index `i` on, with `todo` resources to go. One
`resourceDef` serves all iterations. -/
def registerResources (m : MbedClient) : (todo i : Nat) → MccResourceDef → ClientM Unit
  | 0, _, _ => return ()
  | todo + 1, i, resourceDef => do
    let c ← get
    let resource ← deref .badIndex c.self.resources[i]?
    let resourceDef := resource.getData i c.heap resourceDef
    command (.addResource (argsOf resourceDef))
    let (res, list, heap) ←
      deref .nullPointer (addResource m c.self.objList (argsOf resourceDef) c.heap)
    update fun c => { c with
      heap
      self := { c.self with
        objList := list
        resources := c.self.resources.modify i (·.setM2mResource res) } }
    registerResources m todo (i + 1) resourceDef

/-- `memory` is what the uninitialised local `resourceDef` holds. -/
def registerAndConnect (cfg : Config) (memory : MccResourceDef) : ClientM Bool := do
  let c ← get
  if c.self.registerAndConnectCalled then
    return false
  registerResources cfg.mbedClient c.self.resources.length 0 memory
  let c ← get
  command (.addObjects c.self.objList)
  setSelf fun self => { self with registerAndConnectCalled := true }
  callRegister cfg

/-! ## Events of the cloud client -/

def clientRegistered : ClientM Unit := do
  setSelf fun self => { self with registered := true }
  let c ← get
  if c.endpoint.isNone then
    let endpoint ← cloudEndpointInfo
    update fun c => { c with endpoint }
    match endpoint, c.self.registeredCb with
    | some endpoint, some cb => command (.registeredCb cb endpoint)
    | _, _ => return ()

def clientUnregistered : ClientM Unit := do
  setSelf fun self => { self with registered := false, registerCalled := false }
  let c ← get
  match c.self.unregisteredCb with
  | some cb => command (.unregisteredCb cb)
  | none => return ()

/-! ## Setters -/

def onRegistered (cb : Option AppCallback) : ClientM Unit :=
  setSelf fun self => { self with registeredCb := cb }

def onUnregistered (cb : Option AppCallback) : ClientM Unit :=
  setSelf fun self => { self with unregisteredCb := cb }

def onUpdateAuthorized (cb : AppCallback) : ClientM Unit :=
  command (.setUpdateAuthorizeHandler (.application cb))

def onUpdateProgress (cb : AppCallback) : ClientM Unit :=
  command (.setUpdateProgressHandler (.application cb))

/-! ## Resources -/

def createResource (memory : RawMemory) (path name : Text) : ClientM Unit :=
  setSelf fun self =>
    { self with resources := self.resources ++ [.construct memory path name] }

/-- A member function of the resource with index `i`. -/
def onResource (i : Nat)
    (f : MbedCloudClientResource → M2M → MbedCloudClientResource × M2M) : ClientM Unit := do
  let c ← get
  let resource ← deref .badIndex c.self.resources[i]?
  let (resource, heap) := f resource c.heap
  update fun c => { c with
    heap
    self := { c.self with resources := c.self.resources.set i resource } }

/-- The M2M resource that the resource with index `i` is bound to. -/
def boundResource (i : Nat) : ClientM (Ref M2MResource) := do
  let c ← get
  let resource ← deref .badIndex c.self.resources[i]?
  deref .nullPointer resource.resource

def internalPutCallback (this : Nat) : ClientM Unit := do
  let c ← get
  let resource ← deref .badIndex c.self.resources[this]?
  match resource.putCallback with
  | some cb => command (.putCallback cb this (resource.getValue c.heap))
  | none => return ()

/-- `params` is the execute parameter, which may be NULL. -/
def internalPostCallback (this : Nat) (params : Option (List UInt8)) : ClientM Unit := do
  let c ← get
  let resource ← deref .badIndex c.self.resources[this]?
  match resource.postCallback, params with
  | some cb, some buffer => command (.postCallback cb this buffer)
  | _, _ => return ()

def internalNotificationCallback (this : Nat) (status : Nat) : ClientM Unit := do
  let c ← get
  let resource ← deref .badIndex c.self.resources[this]?
  match resource.notificationCallback with
  | some cb => command (.notificationCallback cb this status)
  | none => return ()

/-! ## Events of an M2M resource -/

/-- Calls the function that an M2M resource holds for an event, if it holds one. -/
def dispatch (res : Ref M2MResource) (select : M2MResource → Option InternalCallback)
    (internal : Nat → ClientM Unit) : ClientM Unit := do
  let c ← get
  match (c.heap.resources.get? res).bind select with
  | some cb => internal cb.owner
  | none => return ()

/-- A write from the cloud: the value is stored, then the value-updated function runs. -/
def cloudWrite (m : MbedClient) (i : Nat) (value : List UInt8) : ClientM Unit := do
  let res ← boundResource i
  update fun c => { c with heap := m.setValue res value c.heap }
  dispatch res (·.valueUpdatedFunction) internalPutCallback

def cloudExecute (i : Nat) (params : Option (List UInt8)) : ClientM Unit := do
  let res ← boundResource i
  dispatch res (·.executeFunction) (internalPostCallback · params)

def cloudNotification (i : Nat) (status : Nat) : ClientM Unit := do
  let res ← boundResource i
  dispatch res (·.notificationDeliveryStatusCb) (internalNotificationCallback · status)

end SimpleMbedCloudClient

end SimpleCloudClient
