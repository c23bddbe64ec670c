import SimpleCloudClient.Library.Transition
import SimpleCloudClient.Client.Basic

/-!
# Runs of a client

What an application, the cloud client and mbed-client can do to one instance, as a labelled
transition system. A label records the operation, the calls it made with their replies, and the
value it returned. Each operation has one lemma that says exactly what its executions are.
-/
namespace SimpleCloudClient
open CString Memory Procedure SimpleMbedCloudClient

abbrev CloudEvent := Event CloudCall.Reply

/-- The member functions of a resource that an application calls. -/
inductive ResourceChange where
  | observable (observable : Bool)
  | methods (methodMask : UInt32)
  | attachPutCallback (callback : AppCallback)
  | attachPostCallback (callback : AppCallback)
  | attachNotificationCallback (callback : AppCallback)
  | detachPutCallback
  | detachPostCallback
  | detachNotificationCallback
  | setValueInt (value : Int32)
  | setValueString (value : Text)
  | setValueFloat (value : Float32)

def ResourceChange.apply (cfg : Config) (change : ResourceChange) (r : MbedCloudClientResource)
    (heap : M2M) : MbedCloudClientResource × M2M :=
  match change with
  | observable value => (r.observable value, heap)
  | methods mask => (r.methods mask, heap)
  | attachPutCallback cb => (r.attachPutCallback cb, heap)
  | attachPostCallback cb => (r.attachPostCallback cb, heap)
  | attachNotificationCallback cb => (r.attachNotificationCallback cb, heap)
  | detachPutCallback => (r.detachPutCallback, heap)
  | detachPostCallback => (r.detachPostCallback, heap)
  | detachNotificationCallback => (r.detachNotificationCallback, heap)
  | setValueInt value => r.setValueInt cfg.mbedClient value heap
  | setValueString value => r.setValueString cfg.mbedClient value heap
  | setValueFloat value => r.setValueFloat cfg.mbedClient cfg.formatG value heap

@[simp] theorem apply_resource (cfg : Config) (change : ResourceChange)
    (r : MbedCloudClientResource) (heap : M2M) :
    (change.apply cfg r heap).1.resource = r.resource := by
  cases change <;> rfl

inductive Operation where
  | registerAndConnect (memory : MccResourceDef)
  | callRegister
  | clientRegistered
  | clientUnregistered
  | onRegistered (cb : Option AppCallback)
  | onUnregistered (cb : Option AppCallback)
  | onUpdateAuthorized (cb : AppCallback)
  | onUpdateProgress (cb : AppCallback)
  | createResource (memory : RawMemory) (path name : Text)
  | changeResource (i : Nat) (change : ResourceChange)
  | cloudWrite (i : Nat) (value : List UInt8)
  | cloudExecute (i : Nat) (params : Option (List UInt8))
  | cloudNotification (i : Nat) (status : Nat)

/-- The result of an operation: the `bool` of the two that start a registration. -/
def Operation.body (cfg : Config) : Operation → ClientM (Option Bool)
  | registerAndConnect memory => return some (← SimpleMbedCloudClient.registerAndConnect cfg memory)
  | callRegister => return some (← SimpleMbedCloudClient.callRegister cfg)
  | clientRegistered => do SimpleMbedCloudClient.clientRegistered; return none
  | clientUnregistered => do SimpleMbedCloudClient.clientUnregistered; return none
  | onRegistered cb => do SimpleMbedCloudClient.onRegistered cb; return none
  | onUnregistered cb => do SimpleMbedCloudClient.onUnregistered cb; return none
  | onUpdateAuthorized cb => do SimpleMbedCloudClient.onUpdateAuthorized cb; return none
  | onUpdateProgress cb => do SimpleMbedCloudClient.onUpdateProgress cb; return none
  | createResource memory path name => do
    SimpleMbedCloudClient.createResource memory path name; return none
  | changeResource i change => do onResource i (change.apply cfg); return none
  | cloudWrite i value => do SimpleMbedCloudClient.cloudWrite cfg.mbedClient i value; return none
  | cloudExecute i params => do SimpleMbedCloudClient.cloudExecute i params; return none
  | cloudNotification i status => do SimpleMbedCloudClient.cloudNotification i status; return none

structure Label where
  op : Operation
  trace : List CloudEvent
  result : Option Bool

/-- A client that has been constructed, whatever other instances have done before. -/
def Context.Fresh (c : Context) : Prop := c.self = {}

/-- One operation, run to its end. -/
def Step (cfg : Config) (c : Context) (l : Label) (c' : Context) : Prop :=
  Exec (l.op.body cfg) c l.trace (.ok l.result) c'

/-! ## Registration -/

/-- An event of a call that returns nothing. -/
abbrev told (c : Command) : CloudEvent := ⟨.command c, ()⟩

/-- The calls of an accepted `call_register`, as far as they depend on the result of setup. -/
def setupTrace (cfg : Config) (setup : Bool) : List CloudEvent :=
  [told .onRegistered, told .onUnregistered, told .onError, ⟨.setup, setup⟩] ++
    if setup && cfg.supportUpdate then
      [told .updateHelperSetCloudClient, told (.setUpdateAuthorizeHandler .builtin),
        told (.setUpdateProgressHandler .builtin)]
    else []

def Context.withRegisterCalled (c : Context) : Context :=
  { c with self := { c.self with registerCalled := true } }

def Context.withRegisterAndConnectCalled (c : Context) : Context :=
  { c with self := { c.self with registerAndConnectCalled := true } }

def Context.withRegistered (c : Context) : Context :=
  { c with self := { c.self with registered := true } }

def Context.withUnregistered (c : Context) : Context :=
  { c with self := { c.self with registered := false, registerCalled := false } }

section
variable {cfg : Config} {c t : Context} {tr : List CloudEvent}

@[simp] theorem exec_setSelf_bind {A : Type} {o : Except Fault A}
    {f : SimpleMbedCloudClient → SimpleMbedCloudClient} {next : Unit → ClientM A} :
    Exec (setSelf f >>= next) c tr o t ↔ Exec (next ()) { c with self := f c.self } tr o t :=
  exec_update_bind

@[simp] theorem exec_setSelf {o : Except Fault Unit}
    {f : SimpleMbedCloudClient → SimpleMbedCloudClient} :
    Exec (setSelf f) c tr o t ↔ tr = [] ∧ o = .ok () ∧ t = { c with self := f c.self } :=
  exec_update

@[simp] theorem exec_command_bind {A : Type} {o : Except Fault A} {cmd : Command}
    {next : Unit → ClientM A} :
    Exec (command cmd >>= next) c tr o t ↔
      ∃ rest, tr = told cmd :: rest ∧ Exec (next ()) c rest o t := by
  refine exec_call.trans ⟨?_, ?_⟩
  · rintro ⟨_, rest, rfl, h⟩; exact ⟨rest, rfl, h⟩
  · rintro ⟨rest, rfl, h⟩; exact ⟨(), rest, rfl, h⟩

@[simp] theorem exec_command {o : Except Fault Unit} {cmd : Command} :
    Exec (command cmd) c tr o t ↔
      tr = [told cmd] ∧ o = .ok () ∧ t = c := by
  refine exec_perform.trans ⟨?_, ?_⟩
  · rintro ⟨_, rfl, rfl, rfl⟩; exact ⟨rfl, rfl, rfl⟩
  · rintro ⟨rfl, rfl, rfl⟩; exact ⟨(), rfl, rfl, rfl⟩

@[simp] theorem exec_cloudSetup_bind {A : Type} {o : Except Fault A} {next : Bool → ClientM A} :
    Exec (cloudSetup >>= next) c tr o t ↔
      ∃ (r : Bool) (rest : List CloudEvent), tr = ⟨.setup, r⟩ :: rest ∧ Exec (next r) c rest o t :=
  exec_call

@[simp] theorem exec_cloudEndpointInfo_bind {A : Type} {o : Except Fault A}
    {next : Option ConnectorClientEndpointInfo → ClientM A} :
    Exec (cloudEndpointInfo >>= next) c tr o t ↔
      ∃ (r : Option ConnectorClientEndpointInfo) (rest : List CloudEvent),
        tr = ⟨.endpointInfo, r⟩ :: rest ∧ Exec (next r) c rest o t :=
  exec_call

/-- `call_register` is refused after an earlier call, and otherwise returns what setup did. -/
theorem exec_callRegister {o : Except Fault Bool} :
    Exec (callRegister cfg) c tr o t ↔
      (c.self.registerCalled = true ∧ tr = [] ∧ o = .ok false ∧ t = c) ∨
      (c.self.registerCalled = false ∧
        ∃ setup, tr = setupTrace cfg setup ∧ o = .ok setup ∧ t = c.withRegisterCalled) := by
  cases hcalled : c.self.registerCalled with
  | true => simp [callRegister, hcalled]
  | false =>
    cases hupdate : cfg.supportUpdate <;>
      simp [callRegister, hcalled, hupdate, setupTrace, Context.withRegisterCalled] <;> grind

/-- After the loop the objects are handed over and `call_register` runs. -/
theorem exec_registerAndConnect {memory : MccResourceDef} {o : Except Fault Bool} :
    Exec (registerAndConnect cfg memory) c tr o t ↔
      (c.self.registerAndConnectCalled = true ∧ tr = [] ∧ o = .ok false ∧ t = c) ∨
      (c.self.registerAndConnectCalled = false ∧
        ((∃ front mid back, tr = front ++ told (.addObjects mid.self.objList) :: back ∧
            Exec (registerResources cfg.mbedClient c.self.resources.length 0 memory) c front
              (.ok ()) mid ∧
            Exec (callRegister cfg) mid.withRegisterAndConnectCalled back o t) ∨
          ∃ fault, o = .error fault ∧
            Exec (registerResources cfg.mbedClient c.self.resources.length 0 memory) c tr
              (.error fault) t)) := by
  cases hcalled : c.self.registerAndConnectCalled with
  | true => simp [registerAndConnect, hcalled]
  | false =>
    simp only [registerAndConnect, exec_get_bind, hcalled, Bool.false_eq_true, if_false, false_and,
      false_or, true_and, exec_bind (p := registerResources _ _ _ _), exec_command_bind,
      exec_setSelf_bind]
    constructor
    · rintro (⟨front, _, mid, _, rfl, hloop, rest, rfl, hcall⟩ | herror)
      · exact .inl ⟨front, mid, rest, rfl, hloop, hcall⟩
      · exact .inr herror
    · rintro (⟨front, mid, back, rfl, hloop, hcall⟩ | herror)
      · exact .inl ⟨front, (), mid, _, rfl, hloop, back, rfl, hcall⟩
      · exact .inr herror

section RegisterAndConnect
variable {memory : MccResourceDef} {o : Except Fault Bool} {b : Bool}

/-- A second call is refused at once. -/
theorem exec_registerAndConnect_called (hcalled : c.self.registerAndConnectCalled = true)
    (h : Exec (registerAndConnect cfg memory) c tr o t) : tr = [] ∧ o = .ok false ∧ t = c := by
  rcases exec_registerAndConnect.mp h with ⟨-, hrefused⟩ | ⟨hnot, -⟩
  · exact hrefused
  · rw [hcalled] at hnot
    cases hnot

theorem exec_registerAndConnect_first (hnot : c.self.registerAndConnectCalled = false)
    (h : Exec (registerAndConnect cfg memory) c tr o t) :
    (∃ front mid back, tr = front ++ told (.addObjects mid.self.objList) :: back ∧
      Exec (registerResources cfg.mbedClient c.self.resources.length 0 memory) c front
        (.ok ()) mid ∧
      Exec (callRegister cfg) mid.withRegisterAndConnectCalled back o t) ∨
    ∃ fault, o = .error fault ∧
      Exec (registerResources cfg.mbedClient c.self.resources.length 0 memory) c tr
        (.error fault) t := by
  rcases exec_registerAndConnect.mp h with ⟨hcalled, -⟩ | ⟨-, hfirst⟩
  · rw [hnot] at hcalled
    cases hcalled
  · exact hfirst

/-- A first call that returns has bound all resources. -/
theorem exec_registerAndConnect_returns (hnot : c.self.registerAndConnectCalled = false)
    (h : Exec (registerAndConnect cfg memory) c tr (.ok b) t) :
    ∃ front mid back, tr = front ++ told (.addObjects mid.self.objList) :: back ∧
      Exec (registerResources cfg.mbedClient c.self.resources.length 0 memory) c front
        (.ok ()) mid ∧
      Exec (callRegister cfg) mid.withRegisterAndConnectCalled back (.ok b) t := by
  rcases exec_registerAndConnect_first hnot h with hreturns | ⟨fault, hfault, -⟩
  · exact hreturns
  · cases hfault

end RegisterAndConnect

/-! ## Events of the cloud client -/

/-- The calls of a registered event: at most one query of the endpoint, by whoever finds the
static variable NULL, and then at most one callback. -/
def registeredTrace (c : Context) (reply : Option ConnectorClientEndpointInfo) : List CloudEvent :=
  if c.endpoint.isSome then []
  else
    ⟨.endpointInfo, reply⟩ ::
      match reply, c.self.registeredCb with
      | some endpoint, some cb => [told (.registeredCb cb endpoint)]
      | _, _ => []

theorem exec_clientRegistered {o : Except Fault Unit} :
    Exec clientRegistered c tr o t ↔
      ∃ reply, tr = registeredTrace c reply ∧ o = .ok () ∧
        t = { c.withRegistered with endpoint := c.endpoint.or reply } := by
  cases hendpoint : c.endpoint with
  | some endpoint =>
    simp [clientRegistered, registeredTrace, hendpoint, Context.withRegistered]
  | none =>
    simp only [clientRegistered, exec_setSelf_bind, exec_get_bind, hendpoint, Option.isNone_none,
      if_true, exec_cloudEndpointInfo_bind, exec_update_bind]
    refine exists_congr fun reply => ?_
    cases reply <;> cases hcb : c.self.registeredCb <;>
      simp [registeredTrace, hendpoint, Context.withRegistered, hcb]

theorem exec_clientUnregistered {o : Except Fault Unit} :
    Exec clientUnregistered c tr o t ↔
      tr = (c.self.unregisteredCb.map fun cb => told (.unregisteredCb cb)).toList ∧ o = .ok () ∧
        t = c.withUnregistered := by
  cases hcb : c.self.unregisteredCb <;>
    simp [clientUnregistered, hcb, Context.withUnregistered]

/-! ## Resources -/

theorem exec_onResource_ok {i : Nat}
    {f : MbedCloudClientResource → M2M → MbedCloudClientResource × M2M} :
    Exec (onResource i f) c tr (.ok ()) t ↔
      tr = [] ∧ ∃ r, c.self.resources[i]? = some r ∧
        t = { c with
          heap := (f r c.heap).2
          self := { c.self with resources := c.self.resources.set i (f r c.heap).1 } } := by
  simp [onResource]
  grind

theorem exec_boundResource_ok {i : Nat} {res : Ref M2MResource} :
    Exec (boundResource i) c tr (.ok res) t ↔
      tr = [] ∧ t = c ∧ ∃ r, c.self.resources[i]? = some r ∧ r.resource = some res := by
  simp only [boundResource, exec_get_bind, exec_deref_bind, exec_deref, reduceCtorEq, false_and,
    and_false, or_false]
  grind

/-! The functions behind the events, on a member of the client, and when the index is unknown. -/

theorem exec_internalPutCallback {this : Nat} {r : MbedCloudClientResource} {o : Except Fault Unit}
    (hr : c.self.resources[this]? = some r) :
    Exec (internalPutCallback this) c tr o t ↔
      tr = (r.putCallback.map fun cb =>
        told (.putCallback cb this (r.getValue c.heap))).toList ∧ o = .ok () ∧ t = c := by
  cases h : r.putCallback <;> simp [internalPutCallback, hr, h]

theorem exec_internalPostCallback {this : Nat} {r : MbedCloudClientResource}
    {o : Except Fault Unit} (hr : c.self.resources[this]? = some r)
    (params : Option (List UInt8)) :
    Exec (internalPostCallback this params) c tr o t ↔
      tr = (r.postCallback.bind fun cb => params.map fun buffer =>
        told (.postCallback cb this buffer)).toList ∧ o = .ok () ∧ t = c := by
  cases h : r.postCallback <;> cases params <;> simp [internalPostCallback, hr, h]

theorem exec_internalNotificationCallback {this : Nat} {r : MbedCloudClientResource}
    {o : Except Fault Unit} (hr : c.self.resources[this]? = some r) (status : Nat) :
    Exec (internalNotificationCallback this status) c tr o t ↔
      tr = (r.notificationCallback.map fun cb =>
        told (.notificationCallback cb this status)).toList ∧ o = .ok () ∧ t = c := by
  cases h : r.notificationCallback <;> simp [internalNotificationCallback, hr, h]

theorem exec_internalPutCallback_ok {this : Nat} :
    Exec (internalPutCallback this) c tr (.ok ()) t ↔
      ∃ r, c.self.resources[this]? = some r ∧ t = c ∧
        tr = (r.putCallback.map fun cb =>
          told (.putCallback cb this (r.getValue c.heap))).toList := by
  cases hr : c.self.resources[this]? with
  | none => simp [internalPutCallback, hr]
  | some r => simp [exec_internalPutCallback hr, and_comm]

theorem exec_internalPostCallback_ok {this : Nat} {params : Option (List UInt8)} :
    Exec (internalPostCallback this params) c tr (.ok ()) t ↔
      ∃ r, c.self.resources[this]? = some r ∧ t = c ∧
        tr = (r.postCallback.bind fun cb => params.map fun buffer =>
          told (.postCallback cb this buffer)).toList := by
  cases hr : c.self.resources[this]? with
  | none => simp [internalPostCallback, hr]
  | some r => simp [exec_internalPostCallback hr, and_comm]

theorem exec_internalNotificationCallback_ok {this status : Nat} :
    Exec (internalNotificationCallback this status) c tr (.ok ()) t ↔
      ∃ r, c.self.resources[this]? = some r ∧ t = c ∧
        tr = (r.notificationCallback.map fun cb =>
          told (.notificationCallback cb this status)).toList := by
  cases hr : c.self.resources[this]? with
  | none => simp [internalNotificationCallback, hr]
  | some r => simp [exec_internalNotificationCallback hr, and_comm]

theorem exec_dispatch_ok {res : Ref M2MResource} {select : M2MResource → Option InternalCallback}
    {internal : Nat → ClientM Unit} :
    Exec (dispatch res select internal) c tr (.ok ()) t ↔
      ((c.heap.resources.get? res).bind select = none ∧ tr = [] ∧ t = c) ∨
      ∃ cb, (c.heap.resources.get? res).bind select = some cb ∧
        Exec (internal cb.owner) c tr (.ok ()) t := by
  cases h : (c.heap.resources.get? res).bind select <;> simp [dispatch, h]

/-- The events of an M2M resource start at the resource that is bound to it. -/
theorem exec_boundResource_bind_ok {A : Type} {a : A} {i : Nat}
    {next : Ref M2MResource → ClientM A} :
    Exec (boundResource i >>= next) c tr (.ok a) t ↔
      ∃ r res, c.self.resources[i]? = some r ∧ r.resource = some res ∧
        Exec (next res) c tr (.ok a) t := by
  simp only [exec_bind, exec_boundResource_ok, reduceCtorEq, false_and, exists_false, or_false]
  constructor
  · rintro ⟨_, res, _, back, rfl, ⟨rfl, rfl, r, hr, hres⟩, hnext⟩
    exact ⟨r, res, hr, hres, hnext⟩
  · rintro ⟨r, res, hr, hres, hnext⟩
    exact ⟨[], res, c, tr, rfl, ⟨rfl, rfl, r, hr, hres⟩, hnext⟩

end

/-! ## Steps -/

section
variable {cfg : Config} {c c' : Context} {tr : List CloudEvent} {result : Option Bool}

theorem exec_return_some {p : ClientM Bool} :
    Exec (do return some (← p)) c tr (.ok result) c' ↔
      ∃ b, result = some b ∧ Exec p c tr (.ok b) c' := by
  simp only [exec_bind, exec_pure, reduceCtorEq, false_and, exists_false, or_false]
  constructor
  · rintro ⟨front, b, _, _, rfl, h, rfl, hb, rfl⟩
    exact ⟨b, Except.ok.inj hb, by simpa using h⟩
  · rintro ⟨b, rfl, h⟩
    exact ⟨tr, b, c', [], by simp, h, rfl, rfl, rfl⟩

theorem exec_return_none {p : ClientM Unit} :
    Exec (do p; return none) c tr (.ok result) c' ↔ result = none ∧ Exec p c tr (.ok ()) c' := by
  simp only [exec_bind, exec_pure, reduceCtorEq, false_and, exists_false, or_false]
  constructor
  · rintro ⟨front, _, _, _, rfl, h, rfl, hb, rfl⟩
    exact ⟨Except.ok.inj hb, by simpa using h⟩
  · rintro ⟨rfl, h⟩
    exact ⟨tr, (), c', [], by simp, h, rfl, rfl, rfl⟩

/-- A call of a callback that the application has attached to a resource. -/
def IsResourceCallback (e : CloudEvent) : Prop :=
  match e.1 with
  | .command (.putCallback ..) | .command (.postCallback ..)
  | .command (.notificationCallback ..) => True
  | _ => False

/-- An event of an M2M resource changes nothing more; it calls at most callbacks of resources. -/
theorem exec_dispatch_inv {res : Ref M2MResource} {select : M2MResource → Option InternalCallback}
    {internal : Nat → ClientM Unit} (h : Exec (dispatch res select internal) c tr (.ok ()) c')
    (hinternal : ∀ this, Exec (internal this) c tr (.ok ()) c' →
      c' = c ∧ ∀ e ∈ tr, IsResourceCallback e) :
    c' = c ∧ ∀ e ∈ tr, IsResourceCallback e := by
  rcases exec_dispatch_ok.mp h with ⟨-, rfl, rfl⟩ | ⟨cb, -, h⟩
  · simp
  · exact hinternal _ h

/-- What a step of each operation can do. -/
def StepSpec (cfg : Config) (c : Context) (tr : List CloudEvent) (result : Option Bool)
    (c' : Context) : Operation → Prop
  | .registerAndConnect memory => ∃ b, result = some b ∧
      Exec (registerAndConnect cfg memory) c tr (.ok b) c'
  | .callRegister => ∃ b, result = some b ∧ Exec (callRegister cfg) c tr (.ok b) c'
  | .clientRegistered => ∃ reply, tr = registeredTrace c reply ∧
      c' = { c.withRegistered with endpoint := c.endpoint.or reply }
  | .clientUnregistered =>
      tr = (c.self.unregisteredCb.map fun cb => told (.unregisteredCb cb)).toList ∧
      c' = c.withUnregistered
  | .onRegistered cb => tr = [] ∧ c' = { c with self := { c.self with registeredCb := cb } }
  | .onUnregistered cb => tr = [] ∧ c' = { c with self := { c.self with unregisteredCb := cb } }
  | .onUpdateAuthorized cb => tr = [told (.setUpdateAuthorizeHandler (.application cb))] ∧ c' = c
  | .onUpdateProgress cb => tr = [told (.setUpdateProgressHandler (.application cb))] ∧ c' = c
  | .createResource memory path name => tr = [] ∧ c' = { c with
      self := { c.self with resources := c.self.resources ++ [.construct memory path name] } }
  | .changeResource i change => tr = [] ∧ ∃ r, c.self.resources[i]? = some r ∧ c' = { c with
      heap := (change.apply cfg r c.heap).2
      self := { c.self with resources := c.self.resources.set i (change.apply cfg r c.heap).1 } }
  | .cloudWrite i value => (∀ e ∈ tr, IsResourceCallback e) ∧
      ∃ r res, c.self.resources[i]? = some r ∧ r.resource = some res ∧
        c' = { c with heap := cfg.mbedClient.setValue res value c.heap }
  | .cloudExecute _ _ => (∀ e ∈ tr, IsResourceCallback e) ∧ c' = c
  | .cloudNotification _ _ => (∀ e ∈ tr, IsResourceCallback e) ∧ c' = c

theorem Step.spec {l : Label} (h : Step cfg c l c') : StepSpec cfg c l.trace l.result c' l.op := by
  obtain ⟨op, tr, result⟩ := l
  cases op with
  | registerAndConnect | callRegister => exact exec_return_some.mp h
  | clientRegistered =>
    obtain ⟨reply, htr, -, hc⟩ := exec_clientRegistered.mp (exec_return_none.mp h).2
    exact ⟨reply, htr, hc⟩
  | clientUnregistered =>
    obtain ⟨htr, -, hc⟩ := exec_clientUnregistered.mp (exec_return_none.mp h).2
    exact ⟨htr, hc⟩
  | onRegistered | onUnregistered | createResource =>
    obtain ⟨htr, -, hc⟩ := exec_setSelf.mp (exec_return_none.mp h).2
    exact ⟨htr, hc⟩
  | onUpdateAuthorized | onUpdateProgress =>
    obtain ⟨htr, -, hc⟩ := exec_command.mp (exec_return_none.mp h).2
    exact ⟨htr, hc⟩
  | changeResource => exact exec_onResource_ok.mp (exec_return_none.mp h).2
  | cloudWrite i value =>
    obtain ⟨r, res, hr, hres, h⟩ := exec_boundResource_bind_ok.mp (exec_return_none.mp h).2
    obtain ⟨rfl, hcallbacks⟩ := exec_dispatch_inv (exec_update_bind.mp h) fun this h => by
      obtain ⟨r, -, rfl, rfl⟩ := exec_internalPutCallback_ok.mp h
      cases r.putCallback <;> simp [IsResourceCallback]
    exact ⟨hcallbacks, r, res, hr, hres, rfl⟩
  | cloudExecute i params =>
    obtain ⟨r, res, -, -, h⟩ := exec_boundResource_bind_ok.mp (exec_return_none.mp h).2
    exact (exec_dispatch_inv h fun this h => by
      obtain ⟨r, -, rfl, rfl⟩ := exec_internalPostCallback_ok.mp h
      cases r.postCallback <;> cases params <;> simp [IsResourceCallback]).symm
  | cloudNotification i status =>
    obtain ⟨r, res, -, -, h⟩ := exec_boundResource_bind_ok.mp (exec_return_none.mp h).2
    exact (exec_dispatch_inv h fun this h => by
      obtain ⟨r, -, rfl, rfl⟩ := exec_internalNotificationCallback_ok.mp h
      cases r.notificationCallback <;> simp [IsResourceCallback]).symm

end

/-! ## Running against a concrete cloud client -/

/-- The documented mbed-client, with update support. -/
def Config.reference : Config where
  mbedClient := .reference
  formatG _ := empty
  supportUpdate := true

/-- A cloud client that always answers the same. -/
def cloudAnswers (setup : Bool) (endpoint : Option ConnectorClientEndpointInfo) :
    List CloudEvent → (c : CloudCall) → c.Reply
  | _, .command _ => ()
  | _, .setup => setup
  | _, .endpointInfo => endpoint

/-- The calls, the outcome and the final context of an operation. -/
def Operation.run (cfg : Config) (answer : List CloudEvent → (c : CloudCall) → c.Reply)
    (op : Operation) (c : Context) : List CloudEvent × Except Fault (Option Bool) × Context :=
  (op.body cfg).run answer c []

theorem step_of_run {cfg : Config} (answer : List CloudEvent → (c : CloudCall) → c.Reply)
    (op : Operation) (c : Context) {result : Option Bool}
    (h : (op.run cfg answer c).2.1 = .ok result) :
    Step cfg c ⟨op, (op.run cfg answer c).1, result⟩ (op.run cfg answer c).2.2 :=
  exec_of_run answer h

end SimpleCloudClient
