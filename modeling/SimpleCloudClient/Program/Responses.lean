import SimpleCloudClient.Program.Table
import SimpleCloudClient.Registration.Callbacks

/-!
# A client responds as its table does

One lemma per operation relates the executions on a sound client to the response of the table.
They cover every outcome: an operation that the table does not accept stops at a fault before it
has done anything. The first registration is the exception, since it may meet a position that is
taken; the executions of it that end are treated separately.
-/
namespace SimpleCloudClient
open CString Memory Procedure SimpleMbedCloudClient Transition

/-- Every execution has the effect and the calls that the table says. -/
def Answers (cfg : Config) (c : Context) (op : Operation) : Prop :=
  ∀ tr o c', Exec (op.body cfg) c tr o c' →
    match c.table.step cfg op with
    | some response =>
      (∃ result, o = .ok result) ∧ c'.table = response.1 ∧ invoked tr = response.2
    | none => (∃ fault, o = .error fault) ∧ tr = [] ∧ c' = c

variable {cfg : Config} {c c' t : Context} {k : Nat} {op : Operation}
variable {r r' : MbedCloudClientResource} {ρ : Ref M2MResource} {x : M2MResource}
variable {tr : List CloudEvent} {o : Except Fault Unit}

theorem Answers.accept {table : Table} {calls : List Command}
    (hstep : c.table.step cfg op = some (table, calls))
    (h : ∀ tr o c', Exec (op.body cfg) c tr o c' →
      (∃ result, o = .ok result) ∧ c'.table = table ∧ invoked tr = calls) : Answers cfg c op := by
  unfold Answers
  rw [hstep]
  exact h

theorem Answers.refuse (hstep : c.table.step cfg op = none)
    (h : ∀ tr o c', Exec (op.body cfg) c tr o c' →
      (∃ fault, o = .error fault) ∧ tr = [] ∧ c' = c) : Answers cfg c op := by
  unfold Answers
  rw [hstep]
  exact h

theorem exec_none {p : ClientM Unit} {o : Except Fault (Option Bool)} :
    Exec (do p; return none) c tr o c' ↔ ∃ o', o = o'.map (fun _ => none) ∧ Exec p c tr o' c' :=
  exec_bind_pure

theorem exec_some {p : ClientM Bool} {o : Except Fault (Option Bool)} :
    Exec (do return some (← p)) c tr o c' ↔ ∃ o', o = o'.map some ∧ Exec p c tr o' c' :=
  exec_bind_pure

theorem SameTree.table (h : SameTree c c') : c'.table = c.table := by
  simp [Context.table, h.heap, h.resources, h.called]

@[simp] theorem invoked_setupTrace (setup : Bool) : invoked (setupTrace cfg setup) = [] := by
  unfold setupTrace
  split <;> rfl

@[simp] theorem invoked_registeredTrace (reply : Option ConnectorClientEndpointInfo) :
    invoked (registeredTrace c reply) = [] := by
  unfold registeredTrace
  split
  · rfl
  · split <;> rfl

/-! ## Storing through a resource -/

/-- A change of one resource, and of nothing else but what it is bound to, shows in its entry
only. -/
theorem Linked.table_set (h : Linked c) (hk : c.self.resources[k]? = some r) {heap : M2M}
    (hheap : ∀ ρ, r.resource ≠ some ρ → heap.resources.get? ρ = c.heap.resources.get? ρ) :
    Context.table { c with
      heap, self := { c.self with resources := c.self.resources.set k r' } } =
      c.table.set k (r'.entry heap) := by
  have hlt := (List.getElem?_eq_some_iff.mp hk).1
  refine congrArg (Table.mk · _) (List.ext_getElem? fun j => ?_)
  simp only [List.getElem?_map, List.getElem?_set, List.length_map, Context.table]
  by_cases hkj : k = j
  · simp [hkj]
  · simp only [hkj, if_false]
    cases hj : c.self.resources[j]? with
    | none => rfl
    | some other =>
      have hother : other.entry heap = other.entry c.heap := by
        refine entry_congr fun ρ hρ => hheap ρ fun hbound => ?_
        exact hkj (h.apart hj hk hρ hbound)
      simp [hother]

theorem Linked.table_store (h : Linked c) (hk : c.self.resources[k]? = some r) {heap : M2M}
    (hheap : ∀ ρ, r.resource ≠ some ρ → heap.resources.get? ρ = c.heap.resources.get? ρ) :
    Context.table { c with heap } = c.table.set k (r.entry heap) := by
  have hsame : c.self.resources.set k r = c.self.resources := by
    obtain ⟨hlt, rfl⟩ := List.getElem?_eq_some_iff.mp hk
    exact List.set_getElem_self hlt
  have hset : Context.table { c with heap, self := { c.self with
      resources := c.self.resources.set k r } } = c.table.set k (r.entry heap) :=
    h.table_set hk hheap
  rwa [hsame] at hset

theorem setValue_other (hm : cfg.mbedClient.Lawful) (heap : M2M) {ρ' : Ref M2MResource}
    (text : List UInt8) (h : ρ ≠ ρ') :
    (cfg.mbedClient.setValue ρ text heap).resources.get? ρ' = heap.resources.get? ρ' := by
  rw [hm.setValue, M2M.updateResource, Store.get?_modify_of_ne _ _ h]

/-- What a store through a bound resource makes of its entry. -/
theorem entry_setValue (hm : cfg.mbedClient.Lawful) {heap : M2M} (hρ : r.resource = some ρ)
    (hx : heap.resources.get? ρ = some x) (text : List UInt8) :
    r.entry (cfg.mbedClient.setValue ρ text heap) = { r.entry heap with value := text } := by
  have hnew := get?_setValue_self hm text hx
  simp [MbedCloudClientResource.entry, MbedCloudClientResource.getValue_of_bound hρ,
    MbedCloudClientResource.bound, hρ, hx, hnew, M2M.getValueString, M2MResource.exposure]

/-- A setter changes the entry of its resource as the table says. -/
theorem entry_apply (hm : cfg.mbedClient.Lawful) {heap : M2M}
    (hexist : ∀ ρ, r.resource = some ρ → (heap.resources.get? ρ).isSome)
    (change : ResourceChange) :
    (change.apply cfg r heap).1.entry (change.apply cfg r heap).2 =
      (r.entry heap).change cfg change := by
  cases hρ : r.resource with
  | none =>
    have hunbound : (change.apply cfg r heap).1.resource = none := by simpa using hρ
    rw [show (change.apply cfg r heap).2 = heap by
      rw [apply_heap hm]
      cases change.text cfg <;> simp [MbedCloudClientResource.forward, hρ]]
    have hvalue : (change.apply cfg r heap).1.value.bytes = _ := apply_value hm change r heap
    simp only [MbedCloudClientResource.entry, MbedCloudClientResource.bound,
      MbedCloudClientResource.getValue_of_unbound hunbound,
      MbedCloudClientResource.getValue_of_unbound hρ, hunbound, hρ, hvalue]
    cases change <;> rfl
  | some ρ =>
    obtain ⟨x, hx⟩ := Option.isSome_iff_exists.mp (hexist ρ hρ)
    have hexposed : (r.entry heap).exposure = some x.exposure := by
      simp [MbedCloudClientResource.entry, MbedCloudClientResource.bound, hρ, hx]
    -- the M2M resource does not see the member `value`
    have hset (value text : Text) :
        let r' : MbedCloudClientResource := { r with value }
        r'.entry (r'.forward cfg.mbedClient text.bytes heap) =
          { r.entry heap with value := text.bytes } := by
      intro r'
      have hforward : r'.forward cfg.mbedClient text.bytes heap =
          cfg.mbedClient.setValue ρ text.bytes heap := by
        simp [MbedCloudClientResource.forward, r', hρ]
      rw [hforward]
      exact entry_setValue (r := r') hm hρ hx text.bytes
    cases change with
    | setValueInt value =>
      rw [apply_setValueInt hm]
      exact hset (ofInt value.toInt) (ofInt value.toInt)
    | setValueString value => exact hset value value
    | setValueFloat value =>
      exact (hset r.value (cfg.formatG value)).trans (if_pos (by rw [hexposed]; rfl)).symm
    | _ => rfl

/-! ## Operations -/

section
variable {i : Nat} {f : MbedCloudClientResource → M2M → MbedCloudClientResource × M2M}

theorem exec_onResource (hr : c.self.resources[i]? = some r) :
    Exec (onResource i f) c tr o t ↔ tr = [] ∧ o = .ok () ∧
      t = { c with
        heap := (f r c.heap).2
        self := { c.self with resources := c.self.resources.set i (f r c.heap).1 } } := by
  simp [onResource, hr]

theorem exec_onResource_none (hr : c.self.resources[i]? = none) :
    Exec (onResource i f) c tr o t ↔ tr = [] ∧ o = .error .badIndex ∧ t = c := by
  simp [onResource, hr]

/-- The events of an M2M resource need a resource that is bound to one. -/
theorem exec_boundResource_none {next : Ref M2MResource → ClientM Unit}
    (h : ∀ r, c.self.resources[i]? = some r → r.resource = none)
    (hexec : Exec (boundResource i >>= next) c tr o t) :
    (∃ fault, o = .error fault) ∧ tr = [] ∧ t = c := by
  have hbound (tr : List CloudEvent) (o : Except Fault (Ref M2MResource)) (t : Context)
      (hexec : Exec (boundResource i) c tr o t) :
      (∃ fault, o = .error fault) ∧ tr = [] ∧ t = c := by
    simp only [boundResource, exec_get_bind, exec_deref_bind] at hexec
    rcases hexec with ⟨r, hr, hderef⟩ | ⟨-, rfl, rfl, rfl⟩
    · rw [h r hr] at hderef
      obtain ⟨rfl, rfl, rfl⟩ := exec_deref.mp hderef
      exact ⟨⟨_, rfl⟩, rfl, rfl⟩
    · exact ⟨⟨_, rfl⟩, rfl, rfl⟩
  rcases exec_bind.mp hexec with ⟨front, a, u, back, -, hfront, -⟩ | ⟨fault, rfl, hfault⟩
  · obtain ⟨⟨fault, hfault⟩, -⟩ := hbound _ _ _ hfront
    cases hfault
  · exact ⟨⟨fault, rfl⟩, (hbound _ _ _ hfault).2⟩

end

theorem Sound.answers_changeResource (hm : cfg.mbedClient.Lawful) (h : Sound c) (i : Nat)
    (change : ResourceChange) : Answers cfg c (.changeResource i change) := by
  cases hr : c.self.resources[i]? with
  | none =>
    refine .refuse (by simp [Table.step, getElem?_table, hr]) fun tr o c' hexec => ?_
    obtain ⟨o', rfl, hrun⟩ := exec_none.mp hexec
    obtain ⟨rfl, rfl, rfl⟩ := (exec_onResource_none hr).mp hrun
    exact ⟨⟨_, rfl⟩, rfl, rfl⟩
  | some r =>
    have hstep : c.table.step cfg (.changeResource i change) =
        some (c.table.set i ((r.entry c.heap).change cfg change), []) := by
      simp [Table.step, getElem?_table, hr]
    refine .accept hstep fun tr o c' hexec => ?_
    obtain ⟨o', rfl, hrun⟩ := exec_none.mp hexec
    obtain ⟨rfl, rfl, rfl⟩ := (exec_onResource hr).mp hrun
    refine ⟨⟨_, rfl⟩, ?_, rfl⟩
    rw [h.linked.table_set hr, entry_apply hm fun ρ hρ => h.linked.exist hr hρ]
    intro ρ hρ
    rw [apply_heap hm]
    cases change.text cfg with
    | none => rfl
    | some text =>
      cases hbound : r.resource with
      | none => simp [MbedCloudClientResource.forward, hbound]
      | some ρ' =>
        have hne : ρ' ≠ ρ := fun heq => hρ (heq ▸ hbound)
        simpa [MbedCloudClientResource.forward, hbound] using setValue_other hm c.heap text hne

/-- A resource is either out of reach of the cloud, or bound to an M2M resource that calls it. -/
theorem Sound.exposed_cases (h : Sound c) (i : Nat) :
    (c.table.exposed i = none ∧ ∀ r, c.self.resources[i]? = some r → r.resource = none) ∨
    ∃ r ρ x, c.self.resources[i]? = some r ∧ r.resource = some ρ ∧
      c.heap.resources.get? ρ = some x ∧ x.OwnedBy i ∧
      c.table.exposed i = some (r.entry c.heap, x.exposure) := by
  by_cases hnone : c.table.exposed i = none
  · exact .inl ⟨hnone, h.table_exposed_eq_none.mp hnone⟩
  · rw [h.table_exposed_eq_none] at hnone
    push Not at hnone
    obtain ⟨r, hr, hbound⟩ := hnone
    obtain ⟨ρ, hρ⟩ := Option.ne_none_iff_exists'.mp hbound
    obtain ⟨x, hx⟩ := Option.isSome_iff_exists.mp (h.linked.exist hr hρ)
    exact .inr ⟨r, ρ, x, hr, hρ, hx, h.owned hr hρ hx, table_exposed hr hρ hx⟩

theorem answers_unbound {i : Nat} {next : Ref M2MResource → ClientM Unit}
    (hbody : op.body cfg = do boundResource i >>= next; return none)
    (hstep : c.table.step cfg op = none)
    (h : ∀ r, c.self.resources[i]? = some r → r.resource = none) : Answers cfg c op := by
  refine .refuse hstep fun tr o c' hexec => ?_
  rw [hbody] at hexec
  obtain ⟨o', rfl, hrun⟩ := exec_none.mp hexec
  obtain ⟨⟨fault, rfl⟩, hsame⟩ := exec_boundResource_none h hrun
  exact ⟨⟨fault, rfl⟩, hsame⟩

theorem Sound.answers_cloudWrite (hm : cfg.mbedClient.Lawful) (h : Sound c) (i : Nat)
    (value : List UInt8) : Answers cfg c (.cloudWrite i value) := by
  obtain ⟨hnone, hunbound⟩ | ⟨r, ρ, x, hr, hρ, hx, hown, hexposed⟩ := h.exposed_cases i
  · exact answers_unbound rfl (by simp [Table.step, hnone]) hunbound
  · have hstep : c.table.step cfg (.cloudWrite i value) =
        some (c.table.set i { r.entry c.heap with value },
          (r.putCallback.map (Command.putCallback · i value)).toList) := by
      simp [Table.step, hexposed, MbedCloudClientResource.entry]
    refine .accept hstep fun tr o c' hexec => ?_
    obtain ⟨o', rfl, hrun⟩ := exec_none.mp hexec
    -- the callback runs in the context in which the write has been stored
    let stored : Context := { c with heap := cfg.mbedClient.setValue ρ value c.heap }
    have hr' : stored.self.resources[i]? = some r := hr
    have hnew := get?_setValue_self hm value hx
    have hread : r.getValue stored.heap = value := by
      simp [stored, MbedCloudClientResource.getValue_of_bound hρ, M2M.getValueString, hnew]
    rw [SimpleMbedCloudClient.cloudWrite, exec_boundResource_bind hr hρ, exec_update_bind] at hrun
    have hcall : { x with value }.valueUpdatedFunction = some ⟨i⟩ := hown.1
    obtain ⟨rfl, rfl, rfl⟩ :=
      (exec_internalPutCallback hr').mp ((exec_dispatch hnew hcall).mp hrun)
    refine ⟨⟨_, rfl⟩, ?_, ?_⟩
    · rw [← entry_setValue hm hρ hx]
      refine h.linked.table_store hr fun ρ' hρ' => setValue_other hm c.heap value ?_
      rintro rfl
      exact hρ' hρ
    · rw [hread]
      cases r.putCallback <;> rfl

theorem Sound.answers_cloudExecute (h : Sound c) (i : Nat) (params : Option (List UInt8)) :
    Answers cfg c (.cloudExecute i params) := by
  obtain ⟨hnone, hunbound⟩ | ⟨r, ρ, x, hr, hρ, hx, hown, hexposed⟩ := h.exposed_cases i
  · exact answers_unbound rfl (by simp [Table.step, hnone]) hunbound
  · have hstep : c.table.step cfg (.cloudExecute i params) = some (c.table,
        (r.postCallback.bind fun cb => params.map (Command.postCallback cb i)).toList) := by
      simp [Table.step, hexposed, MbedCloudClientResource.entry]
    refine .accept hstep fun tr o c' hexec => ?_
    obtain ⟨o', rfl, hrun⟩ := exec_none.mp hexec
    rw [SimpleMbedCloudClient.cloudExecute, exec_boundResource_bind hr hρ,
      exec_dispatch hx hown.2.1, exec_internalPostCallback hr] at hrun
    obtain ⟨rfl, rfl, rfl⟩ := hrun
    refine ⟨⟨_, rfl⟩, rfl, ?_⟩
    cases r.postCallback <;> cases params <;> rfl

theorem Sound.answers_cloudNotification (h : Sound c) (i status : Nat) :
    Answers cfg c (.cloudNotification i status) := by
  obtain ⟨hnone, hunbound⟩ | ⟨r, ρ, x, hr, hρ, hx, hown, hexposed⟩ := h.exposed_cases i
  · exact answers_unbound rfl (by simp [Table.step, hnone]) hunbound
  · have hstep : c.table.step cfg (.cloudNotification i status) = some (c.table,
        if x.exposure.notifies then
          (r.notificationCallback.map (Command.notificationCallback · i status)).toList
        else []) := by
      simp [Table.step, hexposed, MbedCloudClientResource.entry]
    refine .accept hstep fun tr o c' hexec => ?_
    obtain ⟨o', rfl, hrun⟩ := exec_none.mp hexec
    rw [SimpleMbedCloudClient.cloudNotification, exec_boundResource_bind hr hρ] at hrun
    by_cases hnotifies : x.exposure.notifies = true
    · rw [exec_dispatch hx (hown.2.2.trans (if_pos hnotifies)),
        exec_internalNotificationCallback hr] at hrun
      obtain ⟨rfl, rfl, rfl⟩ := hrun
      refine ⟨⟨_, rfl⟩, rfl, ?_⟩
      rw [if_pos hnotifies]
      cases r.notificationCallback <;> rfl
    · have hsilent : x.notificationDeliveryStatusCb = none := hown.2.2.trans (if_neg hnotifies)
      simp only [dispatch, exec_get_bind, hx, Option.bind_some, hsilent, exec_pure] at hrun
      obtain ⟨rfl, rfl, rfl⟩ := hrun
      exact ⟨⟨_, rfl⟩, rfl, by rw [if_neg hnotifies]; rfl⟩

/-- Every operation but the first registration is answered as the table says, whatever its
outcome. -/
theorem Sound.answers (hm : cfg.mbedClient.Lawful) (h : Sound c) (op : Operation)
    (hop : op.IsRegisterAndConnect → c.self.registerAndConnectCalled = true) :
    Answers cfg c op := by
  cases op with
  | registerAndConnect memory =>
    have hcalled := hop ⟨memory, rfl⟩
    refine .accept rfl fun tr o c' hexec => ?_
    obtain ⟨o', rfl, hrun⟩ := exec_some.mp hexec
    rcases exec_registerAndConnect.mp hrun with ⟨-, rfl, rfl, rfl⟩ | ⟨hnot, -⟩
    · exact ⟨⟨_, rfl⟩, (if_pos hcalled).symm, rfl⟩
    · rw [hcalled] at hnot
      cases hnot
  | callRegister =>
    refine .accept rfl fun tr o c' hexec => ?_
    obtain ⟨o', rfl, hrun⟩ := exec_some.mp hexec
    rcases exec_callRegister.mp hrun with ⟨-, rfl, rfl, rfl⟩ | ⟨-, setup, rfl, rfl, rfl⟩
    · exact ⟨⟨_, rfl⟩, rfl, rfl⟩
    · exact ⟨⟨_, rfl⟩, rfl, invoked_setupTrace setup⟩
  | clientRegistered =>
    refine .accept rfl fun tr o c' hexec => ?_
    obtain ⟨o', rfl, hrun⟩ := exec_none.mp hexec
    obtain ⟨reply, rfl, rfl, rfl⟩ := exec_clientRegistered.mp hrun
    exact ⟨⟨_, rfl⟩, rfl, invoked_registeredTrace reply⟩
  | clientUnregistered =>
    refine .accept rfl fun tr o c' hexec => ?_
    obtain ⟨o', rfl, hrun⟩ := exec_none.mp hexec
    obtain ⟨rfl, rfl, rfl⟩ := exec_clientUnregistered.mp hrun
    refine ⟨⟨_, rfl⟩, rfl, ?_⟩
    cases c.self.unregisteredCb <;> rfl
  | onRegistered cb | onUnregistered cb =>
    refine .accept rfl fun tr o c' hexec => ?_
    obtain ⟨o', rfl, hrun⟩ := exec_none.mp hexec
    obtain ⟨rfl, rfl, rfl⟩ := exec_setSelf.mp hrun
    exact ⟨⟨_, rfl⟩, rfl, rfl⟩
  | onUpdateAuthorized cb | onUpdateProgress cb =>
    refine .accept rfl fun tr o c' hexec => ?_
    obtain ⟨o', rfl, hrun⟩ := exec_none.mp hexec
    obtain ⟨rfl, rfl, rfl⟩ := exec_command.mp hrun
    exact ⟨⟨_, rfl⟩, rfl, rfl⟩
  | createResource memory path name =>
    refine .accept rfl fun tr o c' hexec => ?_
    obtain ⟨o', rfl, hrun⟩ := exec_none.mp hexec
    obtain ⟨rfl, rfl, rfl⟩ := exec_setSelf.mp hrun
    refine ⟨⟨_, rfl⟩, ?_, rfl⟩
    simp only [Context.table, List.map_append, List.map_cons, List.map_nil]
    rfl
  | changeResource i change => exact h.answers_changeResource hm i change
  | cloudWrite i value => exact h.answers_cloudWrite hm i value
  | cloudExecute i params => exact h.answers_cloudExecute i params
  | cloudNotification i status => exact h.answers_cloudNotification i status

/-! ## The first registration -/

/-- The entry that a registered resource has is the one it had, exposed. -/
theorem entry_registered {heap heap' : M2M} (hunbound : r.resource = none)
    (hx : heap'.resources.get? ρ = some (r.registeredAs k)) :
    (r.setM2mResource ρ).entry heap' = (r.entry heap).expose := by
  have hnotifies : (if r.isObservable = true then some (InternalCallback.mk k) else none).isSome =
      r.isObservable := by cases r.isObservable <;> rfl
  simp [MbedCloudClientResource.entry, MbedCloudClientResource.getValue,
    MbedCloudClientResource.bound, MbedCloudClientResource.setM2mResource, hunbound, hx,
    M2M.getValueString, MbedCloudClientResource.registeredAs, M2MResource.exposure, Entry.expose,
    hnotifies]

/-- A registration that ends leaves no trace of a callback and exposes every entry. -/
theorem table_registerAndConnect (hm : cfg.mbedClient.Lawful) (hc : Unregistered c)
    {memory : MccResourceDef} {b : Bool}
    (h : Exec (registerAndConnect cfg memory) c tr (.ok b) c') :
    c'.table = c.table.register ∧ invoked tr = [] := by
  obtain ⟨front, mid, back, rfl, hloop, hcall⟩ := exec_registerAndConnect_returns hc.notCalled h
  have hwired := wired_registerResources hm hc hloop
  have hsame : SameTree mid.withRegisterAndConnectCalled c' := (sameTree_callRegister hcall).1
  constructor
  · rw [hsame.table, Table.register, if_neg (by simp [Context.table, hc.notCalled])]
    refine congrArg (Table.mk · true) (List.ext_getElem? fun j => ?_)
    change (mid.self.resources.map (·.entry mid.heap))[j]? =
      (((c.self.resources.map (·.entry c.heap))).map Entry.expose)[j]?
    simp only [List.getElem?_map]
    cases hj : c.self.resources[j]? with
    | none =>
      have hlen : mid.self.resources.length ≤ j := by
        rw [hwired.length]
        exact List.getElem?_eq_none_iff.mp hj
      simp [List.getElem?_eq_none hlen]
    | some r =>
      obtain ⟨ρ, hr', hx⟩ := hwired.done j r (List.getElem?_eq_some_iff.mp hj).1 hj
      simp only [hr', Option.map_some]
      exact congrArg some (entry_registered (hc.unbound r (List.mem_of_getElem? hj)) hx)
  · have hfront : invoked front = [] := by
      refine List.filterMap_eq_nil_iff.mpr fun e he => ?_
      obtain ⟨args, rfl⟩ := registerResources_trace hloop e he
      rfl
    have hback : invoked back = [] := by
      rcases exec_callRegister.mp hcall with ⟨-, rfl, -⟩ | ⟨-, setup, rfl, -⟩
      · rfl
      · exact invoked_setupTrace setup
    simp only [invoked, List.filterMap_append, List.filterMap_cons] at hfront hback ⊢
    rw [hfront, hback]
    rfl

/-- Every step of a client is a response of its table. -/
theorem Sound.table_step (hm : cfg.mbedClient.Lawful) (h : Sound c) {l : Label}
    (hstep : Step cfg c l c') :
    c.table.step cfg l.op = some (c'.table, invoked l.trace) := by
  by_cases hfirst : l.op.IsRegisterAndConnect ∧ c.self.registerAndConnectCalled = false
  · obtain ⟨⟨memory, hop⟩, hnot⟩ := hfirst
    have hspec := hstep.spec
    rw [hop] at hspec ⊢
    obtain ⟨b, -, hexec⟩ := hspec
    obtain ⟨htable, hcalls⟩ := table_registerAndConnect hm (h.linked.phase hnot) hexec
    rw [htable, hcalls]
    rfl
  · have hanswers := h.answers hm l.op (fun hop => by
      simpa using fun hnot => hfirst ⟨hop, hnot⟩) _ _ _ hstep
    cases hresponse : c.table.step cfg l.op with
    | none =>
      rw [hresponse] at hanswers
      obtain ⟨⟨fault, hfault⟩, -⟩ := hanswers
      cases hfault
    | some response =>
      rw [hresponse] at hanswers
      obtain ⟨-, htable, hcalls⟩ := hanswers
      rw [htable, hcalls]

end SimpleCloudClient
