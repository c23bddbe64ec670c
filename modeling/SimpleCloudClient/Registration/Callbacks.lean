import SimpleCloudClient.Registration.History
import SimpleCloudClient.Registration.Values

/-!
# Events of a registered resource

An event goes through two pointers: the M2M resource holds the address of an internal callback
of one `MbedCloudClientResource`, and that callback reads the slot of its own object when it runs.
The first pointer is set once, at registration, and survives every later step; the slot is what
the last attach or detach has left.
-/
namespace SimpleCloudClient
open CString Memory Procedure SimpleMbedCloudClient Transition

variable {cfg : Config} {c c' s t u : Context} {labels : List Label} {l : Label} {k : Nat}
variable {r : MbedCloudClientResource} {ρ : Ref M2MResource} {x : M2MResource}
variable {tr : List CloudEvent}

/-! ## The first pointer -/

/-- What `s` had as resources is registered: each is bound to an M2M resource that is as it was
made, up to its value. -/
structure Hooked (s c : Context) : Prop where
  called : c.self.registerAndConnectCalled = true
  hooks : ∀ (k : Nat) (r₀ : MbedCloudClientResource), s.self.resources[k]? = some r₀ →
    ∃ (r : MbedCloudClientResource) (ρ : Ref M2MResource) (value : List UInt8),
    c.self.resources[k]? = some r ∧ r.resource = some ρ ∧
    c.heap.resources.get? ρ = some { r₀.registeredAs k with value }

/-- A change of the heap that only writes values keeps the hooks. -/
theorem Hooked.of_values (h : Hooked s c)
    (hcalled : c'.self.registerAndConnectCalled = c.self.registerAndConnectCalled)
    (hresources : ∀ (k : Nat) (r : MbedCloudClientResource), c.self.resources[k]? = some r →
      ∃ r' : MbedCloudClientResource, c'.self.resources[k]? = some r' ∧ r'.resource = r.resource)
    (hheap : SameUpToValues c.heap c'.heap) : Hooked s c' where
  called := hcalled.trans h.called
  hooks k r₀ hr₀ := by
    obtain ⟨r, ρ, value, hr, hρ, hx⟩ := h.hooks k r₀ hr₀
    obtain ⟨r', hr', hbound⟩ := hresources k r hr
    obtain ⟨value', hx'⟩ := hheap ρ _ hx
    exact ⟨r', ρ, value', hr', hbound.trans hρ, hx'⟩

theorem Hooked.step (hm : cfg.mbedClient.Lawful) (h : Hooked s c) (hstep : Step cfg c l c') :
    Hooked s c' := by
  have hspec := hstep.spec
  have hsame := sameTree_of_step hstep
  obtain ⟨op, tr, result⟩ := l
  cases op with
  | registerAndConnect memory =>
    obtain ⟨b, -, hexec⟩ := hspec
    obtain ⟨-, -, rfl⟩ := exec_registerAndConnect_called h.called hexec
    exact h
  | createResource memory path name =>
    obtain ⟨-, rfl⟩ := hspec
    refine h.of_values rfl (fun k r hr => ⟨r, ?_, rfl⟩) (.refl c.heap)
    rw [List.getElem?_append_left (List.getElem?_eq_some_iff.mp hr).1]
    exact hr
  | changeResource i change =>
    obtain ⟨-, r₁, hr₁, rfl⟩ := hspec
    refine h.of_values rfl (fun k r hr => ?_) (sameUpToValues_apply hm change r₁ c.heap)
    by_cases hik : i = k
    · subst hik
      obtain rfl := Option.some.inj (hr₁.symm.trans hr)
      have hi := (List.getElem?_eq_some_iff.mp hr).1
      exact ⟨_, by simp [hi], apply_resource cfg change r₁ c.heap⟩
    · exact ⟨r, by rw [List.getElem?_set_ne hik]; exact hr, rfl⟩
  | cloudWrite i value =>
    obtain ⟨-, r, res, -, -, rfl⟩ := hspec
    exact h.of_values rfl (fun k r hr => ⟨r, hr, rfl⟩) (sameUpToValues_setValue hm c.heap res value)
  | _ =>
    obtain ⟨hheap, -, hresources, hcalled⟩ := hsame trivial
    refine h.of_values hcalled (fun k r hr => ⟨r, by rw [hresources]; exact hr, rfl⟩) ?_
    rw [hheap]
    exact .refl c.heap

/-- Registration sets the hooks. -/
theorem hooked_registerAndConnect (hm : cfg.mbedClient.Lawful) (hs : Unregistered s)
    {memory : MccResourceDef} {b : Bool}
    (h : Exec (registerAndConnect cfg memory) s tr (.ok b) u) : Hooked s u := by
  obtain ⟨front, mid, back, -, hloop, hcall⟩ := exec_registerAndConnect_returns hs.notCalled h
  have hwired := wired_registerResources hm hs hloop
  have hsame : SameTree mid.withRegisterAndConnectCalled u := (sameTree_callRegister hcall).1
  refine ⟨hsame.called, fun k r₀ hr₀ => ?_⟩
  obtain ⟨ρ, hr, hx⟩ := hwired.done k r₀ (List.getElem?_eq_some_iff.mp hr₀).1 hr₀
  exact ⟨_, ρ, _, by rw [hsame.resources]; exact hr, rfl, by rw [hsame.heap]; exact hx⟩

/-! ## The second pointer -/

/-- The three kinds of callbacks of a resource. -/
inductive CallbackKind where
  | put
  | post
  | notification
  deriving DecidableEq, Repr

namespace CallbackKind

def slot : CallbackKind → MbedCloudClientResource → Option AppCallback
  | put, r => r.putCallback
  | post, r => r.postCallback
  | notification, r => r.notificationCallback

/-- What a call leaves in the slot of this kind, if it sets it. -/
def sets : CallbackKind → ResourceChange → Option (Option AppCallback)
  | put, .attachPutCallback cb => some (some cb)
  | put, .detachPutCallback => some none
  | post, .attachPostCallback cb => some (some cb)
  | post, .detachPostCallback => some none
  | notification, .attachNotificationCallback cb => some (some cb)
  | notification, .detachNotificationCallback => some none
  | _, _ => none

theorem slot_member (kind : CallbackKind) (r : MbedCloudClientResource) (change : ResourceChange) :
    kind.slot (change.member cfg r) = (kind.sets change).getD (kind.slot r) := by
  cases kind <;> cases change <;> rfl

end CallbackKind

/-- The callback attached last to the resource with index `k` and not detached since. -/
def attached (kind : CallbackKind) (k : Nat) (labels : List Label) : Option AppCallback :=
  (latest kind.sets (changesOf k labels)).getD none

theorem slot_of_created (kind : CallbackKind) {r₀ : MbedCloudClientResource}
    (h : r₀ ∈ creations labels) : kind.slot r₀ = none := by
  obtain ⟨⟨op, tr, result⟩, -, hcreated⟩ := List.mem_filterMap.mp h
  cases op with
  | createResource memory path name =>
    obtain rfl := Option.some.inj hcreated
    cases kind <;> rfl
  | _ => cases hcreated

theorem Recorded.slot (h : Recorded cfg labels c) (hr : c.self.resources[k]? = some r)
    (kind : CallbackKind) : kind.slot r = attached kind k labels := by
  have hmembers := h.members k
  rw [hr, Option.map_some, replayed, eq_comm, Option.map_eq_some_iff] at hmembers
  obtain ⟨r₀, hr₀, hreplay⟩ := hmembers
  have hslot : kind.slot r = kind.slot r.unbound := by cases kind <;> rfl
  rw [hslot, ← hreplay, member_applyChanges kind.slot kind.sets kind.slot_member,
    slot_of_created kind (List.mem_of_getElem? hr₀)]
  rfl

/-! ## One event -/

section
variable {o : Except Fault Unit}

theorem exec_boundResource_bind (hr : c.self.resources[k]? = some r) (hρ : r.resource = some ρ)
    {next : Ref M2MResource → ClientM Unit} :
    Exec (boundResource k >>= next) c tr o t ↔ Exec (next ρ) c tr o t := by
  have hexec (tr : List CloudEvent) (o : Except Fault (Ref M2MResource)) (t : Context) :
      Exec (boundResource k) c tr o t ↔ tr = [] ∧ o = .ok ρ ∧ t = c := by
    simp [boundResource, hr, hρ]
    grind
  simp [exec_bind, hexec]

theorem exec_dispatch {select : M2MResource → Option InternalCallback} {cb : InternalCallback}
    (hx : c.heap.resources.get? ρ = some x) (hselect : select x = some cb)
    {internal : Nat → ClientM Unit} :
    Exec (dispatch ρ select internal) c tr o t ↔ Exec (internal cb.owner) c tr o t := by
  simp [dispatch, hx, hselect]

end

/-- In this state the event ends without a fault, and makes this call or none. -/
def Triggers (cfg : Config) (c : Context) (event : Operation) (call : Option Command) : Prop :=
  ∀ tr o c', Exec (event.body cfg) c tr o c' → o = .ok none ∧ tr = (call.map told).toList

theorem triggers_of {p : ClientM Unit} {o : Except Fault (Option Bool)}
    {expected : List CloudEvent}
    (hp : ∀ tr o c', Exec p c tr o c' → tr = expected ∧ o = .ok () ∧ c' = t)
    (h : Exec (do p; return none) c tr o c') : o = .ok none ∧ tr = expected := by
  rcases exec_bind.mp h with ⟨front, _, u, back, rfl, hfront, hback⟩ | ⟨fault, -, hfault⟩
  · obtain ⟨rfl, rfl, -⟩ := exec_pure.mp hback
    exact ⟨rfl, by simp [(hp _ _ _ hfront).1]⟩
  · cases (hp _ _ _ hfault).2.1

theorem Hooked.triggers_write (hm : cfg.mbedClient.Lawful) (h : Hooked s t)
    (hrecorded : Recorded cfg labels t) {r₀ : MbedCloudClientResource}
    (hk : s.self.resources[k]? = some r₀) (value : List UInt8) :
    Triggers cfg t (.cloudWrite k value)
      ((attached .put k labels).map fun cb => .putCallback cb k value) := by
  obtain ⟨r, ρ, old, hr, hρ, hx⟩ := h.hooks k r₀ hk
  have hnew := get?_setValue_self hm value hx
  have hread : r.getValue (cfg.mbedClient.setValue ρ value t.heap) = value := by
    simp [MbedCloudClientResource.getValue_of_bound hρ, M2M.getValueString, hnew]
  -- the callback runs in the context in which the write has been stored
  let stored : Context := { t with heap := cfg.mbedClient.setValue ρ value t.heap }
  have hr' : stored.self.resources[k]? = some r := hr
  intro tr o c' hexec
  refine triggers_of (t := stored) (fun tr o c' hexec => ?_) hexec
  rw [SimpleMbedCloudClient.cloudWrite, exec_boundResource_bind hr hρ, exec_update_bind] at hexec
  have hput := (exec_internalPutCallback hr').mp ((exec_dispatch hnew rfl).mp hexec)
  rw [hread, show r.putCallback = _ from hrecorded.slot hr .put] at hput
  rw [Option.map_map]
  exact hput

theorem Hooked.triggers_execute (h : Hooked s t) (hrecorded : Recorded cfg labels t)
    {r₀ : MbedCloudClientResource} (hk : s.self.resources[k]? = some r₀) (buffer : List UInt8) :
    Triggers cfg t (.cloudExecute k (some buffer))
      ((attached .post k labels).map fun cb => .postCallback cb k buffer) := by
  obtain ⟨r, ρ, value, hr, hρ, hx⟩ := h.hooks k r₀ hk
  intro tr o c' hexec
  refine triggers_of (t := t) (fun tr o c' hexec => ?_) hexec
  rw [SimpleMbedCloudClient.cloudExecute, exec_boundResource_bind hr hρ] at hexec
  have hpost := (exec_dispatch hx rfl).mp hexec
  rw [exec_internalPostCallback hr, show r.postCallback = _ from hrecorded.slot hr .post] at hpost
  cases hcallback : attached .post k labels <;> simpa [hcallback] using hpost

theorem Hooked.triggers_notification (h : Hooked s t) (hrecorded : Recorded cfg labels t)
    {r₀ : MbedCloudClientResource} (hk : s.self.resources[k]? = some r₀)
    (hobservable : r₀.isObservable = true) (status : Nat) :
    Triggers cfg t (.cloudNotification k status)
      ((attached .notification k labels).map fun cb => .notificationCallback cb k status) := by
  obtain ⟨r, ρ, value, hr, hρ, hx⟩ := h.hooks k r₀ hk
  intro tr o c' hexec
  refine triggers_of (t := t) (fun tr o c' hexec => ?_) hexec
  rw [SimpleMbedCloudClient.cloudNotification, exec_boundResource_bind hr hρ] at hexec
  have hnotification := (exec_dispatch hx (if_pos hobservable)).mp hexec
  rw [exec_internalNotificationCallback hr,
    show r.notificationCallback = _ from hrecorded.slot hr .notification] at hnotification
  rw [Option.map_map]
  exact hnotification

/-- In every run with a registration, whatever happens before and after it, every event of a
registered resource is delivered once: to the callback of its kind attached last to that resource
and not detached since, with what the event carries, and to nothing where there is none. -/
theorem events_delivered (hm : cfg.mbedClient.Lawful) {fresh : Context} (hfresh : fresh.Fresh)
    {before after : List Label} {register : Label} (hbefore : Run (Step cfg) fresh before s)
    (hfirst : s.self.registerAndConnectCalled = false)
    (hop : register.op.IsRegisterAndConnect) (hregister : Step cfg s register u)
    (hafter : Run (Step cfg) u after t) (hk : s.self.resources[k]? = some r) :
    let labels := before ++ [register] ++ after
    (∀ value, Triggers cfg t (.cloudWrite k value)
      ((attached .put k labels).map fun cb => .putCallback cb k value)) ∧
    (∀ buffer, Triggers cfg t (.cloudExecute k (some buffer))
      ((attached .post k labels).map fun cb => .postCallback cb k buffer)) ∧
    (r.isObservable = true → ∀ status, Triggers cfg t (.cloudNotification k status)
      ((attached .notification k labels).map fun cb => .notificationCallback cb k status)) := by
  intro labels
  have hrecorded : Recorded cfg labels t :=
    recorded_of_run hfresh ((hbefore.snoc hregister).append hafter)
  have hhooked : Hooked s u := by
    have hspec := hregister.spec
    obtain ⟨memory, hmemory⟩ := hop
    rw [hmemory] at hspec
    obtain ⟨b, -, hexec⟩ := hspec
    exact hooked_registerAndConnect hm ((linked_of_run hm hfresh hbefore).phase hfirst) hexec
  have ht : Hooked s t := hafter.invariant hhooked fun _ _ _ => Hooked.step hm
  exact ⟨ht.triggers_write hm hrecorded hk, ht.triggers_execute hrecorded hk,
    fun hobservable => ht.triggers_notification hrecorded hk hobservable⟩

/-- Two resources of one object are given a PUT callback each and registered, and the first is given
another one. A write to either reaches its own callback, the one attached last. -/
theorem events_delivered_reattached : ∃ t : Context, t.self.resources.length = 2 ∧
    (∀ value, Triggers .reference t (.cloudWrite 0 value) (some (.putCallback ⟨3⟩ 0 value))) ∧
    ∀ value, Triggers .reference t (.cloudWrite 1 value) (some (.putCallback ⟨2⟩ 1 value)) := by
  let memory : MccResourceDef := ⟨⟨0, 0, 0⟩, empty, 0, [], false, none, none, none⟩
  let answer := cloudAnswers true none
  let create (r : UInt16) : Operation :=
    .createResource ⟨true, 3⟩ (Position.path ⟨3200, 0, r⟩) empty
  let attach (k id : Nat) : Operation := .changeResource k (.attachPutCallback ⟨id⟩)
  let c₁ := ((create 5501).run .reference answer {}).2.2
  let c₂ := ((create 5502).run .reference answer c₁).2.2
  let c₃ := ((attach 0 1).run .reference answer c₂).2.2
  let c₄ := ((attach 1 2).run .reference answer c₃).2.2
  let c₅ := ((Operation.registerAndConnect memory).run .reference answer c₄).2.2
  have hcreate₁ : Step .reference {} ⟨create 5501, _, none⟩ c₁ := step_of_run answer _ _ rfl
  have hcreate₂ : Step .reference c₁ ⟨create 5502, _, none⟩ c₂ := step_of_run answer _ _ rfl
  have hattach₁ : Step .reference c₂ ⟨attach 0 1, _, none⟩ c₃ :=
    step_of_run answer (attach 0 1) c₂ (by decide +kernel)
  have hattach₂ : Step .reference c₃ ⟨attach 1 2, _, none⟩ c₄ :=
    step_of_run answer (attach 1 2) c₃ (by decide +kernel)
  have hbefore := (((Run.single hcreate₁).snoc hcreate₂).snoc hattach₁).snoc hattach₂
  have hregister : Step .reference c₄ ⟨.registerAndConnect memory, _, some true⟩ c₅ :=
    step_of_run answer (.registerAndConnect memory) c₄ (by decide +kernel)
  have hagain : Step .reference c₅ ⟨attach 0 3, _, none⟩ _ :=
    step_of_run answer (attach 0 3) c₅ (by decide +kernel)
  have hfresh : Context.Fresh {} := rfl
  obtain ⟨r, hr⟩ : ∃ r, c₄.self.resources[0]? = some r := ⟨_, rfl⟩
  obtain ⟨r', hr'⟩ : ∃ r, c₄.self.resources[1]? = some r := ⟨_, rfl⟩
  have hdelivered {k : Nat} {r : MbedCloudClientResource}
      (hk : c₄.self.resources[k]? = some r) :=
    (events_delivered MbedClient.reference_lawful hfresh hbefore rfl ⟨memory, rfl⟩ hregister
      (Run.single hagain) hk).1
  exact ⟨_, by decide +kernel, hdelivered hr, hdelivered hr'⟩

end SimpleCloudClient
