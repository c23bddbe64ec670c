import SimpleCloudClient.Registration.Loop

/-!
# Binding resources to M2M resources

Whatever the paths are, each iteration of `register_and_connect` that ends creates a fresh M2M
resource with the attributes of the resource at hand and binds that resource to it. So after the
loop no two resources share an M2M resource, and everything mbed-client held before is as it was.
-/
namespace SimpleCloudClient
open CString Memory Procedure SimpleMbedCloudClient

/-- The M2M resource that the resource at address `this` is registered as. -/
def MbedCloudClientResource.registeredAs (r : MbedCloudClientResource) (this : Nat) :
    M2MResource where
  resourceType := r.name
  dataType := .STRING
  observable := r.isObservable
  value := r.value.bytes
  operation := r.methodMask
  notificationDeliveryStatusCb := if r.isObservable then some ⟨this⟩ else none
  valueUpdatedFunction := some ⟨this⟩
  executeFunction := some ⟨this⟩

theorem result_argsOf {r : MbedCloudClientResource} (h : r.resource = none) (this : Nat)
    (heap : M2M) (d : MccResourceDef) :
    (argsOf (r.getData this heap d)).result = r.registeredAs this := by
  simp [argsOf, AddResourceArgs.result, MbedCloudClientResource.getData,
    MbedCloudClientResource.registeredAs, MbedCloudClientResource.getValue_of_unbound h,
    ofMemory_bytes]

/-- The first `n` resources of `s` have been bound, and nothing else has happened. -/
structure Wired (s : Context) (n : Nat) (c : Context) : Prop where
  wellFormed : c.heap.WellFormed c.self.objList
  frame : c = { s with
    heap := c.heap
    self := { s.self with objList := c.self.objList, resources := c.self.resources } }
  length : c.self.resources.length = s.self.resources.length
  todo : ∀ j, n ≤ j → c.self.resources[j]? = s.self.resources[j]?
  done : ∀ j r, j < n → s.self.resources[j]? = some r → ∃ ρ,
    c.self.resources[j]? = some (r.setM2mResource ρ) ∧
    c.heap.resources.get? ρ = some (r.registeredAs j)
  apart : ∀ {j j' r r' ρ}, j < n → j' < n → c.self.resources[j]? = some r →
    c.self.resources[j']? = some r' → r.resource = some ρ → r'.resource = some ρ → j' = j
  old : ∀ ρ x, s.heap.resources.get? ρ = some x → c.heap.resources.get? ρ = some x

/-- The state in which no resource has been registered. -/
structure Unregistered (c : Context) : Prop where
  notCalled : c.self.registerAndConnectCalled = false
  noObjects : c.self.objList = []
  unbound : ∀ r ∈ c.self.resources, r.resource = none

variable {m : MbedClient} {s c c' t : Context} {d : MccResourceDef} {i n : Nat}

/-- What an iteration does: it creates one resource, at a position that was free. -/
theorem Iteration.added (hm : m.Lawful) (hwf : c.heap.WellFormed c.self.objList)
    (h : Iteration m i d c c') :
    ∃ r list heap, c.self.resources[i]? = some r ∧
      c' = c.bind i c.heap.resources.next list heap ∧
      c.heap.resourceAt c.self.objList (argsOf (r.getData i c.heap d)).position = none ∧
      Added c.heap c.self.objList heap list (argsOf (r.getData i c.heap d)).position
        c.heap.resources.next (argsOf (r.getData i c.heap d)).result := by
  obtain ⟨hr, hadd⟩ := h
  rcases addResource_cases hm hwf (argsOf (_ : MccResourceDef)) with
    ⟨ρ, -, hnone⟩ | ⟨hfree, list', heap', hsome, hadded⟩
  · rw [hnone] at hadd
    cases hadd
  · rw [hsome] at hadd
    simp only [Option.some.injEq, Prod.mk.injEq] at hadd
    obtain ⟨rfl, rfl, rfl⟩ := hadd
    exact ⟨_, _, _, hr, rfl, hfree, hadded⟩

theorem Unregistered.wired (h : Unregistered s) : Wired s 0 s where
  wellFormed := h.noObjects ▸ M2M.wellFormed_nil
  frame := rfl
  length := rfl
  todo _ _ := rfl
  done _ _ hj := absurd hj (Nat.not_lt_zero _)
  apart hj := absurd hj (Nat.not_lt_zero _)
  old _ _ := id

/-- A resource bound earlier is bound to something that exists. -/
theorem Wired.ne_next (h : Wired s n c) {j : Nat} {r : MbedCloudClientResource} {ρ : _}
    (hj : j < n) (hr : c.self.resources[j]? = some r) (hρ : r.resource = some ρ) :
    ρ ≠ c.heap.resources.next := by
  have hlt : j < s.self.resources.length := h.length ▸ (List.getElem?_eq_some_iff.mp hr).1
  obtain ⟨ρ', hbound, hx⟩ := h.done j _ hj (List.getElem?_eq_getElem hlt)
  obtain rfl := Option.some.inj (hr.symm.trans hbound)
  obtain rfl := Option.some.inj hρ
  exact Store.ne_next hx

/-- No M2M resource is shared when the next resource is bound to one that did not exist. -/
theorem Wired.apart_bind (h : Wired s n c) {r : MbedCloudClientResource}
    (hr : c.self.resources[n]? = some r) {list : _} {heap : M2M} {j j' : Nat}
    {r₁ r₂ : MbedCloudClientResource} {ρ : _} (hj : j < n + 1) (hj' : j' < n + 1)
    (h₁ : (c.bind n c.heap.resources.next list heap).self.resources[j]? = some r₁)
    (h₂ : (c.bind n c.heap.resources.next list heap).self.resources[j']? = some r₂)
    (hρ₁ : r₁.resource = some ρ) (hρ₂ : r₂.resource = some ρ) : j' = j := by
  rw [getElem?_resources_bind] at h₁ h₂
  by_cases hjn : n = j <;> by_cases hjn' : n = j'
  · omega
  · subst hjn
    simp only [hr, if_true, Option.map_some, Option.some.injEq] at h₁
    subst h₁
    rw [if_neg hjn'] at h₂
    obtain rfl := Option.some.inj hρ₁
    exact absurd rfl (h.ne_next (by omega) h₂ hρ₂)
  · subst hjn'
    simp only [hr, if_true, Option.map_some, Option.some.injEq] at h₂
    subst h₂
    rw [if_neg hjn] at h₁
    obtain rfl := Option.some.inj hρ₂
    exact absurd rfl (h.ne_next (by omega) h₁ hρ₁)
  · rw [if_neg hjn] at h₁
    rw [if_neg hjn'] at h₂
    exact h.apart (by omega) (by omega) h₁ h₂ hρ₁ hρ₂

theorem Wired.iteration (hm : m.Lawful) (hs : Unregistered s) (h : Wired s n c)
    (hit : Iteration m n d c c') : Wired s (n + 1) c' := by
  obtain ⟨r, list, heap, hr, rfl, -, hadded⟩ := hit.added hm h.wellFormed
  have hrs : s.self.resources[n]? = some r := (h.todo n le_rfl).symm.trans hr
  rw [result_argsOf (hs.unbound r (List.mem_of_getElem? hrs))] at hadded
  have hkeep : ∀ ρ x, c.heap.resources.get? ρ = some x → heap.resources.get? ρ = some x :=
    fun ρ x hx => (hadded.others ρ (Store.ne_next hx)).trans hx
  exact {
    wellFormed := hadded.wellFormed
    frame := by rw [h.frame]; rfl
    length := by simp [Context.bind, h.length]
    todo := fun j hj => by
      rw [getElem?_resources_bind, if_neg (by omega)]
      exact h.todo j (by omega)
    done := fun j r' hj hr' => by
      rw [getElem?_resources_bind]
      by_cases hjn : n = j
      · subst hjn
        obtain rfl := Option.some.inj (hrs.symm.trans hr')
        exact ⟨c.heap.resources.next, by simp [hr], hadded.contents⟩
      · obtain ⟨ρ, hbound, hx⟩ := h.done j r' (by omega) hr'
        exact ⟨ρ, by rw [if_neg hjn]; exact hbound, hkeep ρ _ hx⟩
    apart := h.apart_bind hr
    old := fun ρ x hx => hkeep ρ x (h.old ρ x hx) }

/-- After a loop that ends every resource is bound to an M2M resource of its own. -/
theorem wired_registerResources (hm : m.Lawful) (hs : Unregistered s) {tr : List CloudEvent}
    (h : Exec (registerResources m s.self.resources.length 0 d) s tr (.ok ()) t) :
    Wired s s.self.resources.length t := by
  have hloop := registerResources_ok (Wired s) h hs.wired fun i d c c' hinv hit =>
    hinv.iteration hm hs hit
  rwa [Nat.zero_add] at hloop

/-! ## Steps that register nothing -/

/-- What a step leaves alone when it does not register resources. -/
structure SameTree (c c' : Context) : Prop where
  heap : c'.heap = c.heap
  objList : c'.self.objList = c.self.objList
  resources : c'.self.resources = c.self.resources
  called : c'.self.registerAndConnectCalled = c.self.registerAndConnectCalled

theorem SameTree.unregistered (h : SameTree c c') (hc : Unregistered c) : Unregistered c' where
  notCalled := h.called.trans hc.notCalled
  noObjects := h.objList.trans hc.noObjects
  unbound := by rw [h.resources]; exact hc.unbound

/-- The operations that touch neither resources nor objects. -/
def Operation.KeepsTree : Operation → Prop
  | .registerAndConnect _ | .createResource .. | .changeResource .. | .cloudWrite .. => False
  | _ => True

theorem sameTree_callRegister {cfg : Config} {tr : List CloudEvent} {o : Except Fault Bool}
    (h : Exec (callRegister cfg) c tr o c') : SameTree c c' ∧ ∃ b, o = .ok b := by
  rcases exec_callRegister.mp h with ⟨-, rfl, rfl, rfl⟩ | ⟨-, setup, rfl, rfl, rfl⟩ <;>
    exact ⟨⟨rfl, rfl, rfl, rfl⟩, _, rfl⟩

theorem sameTree_of_step {cfg : Config} {l : Label} (h : Step cfg c l c')
    (hop : l.op.KeepsTree) : SameTree c c' := by
  have hspec := h.spec
  obtain ⟨op, tr, result⟩ := l
  cases op with
  | registerAndConnect | createResource | changeResource | cloudWrite => exact absurd hop id
  | callRegister =>
    obtain ⟨b, -, hexec⟩ := hspec
    exact (sameTree_callRegister hexec).1
  | clientRegistered =>
    obtain ⟨reply, -, rfl⟩ := hspec
    exact ⟨rfl, rfl, rfl, rfl⟩
  | _ =>
    obtain ⟨-, rfl⟩ := hspec
    exact ⟨rfl, rfl, rfl, rfl⟩

end SimpleCloudClient
