import SimpleCloudClient.Program.Responses

/-!
# What a step leaves to the others

All clients of a program share the objects of mbed-client. A step of one client writes only to the
M2M resources that its own resources are bound to, and binds them only to M2M resources that did
not exist before.
-/
namespace SimpleCloudClient
open CString Memory Procedure SimpleMbedCloudClient Transition

/-- The resource with index `k` is bound to this M2M resource. -/
def SimpleMbedCloudClient.Binds (self : SimpleMbedCloudClient) (k : Nat) (ρ : Ref M2MResource) :
    Prop := ∃ r : MbedCloudClientResource, self.resources[k]? = some r ∧ r.resource = some ρ

/-- The reach of a step: values of the M2M resources bound by the client, and new ones. -/
structure Confined (c c' : Context) : Prop where
  others : ∀ {ρ : Ref M2MResource} {x : M2MResource}, c.heap.resources.get? ρ = some x →
    (∀ k, ¬c.self.Binds k ρ) → c'.heap.resources.get? ρ = some x
  values : SameUpToValues c.heap c'.heap
  binds : ∀ {k : Nat} {ρ : Ref M2MResource}, c'.self.Binds k ρ → c.self.Binds k ρ ∨
    c.heap.resources.get? ρ = none ∧ ∃ x, c'.heap.resources.get? ρ = some x ∧ x.OwnedBy k

variable {cfg : Config} {c c' s t : Context} {l : Label} {k : Nat}
variable {r : MbedCloudClientResource} {ρ : Ref M2MResource}

theorem ownedBy_registeredAs (r : MbedCloudClientResource) (k : Nat) :
    (r.registeredAs k).OwnedBy k := by
  cases h : r.isObservable <;>
    simp [M2MResource.OwnedBy, MbedCloudClientResource.registeredAs, M2MResource.exposure, h]

/-- A step that binds nothing and leaves the heap alone. -/
theorem confined_of_heap (hheap : c'.heap = c.heap)
    (hbinds : ∀ k ρ, c'.self.Binds k ρ → c.self.Binds k ρ) : Confined c c' where
  others hx _ := by rw [hheap]; exact hx
  values := by rw [hheap]; exact .refl c.heap
  binds h := .inl (hbinds _ _ h)

/-- A store through a resource reaches the M2M resource it is bound to. -/
theorem confined_setValue (hm : cfg.mbedClient.Lawful) (hr : c.self.resources[k]? = some r)
    (hρ : r.resource = some ρ) (text : List UInt8)
    (hheap : c'.heap = cfg.mbedClient.setValue ρ text c.heap)
    (hbinds : ∀ k ρ, c'.self.Binds k ρ → c.self.Binds k ρ) : Confined c c' where
  others hx hnot := by
    rw [hheap, setValue_other hm c.heap text]
    · exact hx
    · rintro rfl
      exact hnot k ⟨r, hr, hρ⟩
  values := by
    rw [hheap]
    exact sameUpToValues_setValue hm c.heap ρ text
  binds h := .inl (hbinds _ _ h)

/-- What the loop of `register_and_connect` binds did not exist before. -/
theorem registerResources_fresh {m : MbedClient} (hm : m.Lawful) (hs : Unregistered s)
    {d : MccResourceDef} {tr : List CloudEvent}
    (h : Exec (registerResources m s.self.resources.length 0 d) s tr (.ok ()) t)
    (hρ : t.self.Binds k ρ) : s.heap.resources.get? ρ = none := by
  have hloop := registerResources_ok
    (fun n u => Wired s n u ∧ ∀ k ρ, u.self.Binds k ρ → s.heap.resources.get? ρ = none) h
    ⟨hs.wired, ?_⟩ ?_
  · exact hloop.2 k ρ hρ
  · rintro k ρ ⟨r, hr, hbound⟩
    rw [hs.unbound r (List.mem_of_getElem? hr)] at hbound
    cases hbound
  · rintro n d u u' ⟨hwired, hfresh⟩ hit
    refine ⟨hwired.iteration hm hs hit, ?_⟩
    obtain ⟨r, list, heap, hr, rfl, -, -⟩ := hit.added hm hwired.wellFormed
    rintro k ρ ⟨r', hr', hbound⟩
    rw [getElem?_resources_bind] at hr'
    by_cases hk : n = k
    · subst hk
      simp only [if_true, hr, Option.map_some, Option.some.injEq] at hr'
      subst hr'
      obtain rfl := Option.some.inj hbound
      -- what exists at the start exists here, and the next reference does not
      by_contra hsome
      obtain ⟨x, hx⟩ := Option.ne_none_iff_exists'.mp hsome
      exact Store.ne_next (hwired.old _ x hx) rfl
    · rw [if_neg hk] at hr'
      exact hfresh k ρ ⟨r', hr', hbound⟩

theorem confined_registerAndConnect (hm : cfg.mbedClient.Lawful) (hc : Unregistered c)
    {memory : MccResourceDef} {tr : List CloudEvent} {b : Bool}
    (h : Exec (registerAndConnect cfg memory) c tr (.ok b) c') : Confined c c' := by
  obtain ⟨front, mid, back, -, hloop, hcall⟩ := exec_registerAndConnect_returns hc.notCalled h
  have hwired := wired_registerResources hm hc hloop
  have hsame : SameTree mid.withRegisterAndConnectCalled c' := (sameTree_callRegister hcall).1
  have hheap : c'.heap = mid.heap := hsame.heap
  refine ⟨fun hx _ => ?_, fun ρ x hx => ⟨x.value, ?_⟩, fun hρ => ?_⟩
  · rw [hheap]
    exact hwired.old _ _ hx
  · rw [hheap]
    exact hwired.old _ _ hx
  · obtain ⟨r, hr, hbound⟩ := hρ
    rw [hsame.resources] at hr
    have hr : mid.self.resources[_]? = some r := hr
    refine .inr ⟨registerResources_fresh hm hc hloop ⟨r, hr, hbound⟩, ?_⟩
    have hlt := hwired.length ▸ (List.getElem?_eq_some_iff.mp hr).1
    obtain ⟨ρ', hr', hx⟩ := hwired.done _ _ hlt (List.getElem?_eq_getElem hlt)
    obtain rfl := Option.some.inj (hr.symm.trans hr')
    obtain rfl := Option.some.inj hbound
    exact ⟨_, by rw [hheap]; exact hx, ownedBy_registeredAs _ _⟩

/-- The reach of every step. -/
theorem Step.confined (hm : cfg.mbedClient.Lawful) (hc : Linked c) (h : Step cfg c l c') :
    Confined c c' := by
  have hspec := h.spec
  have hsame := sameTree_of_step h
  obtain ⟨op, tr, result⟩ := l
  cases op with
  | registerAndConnect memory =>
    obtain ⟨b, -, hexec⟩ := hspec
    cases hcalled : c.self.registerAndConnectCalled with
    | false => exact confined_registerAndConnect hm (hc.phase hcalled) hexec
    | true =>
      obtain ⟨-, -, rfl⟩ := exec_registerAndConnect_called hcalled hexec
      exact confined_of_heap rfl fun _ _ h => h
  | createResource memory path name =>
    obtain ⟨-, rfl⟩ := hspec
    refine confined_of_heap rfl fun k ρ hρ => ?_
    obtain ⟨r, hr, hbound⟩ := hρ
    rw [List.getElem?_append] at hr
    split at hr
    · exact ⟨r, hr, hbound⟩
    · obtain rfl := List.mem_singleton.mp (List.mem_of_getElem? hr)
      cases hbound
  | changeResource i change =>
    obtain ⟨-, r, hr, rfl⟩ := hspec
    have hbinds (k : Nat) (ρ : Ref M2MResource) (hρ : SimpleMbedCloudClient.Binds { c.self with
        resources := c.self.resources.set i (change.apply cfg r c.heap).1 } k ρ) :
        c.self.Binds k ρ := by
      obtain ⟨r', hr', hbound⟩ := hρ
      rw [List.getElem?_set] at hr'
      split at hr'
      · subst k
        split at hr'
        · obtain rfl := Option.some.inj hr'
          exact ⟨r, hr, by simpa using hbound⟩
        · cases hr'
      · exact ⟨r', hr', hbound⟩
    have hheap : (change.apply cfg r c.heap).2 = _ := apply_heap hm change r c.heap
    cases htext : change.text cfg with
    | none => exact confined_of_heap (hheap.trans (by rw [htext])) hbinds
    | some text =>
      rw [htext] at hheap
      cases hbound : r.resource with
      | none =>
        simp only [MbedCloudClientResource.forward, hbound] at hheap
        exact confined_of_heap hheap hbinds
      | some ρ =>
        simp only [MbedCloudClientResource.forward, hbound] at hheap
        exact confined_setValue hm hr hbound text hheap hbinds
  | cloudWrite i value =>
    obtain ⟨-, r, ρ, hr, hρ, rfl⟩ := hspec
    exact confined_setValue hm hr hρ value rfl fun _ _ h => h
  | _ =>
    obtain ⟨hheap, -, hresources, -⟩ := hsame trivial
    refine confined_of_heap hheap fun k ρ hρ => ?_
    obtain ⟨r, hr, hbound⟩ := hρ
    exact ⟨r, by rwa [hresources] at hr, hbound⟩

/-- The M2M resources bound by a step belong to the resources that are bound to them. -/
theorem Sound.step (hm : cfg.mbedClient.Lawful) (h : Sound c) (hstep : Step cfg c l c') :
    Sound c' where
  linked := h.linked.step hm hstep
  owned {k r ρ x} hr hρ hx := by
    have hconfined := hstep.confined hm h.linked
    rcases hconfined.binds ⟨r, hr, hρ⟩ with ⟨r₀, hr₀, hρ₀⟩ | ⟨-, y, hy, hown⟩
    · obtain ⟨x₀, hx₀⟩ := Option.isSome_iff_exists.mp (h.linked.exist hr₀ hρ₀)
      obtain ⟨value, hvalue⟩ := hconfined.values ρ x₀ hx₀
      obtain rfl := Option.some.inj (hx.symm.trans hvalue)
      have hown : x₀.OwnedBy k := h.owned hr₀ hρ₀ hx₀
      exact hown
    · obtain rfl := Option.some.inj (hx.symm.trans hy)
      exact hown

end SimpleCloudClient
