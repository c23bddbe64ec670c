import SimpleCloudClient.Client.System
import SimpleCloudClient.Registration.Tree

/-!
# The loop of register_and_connect

One iteration reads a resource into `resourceDef`, calls `add_resource` and binds the resource to
the result. A loop invariant is a property of the context at index `i`; `registerResources_ok`
carries it over the iterations of an execution, `registerResources_total` also excludes that
the loop stops at a NULL pointer.
-/
namespace SimpleCloudClient
open CString Memory Procedure SimpleMbedCloudClient

/-- The context after the resource with index `i` has been bound to `res`. -/
def Context.bind (c : Context) (i : Nat) (res : Ref M2MResource) (list : List (Ref M2MObject))
    (heap : M2M) : Context :=
  { c with
    heap
    self := { c.self with
      objList := list
      resources := c.self.resources.modify i (·.setM2mResource res) } }

theorem getElem?_resources_bind (c : Context) (i j : Nat) (res : Ref M2MResource)
    (list : List (Ref M2MObject)) (heap : M2M) :
    (c.bind i res list heap).self.resources[j]? =
      if i = j then (c.self.resources[j]?).map (·.setM2mResource res)
      else c.self.resources[j]? := by
  simp only [Context.bind, List.getElem?_modify]
  split <;> simp

/-- One iteration that runs to its end; `d` is what `resourceDef` holds before it. -/
inductive Iteration (m : MbedClient) (i : Nat) (d : MccResourceDef) (c : Context) : Context → Prop
  | intro {r : MbedCloudClientResource} {res : Ref M2MResource} {list : List (Ref M2MObject)}
      {heap : M2M} :
      c.self.resources[i]? = some r →
      addResource m c.self.objList (argsOf (r.getData i c.heap d)) c.heap = some (res, list, heap) →
      Iteration m i d c (c.bind i res list heap)

variable {m : MbedClient} {c t : Context} {d : MccResourceDef} {i todo : Nat}
variable {tr : List CloudEvent} {o : Except Fault Unit}

/-- How an execution of the loop goes on from index `i`. -/
theorem exec_registerResources_succ : Exec (registerResources m (todo + 1) i d) c tr o t ↔
    match c.self.resources[i]? with
    | none => tr = [] ∧ o = .error .badIndex ∧ t = c
    | some r => ∃ rest, tr = told (.addResource (argsOf (r.getData i c.heap d))) :: rest ∧
      match addResource m c.self.objList (argsOf (r.getData i c.heap d)) c.heap with
      | none => rest = [] ∧ o = .error .nullPointer ∧ t = c
      | some (res, list, heap) =>
        Exec (registerResources m todo (i + 1) (r.getData i c.heap d)) (c.bind i res list heap)
          rest o t := by
  rw [registerResources]
  simp only [exec_get_bind, exec_deref_bind]
  cases hr : c.self.resources[i]? with
  | none => simp
  | some r =>
    simp only [Option.some.injEq, reduceCtorEq, false_and, or_false, exists_eq_left',
      exec_command_bind]
    refine exists_congr fun rest => and_congr_right fun _ => ?_
    cases addResource m c.self.objList (argsOf (r.getData i c.heap d)) c.heap with
    | none => exact exec_crash
    | some result => exact exec_modify

/-- The loop rule: what an iteration preserves, the loop preserves. -/
theorem registerResources_ok (inv : Nat → Context → Prop)
    (h : Exec (registerResources m todo i d) c tr (.ok ()) t) (base : inv i c)
    (step : ∀ i d c c', inv i c → Iteration m i d c c' → inv (i + 1) c') : inv (i + todo) t := by
  induction todo generalizing i d c tr with
  | zero =>
    simp only [registerResources, exec_pure] at h
    exact h.2.2 ▸ base
  | succ todo ih =>
    rw [exec_registerResources_succ] at h
    split at h
    · simp at h
    · rename_i r hr
      obtain ⟨rest, -, h⟩ := h
      split at h
      · simp at h
      · rename_i res list heap hadd
        have := ih h (step i d c _ base (.intro hr hadd))
        rwa [Nat.add_right_comm] at this

/-- The loop rule for executions of any outcome: if no iteration can fail, the loop ends. -/
theorem registerResources_total (inv : Nat → Context → Prop)
    (h : Exec (registerResources m todo i d) c tr o t) (base : inv i c)
    (step : ∀ i d c c', inv i c → Iteration m i d c c' → inv (i + 1) c')
    (progress : ∀ j d c, i ≤ j → j < i + todo → inv j c → ∃ c', Iteration m j d c c') :
    o = .ok () := by
  induction todo generalizing i d c tr with
  | zero =>
    simp only [registerResources, exec_pure] at h
    exact h.2.1
  | succ todo ih =>
    obtain ⟨c', hc'⟩ := progress i d c le_rfl (by omega) base
    obtain ⟨hr, hadd⟩ := id hc'
    simp only [exec_registerResources_succ, hr, hadd] at h
    obtain ⟨rest, -, h⟩ := h
    exact ih h (step i d c _ base hc') fun j d c hle hlt => progress j d c (by omega) (by omega)

/-- The only calls of the loop are those of `add_resource`. -/
theorem registerResources_trace (h : Exec (registerResources m todo i d) c tr o t) :
    ∀ e ∈ tr, ∃ args, e = told (.addResource args) := by
  induction todo generalizing i d c tr with
  | zero =>
    simp only [registerResources, exec_pure] at h
    simp [h.1]
  | succ todo ih =>
    rw [exec_registerResources_succ] at h
    split at h
    · simp [h.1]
    · obtain ⟨rest, rfl, h⟩ := h
      have hrest : ∀ e ∈ rest, ∃ args, e = told (.addResource args) := by
        split at h
        · simp [h.1]
        · exact ih h
      exact List.forall_mem_cons.mpr ⟨⟨_, rfl⟩, hrest⟩

end SimpleCloudClient
