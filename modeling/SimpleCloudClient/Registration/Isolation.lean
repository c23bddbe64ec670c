import SimpleCloudClient.Registration.Loop

/-!
# Do the ids of a resource depend on its path alone?

`register_and_connect` uses one `resourceDef` for all resources, and `path_to_ids` writes as many
ids as the path has components. Two runs are compared: they may differ in everything but the
path of the resource at one index.
-/
namespace SimpleCloudClient
open CString Memory Procedure SimpleMbedCloudClient

/-- The arguments of the calls of `add_resource` in a trace, in order. -/
def passed (tr : List CloudEvent) : List AddResourceArgs :=
  tr.filterMap fun
    | ⟨.command (.addResource args), _⟩ => some args
    | _ => none

theorem passed_append (front back : List CloudEvent) :
    passed (front ++ back) = passed front ++ passed back := by simp [passed]

@[simp] theorem passed_told_addResource (args : AddResourceArgs) (tr : List CloudEvent) :
    passed (told (.addResource args) :: tr) = args :: passed tr := rfl

theorem passed_setupTrace (cfg : Config) (setup : Bool) : passed (setupTrace cfg setup) = [] := by
  unfold setupTrace
  split <;> rfl

theorem passed_callRegister {cfg : Config} {c c' : Context} {tr : List CloudEvent}
    {o : Except Fault Bool} (h : Exec (callRegister cfg) c tr o c') : passed tr = [] := by
  rcases exec_callRegister.mp h with ⟨-, rfl, -⟩ | ⟨-, setup, rfl, -⟩
  · rfl
  · exact passed_setupTrace cfg setup

variable {m : MbedClient} {c t : Context} {d : MccResourceDef} {i k todo : Nat}
variable {tr : List CloudEvent} {o : Except Fault Unit} {a : AddResourceArgs}

/-- What is passed in iteration `k` is read from the resource with that index, over whatever the
iterations before have left in `resourceDef`. -/
theorem registerResources_passed (h : Exec (registerResources m todo i d) c tr o t)
    (ha : (passed tr)[k]? = some a) : ∃ (r : MbedCloudClientResource) (heap : M2M) (d' : _),
      a = argsOf (r.getData (i + k) heap d') ∧ c.self.resources[i + k]? = some r := by
  induction todo generalizing i d c tr k with
  | zero =>
    simp only [registerResources, exec_pure] at h
    simp [h.1, passed] at ha
  | succ todo ih =>
    rw [exec_registerResources_succ] at h
    split at h
    · simp [h.1, passed] at ha
    · rename_i r hr
      obtain ⟨rest, rfl, h⟩ := h
      rw [passed_told_addResource] at ha
      cases k with
      | zero => exact ⟨r, c.heap, d, by simpa using ha.symm, by simp [hr]⟩
      | succ k =>
        rw [List.getElem?_cons_succ] at ha
        split at h
        · simp [h.1, passed] at ha
        · obtain ⟨r', heap, d', hargs, hr'⟩ := ih h ha
          rw [getElem?_resources_bind, if_neg (by omega), Nat.add_right_comm, Nat.add_assoc] at hr'
          exact ⟨r', heap, d', by rw [hargs, Nat.add_right_comm, Nat.add_assoc], hr'⟩

theorem registerAndConnect_passed {cfg : Config} {memory : MccResourceDef} {o : Except Fault Bool}
    (h : Exec (registerAndConnect cfg memory) c tr o t) (ha : (passed tr)[k]? = some a) :
    ∃ (r : MbedCloudClientResource) (heap : M2M) (d : _), a = argsOf (r.getData k heap d) ∧
      c.self.resources[k]? = some r := by
  rcases exec_registerAndConnect.mp h with
    ⟨-, rfl, -⟩ | ⟨-, ⟨front, mid, back, rfl, hloop, hcall⟩ | ⟨fault, -, hloop⟩⟩
  · simp [passed] at ha
  · have hback : passed (told (.addObjects mid.self.objList) :: back) = [] :=
      (passed_callRegister hcall : passed back = [])
    rw [passed_append, hback, List.append_nil] at ha
    simpa using registerResources_passed hloop ha
  · simpa using registerResources_passed hloop ha

/-- In all pairs of runs that agree on the path at an index, the same ids are passed there. -/
def IdsDetermined (cfg : Config) (path : Text) : Prop :=
  ∀ (c₁ c₂ : Context) memory₁ tr₁ o₁ t₁ memory₂ tr₂ o₂ t₂ (k : Nat) (a₁ a₂ : AddResourceArgs),
    Exec (registerAndConnect cfg memory₁) c₁ tr₁ o₁ t₁ →
    Exec (registerAndConnect cfg memory₂) c₂ tr₂ o₂ t₂ →
    c₁.self.resources[k]?.map (·.path) = some path →
    c₂.self.resources[k]?.map (·.path) = some path →
    (passed tr₁)[k]? = some a₁ → (passed tr₂)[k]? = some a₂ → a₁.position = a₂.position

/-- What is passed for the first resource of a client. -/
theorem passed_first {cfg : Config} {memory : MccResourceDef} {o : Except Fault Bool}
    {r : MbedCloudClientResource} {rest : List MbedCloudClientResource}
    (hnot : c.self.registerAndConnectCalled = false) (hr : c.self.resources = r :: rest)
    (h : Exec (registerAndConnect cfg memory) c tr o t) :
    (passed tr)[0]? = some (argsOf (r.getData 0 c.heap memory)) := by
  have hloop : ∀ tr (o : Except Fault Unit) t,
      Exec (registerResources cfg.mbedClient c.self.resources.length 0 memory) c tr o t →
      (passed tr)[0]? = some (argsOf (r.getData 0 c.heap memory)) := by
    intro tr o t h
    rw [hr, List.length_cons, exec_registerResources_succ, hr] at h
    obtain ⟨rest, rfl, -⟩ := h
    simp
  rcases exec_registerAndConnect_first hnot h with
    ⟨front, mid, back, rfl, hexec, -⟩ | ⟨fault, -, hexec⟩
  · have hfirst := hloop front _ mid hexec
    rw [passed_append, List.getElem?_append_left, hfirst]
    exact (List.getElem?_eq_some_iff.mp hfirst).1
  · exact hloop tr _ t hexec

/-- The ids are a function of the path exactly for paths of three or more components. A shorter
path takes its last id from the resource before, or from uninitialised memory. -/
theorem idsDetermined_iff (cfg : Config) (path : Text) :
    IdsDetermined cfg path ↔ 3 ≤ (words slash path.bytes).length := by
  constructor
  · intro h
    by_contra hshort
    let r := MbedCloudClientResource.construct ⟨false, 0⟩ path empty
    let c : Context := { self := { resources := [r] } }
    let memory (id : UInt32) : MccResourceDef :=
      ⟨⟨0, 0, id⟩, empty, 0, [], false, none, none, none⟩
    obtain ⟨tr₀, o₀, t₀, h₀⟩ := exists_exec (registerAndConnect cfg (memory 0)) c
    obtain ⟨tr₁, o₁, t₁, h₁⟩ := exists_exec (registerAndConnect cfg (memory 1)) c
    have hsame := h c c _ _ _ _ _ _ _ _ 0 _ _ h₀ h₁ rfl rfl (passed_first rfl rfl h₀)
      (passed_first rfl rfl h₁)
    have hid : ∀ id, (argsOf (r.getData 0 c.heap (memory id))).position.resourceId =
        id.toUInt16 := by
      intro id
      change (pathToIds path (memory id).ids).resourceId.toUInt16 = _
      rw [resourceId_pathToIds (by omega)]
    have hids := congrArg Position.resourceId hsame
    rw [hid, hid] at hids
    exact absurd hids (by decide)
  · intro hlong c₁ c₂ memory₁ tr₁ o₁ t₁ memory₂ tr₂ o₂ t₂ k a₁ a₂ h₁ h₂ hp₁ hp₂ ha₁ ha₂
    obtain ⟨x, y, z, more, hwords⟩ :
        ∃ x y z more, words slash path.bytes = x :: y :: z :: more := by
      match hw : words slash path.bytes, hlong with
      | x :: y :: z :: more, _ => exact ⟨x, y, z, more, rfl⟩
    obtain ⟨r₁, heap₁, d₁, rfl, hr₁⟩ := registerAndConnect_passed h₁ ha₁
    obtain ⟨r₂, heap₂, d₂, rfl, hr₂⟩ := registerAndConnect_passed h₂ ha₂
    rw [hr₁, Option.map_some, Option.some.injEq] at hp₁
    rw [hr₂, Option.map_some, Option.some.injEq] at hp₂
    simp only [AddResourceArgs.position, argsOf, MbedCloudClientResource.ids_getData, hp₁, hp₂,
      pathToIds_of_three hwords]

/-- `4/5` is registered as `4/5/3` after `1/2/3`, and as `4/5/9` after `1/2/9`. -/
theorem not_idsDetermined_two_components :
    ¬IdsDetermined .reference ⟨[52, 47, 53], by decide⟩ := by
  let memory : MccResourceDef := ⟨⟨0, 0, 0⟩, empty, 0, [], false, none, none, none⟩
  let client (first : Text) : Context := { self := { resources :=
    [.construct ⟨false, 0⟩ first empty, .construct ⟨false, 0⟩ ⟨[52, 47, 53], by decide⟩ empty] } }
  let registered (first : Text) :=
    (registerAndConnect .reference memory).run (cloudAnswers true none) (client first) []
  intro h
  have h₃ : (passed (registered ⟨[49, 47, 50, 47, 51], by decide⟩).1)[1]?.map (·.position) =
      some ⟨4, 5, 3⟩ := by decide +kernel
  have h₉ : (passed (registered ⟨[49, 47, 50, 47, 57], by decide⟩).1)[1]?.map (·.position) =
      some ⟨4, 5, 9⟩ := by decide +kernel
  obtain ⟨a₃, ha₃, hp₃⟩ := Option.map_eq_some_iff.mp h₃
  obtain ⟨a₉, ha₉, hp₉⟩ := Option.map_eq_some_iff.mp h₉
  have hsame := h _ _ _ _ _ _ _ _ _ _ 1 a₃ a₉ (exec_run _ _ _ _) (exec_run _ _ _ _) rfl rfl ha₃ ha₉
  rw [hp₃, hp₉] at hsame
  exact absurd hsame (by decide)

end SimpleCloudClient
