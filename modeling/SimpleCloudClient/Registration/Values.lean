import SimpleCloudClient.Registration.Placement

/-!
# The value of a resource before and after registration

The value lives in the member `value` until the resource is bound, and in the M2M resource from
then on. What `get_value` should return is read off the history: the text of the last write. All
resources of a client are followed at once, so that a write to one is seen to leave the others.
-/
namespace SimpleCloudClient
open CString Memory Procedure SimpleMbedCloudClient Transition

/-- The text that a setter stands for. -/
def ResourceChange.text (cfg : Config) : ResourceChange → Option (List UInt8)
  | setValueInt value => some (ofInt value.toInt).bytes
  | setValueString value => some value.bytes
  | setValueFloat value => some (cfg.formatG value).bytes
  | _ => none

/-- The text that a step writes to the resource with index `i`. -/
def written (cfg : Config) (i : Nat) (l : Label) : Option (List UInt8) :=
  match l.op with
  | .changeResource j change => if j = i then change.text cfg else none
  | .cloudWrite j value => if j = i then some value else none
  | _ => none

/-- The text of the most recent write, and the empty text before any write. -/
def lastWritten (cfg : Config) (i : Nat) (labels : List Label) : List UInt8 :=
  (labels.filterMap (written cfg i)).getLast?.getD []

@[simp] theorem lastWritten_concat (cfg : Config) (i : Nat) (labels : List Label) (l : Label) :
    lastWritten cfg i (labels ++ [l]) = (written cfg i l).getD (lastWritten cfg i labels) := by
  cases h : written cfg i l <;> simp [lastWritten, List.filterMap_append, h]

/-- `get_value` returns the last write; so does the M2M resource, where there is one. -/
def UpToDate (cfg : Config) (labels : List Label) (c : Context) : Prop :=
  ∀ (i : Nat) (r : MbedCloudClientResource), c.self.resources[i]? = some r →
    r.getValue c.heap = lastWritten cfg i labels ∧
    ∀ res, r.resource = some res → c.heap.getValueString res = lastWritten cfg i labels

/-- A float is set only where the M2M resource exists, unless its text is what is stored. -/
def FloatsBound (cfg : Config) (c : Context) (l : Label) : Prop :=
  ∀ i value, l.op = .changeResource i (.setValueFloat value) →
    ∀ r, c.self.resources[i]? = some r → r.resource = none → cfg.formatG value = r.value

/-- The bound M2M resources exist and are not shared; before registration there are none. -/
structure Linked (c : Context) : Prop where
  phase : c.self.registerAndConnectCalled = false → Unregistered c
  exist : ∀ {i : Nat} {r : MbedCloudClientResource} {res}, c.self.resources[i]? = some r →
    r.resource = some res → (c.heap.resources.get? res).isSome
  apart : ∀ {i j : Nat} {r r' : MbedCloudClientResource} {res},
    c.self.resources[i]? = some r → c.self.resources[j]? = some r' →
    r.resource = some res → r'.resource = some res → j = i

variable {cfg : Config} {c c' t : Context} {labels : List Label} {l : Label} {i j : Nat}
variable {r r' : MbedCloudClientResource} {res : Ref M2MResource}

theorem getValue_eq_iff (heap : M2M) (text : List UInt8) :
    (r.getValue heap = text ∧ ∀ res, r.resource = some res → heap.getValueString res = text) ↔
      r.getValue heap = text := by
  cases h : r.resource with
  | none => simp
  | some res => simp [MbedCloudClientResource.getValue_of_bound h]

theorem upToDate_iff : UpToDate cfg labels c ↔
    ∀ i r, c.self.resources[i]? = some r → r.getValue c.heap = lastWritten cfg i labels := by
  simp only [UpToDate, getValue_eq_iff]

theorem getValueString_updateResource (heap : M2M) (res res' : Ref M2MResource)
    (value : List UInt8) (h : (heap.resources.get? res).isSome) :
    (heap.updateResource res ({ · with value })).getValueString res' =
      if res' = res then value else heap.getValueString res' := by
  obtain ⟨x, hx⟩ := Option.isSome_iff_exists.mp h
  by_cases hres : res' = res
  · subst hres
    simp [M2M.getValueString, M2M.updateResource, hx]
  · simp [M2M.getValueString, M2M.updateResource, Store.get?_modify_of_ne _ _ (Ne.symm hres), hres]

/-- A write to the M2M resource of one resource is seen through that resource only. -/
theorem Linked.getValue_store (hm : cfg.mbedClient.Lawful) (h : Linked c)
    (hi : c.self.resources[i]? = some r) (hres : r.resource = some res)
    (hj : c.self.resources[j]? = some r') (value : List UInt8) :
    r'.getValue (cfg.mbedClient.setValue res value c.heap) =
      if j = i then value else r'.getValue c.heap := by
  rw [hm.setValue]
  cases hres' : r'.resource with
  | none =>
    have hji : j ≠ i := by
      rintro rfl
      obtain rfl := Option.some.inj (hi.symm.trans hj)
      rw [hres] at hres'
      cases hres'
    simp [MbedCloudClientResource.getValue_of_unbound hres', hji]
  | some res' =>
    simp only [MbedCloudClientResource.getValue_of_bound hres',
      getValueString_updateResource _ _ _ _ (h.exist hi hres)]
    have hiff : res' = res ↔ j = i := by
      constructor
      · rintro rfl
        exact h.apart hi hj hres hres'
      · rintro rfl
        obtain rfl := Option.some.inj (hi.symm.trans hj)
        exact Option.some.inj (hres'.symm.trans hres)
    simp only [hiff]

/-! ## Setters -/

theorem apply_setValueInt (hm : cfg.mbedClient.Lawful) (value : Int32)
    (r : MbedCloudClientResource) (heap : M2M) :
    (ResourceChange.setValueInt value).apply cfg r heap =
      (ResourceChange.setValueString (ofInt value.toInt)).apply cfg r heap :=
  MbedCloudClientResource.setValueInt_eq hm value heap

theorem apply_heap (hm : cfg.mbedClient.Lawful) (change : ResourceChange)
    (r : MbedCloudClientResource) (heap : M2M) :
    (change.apply cfg r heap).2 =
      match change.text cfg with
      | some text => r.forward cfg.mbedClient text heap
      | none => heap := by
  cases change with
  | setValueInt value =>
    rw [apply_setValueInt hm]
    rfl
  | _ => rfl

/-- `set_value(float)` is the setter that does not store its text in `value`. -/
theorem apply_value (hm : cfg.mbedClient.Lawful) (change : ResourceChange)
    (r : MbedCloudClientResource) (heap : M2M) :
    (change.apply cfg r heap).1.value.bytes =
      match change with
      | .setValueFloat _ => r.value.bytes
      | _ => (change.text cfg).getD r.value.bytes := by
  cases change with
  | setValueInt value =>
    rw [apply_setValueInt hm]
    rfl
  | _ => rfl

/-- The M2M resources are as they were, up to the values they hold. -/
def SameUpToValues (heap heap' : M2M) : Prop :=
  ∀ (ρ : Ref M2MResource) (x : M2MResource), heap.resources.get? ρ = some x →
    ∃ value, heap'.resources.get? ρ = some { x with value }

theorem SameUpToValues.refl (heap : M2M) : SameUpToValues heap heap := fun _ x hx => ⟨x.value, hx⟩

theorem get?_setValue_self (hm : cfg.mbedClient.Lawful) {heap : M2M} {x : M2MResource}
    (text : List UInt8) (h : heap.resources.get? res = some x) :
    (cfg.mbedClient.setValue res text heap).resources.get? res = some { x with value := text } := by
  simp [hm.setValue, M2M.updateResource, h]

theorem sameUpToValues_setValue (hm : cfg.mbedClient.Lawful) (heap : M2M)
    (res : Ref M2MResource) (text : List UInt8) :
    SameUpToValues heap (cfg.mbedClient.setValue res text heap) := by
  intro ρ x hx
  by_cases hsame : res = ρ
  · subst hsame
    exact ⟨text, get?_setValue_self hm text hx⟩
  · refine ⟨x.value, ?_⟩
    rw [hm.setValue, M2M.updateResource, Store.get?_modify_of_ne _ _ hsame]
    exact hx

theorem sameUpToValues_apply (hm : cfg.mbedClient.Lawful) (change : ResourceChange)
    (r : MbedCloudClientResource) (heap : M2M) :
    SameUpToValues heap (change.apply cfg r heap).2 := by
  rw [apply_heap hm]
  cases change.text cfg with
  | none => exact .refl heap
  | some text =>
    cases hbound : r.resource <;> simp only [MbedCloudClientResource.forward, hbound]
    · exact .refl heap
    · exact sameUpToValues_setValue hm heap _ text

/-- What a setter leaves in the resource it is called on. -/
theorem Linked.getValue_apply_self (hm : cfg.mbedClient.Lawful) (h : Linked c)
    (hi : c.self.resources[i]? = some r) (change : ResourceChange) :
    (change.apply cfg r c.heap).1.getValue (change.apply cfg r c.heap).2 =
      if r.resource = none then (change.apply cfg r c.heap).1.value.bytes
      else (change.text cfg).getD (r.getValue c.heap) := by
  rw [apply_heap hm]
  cases hres : r.resource with
  | none => rw [if_pos rfl, MbedCloudClientResource.getValue_of_unbound (by simpa using hres)]
  | some res =>
    have hsame : ∀ heap, (change.apply cfg r c.heap).1.getValue heap = r.getValue heap := by
      intro heap
      rw [MbedCloudClientResource.getValue_of_bound (by simpa using hres),
        MbedCloudClientResource.getValue_of_bound hres]
    rw [if_neg (by simp), hsame]
    cases change.text cfg with
    | none => rfl
    | some text =>
      simpa [MbedCloudClientResource.forward, hres] using h.getValue_store hm hi hres hi text

/-- The other resources keep their values. -/
theorem Linked.getValue_apply_other (hm : cfg.mbedClient.Lawful) (h : Linked c)
    (hi : c.self.resources[i]? = some r) (hj : c.self.resources[j]? = some r') (hji : j ≠ i)
    (change : ResourceChange) :
    r'.getValue (change.apply cfg r c.heap).2 = r'.getValue c.heap := by
  rw [apply_heap hm]
  cases change.text cfg with
  | none => rfl
  | some text =>
    cases hres : r.resource with
    | none => simp [MbedCloudClientResource.forward, hres]
    | some res =>
      have hstore := h.getValue_store hm hi hres hj text
      rw [if_neg hji] at hstore
      simpa [MbedCloudClientResource.forward, hres] using hstore

/-! ## Steps -/

/-- The auxiliary invariant: it holds in every run, whatever is lost on the way. -/
structure Tracked (cfg : Config) (labels : List Label) (c : Context) : Prop where
  linked : Linked c
  unwritten : ∀ i, c.self.resources[i]? = none → lastWritten cfg i labels = []

/-- The first `register_and_connect`: every resource is bound to an M2M resource of its own that
starts with the value of the resource. -/
theorem registerAndConnect_values (hm : cfg.mbedClient.Lawful) (hc : Unregistered c)
    {memory : MccResourceDef} {tr : List CloudEvent} {b : Bool}
    (h : Exec (registerAndConnect cfg memory) c tr (.ok b) c') :
    Linked c' ∧ c'.self.resources.length = c.self.resources.length ∧
      ∀ (i : Nat) (r' : MbedCloudClientResource), c'.self.resources[i]? = some r' →
        ∃ r : MbedCloudClientResource, c.self.resources[i]? = some r ∧
          r'.getValue c'.heap = r.getValue c.heap := by
  obtain ⟨front, mid, back, -, hloop, hcall⟩ := exec_registerAndConnect_returns hc.notCalled h
  have hwired := wired_registerResources hm hc hloop
  have hsame : SameTree mid.withRegisterAndConnectCalled c' := (sameTree_callRegister hcall).1
  have hheap : c'.heap = mid.heap := hsame.heap
  have hresources : c'.self.resources = mid.self.resources := hsame.resources
  have hlt : ∀ {i : Nat} {r'}, mid.self.resources[i]? = some r' → i < c.self.resources.length :=
    fun hr' => hwired.length ▸ (List.getElem?_eq_some_iff.mp hr').1
  have hbound : ∀ {i : Nat} {r'}, mid.self.resources[i]? = some r' →
      ∃ (r : MbedCloudClientResource) (ρ : Ref M2MResource),
      c.self.resources[i]? = some r ∧ r' = r.setM2mResource ρ ∧
      mid.heap.resources.get? ρ = some (r.registeredAs i) := by
    intro i r' hr'
    have hr := List.getElem?_eq_getElem (hlt hr')
    obtain ⟨ρ, hr'', hx⟩ := hwired.done i _ (hlt hr') hr
    exact ⟨_, ρ, hr, Option.some.inj (hr'.symm.trans hr''), hx⟩
  refine ⟨⟨fun hnot => ?_, ?_, ?_⟩, hresources ▸ hwired.length, ?_⟩
  · rw [hsame.called] at hnot
    cases hnot
  · intro i r' res hr' hres
    rw [hresources] at hr'
    obtain ⟨r, ρ, -, rfl, hx⟩ := hbound hr'
    obtain rfl := Option.some.inj hres
    rw [hheap, hx]
    rfl
  · intro i j r₁ r₂ res h₁ h₂
    rw [hresources] at h₁ h₂
    exact hwired.apart (hlt h₁) (hlt h₂) h₁ h₂
  · intro i r' hr'
    rw [hresources] at hr'
    obtain ⟨r, ρ, hr, rfl, hx⟩ := hbound hr'
    refine ⟨r, hr, ?_⟩
    rw [MbedCloudClientResource.getValue_of_unbound (hc.unbound r (List.mem_of_getElem? hr)),
      MbedCloudClientResource.getValue_of_bound rfl, hheap]
    simp [M2M.getValueString, hx, MbedCloudClientResource.registeredAs]

/-- Links survive a step that binds nothing and removes no M2M resource. -/
theorem Linked.of_bound (h : Linked c)
    (hcalled : c'.self.registerAndConnectCalled = c.self.registerAndConnectCalled)
    (hlist : c'.self.objList = c.self.objList)
    (hbound : ∀ (i : Nat) (r' : MbedCloudClientResource) res, c'.self.resources[i]? = some r' →
      r'.resource = some res →
      ∃ r : MbedCloudClientResource, c.self.resources[i]? = some r ∧ r.resource = some res)
    (hheap : SameUpToValues c.heap c'.heap) : Linked c' where
  phase hnot := by
    have hc := h.phase (hcalled.symm.trans hnot)
    refine ⟨hnot, hlist.trans hc.noObjects, fun r' hr' => ?_⟩
    obtain ⟨i, hi⟩ := List.mem_iff_getElem?.mp hr'
    cases hres : r'.resource with
    | none => rfl
    | some res =>
      obtain ⟨r, hr, hrres⟩ := hbound i r' res hi hres
      rw [hc.unbound r (List.mem_of_getElem? hr)] at hrres
      cases hrres
  exist hr' hres := by
    obtain ⟨r, hr, hrres⟩ := hbound _ _ _ hr' hres
    obtain ⟨x, hx⟩ := Option.isSome_iff_exists.mp (h.exist hr hrres)
    obtain ⟨value, hvalue⟩ := hheap _ x hx
    rw [hvalue]
    rfl
  apart h₁ h₂ hres₁ hres₂ := by
    obtain ⟨r₁, hr₁, hrres₁⟩ := hbound _ _ _ h₁ hres₁
    obtain ⟨r₂, hr₂, hrres₂⟩ := hbound _ _ _ h₂ hres₂
    exact h.apart hr₁ hr₂ hrres₁ hrres₂

/-- A setter rebinds nothing. -/
theorem Linked.changeResource (hm : cfg.mbedClient.Lawful) (h : Linked c)
    (hi : c.self.resources[i]? = some r) (change : ResourceChange) :
    Linked { c with
      heap := (change.apply cfg r c.heap).2
      self := { c.self with
        resources := c.self.resources.set i (change.apply cfg r c.heap).1 } } := by
  refine h.of_bound rfl rfl (fun j r' res hr' hres => ?_) (sameUpToValues_apply hm change r c.heap)
  rw [List.getElem?_set] at hr'
  split at hr'
  · subst j
    split at hr'
    · obtain rfl := Option.some.inj hr'
      exact ⟨r, hi, by simpa using hres⟩
    · cases hr'
  · exact ⟨r', hr', hres⟩

theorem Linked.step (hm : cfg.mbedClient.Lawful) (h : Linked c) (hstep : Step cfg c l c') :
    Linked c' := by
  have hspec := hstep.spec
  have hsame := sameTree_of_step hstep
  obtain ⟨op, tr, result⟩ := l
  cases op with
  | registerAndConnect memory =>
    obtain ⟨b, -, hexec⟩ := hspec
    cases hcalled : c.self.registerAndConnectCalled with
    | false => exact (registerAndConnect_values hm (h.phase hcalled) hexec).1
    | true =>
      obtain ⟨-, -, rfl⟩ := exec_registerAndConnect_called hcalled hexec
      exact h
  | createResource memory path name =>
    obtain ⟨-, rfl⟩ := hspec
    refine h.of_bound rfl rfl (fun i r' res hr' hres => ?_) (.refl c.heap)
    rw [List.getElem?_append] at hr'
    split at hr'
    · exact ⟨r', hr', hres⟩
    · obtain rfl := List.mem_singleton.mp (List.mem_of_getElem? hr')
      cases hres
  | changeResource i change =>
    obtain ⟨-, r, hr, rfl⟩ := hspec
    exact h.changeResource hm hr change
  | cloudWrite i value =>
    obtain ⟨-, r, res, hr, hres, rfl⟩ := hspec
    exact h.of_bound rfl rfl (fun _ r' _ hr' hres' => ⟨r', hr', hres'⟩)
      (sameUpToValues_setValue hm c.heap res value)
  | _ =>
    obtain ⟨hheap, hlist, hresources, hcalled⟩ := hsame trivial
    refine h.of_bound hcalled hlist (fun i r' res hr' hres => ⟨r', hresources ▸ hr', hres⟩) ?_
    rw [hheap]
    exact .refl c.heap

/-- No step takes a resource away. -/
theorem length_resources_le (hm : cfg.mbedClient.Lawful) (h : Linked c)
    (hstep : Step cfg c l c') : c.self.resources.length ≤ c'.self.resources.length := by
  have hspec := hstep.spec
  have hsame := sameTree_of_step hstep
  obtain ⟨op, tr, result⟩ := l
  cases op with
  | registerAndConnect memory =>
    obtain ⟨b, -, hexec⟩ := hspec
    cases hcalled : c.self.registerAndConnectCalled with
    | false => exact (registerAndConnect_values hm (h.phase hcalled) hexec).2.1.ge
    | true =>
      obtain ⟨-, -, rfl⟩ := exec_registerAndConnect_called hcalled hexec
      exact le_rfl
  | createResource memory path name =>
    obtain ⟨-, rfl⟩ := hspec
    simp
  | changeResource i change =>
    obtain ⟨-, r, -, rfl⟩ := hspec
    simp
  | cloudWrite i value =>
    obtain ⟨-, r, res, -, -, rfl⟩ := hspec
    exact le_rfl
  | _ => exact (congrArg List.length (hsame trivial).resources).ge

theorem written_eq_none (hstep : Step cfg c l c') (hi : c.self.resources[i]? = none) :
    written cfg i l = none := by
  have hspec := hstep.spec
  obtain ⟨op, tr, result⟩ := l
  cases op with
  | changeResource j change =>
    obtain ⟨-, r, hr, -⟩ := hspec
    exact if_neg fun hji => by rw [hji, hi] at hr; cases hr
  | cloudWrite j value =>
    obtain ⟨-, r, res, hr, -⟩ := hspec
    exact if_neg fun hji => by rw [hji, hi] at hr; cases hr
  | _ => rfl

theorem Tracked.step (hm : cfg.mbedClient.Lawful) (h : Tracked cfg labels c)
    (hstep : Step cfg c l c') : Tracked cfg (labels ++ [l]) c' where
  linked := h.linked.step hm hstep
  unwritten i hi := by
    have hle := length_resources_le hm h.linked hstep
    have hold : c.self.resources[i]? = none := by
      rw [List.getElem?_eq_none_iff] at hi ⊢
      omega
    rw [lastWritten_concat, written_eq_none hstep hold]
    exact h.unwritten i hold

/-- After a setter every value is up to date if that of the resource it was called on is. -/
theorem upToDate_changeResource_iff (hm : cfg.mbedClient.Lawful) (hc : Linked c)
    (h : UpToDate cfg labels c) (hi : c.self.resources[i]? = some r) (change : ResourceChange)
    {tr : List CloudEvent} {result : Option Bool} :
    UpToDate cfg (labels ++ [⟨.changeResource i change, tr, result⟩]) { c with
        heap := (change.apply cfg r c.heap).2
        self := { c.self with
          resources := c.self.resources.set i (change.apply cfg r c.heap).1 } } ↔
      (change.apply cfg r c.heap).1.getValue (change.apply cfg r c.heap).2 =
        (change.text cfg).getD (r.getValue c.heap) := by
  rw [upToDate_iff] at h ⊢
  have hlt : i < c.self.resources.length := (List.getElem?_eq_some_iff.mp hi).1
  constructor
  · intro hall
    have hset := hall i _ (List.getElem?_set_self hlt)
    simpa [written, h i r hi] using hset
  · intro hset j r' hr'
    by_cases hji : j = i
    · subst hji
      rw [List.getElem?_set_self hlt] at hr'
      obtain rfl := Option.some.inj hr'
      simpa [written, h j r hi] using hset
    · rw [List.getElem?_set_ne (Ne.symm hji)] at hr'
      rw [hc.getValue_apply_other hm hi hr' hji, h j r' hr', lastWritten_concat]
      simp [written, Ne.symm hji]

/-- A setter is the only step that can lose a write, and it loses it exactly when it is
`set_value(float)` on an unbound resource that holds another text. -/
theorem changeResource_upToDate (hm : cfg.mbedClient.Lawful) (hc : Linked c)
    (h : UpToDate cfg labels c) (hi : c.self.resources[i]? = some r) (change : ResourceChange)
    {tr : List CloudEvent} {result : Option Bool} :
    UpToDate cfg (labels ++ [⟨.changeResource i change, tr, result⟩]) { c with
        heap := (change.apply cfg r c.heap).2
        self := { c.self with
          resources := c.self.resources.set i (change.apply cfg r c.heap).1 } } ↔
      FloatsBound cfg c ⟨.changeResource i change, tr, result⟩ := by
  rw [upToDate_changeResource_iff hm hc h hi, hc.getValue_apply_self hm hi change, apply_value hm]
  simp only [FloatsBound, Operation.changeResource.injEq]
  by_cases hres : r.resource = none
  · have hvalue := MbedCloudClientResource.getValue_of_unbound hres c.heap
    rw [if_pos hres, hvalue]
    cases change with
    | setValueFloat value =>
      constructor
      · rintro hbytes j value' ⟨rfl, hvalue'⟩ r' hr' -
        obtain rfl := Option.some.inj (hi.symm.trans hr')
        obtain rfl := ResourceChange.setValueFloat.inj hvalue'
        exact Text.ext hbytes.symm
      · intro hfloat
        exact (congrArg Text.bytes (hfloat i value ⟨rfl, rfl⟩ r hi hres)).symm
    | _ =>
      refine iff_of_true rfl ?_
      rintro j value ⟨-, hvalue'⟩
      cases hvalue'
  · rw [if_neg hres]
    refine iff_of_true rfl ?_
    rintro j value ⟨rfl, rfl⟩ r' hr' hnone
    obtain rfl := Option.some.inj (hi.symm.trans hr')
    exact absurd hnone hres

theorem upToDate_step (hm : cfg.mbedClient.Lawful) (hc : Tracked cfg labels c)
    (h : UpToDate cfg labels c) (hstep : Step cfg c l c') :
    UpToDate cfg (labels ++ [l]) c' ↔ FloatsBound cfg c l := by
  have hspec := hstep.spec
  have hsame := sameTree_of_step hstep
  obtain ⟨op, tr, result⟩ := l
  have hvalue := upToDate_iff.mp h
  cases op with
  | changeResource i change =>
    obtain ⟨-, r, hi, rfl⟩ := hspec
    exact changeResource_upToDate hm hc.linked h hi change
  | registerAndConnect memory =>
    refine iff_of_true (upToDate_iff.mpr fun i r' hr' => ?_) (by rintro i value ⟨⟩)
    rw [lastWritten_concat]
    obtain ⟨b, -, hexec⟩ := hspec
    cases hcalled : c.self.registerAndConnectCalled with
    | false =>
      obtain ⟨-, -, hvalues⟩ := registerAndConnect_values hm (hc.linked.phase hcalled) hexec
      obtain ⟨r, hr, heq⟩ := hvalues i r' hr'
      exact heq.trans (hvalue i r hr)
    | true =>
      obtain ⟨-, -, rfl⟩ := exec_registerAndConnect_called hcalled hexec
      exact hvalue i r' hr'
  | createResource memory path name =>
    obtain ⟨-, rfl⟩ := hspec
    refine iff_of_true (upToDate_iff.mpr fun i r' hr' => ?_) (by rintro i value ⟨⟩)
    rw [lastWritten_concat]
    by_cases hlt : i < c.self.resources.length
    · rw [List.getElem?_append_left hlt] at hr'
      exact hvalue i r' hr'
    · rw [List.getElem?_append_right (by omega)] at hr'
      obtain rfl := List.mem_singleton.mp (List.mem_of_getElem? hr')
      exact (hc.unwritten i (List.getElem?_eq_none_iff.mpr (by omega))).symm
  | cloudWrite i value =>
    obtain ⟨-, r, res, hi, hres, rfl⟩ := hspec
    refine iff_of_true (upToDate_iff.mpr fun j r' hr' => ?_) (by rintro i value ⟨⟩)
    rw [lastWritten_concat]
    refine (hc.linked.getValue_store hm hi hres hr' value).trans ?_
    by_cases hji : j = i
    · simp [written, hji]
    · simp [written, hji, Ne.symm hji, hvalue j r' hr']
  | _ =>
    obtain ⟨hheap, -, hresources, -⟩ := hsame trivial
    refine iff_of_true (upToDate_iff.mpr fun i r' hr' => ?_) (by rintro i value ⟨⟩)
    rw [hheap, lastWritten_concat]
    exact hvalue i r' (hresources ▸ hr')

theorem Context.Fresh.linked (h : c.Fresh) : Linked c := by
  have hempty : c.self.resources = [] := by rw [h]
  refine ⟨fun _ => ⟨by rw [h], by rw [h], ?_⟩, ?_, ?_⟩ <;> simp [hempty]

theorem Context.Fresh.tracked (h : c.Fresh) : Tracked cfg [] c where
  linked := h.linked
  unwritten _ _ := rfl

theorem linked_of_run (hm : cfg.mbedClient.Lawful) {fresh : Context} (hfresh : fresh.Fresh)
    (hrun : Run (Step cfg) fresh labels t) : Linked t :=
  hrun.invariant hfresh.linked fun _ _ _ => Linked.step hm

/-- In the runs of a fresh client whose floats are set on registered resources only, and in no
others, every resource has the value last written to it after every step. -/
theorem values_upToDate_iff (hm : cfg.mbedClient.Lawful) {fresh : Context} (hfresh : fresh.Fresh) :
    RunWhen (Step cfg) (fun _ => FloatsBound cfg) fresh labels t ↔
      RunAlong (Step cfg) (UpToDate cfg) fresh labels t := by
  have hempty : fresh.self.resources = [] := by rw [hfresh]
  exact runWhen_iff_runAlong (Tracked cfg) hfresh.tracked (by simp [UpToDate, hempty])
    (fun _ _ _ _ haux _ hstep => haux.step hm hstep)
    (fun _ _ _ _ haux hgood hstep => upToDate_step hm haux hgood hstep)

/-- The reference configuration, printing every float as `1.5`. -/
def Config.referenceFloat : Config :=
  { Config.reference with formatG := fun _ => ⟨[49, 46, 53], by decide⟩ }

/-- A resource is created and registered, and then set to 1.5. -/
theorem values_upToDate_iff_registered : ∃ labels t,
    RunAlong (Step .referenceFloat) (UpToDate .referenceFloat) {} labels t ∧
    labels.map (·.result) = [none, some true, none] := by
  let memory : MccResourceDef := ⟨⟨0, 0, 0⟩, empty, 0, [], false, none, none, none⟩
  let answer := cloudAnswers true none
  let create : Operation := .createResource ⟨true, 3⟩ (Position.path ⟨3200, 0, 5501⟩) empty
  let c₁ := (create.run .referenceFloat answer {}).2.2
  let c₂ := ((Operation.registerAndConnect memory).run .referenceFloat answer c₁).2.2
  have hcreate : Step .referenceFloat {} ⟨create, _, none⟩ c₁ := step_of_run answer create {} rfl
  have hregister : Step .referenceFloat c₁ ⟨.registerAndConnect memory, _, some true⟩ c₂ :=
    step_of_run answer (.registerAndConnect memory) c₁ (by decide +kernel)
  have hfloat : Step .referenceFloat c₂ ⟨.changeResource 0 (.setValueFloat 1.5), _, none⟩ _ :=
    step_of_run answer (.changeResource 0 (.setValueFloat 1.5)) c₂ (by decide +kernel)
  have hbound : ∀ r ∈ c₂.self.resources, r.resource ≠ none := by decide +kernel
  have hstart : RunWhen (Step .referenceFloat) (fun _ => FloatsBound .referenceFloat) {} [] {} :=
    .refl
  have hrun := ((hstart.snoc (by rintro i value ⟨⟩) hcreate).snoc (by rintro i value ⟨⟩)
    hregister).snoc (fun i value _ r hr hnone =>
      absurd hnone (hbound r (List.mem_of_getElem? hr))) hfloat
  have hfresh : Context.Fresh {} := rfl
  exact ⟨_, _, (values_upToDate_iff MbedClient.reference_lawful hfresh).mp hrun, rfl⟩

/-- A float that is set before registration is lost: the value stays empty. -/
theorem not_upToDate_float : ∃ labels t, Run (Step .referenceFloat) {} labels t ∧
    labels.map (·.op) = [.createResource ⟨true, 3⟩ (Position.path ⟨3200, 0, 5501⟩) empty,
      .changeResource 0 (.setValueFloat 1.5)] ∧ ¬UpToDate .referenceFloat labels t := by
  let answer := cloudAnswers true none
  let create : Operation := .createResource ⟨true, 3⟩ (Position.path ⟨3200, 0, 5501⟩) empty
  let c₁ := (create.run .referenceFloat answer {}).2.2
  have hcreate : Step .referenceFloat {} ⟨create, _, none⟩ c₁ := step_of_run answer create {} rfl
  have hfloat : Step .referenceFloat c₁ ⟨.changeResource 0 (.setValueFloat 1.5), _, none⟩ _ :=
    step_of_run answer (.changeResource 0 (.setValueFloat 1.5)) c₁ (by decide +kernel)
  refine ⟨_, _, (Run.single hcreate).snoc hfloat, rfl, fun h => ?_⟩
  exact absurd (h 0 _ rfl).1 (by decide +kernel)

end SimpleCloudClient
