import SimpleCloudClient.Registration.History
import SimpleCloudClient.Registration.Values

/-!
# The typed getters and the string view

`get_value_int` and `get_value_float` parse the text of the M2M resource, and return 0 as long as
there is none; `get_value` reads the cached text then. The two views are compared along runs of
`set_value(int)`, `set_value(const char *)`, registration and cloud writes.
-/
namespace SimpleCloudClient
open CString Memory Procedure SimpleMbedCloudClient Transition

variable {F : Type} {p : Parsers F} {cfg : Config} {c c' t : Context} {labels : List Label}
variable {l : Label} {r : MbedCloudClientResource} {heap : M2M}

/-- Both typed getters are parses of what `get_value` returns. -/
def MbedCloudClientResource.ViewsAgree (r : MbedCloudClientResource) (p : Parsers F)
    (heap : M2M) : Prop :=
  (FitsInt (readInt (r.getValue heap)) →
    (r.getValueInt p heap).toInt = readInt (r.getValue heap)) ∧
  r.getValueFloat p heap = p.atof (ofMemory (r.getValue heap))

/-- A text that is read as 0, by either parse. -/
def ReadAsZero (p : Parsers F) (text : List UInt8) : Prop :=
  (FitsInt (readInt text) → readInt text = 0) ∧ p.atof (ofMemory text) = p.zero

theorem viewsAgree_of_bound (hp : p.Lawful) {ρ : Ref M2MResource} (h : r.resource = some ρ) :
    r.ViewsAgree p heap := by
  simp only [MbedCloudClientResource.ViewsAgree, MbedCloudClientResource.getValueInt,
    MbedCloudClientResource.getValueFloat, MbedCloudClientResource.getValue, h, and_true]
  exact hp.getValueInt _

theorem viewsAgree_of_unbound (h : r.resource = none) :
    r.ViewsAgree p heap ↔ ReadAsZero p r.value.bytes := by
  simp only [MbedCloudClientResource.ViewsAgree, MbedCloudClientResource.getValueInt,
    MbedCloudClientResource.getValueFloat, MbedCloudClientResource.getValue, h, ReadAsZero]
  exact and_congr (imp_congr_right fun _ => eq_comm) eq_comm

theorem readAsZero_empty (hp : p.Lawful) : ReadAsZero p empty.bytes :=
  ⟨fun _ => rfl, (congrArg p.atof (ofMemory_bytes empty)).trans hp.atof_empty⟩

/-- The integer that a write of the resource with index `i` sets; `none` in it is another write. -/
def writtenInt (i : Nat) (l : Label) : Option (Option Int32) :=
  match l.op with
  | .changeResource j change =>
    if j = i then
      match change with
      | .setValueInt n => some (some n)
      | .setValueString _ | .setValueFloat _ => some none
      | _ => none
    else none
  | .cloudWrite j _ => if j = i then some none else none
  | _ => none

/-- The integer set by the last write, if that was a `set_value(int)`. -/
def lastInt (i : Nat) (labels : List Label) : Option Int32 :=
  ((labels.filterMap (writtenInt i)).getLast?).join

@[simp] theorem lastInt_concat (i : Nat) (labels : List Label) (l : Label) :
    lastInt i (labels ++ [l]) = (writtenInt i l).getD (lastInt i labels) := by
  cases h : writtenInt i l <;> simp [lastInt, List.filterMap_append, h]

theorem writtenInt_spec (i : Nat) (l : Label) :
    (∃ n, writtenInt i l = some (some n) ∧ written cfg i l = some (ofInt n.toInt).bytes) ∨
    writtenInt i l = some none ∨ (writtenInt i l = none ∧ written cfg i l = none) := by
  obtain ⟨op, tr, result⟩ := l
  cases op with
  | changeResource j change =>
    by_cases hij : j = i
    · subst hij
      cases change <;> simp [writtenInt, written, ResourceChange.text]
    · simp [writtenInt, written, hij]
  | cloudWrite j value => by_cases hij : j = i <;> simp [writtenInt, written, hij]
  | _ => simp [writtenInt, written]

theorem lastWritten_of_lastInt {i : Nat} {n : Int32} (h : lastInt i labels = some n) :
    lastWritten cfg i labels = (ofInt n.toInt).bytes := by
  induction labels using List.reverseRecOn with
  | nil => cases h
  | append_singleton labels l ih =>
    rw [lastInt_concat] at h
    rw [lastWritten_concat]
    rcases writtenInt_spec i l with ⟨n', hint, htext⟩ | hother | ⟨hint, htext⟩
    · rw [hint] at h
      obtain rfl := Option.some.inj h
      rw [htext]
      rfl
    · rw [hother] at h
      cases h
    · rw [hint] at h
      rw [htext]
      exact ih h

/-- In this state the views agree for every resource, and an integer that was written last is
returned by `get_value_int`. -/
def TypedViews (p : Parsers F) (labels : List Label) (c : Context) : Prop :=
  ∀ (i : Nat) (r : MbedCloudClientResource), c.self.resources[i]? = some r →
    r.ViewsAgree p c.heap ∧ ∀ n, lastInt i labels = some n → r.getValueInt p c.heap = n

/-- What a resource without an M2M resource holds is read as 0. -/
def UnboundZero (p : Parsers F) (c : Context) : Prop :=
  ∀ (i : Nat) (r : MbedCloudClientResource), c.self.resources[i]? = some r →
    r.resource = none → ReadAsZero p r.value.bytes

/-- The resources without an M2M resource decide it. -/
theorem typedViews_iff (hp : p.Lawful) (h : UpToDate cfg labels c) :
    TypedViews p labels c ↔ UnboundZero p c := by
  constructor
  · intro hviews i r hr hnone
    exact (viewsAgree_of_unbound hnone).mp (hviews i r hr).1
  · intro hzero i r hr
    have hagree : r.ViewsAgree p c.heap := by
      cases hbound : r.resource with
      | none => exact (viewsAgree_of_unbound hbound).mpr (hzero i r hr hbound)
      | some ρ => exact viewsAgree_of_bound hp hbound
    refine ⟨hagree, fun n hn => ?_⟩
    have htext := upToDate_iff.mp h i r hr
    rw [lastWritten_of_lastInt hn] at htext
    have hint := hagree.1
    rw [htext, readInt_ofInt] at hint
    exact Int32.toInt_inj.mp (hint ⟨n.le_toInt, n.toInt_lt⟩)

/-! ## Runs -/

/-- The steps of the comparison: floats are not set. -/
def TypedStep (cfg : Config) : Context → Label → Context → Prop :=
  Guarded (Step cfg) fun _ l => ∀ i value, l.op ≠ .changeResource i (.setValueFloat value)

/-- A resource without an M2M resource is set only to texts that are read as 0. -/
def ZeroUntilBound (cfg : Config) (p : Parsers F) (c : Context) (l : Label) : Prop :=
  ∀ i change text, l.op = .changeResource i change → change.text cfg = some text →
    ∀ r, c.self.resources[i]? = some r → r.resource = none → ReadAsZero p text

theorem TypedStep.upToDate (hm : cfg.mbedClient.Lawful) (hc : Tracked cfg labels c)
    (h : UpToDate cfg labels c) (hstep : TypedStep cfg c l c') :
    UpToDate cfg (labels ++ [l]) c' :=
  (upToDate_step hm hc h hstep.2).mpr fun i value hop => absurd hop (hstep.1 i value)

theorem value_apply (hm : cfg.mbedClient.Lawful) {change : ResourceChange}
    (hfloat : ∀ value, change ≠ .setValueFloat value) :
    (change.apply cfg r heap).1.value.bytes = (change.text cfg).getD r.value.bytes := by
  rw [apply_value hm]
  cases change with
  | setValueFloat value => exact absurd rfl (hfloat value)
  | _ => rfl

/-- A change keeps it if the resource is bound, or the text that is set is read as 0. -/
theorem UnboundZero.changeResource (hm : cfg.mbedClient.Lawful) (h : UnboundZero p c) {i : Nat}
    {change : ResourceChange} (hfloat : ∀ value, change ≠ .setValueFloat value)
    (hr : c.self.resources[i]? = some r) :
    UnboundZero p { c with
      heap := (change.apply cfg r c.heap).2
      self := { c.self with resources := c.self.resources.set i (change.apply cfg r c.heap).1 } } ↔
    (∀ text, change.text cfg = some text → r.resource = none → ReadAsZero p text) := by
  have hi := (List.getElem?_eq_some_iff.mp hr).1
  have hvalue : (change.apply cfg r c.heap).1.value.bytes =
      (change.text cfg).getD r.value.bytes := value_apply hm hfloat
  constructor
  · intro hzero text htext hnone
    have hnew := hzero i _ (by simp [hi]; rfl) (by simpa using hnone)
    rwa [hvalue, htext] at hnew
  · intro hzero j r' hr' hnone
    rw [List.getElem?_set] at hr'
    split at hr'
    · subst j
      obtain rfl := Option.some.inj hr'
      rw [apply_resource] at hnone
      rw [hvalue]
      cases htext : change.text cfg with
      | none => exact h i r hr hnone
      | some text => exact hzero text htext hnone
    · exact h j r' hr' hnone

/-- A registration keeps what the members hold. -/
theorem UnboundZero.registerAndConnect (h : UnboundZero p c) (hc : Linked c)
    {memory : MccResourceDef} {tr : List CloudEvent} {b : Bool}
    (hexec : Exec (SimpleMbedCloudClient.registerAndConnect cfg memory) c tr (.ok b) c') :
    UnboundZero p c' := by
  intro i r' hr' hnone
  cases hcalled : c.self.registerAndConnectCalled with
  | true =>
    obtain ⟨-, -, rfl⟩ := exec_registerAndConnect_called hcalled hexec
    exact h i r' hr' hnone
  | false =>
    -- the members are as they were, and nothing was bound before
    have hmembers := congrArg (·[i]?) (unbound_registerAndConnect hexec)
    simp only [List.getElem?_map, hr', Option.map_some] at hmembers
    obtain ⟨r, hr, hunbound⟩ := Option.map_eq_some_iff.mp hmembers.symm
    have hvalue : r.unbound.value = r'.unbound.value := by rw [hunbound]
    rw [show r'.value = r.value from hvalue.symm]
    exact h i r hr ((hc.phase hcalled).unbound r (List.mem_of_getElem? hr))

theorem typedViews_step (hm : cfg.mbedClient.Lawful) (hp : p.Lawful) (hc : Tracked cfg labels c)
    (hvalues : UpToDate cfg labels c) (h : TypedViews p labels c) (hstep : TypedStep cfg c l c') :
    TypedViews p (labels ++ [l]) c' ↔ ZeroUntilBound cfg p c l := by
  rw [typedViews_iff hp (hstep.upToDate hm hc hvalues)]
  rw [typedViews_iff hp hvalues] at h
  have hspec := hstep.2.spec
  have hsame := sameTree_of_step hstep.2
  have hfloat := hstep.1
  obtain ⟨op, tr, result⟩ := l
  cases op with
  | changeResource i change =>
    obtain ⟨-, r, hr, rfl⟩ := hspec
    rw [h.changeResource hm (fun value hchange => hfloat i value (hchange ▸ rfl)) hr]
    constructor
    · rintro hzero j change' text ⟨⟩ htext r' hr' hnone
      obtain rfl := Option.some.inj (hr.symm.trans hr')
      exact hzero text htext hnone
    · intro hzero text htext hnone
      exact hzero i change text rfl htext r hr hnone
  | createResource memory path name =>
    obtain ⟨-, rfl⟩ := hspec
    refine iff_of_true (fun i r hr hnone => ?_) (by rintro i change text ⟨⟩)
    rcases List.mem_append.mp (List.mem_of_getElem? hr) with hold | hnew
    · obtain ⟨j, hj⟩ := List.mem_iff_getElem?.mp hold
      exact h j r hj hnone
    · obtain rfl := List.mem_singleton.mp hnew
      exact readAsZero_empty hp
  | registerAndConnect memory =>
    obtain ⟨b, -, hexec⟩ := hspec
    exact iff_of_true (h.registerAndConnect hc.linked hexec) (by rintro i change text ⟨⟩)
  | cloudWrite i value =>
    obtain ⟨-, r, res, -, -, rfl⟩ := hspec
    exact iff_of_true h (by rintro i change text ⟨⟩)
  | _ =>
    refine iff_of_true (fun i r hr hnone => ?_) (by rintro i change text ⟨⟩)
    exact h i r ((hsame trivial).resources ▸ hr) hnone

/-- The runs in which a resource that is not registered yet is set only to what is read as 0 are
the runs in which the typed getters agree with the string view in every state, and an integer set
last is read back. -/
theorem typedViews_iff_zeroUntilBound (hm : cfg.mbedClient.Lawful) (hp : p.Lawful)
    {fresh : Context} (hfresh : fresh.Fresh) :
    RunWhen (TypedStep cfg) (fun _ => ZeroUntilBound cfg p) fresh labels t ↔
      RunAlong (TypedStep cfg) (TypedViews p) fresh labels t := by
  have hempty : fresh.self.resources = [] := by rw [hfresh]
  refine runWhen_iff_runAlong (fun labels c => Tracked cfg labels c ∧ UpToDate cfg labels c)
    ⟨hfresh.tracked, ?_⟩ ?_ ?_ ?_
  · simp [UpToDate, hempty]
  · simp [TypedViews, hempty]
  · rintro labels t l u ⟨hc, hvalues⟩ - hstep
    exact ⟨hc.step hm hstep.2, hstep.upToDate hm hc hvalues⟩
  · rintro labels t l u ⟨hc, hvalues⟩ h hstep
    exact typedViews_step hm hp hc hvalues h hstep

/-- Parsers that behave as documented on integers. -/
def Parsers.reference : Parsers Int where
  getValueInt text := Int32.ofInt (readInt text)
  atof text := readInt text.bytes
  zero := 0

theorem Parsers.reference_lawful : Parsers.reference.Lawful where
  getValueInt _ h := Int32.toInt_ofInt_of_le h.1 h.2
  atof_empty := rfl

/-- A resource is created and registered, and then set to -7. -/
theorem typedViews_iff_zeroUntilBound_registered : ∃ labels t,
    RunAlong (TypedStep .reference) (TypedViews .reference) {} labels t ∧
    lastInt 0 labels = some (-7) := by
  let memory : MccResourceDef := ⟨⟨0, 0, 0⟩, empty, 0, [], false, none, none, none⟩
  let answer := cloudAnswers true none
  let create : Operation := .createResource ⟨true, 3⟩ (Position.path ⟨3200, 0, 5501⟩) empty
  let c₁ := (create.run .reference answer {}).2.2
  let c₂ := ((Operation.registerAndConnect memory).run .reference answer c₁).2.2
  have hcreate : TypedStep .reference {} ⟨create, _, none⟩ c₁ :=
    ⟨by rintro i value ⟨⟩, step_of_run answer create {} rfl⟩
  have hregister : TypedStep .reference c₁ ⟨.registerAndConnect memory, _, some true⟩ c₂ :=
    ⟨by rintro i value ⟨⟩,
      step_of_run answer (.registerAndConnect memory) c₁ (by decide +kernel)⟩
  have hset : TypedStep .reference c₂ ⟨.changeResource 0 (.setValueInt (-7)), _, none⟩ _ :=
    ⟨by rintro i value ⟨⟩,
      step_of_run answer (.changeResource 0 (.setValueInt (-7))) c₂ (by decide +kernel)⟩
  have hbound : ∀ r ∈ c₂.self.resources, r.resource ≠ none := by decide +kernel
  have hstart : RunWhen (TypedStep .reference) (fun _ => ZeroUntilBound .reference
    Parsers.reference) {} [] {} := .refl
  have hrun := ((hstart.snoc (by rintro i change text ⟨⟩) hcreate).snoc
    (by rintro i change text ⟨⟩) hregister).snoc (fun i change text _ _ r hr hnone =>
      absurd hnone (hbound r (List.mem_of_getElem? hr))) hset
  have hfresh : Context.Fresh {} := rfl
  exact ⟨_, _, (typedViews_iff_zeroUntilBound MbedClient.reference_lawful
    Parsers.reference_lawful hfresh).mp hrun, rfl⟩

/-- A resource that is set to 5 before registration shows "5" and reads as 0. -/
theorem not_typedViews_unregistered : ∃ (labels : List Label) (t : Context)
    (r : MbedCloudClientResource), Run (TypedStep .reference) {} labels t ∧
    labels.map (·.op) = [.createResource ⟨true, 3⟩ (Position.path ⟨3200, 0, 5501⟩) empty,
      .changeResource 0 (.setValueInt 5)] ∧
    t.self.resources[0]? = some r ∧ lastInt 0 labels = some 5 ∧
    r.getValue t.heap = decimal 5 ∧ r.getValueInt Parsers.reference t.heap = 0 ∧
    r.getValueFloat Parsers.reference t.heap = 0 ∧ ¬TypedViews Parsers.reference labels t := by
  let answer := cloudAnswers true none
  let create : Operation := .createResource ⟨true, 3⟩ (Position.path ⟨3200, 0, 5501⟩) empty
  let c₁ := (create.run .reference answer {}).2.2
  have hcreate : TypedStep .reference {} ⟨create, _, none⟩ c₁ :=
    ⟨by rintro i value ⟨⟩, step_of_run answer create {} rfl⟩
  have hset : TypedStep .reference c₁ ⟨.changeResource 0 (.setValueInt 5), _, none⟩ _ :=
    ⟨by rintro i value ⟨⟩,
      step_of_run answer (.changeResource 0 (.setValueInt 5)) c₁ (by decide +kernel)⟩
  refine ⟨_, _, _, (Run.single hcreate).snoc hset, rfl, rfl, rfl, rfl, rfl, rfl, fun h => ?_⟩
  exact absurd ((h 0 _ rfl).2 5 rfl) (by decide)

end SimpleCloudClient
