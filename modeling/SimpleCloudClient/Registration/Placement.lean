import SimpleCloudClient.Registration.Wiring

/-!
# Resources are registered where their paths say

The paths spell pairwise different positions. The loop keeps an invariant about the growing tree:
it has the objects, the instances and the resources of the positions handled so far and no
others, and the resource handled at index `j` is bound to what the tree has at position `j`.
-/
namespace SimpleCloudClient
open CString Memory Procedure SimpleMbedCloudClient Transition

def Position.IsSpelledBy (p : Position) (path : Text) : Prop :=
  Spells path p.objectId.toNat p.instanceId.toNat p.resourceId.toNat

/-- The tree has exactly the objects, instances and resources of these positions. -/
structure Covers (heap : M2M) (list : List (Ref M2MObject)) (positions : List Position) : Prop where
  wellFormed : heap.WellFormed list
  objects : ∀ o, (heap.findObject list o).isSome ↔ ∃ p ∈ positions, p.objectId.toNat = o
  instances : ∀ o i, (heap.findInstance list o i).isSome ↔
    ∃ p ∈ positions, p.objectId.toNat = o ∧ p.instanceId = i
  resources : ∀ o i r, (heap.findResource list o i r).isSome ↔
    ∃ p ∈ positions, p.objectId.toNat = o ∧ p.instanceId = i ∧ p.resourceId.toNat = r

/-- The loop invariant at index `n`. -/
structure Placed (positions : List Position) (s : Context) (n : Nat) (c : Context) : Prop where
  wired : Wired s n c
  covers : Covers c.heap c.self.objList (positions.take n)
  bound : ∀ j p r, j < n → positions[j]? = some p → c.self.resources[j]? = some r →
    c.heap.resourceAt c.self.objList p = r.resource

variable {m : MbedClient} {s c c' t : Context} {d : MccResourceDef} {i n : Nat}
variable {positions : List Position}

theorem position_argsOf {r : MbedCloudClientResource} {p : Position} (h : p.IsSpelledBy r.path)
    (this : Nat) (heap : M2M) (d : MccResourceDef) :
    (argsOf (r.getData this heap d)).position = p := by
  have hlt : ∀ id : UInt16, id.toNat < 2 ^ 31 := fun id => Nat.lt_trans id.toNat_lt (by decide)
  simp only [AddResourceArgs.position, argsOf, MbedCloudClientResource.ids_getData,
    pathToIds_spells h (hlt _) (hlt _) (hlt _)]
  simp

theorem Position.ext_toNat {p q : Position} (ho : p.objectId.toNat = q.objectId.toNat)
    (hi : p.instanceId = q.instanceId) (hr : p.resourceId.toNat = q.resourceId.toNat) : p = q := by
  cases p; cases q
  simp_all [UInt16.toNat_inj]

theorem notMem_take_of_nodup (h : positions.Nodup) {p : Position} (hp : positions[n]? = some p) :
    p ∉ positions.take n := by
  rw [List.mem_take_iff_getElem]
  rintro ⟨j, hj, hjp⟩
  obtain ⟨hn, hnp⟩ := List.getElem?_eq_some_iff.mp hp
  have := (h.getElem_inj_iff).mp (hjp.trans hnp.symm)
  omega

/-- The positions that the paths of the resources spell, one for each resource. -/
def SpelledBy (resources : List MbedCloudClientResource) (positions : List Position) : Prop :=
  List.Forall₂ (fun r p => Position.IsSpelledBy p r.path) resources positions

theorem SpelledBy.getElem {resources : List MbedCloudClientResource}
    (h : SpelledBy resources positions) {j : Nat} {r : MbedCloudClientResource}
    (hr : resources[j]? = some r) : ∃ p, positions[j]? = some p ∧ p.IsSpelledBy r.path := by
  obtain ⟨hj, rfl⟩ := List.getElem?_eq_some_iff.mp hr
  have hj' : j < positions.length := h.length_eq ▸ hj
  exact ⟨positions[j], List.getElem?_eq_getElem hj', List.Forall₂.get h hj hj'⟩

theorem Unregistered.covers (h : Unregistered s) : Covers s.heap s.self.objList [] where
  wellFormed := h.wired.wellFormed
  objects := by simp [h.noObjects, M2M.findObject]
  instances := by simp [h.noObjects, M2M.findInstance, M2M.findObject]
  resources := by simp [h.noObjects, M2M.findResource, M2M.findInstance, M2M.findObject]

theorem Unregistered.placed (h : Unregistered s) : Placed positions s 0 s where
  wired := h.wired
  covers := h.covers
  bound _ _ _ hj := absurd hj (Nat.not_lt_zero _)

/-- The tree after one more position. -/
theorem Added.covers_concat {heap heap' : M2M} {list list' : List (Ref M2MObject)} {p : Position}
    {res : Ref M2MResource} {x : M2MResource} (h : Covers heap list positions)
    (a : Added heap list heap' list' p res x) : Covers heap' list' (positions ++ [p]) where
  wellFormed := a.wellFormed
  objects o := by
    rw [a.objects, h.objects]
    simp only [List.mem_append, List.mem_singleton]
    grind
  instances o i := by
    rw [a.instances, h.instances]
    simp only [List.mem_append, List.mem_singleton]
    grind
  resources o i r := by
    have := h.resources o i r
    rw [a.resources]
    simp only [List.mem_append, List.mem_singleton]
    grind

theorem Added.covers {heap heap' : M2M} {list list' : List (Ref M2MObject)} {p : Position}
    {res : Ref M2MResource} {x : M2MResource} (h : Covers heap list (positions.take n))
    (hp : positions[n]? = some p)
    (a : Added heap list heap' list' p res x) :
    Covers heap' list' (positions.take (n + 1)) := by
  have hnext : positions.take (n + 1) = positions.take n ++ [p] := by
    rw [List.take_add_one, hp, Option.toList_some]
  rw [hnext]
  exact a.covers_concat h

theorem Placed.iteration (hm : m.Lawful) (hs : Unregistered s)
    (hspelled : SpelledBy s.self.resources positions) (hnodup : positions.Nodup)
    (h : Placed positions s n c) (hit : Iteration m n d c c') : Placed positions s (n + 1) c' := by
  have hwired := h.wired.iteration hm hs hit
  obtain ⟨r, list, heap, hr, rfl, -, hadded⟩ := hit.added hm h.wired.wellFormed
  obtain ⟨p, hp, hspells⟩ := hspelled.getElem ((h.wired.todo n le_rfl).symm.trans hr)
  rw [position_argsOf hspells] at hadded
  refine ⟨hwired, hadded.covers h.covers hp, ?_⟩
  intro j q r' hj hq hr'
  change heap.resourceAt list q = r'.resource
  rw [M2M.resourceAt, hadded.resources]
  rw [getElem?_resources_bind] at hr'
  by_cases hjn : n = j
  · subst hjn
    obtain rfl := Option.some.inj (hp.symm.trans hq)
    simp only [hr, if_true, Option.map_some, Option.some.injEq] at hr'
    simp [← hr', MbedCloudClientResource.setM2mResource]
  · rw [if_neg hjn] at hr'
    have hqp : ¬(q.objectId.toNat = p.objectId.toNat ∧ q.instanceId = p.instanceId ∧
        q.resourceId.toNat = p.resourceId.toNat) := by
      rintro ⟨ho', hi', hr''⟩
      obtain rfl := Position.ext_toNat ho' hi' hr''
      have hmem : q ∈ positions.take n := by
        obtain ⟨hjl, hjq⟩ := List.getElem?_eq_some_iff.mp hq
        exact List.mem_take_iff_getElem.mpr ⟨j, by omega, hjq⟩
      exact notMem_take_of_nodup hnodup hp hmem
    rw [if_neg hqp]
    exact h.bound j q r' (by omega) hq hr'

/-- No iteration meets a NULL pointer: the position at hand is free. -/
theorem Placed.progress (hm : m.Lawful) (hspelled : SpelledBy s.self.resources positions)
    (hnodup : positions.Nodup) (h : Placed positions s n c) (hn : n < s.self.resources.length)
    (d : MccResourceDef) : ∃ c', Iteration m n d c c' := by
  obtain ⟨r, hr⟩ : ∃ r, c.self.resources[n]? = some r :=
    ⟨_, List.getElem?_eq_getElem (h.wired.length ▸ hn)⟩
  obtain ⟨p, hp, hspells⟩ := hspelled.getElem ((h.wired.todo n le_rfl).symm.trans hr)
  rcases addResource_cases hm h.wired.wellFormed (argsOf (r.getData n c.heap d)) with
    ⟨ρ, htaken, -⟩ | ⟨-, list, heap, hsome, -⟩
  · rw [position_argsOf hspells] at htaken
    obtain ⟨q, hq, ho', hi', hr'⟩ :=
      (h.covers.resources _ _ _).mp (Option.isSome_of_eq_some htaken)
    obtain rfl := Position.ext_toNat ho' hi' hr'
    exact absurd hq (notMem_take_of_nodup hnodup hp)
  · exact ⟨_, .intro hr hsome⟩

/-! ## After the loop -/

/-- The tree has exactly the requested positions, and each resource is bound to the resource at
its position, which carries its attributes. -/
structure Registers (resources : List MbedCloudClientResource) (positions : List Position)
    (t : Context) : Prop where
  covers : Covers t.heap t.self.objList positions
  bound : ∀ j (r : MbedCloudClientResource), resources[j]? = some r →
    ∃ p ρ, positions[j]? = some p ∧
      t.self.resources[j]? = some (r.setM2mResource ρ) ∧
      t.heap.resourceAt t.self.objList p = some ρ ∧
      t.heap.resources.get? ρ = some (r.registeredAs j)

/-- The loop neither faults nor leaves a resource out. -/
theorem registerResources_registers (hm : m.Lawful) (hs : Unregistered s)
    (hspelled : SpelledBy s.self.resources positions) (hnodup : positions.Nodup)
    {tr : List CloudEvent} {o : Except Fault Unit}
    (h : Exec (registerResources m s.self.resources.length 0 d) s tr o t) :
    o = .ok () ∧ Wired s s.self.resources.length t ∧ Registers s.self.resources positions t := by
  have hstep : ∀ i d c c', Placed positions s i c → Iteration m i d c c' →
      Placed positions s (i + 1) c' :=
    fun i d c c' hinv hit => hinv.iteration hm hs hspelled hnodup hit
  obtain rfl := registerResources_total (Placed positions s) h hs.placed hstep
    fun j d c _ hlt hinv => hinv.progress hm hspelled hnodup (by omega) d
  have hplaced := registerResources_ok (Placed positions s) h hs.placed hstep
  rw [Nat.zero_add] at hplaced
  refine ⟨rfl, hplaced.wired, ?_, ?_⟩
  · have hcovers := hplaced.covers
    rwa [hspelled.length_eq, List.take_length] at hcovers
  · intro j r hr
    obtain ⟨p, hp, -⟩ := hspelled.getElem hr
    have hj : j < s.self.resources.length := (List.getElem?_eq_some_iff.mp hr).1
    obtain ⟨ρ, hbound, hx⟩ := hplaced.wired.done j r hj hr
    exact ⟨p, ρ, hp, hbound, hplaced.bound j p _ hj hp hbound, hx⟩

/-- The lists that a trace hands to `add_objects`. -/
def handedOver (tr : List CloudEvent) : List (List (Ref M2MObject)) :=
  tr.filterMap fun
    | ⟨.command (.addObjects list), _⟩ => some list
    | _ => none

theorem handedOver_append (front back : List CloudEvent) :
    handedOver (front ++ back) = handedOver front ++ handedOver back := by simp [handedOver]

theorem handedOver_setupTrace (cfg : Config) (setup : Bool) :
    handedOver (setupTrace cfg setup) = [] := by
  unfold setupTrace
  split <;> rfl

/-! ## Runs -/

/-- The calls and events of which a registration consists. -/
def Operation.IsRegistration : Operation → Prop
  | .registerAndConnect _ | .callRegister | .clientRegistered | .clientUnregistered => True
  | _ => False

def Operation.IsRegisterAndConnect (op : Operation) : Prop :=
  ∃ memory, op = .registerAndConnect memory

def RegistrationStep (cfg : Config) : Context → Label → Context → Prop :=
  Guarded (Step cfg) fun _ l => l.op.IsRegistration

theorem SameTree.registers {resources : List MbedCloudClientResource} (h : SameTree c c')
    (hc : Registers resources positions c) : Registers resources positions c' where
  covers := by rw [h.heap, h.objList]; exact hc.covers
  bound := by rw [h.heap, h.objList, h.resources]; exact hc.bound

theorem handedOver_callRegister {cfg : Config} {tr : List CloudEvent} {o : Except Fault Bool}
    (h : Exec (callRegister cfg) c tr o c') : handedOver tr = [] := by
  rcases exec_callRegister.mp h with ⟨-, rfl, -⟩ | ⟨-, setup, rfl, -⟩
  · rfl
  · exact handedOver_setupTrace cfg setup

theorem handedOver_registeredTrace (c : Context) (reply : Option ConnectorClientEndpointInfo) :
    handedOver (registeredTrace c reply) = [] := by
  unfold registeredTrace
  split
  · rfl
  · split <;> rfl

/-- Only `register_and_connect` hands objects over. -/
theorem handedOver_of_step {cfg : Config} {l : Label} (h : Step cfg c l c')
    (hreg : l.op.IsRegistration) (hop : ¬l.op.IsRegisterAndConnect) : handedOver l.trace = [] := by
  have hspec := h.spec
  obtain ⟨op, tr, result⟩ := l
  cases op with
  | registerAndConnect memory => exact absurd ⟨memory, rfl⟩ hop
  | callRegister =>
    obtain ⟨b, -, hexec⟩ := hspec
    exact handedOver_callRegister hexec
  | clientRegistered =>
    obtain ⟨reply, rfl, rfl⟩ := hspec
    exact handedOver_registeredTrace c reply
  | clientUnregistered =>
    obtain ⟨rfl, rfl⟩ := hspec
    cases c.self.unregisteredCb <;> rfl
  | _ => exact absurd hreg id

theorem Operation.IsRegistration.keepsTree {op : Operation} (h : op.IsRegistration)
    (hop : ¬op.IsRegisterAndConnect) : op.KeepsTree := by
  cases op with
  | registerAndConnect memory => exact absurd ⟨memory, rfl⟩ hop
  | callRegister | clientRegistered | clientUnregistered => exact trivial
  | _ => exact absurd h id

/-- The invariant of a run: before the first `register_and_connect` nothing is registered and
nothing has been handed over; after it the tree is as requested and has been handed over once. -/
def Stage (resources : List MbedCloudClientResource) (positions : List Position)
    (labels : List Label) (c : Context) : Prop :=
  (Unregistered c ∧ c.self.resources = resources ∧ (∀ l ∈ labels, ¬l.op.IsRegisterAndConnect) ∧
    handedOver (labels.flatMap (·.trace)) = []) ∨
  (c.self.registerAndConnectCalled = true ∧
    handedOver (labels.flatMap (·.trace)) = [c.self.objList] ∧ Registers resources positions c)

/-- `register_and_connect` always returns, and the first call leaves the requested tree. -/
theorem registerAndConnect_registers {cfg : Config} (hm : cfg.mbedClient.Lawful)
    (hc : Unregistered c) (hspelled : SpelledBy c.self.resources positions)
    (hnodup : positions.Nodup) {memory : MccResourceDef} {tr : List CloudEvent}
    {o : Except Fault Bool} (h : Exec (registerAndConnect cfg memory) c tr o c') :
    (∃ b, o = .ok b) ∧ c'.self.registerAndConnectCalled = true ∧
      handedOver tr = [c'.self.objList] ∧ Registers c.self.resources positions c' := by
  rcases exec_registerAndConnect_first hc.notCalled h with
    ⟨front, mid, back, rfl, hloop, hcall⟩ | ⟨fault, -, hloop⟩
  · obtain ⟨-, -, hregisters⟩ := registerResources_registers hm hc hspelled hnodup hloop
    obtain ⟨hsame, hok⟩ := sameTree_callRegister hcall
    have hback := handedOver_callRegister hcall
    have hfront : handedOver front = [] := by
      rw [handedOver, List.filterMap_eq_nil_iff]
      intro e he
      obtain ⟨args, rfl⟩ := registerResources_trace hloop e he
      rfl
    have hmid : SameTree mid.withRegisterAndConnectCalled c' := hsame
    refine ⟨hok, hsame.called, ?_, hsame.registers ⟨hregisters.covers, hregisters.bound⟩⟩
    rw [handedOver_append, hfront, List.nil_append, hsame.objList]
    exact congrArg (mid.self.objList :: ·) hback
  · obtain ⟨hok, -⟩ := registerResources_registers hm hc hspelled hnodup hloop
    cases hok

theorem Stage.step {cfg : Config} (hm : cfg.mbedClient.Lawful)
    {resources : List MbedCloudClientResource} (hspelled : SpelledBy resources positions)
    (hnodup : positions.Nodup) {labels : List Label} {l : Label}
    (h : Stage resources positions labels c) (hstep : RegistrationStep cfg c l c') :
    Stage resources positions (labels ++ [l]) c' := by
  by_cases hop : l.op.IsRegisterAndConnect
  · obtain ⟨memory, hmemory⟩ := hop
    have hspec := hstep.2.spec
    rw [hmemory] at hspec
    obtain ⟨b, -, hexec⟩ := hspec
    rcases h with ⟨hc, rfl, -, htrace⟩ | ⟨hcalled, htrace, hregisters⟩
    · obtain ⟨-, hcalled, hhanded, hregisters⟩ :=
        registerAndConnect_registers hm hc hspelled hnodup hexec
      exact .inr ⟨hcalled, by simp [handedOver_append, htrace, hhanded], hregisters⟩
    · obtain ⟨hnil, -, rfl⟩ := exec_registerAndConnect_called hcalled hexec
      exact .inr ⟨hcalled, by simp [hnil, htrace], hregisters⟩
  · have hsame := sameTree_of_step hstep.2 (hstep.1.keepsTree hop)
    have hnil := handedOver_of_step hstep.2 hstep.1 hop
    rcases h with ⟨hc, hresources, hlabels, htrace⟩ | ⟨hcalled, htrace, hregisters⟩
    · refine .inl ⟨hsame.unregistered hc, hsame.resources.trans hresources, ?_, ?_⟩
      · grind
      · simp [handedOver_append, htrace, hnil]
    · refine .inr ⟨hsame.called.trans hcalled, ?_, hsame.registers hregisters⟩
      simp [handedOver_append, htrace, hnil, hsame.objList]

/-- The steps that prepare a client: everything but `register_and_connect`. -/
def SetupStep (cfg : Config) : Context → Label → Context → Prop :=
  Guarded (Step cfg) fun _ l => ¬l.op.IsRegisterAndConnect

theorem Unregistered.step {cfg : Config} {l : Label} (h : Unregistered c)
    (hstep : SetupStep cfg c l c') : Unregistered c' := by
  have hspec := hstep.2.spec
  have hsame := sameTree_of_step hstep.2
  have hop := hstep.1
  obtain ⟨op, tr, result⟩ := l
  cases op with
  | registerAndConnect memory => exact absurd ⟨memory, rfl⟩ hop
  | createResource memory path name =>
    obtain ⟨-, rfl⟩ := hspec
    refine ⟨h.notCalled, h.noObjects, fun r hr => ?_⟩
    rcases List.mem_append.mp hr with hold | hnew
    · exact h.unbound r hold
    · obtain rfl := List.mem_singleton.mp hnew
      rfl
  | changeResource i change =>
    obtain ⟨-, r, hr, rfl⟩ := hspec
    refine ⟨h.notCalled, h.noObjects, fun r' hr' => ?_⟩
    rcases List.mem_or_eq_of_mem_set hr' with hold | rfl
    · exact h.unbound r' hold
    · rw [apply_resource]
      exact h.unbound r (List.mem_of_getElem? hr)
  | cloudWrite i value =>
    obtain ⟨-, r, res, hr, hres, -⟩ := hspec
    rw [h.unbound r (List.mem_of_getElem? hr)] at hres
    cases hres
  | _ => exact (hsame trivial).unregistered h

theorem unregistered_of_setup {cfg : Config} {labels : List Label} (hc : c.Fresh)
    (hrun : Run (SetupStep cfg) c labels s) : Unregistered s :=
  hrun.invariant (by rw [Context.Fresh] at hc; exact ⟨by rw [hc], by rw [hc], by simp [hc]⟩)
    fun _ _ _ => Unregistered.step

/-- A client is constructed and given resources whose paths spell different positions. In any run
of registration calls and events that follows, `register_and_connect` always returns, and once it
has been called the list handed to `add_objects` is the requested tree, to whose resources the
resources are bound. -/
theorem registration_builds_requested_tree {cfg : Config} (hm : cfg.mbedClient.Lawful)
    {fresh s t : Context} {setup labels : List Label} {positions : List Position}
    (hfresh : fresh.Fresh) (hsetup : Run (SetupStep cfg) fresh setup s)
    (hspelled : SpelledBy s.self.resources positions) (hnodup : positions.Nodup)
    (hrun : Run (RegistrationStep cfg) s labels t) :
    (∀ memory tr o u, Exec (registerAndConnect cfg memory) t tr o u → ∃ b, o = .ok b) ∧
      ((∃ l ∈ labels, l.op.IsRegisterAndConnect) →
        handedOver (labels.flatMap (·.trace)) = [t.self.objList] ∧
        Registers s.self.resources positions t) := by
  have hs := unregistered_of_setup hfresh hsetup
  have hstage : Stage s.self.resources positions labels t :=
    hrun.historyInvariant (.inl ⟨hs, rfl, by simp, rfl⟩) fun _ _ _ _ h hstep =>
      h.step hm hspelled hnodup hstep
  rcases hstage with ⟨ht, hresources, hnone, -⟩ | ⟨hcalled, hhanded, hregisters⟩
  · refine ⟨fun memory tr o u h => ?_, fun ⟨l, hl, hop⟩ => absurd hop (hnone l hl)⟩
    exact (registerAndConnect_registers hm ht (hresources ▸ hspelled) hnodup h).1
  · refine ⟨fun memory tr o u h => ?_, fun _ => ⟨hhanded, hregisters⟩⟩
    exact ⟨false, (exec_registerAndConnect_called hcalled h).2.1⟩

/-- The usual path of three numbers. -/
def triplePath (o i r : Nat) : Text where
  bytes := decimal o ++ slash :: (decimal i ++ slash :: decimal r)
  noNul := by simp [zero_notMem_decimal, slash]

theorem spells_triplePath (o i r : Nat) : Spells (triplePath o i r) o i r :=
  ⟨_, _, _, ⟨decimal_ne_nil _, isDigit_decimal, value_decimal _⟩,
    ⟨decimal_ne_nil _, isDigit_decimal, value_decimal _⟩,
    ⟨decimal_ne_nil _, isDigit_decimal, value_decimal _⟩, rfl⟩

def Position.path (p : Position) : Text :=
  triplePath p.objectId.toNat p.instanceId.toNat p.resourceId.toNat

theorem Position.isSpelledBy_path (p : Position) : p.IsSpelledBy p.path := spells_triplePath _ _ _

/-- Two resources of one object, with a setup that fails. -/
theorem registration_builds_requested_tree_two : ∃ (t : Context) (labels : List Label),
    handedOver (labels.flatMap (·.trace)) = [t.self.objList] ∧
    Registers [.construct ⟨true, 1⟩ (Position.path ⟨3200, 0, 5501⟩) empty,
      .construct ⟨false, 2⟩ (Position.path ⟨3200, 1, 5501⟩) empty]
      [⟨3200, 0, 5501⟩, ⟨3200, 1, 5501⟩] t := by
  let memory : MccResourceDef := ⟨⟨7, 7, 7⟩, empty, 0, [], false, none, none, none⟩
  let step (op : Operation) (c : Context) := op.run .reference (cloudAnswers false none) c
  let create₁ : Operation := .createResource ⟨true, 1⟩ (Position.path ⟨3200, 0, 5501⟩) empty
  let create₂ : Operation := .createResource ⟨false, 2⟩ (Position.path ⟨3200, 1, 5501⟩) empty
  let s := (step create₂ (step create₁ {}).2.2).2.2
  have hsetup : Run (SetupStep .reference) {} _ s :=
    (Run.single ⟨by rintro ⟨_, ⟨⟩⟩, step_of_run _ create₁ {} rfl⟩).snoc
      ⟨by rintro ⟨_, ⟨⟩⟩, step_of_run _ create₂ _ rfl⟩
  have hregister : RegistrationStep .reference s ⟨.registerAndConnect memory, _, some false⟩ _ :=
    ⟨trivial, step_of_run (cloudAnswers false none) (.registerAndConnect memory) s
      (by decide +kernel)⟩
  have hunregister : RegistrationStep .reference _ ⟨.clientUnregistered, _, none⟩ _ :=
    ⟨trivial, step_of_run (cloudAnswers false none) .clientUnregistered
      (step (.registerAndConnect memory) s).2.2 (by decide +kernel)⟩
  have hfresh : Context.Fresh {} := rfl
  exact ⟨_, _, (registration_builds_requested_tree MbedClient.reference_lawful hfresh hsetup
    (.cons (Position.isSpelledBy_path _) (.cons (Position.isSpelledBy_path _) .nil)) (by decide)
    ((Run.single hregister).snoc hunregister)).2
    ⟨_, List.mem_append_left _ (List.mem_singleton_self _), memory, rfl⟩⟩

end SimpleCloudClient
