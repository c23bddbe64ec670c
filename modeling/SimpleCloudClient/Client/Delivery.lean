import SimpleCloudClient.Client.Attempts

/-!
# Delivery of the registered callback

Any number of clients run in one program. They share the static variable `endpoint` of
`client_registered`: the first registered event that reaches any of them fills it, and from then
on no client queries its endpoint or invokes its callback.
-/
namespace SimpleCloudClient
open Memory Procedure SimpleMbedCloudClient Transition

/-- The clients of a program with what they share. -/
structure World where
  endpoint : Option ConnectorClientEndpointInfo := none
  heap : M2M := {}
  clients : Nat → SimpleMbedCloudClient := fun _ => {}

def World.context (w : World) (client : Nat) : Context := ⟨w.endpoint, w.heap, w.clients client⟩

def World.put (w : World) (client : Nat) (c : Context) : World :=
  ⟨c.endpoint, c.heap, Function.update w.clients client c.self⟩

/-- A step of one client; `info` is what its `endpoint_info` returns at that moment. -/
structure WorldLabel where
  client : Nat
  info : ConnectorClientEndpointInfo
  step : Label

def WorldStep (cfg : Config) (w : World) (l : WorldLabel) (w' : World) : Prop :=
  (∀ reply, (⟨.endpointInfo, reply⟩ : CloudEvent) ∈ l.step.trace → reply = some l.info) ∧
    ∃ c, Step cfg (w.context l.client) l.step c ∧ w' = w.put l.client c

/-- The invocations of registered callbacks in a trace. -/
def delivered (tr : List CloudEvent) : List (AppCallback × ConnectorClientEndpointInfo) :=
  tr.filterMap fun
    | ⟨.command (.registeredCb cb endpoint), _⟩ => some (cb, endpoint)
    | _ => none

/-- The event takes the client from not registered to registered. -/
def TakesToRegistered (w : World) (l : WorldLabel) : Prop :=
  l.step.op = .clientRegistered ∧ (w.clients l.client).registered = false

/-- The callback attached at that moment is invoked once, with the endpoint of the client. -/
def Delivers (w : World) (l : WorldLabel) : Prop :=
  TakesToRegistered w l → delivered l.step.trace =
    ((w.clients l.client).registeredCb.map fun cb => (cb, l.info)).toList

/-- It is the first registered event of the whole program, or no callback is attached. -/
def FirstOrDetached (labels : List WorldLabel) (w : World) (l : WorldLabel) : Prop :=
  TakesToRegistered w l → (∀ x ∈ labels, x.step.op ≠ .clientRegistered) ∨
    (w.clients l.client).registeredCb = none

variable {cfg : Config} {c c' : Context} {w w' : World} {l : WorldLabel} {labels : List WorldLabel}

theorem registerResources_endpoint {m : MbedClient} {todo i : Nat} {d : MccResourceDef}
    {tr : List CloudEvent} (h : Exec (registerResources m todo i d) c tr (.ok ()) c') :
    c'.endpoint = c.endpoint :=
  registerResources_ok (fun _ u => u.endpoint = c.endpoint) h rfl
    fun _ _ _ _ hinv hit => by cases hit; exact hinv

theorem callRegister_endpoint {tr : List CloudEvent} {o : Except Fault Bool}
    (h : Exec (callRegister cfg) c tr o c') : c'.endpoint = c.endpoint := by
  rcases exec_callRegister.mp h with ⟨-, -, -, rfl⟩ | ⟨-, setup, -, -, rfl⟩ <;> rfl

/-- Only `client_registered` touches the static variable. -/
theorem Step.endpoint {l : Label} (h : Step cfg c l c') (hop : l.op ≠ .clientRegistered) :
    c'.endpoint = c.endpoint := by
  have hspec := h.spec
  obtain ⟨op, tr, result⟩ := l
  cases op with
  | clientRegistered => exact absurd rfl hop
  | callRegister =>
    obtain ⟨b, -, hexec⟩ := hspec
    exact callRegister_endpoint hexec
  | registerAndConnect memory =>
    obtain ⟨b, -, hexec⟩ := hspec
    rcases exec_registerAndConnect.mp hexec with
      ⟨-, -, -, rfl⟩ | ⟨-, ⟨front, mid, back, -, hloop, hcall⟩ | ⟨fault, hfault, -⟩⟩
    · rfl
    · have hendpoint : mid.endpoint = c.endpoint := registerResources_endpoint hloop
      exact (callRegister_endpoint hcall).trans hendpoint
    · cases hfault
  | changeResource i change =>
    obtain ⟨-, r, -, rfl⟩ := hspec
    rfl
  | cloudWrite i value =>
    obtain ⟨-, r, res, -, -, rfl⟩ := hspec
    rfl
  | _ =>
    obtain ⟨-, rfl⟩ := hspec
    rfl

/-- The static variable is filled exactly when some client has had a registered event. -/
def EndpointKnown (labels : List WorldLabel) (w : World) : Prop :=
  w.endpoint.isSome ↔ ∃ x ∈ labels, x.step.op = .clientRegistered

theorem EndpointKnown.step (h : EndpointKnown labels w) (hstep : WorldStep cfg w l w') :
    EndpointKnown (labels ++ [l]) w' := by
  obtain ⟨hinfo, c, hexec, rfl⟩ := hstep
  have hlast : (∃ x ∈ labels ++ [l], x.step.op = .clientRegistered) ↔
      (∃ x ∈ labels, x.step.op = .clientRegistered) ∨ l.step.op = .clientRegistered := by
    simp [or_and_right, exists_or]
  rw [EndpointKnown, hlast]
  by_cases hop : l.step.op = .clientRegistered
  · refine iff_of_true ?_ (.inr hop)
    have hspec := hexec.spec
    rw [hop] at hspec
    obtain ⟨reply, htrace, rfl⟩ := hspec
    change (w.endpoint.or reply).isSome
    cases hendpoint : w.endpoint with
    | some endpoint => rfl
    | none =>
      have hquery : (⟨.endpointInfo, reply⟩ : CloudEvent) ∈ l.step.trace := by
        simp [htrace, registeredTrace, World.context, hendpoint]
      simp [hinfo reply hquery]
  · have hkept : (w.put l.client c).endpoint = w.endpoint := hexec.endpoint hop
    unfold EndpointKnown at h
    rw [hkept, h, or_iff_left hop]

theorem delivers_iff (h : EndpointKnown labels w) (hstep : WorldStep cfg w l w') :
    FirstOrDetached labels w l ↔ Delivers w l := by
  obtain ⟨hinfo, c, hexec, -⟩ := hstep
  refine forall_congr' fun hregisters => ?_
  have hspec := hexec.spec
  rw [hregisters.1] at hspec
  obtain ⟨reply, htrace, -⟩ := hspec
  have hknown : (∀ x ∈ labels, x.step.op ≠ .clientRegistered) ↔ w.endpoint = none := by
    unfold EndpointKnown at h
    rw [← Option.not_isSome_iff_eq_none, h]
    simp
  rw [hknown, htrace]
  cases hendpoint : w.endpoint with
  | some endpoint =>
    cases hcb : (w.clients l.client).registeredCb <;>
      simp [registeredTrace, World.context, hendpoint, delivered]
  | none =>
    have hquery : (⟨.endpointInfo, reply⟩ : CloudEvent) ∈ l.step.trace := by
      simp [htrace, registeredTrace, World.context, hendpoint]
    obtain rfl := hinfo reply hquery
    cases hcb : (w.clients l.client).registeredCb <;>
      simp [registeredTrace, World.context, hendpoint, delivered, hcb]

/-- In the runs of any number of clients in which each registration is the first of the whole
program or finds no callback attached, and in no others, every registration is delivered. -/
theorem delivers_run_iff (hw : w.endpoint = none) :
    RunWhen (WorldStep cfg) FirstOrDetached w labels w' ↔
      RunWhen (WorldStep cfg) (fun _ => Delivers) w labels w' :=
  runWhen_congr EndpointKnown (by simp [EndpointKnown, hw]) (fun _ _ _ _ h hstep => h.step hstep)
    fun _ _ _ _ h hstep => delivers_iff h hstep

/-- Operation `op` of a client whose `endpoint_info` returns `info`. -/
def WorldLabel.of (client : Nat) (info : ConnectorClientEndpointInfo) (op : Operation)
    (w : World) : WorldLabel :=
  ⟨client, info, op, (op.run .reference (cloudAnswers true (some info)) (w.context client)).1,
    none⟩

def World.after (w : World) (client : Nat) (info : ConnectorClientEndpointInfo)
    (op : Operation) : World :=
  w.put client (op.run .reference (cloudAnswers true (some info)) (w.context client)).2.2

theorem worldStep_of (client : Nat) (info : ConnectorClientEndpointInfo) (op : Operation)
    (w : World) (h : (op.run .reference (cloudAnswers true (some info)) (w.context client)).2.1 =
      .ok none) :
    WorldStep .reference w (.of client info op w) (w.after client info op) := by
  refine ⟨?_, _, step_of_run _ op _ h, rfl⟩
  have hanswers := Proc.forall_mem_run (cloudAnswers true (some info))
    (fun e => ∀ reply, e = ⟨.endpointInfo, reply⟩ → reply = some info)
    (fun past c reply hreply => by obtain ⟨⟩ := c <;> cases hreply; rfl)
    (op.body .reference) (w.context client) []
  exact fun reply hmem => hanswers _ hmem reply rfl

/-- The first client is registered after its callback is attached, the second without one. -/
theorem delivers_run_iff_first : ∃ labels w,
    RunWhen (WorldStep .reference) (fun _ => Delivers) {} labels w ∧
    labels.map (delivered ·.step.trace) = [[], [(⟨1⟩, ⟨10⟩)], []] := by
  let attach : Operation := .onRegistered (some ⟨1⟩)
  let w₁ := World.after {} 0 ⟨10⟩ attach
  let w₂ := w₁.after 0 ⟨10⟩ .clientRegistered
  have hattach : WorldStep .reference {} (.of 0 ⟨10⟩ attach {}) w₁ :=
    worldStep_of _ _ _ _ rfl
  have hfirst : WorldStep .reference w₁ (.of 0 ⟨10⟩ .clientRegistered w₁) w₂ :=
    worldStep_of _ _ _ _ rfl
  have hsecond : WorldStep .reference w₂ (.of 1 ⟨20⟩ .clientRegistered w₂)
      (w₂.after 1 ⟨20⟩ .clientRegistered) :=
    worldStep_of _ _ _ _ rfl
  have hstart : RunWhen (WorldStep .reference) FirstOrDetached {} [] {} := .refl
  have hrun := ((hstart.snoc (by rintro ⟨⟨⟩, -⟩) hattach).snoc
    (fun _ => .inl (by rintro x (_ | ⟨_, ⟨⟩⟩) ⟨⟩)) hfirst).snoc (fun _ => .inr rfl) hsecond
  exact ⟨_, _, (delivers_run_iff rfl).mp hrun, rfl⟩

/-- A client that was registered before is not told of its next registration. -/
theorem not_delivers_again : ∃ labels w l w',
    Run (WorldStep .reference) {} labels w ∧ WorldStep .reference w l w' ∧
    (labels ++ [l]).map (fun l => (l.client, l.step.op)) =
      [(0, .onRegistered (some ⟨1⟩)), (0, .clientRegistered), (0, .clientUnregistered),
        (0, .clientRegistered)] ∧
    TakesToRegistered w l ∧ (w.clients l.client).registeredCb = some ⟨1⟩ ∧
    delivered l.step.trace = [] ∧ ¬Delivers w l := by
  let attach : Operation := .onRegistered (some ⟨1⟩)
  let w₁ := World.after {} 0 ⟨10⟩ attach
  let w₂ := w₁.after 0 ⟨10⟩ .clientRegistered
  let w₃ := w₂.after 0 ⟨10⟩ .clientUnregistered
  have hattach : WorldStep .reference {} (.of 0 ⟨10⟩ attach {}) w₁ :=
    worldStep_of _ _ _ _ rfl
  have hfirst : WorldStep .reference w₁ (.of 0 ⟨10⟩ .clientRegistered w₁) w₂ :=
    worldStep_of _ _ _ _ rfl
  have hlost : WorldStep .reference w₂ (.of 0 ⟨10⟩ .clientUnregistered w₂) w₃ :=
    worldStep_of _ _ _ _ rfl
  have hagain : WorldStep .reference w₃ (.of 0 ⟨10⟩ .clientRegistered w₃)
      (w₃.after 0 ⟨10⟩ .clientRegistered) :=
    worldStep_of _ _ _ _ rfl
  refine ⟨_, _, _, _, ((Run.single hattach).snoc hfirst).snoc hlost, hagain, rfl, ⟨rfl, rfl⟩, rfl,
    rfl, fun h => ?_⟩
  exact absurd (h ⟨rfl, rfl⟩) (by decide)

end SimpleCloudClient
