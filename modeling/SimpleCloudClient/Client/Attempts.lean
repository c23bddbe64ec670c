import SimpleCloudClient.Registration.Placement

/-!
# Attempts to register

`call_register` runs on its own and at the end of the first `register_and_connect`. Either way it
is refused, leaving no trace, or accepted, leaving the trace that the result of setup decides.
-/
namespace SimpleCloudClient
open CString Memory Procedure SimpleMbedCloudClient Transition

/-- The step runs `call_register`. -/
def Starts (c : Context) (l : Label) : Prop :=
  l.op = .callRegister ∨ l.op.IsRegisterAndConnect ∧ c.self.registerAndConnectCalled = false

/-- The results of the setups in a trace. -/
def setups (tr : List CloudEvent) : List Bool :=
  tr.filterMap fun
    | ⟨.setup, r⟩ => some r
    | _ => none

theorem setups_append (front back : List CloudEvent) :
    setups (front ++ back) = setups front ++ setups back := by simp [setups]

@[simp] theorem setups_setupTrace (cfg : Config) (setup : Bool) :
    setups (setupTrace cfg setup) = [setup] := by
  unfold setupTrace
  split <;> rfl

/-- An event of the part of `register_and_connect` before `call_register`. -/
def IsHandOver (e : CloudEvent) : Prop :=
  (∃ args, e = told (.addResource args)) ∨ ∃ list, e = told (.addObjects list)

variable {cfg : Config} {c c' : Context} {l : Label} {m : MbedClient} {d : MccResourceDef}

/-- The loop does not touch the flags. -/
theorem registerResources_registerCalled {todo i : Nat} {tr : List CloudEvent}
    (h : Exec (registerResources m todo i d) c tr (.ok ()) c') :
    c'.self.registerCalled = c.self.registerCalled :=
  registerResources_ok (fun _ u => u.self.registerCalled = c.self.registerCalled) h rfl
    fun _ _ _ _ hinv hit => by cases hit; exact hinv

/-- The two outcomes of `call_register`, as seen in the step that runs it. -/
inductive Attempt (cfg : Config) (c : Context) (l : Label) (back : List CloudEvent)
    (c' : Context) : Prop where
  | refused (called : c.self.registerCalled = true) (trace : back = [])
      (result : l.result = some false)
  | accepted (setup : Bool) (free : c.self.registerCalled = false)
      (trace : back = setupTrace cfg setup) (result : l.result = some setup)

theorem Step.attempt (h : Step cfg c l c') (hl : Starts c l) :
    ∃ front back, l.trace = front ++ back ∧ (∀ e ∈ front, IsHandOver e) ∧
      Attempt cfg c l back c' ∧ c'.self.registerCalled = true := by
  have hspec := h.spec
  have hcases : ∀ {u : Context} {back : List CloudEvent} {b : Bool}, l.result = some b →
      u.self.registerCalled = c.self.registerCalled →
      Exec (callRegister cfg) u back (.ok b) c' →
      Attempt cfg c l back c' ∧ c'.self.registerCalled = true := by
    intro u back b hresult hu hcall
    rcases exec_callRegister.mp hcall with ⟨hcalled, rfl, hb, rfl⟩ | ⟨hfree, setup, rfl, hb, rfl⟩
    · obtain rfl := Except.ok.inj hb
      exact ⟨.refused (hu ▸ hcalled) rfl hresult, hcalled⟩
    · obtain rfl := Except.ok.inj hb
      exact ⟨.accepted b (hu ▸ hfree) rfl hresult, rfl⟩
  rcases hl with hop | ⟨⟨memory, hop⟩, hnot⟩
  · rw [hop] at hspec
    obtain ⟨b, hresult, hcall⟩ := hspec
    exact ⟨[], l.trace, rfl, by simp, hcases hresult rfl hcall⟩
  · rw [hop] at hspec
    obtain ⟨b, hresult, hexec⟩ := hspec
    obtain ⟨front, mid, back, htrace, hloop, hcall⟩ := exec_registerAndConnect_returns hnot hexec
    have hflag := registerResources_registerCalled hloop
    refine ⟨front ++ [told (.addObjects mid.self.objList)], back, by simp [htrace], ?_,
      hcases (u := mid.withRegisterAndConnectCalled) hresult hflag hcall⟩
    intro e he
    rcases List.mem_append.mp he with hfront | hlast
    · exact .inl (registerResources_trace hloop e hfront)
    · exact .inr ⟨_, List.mem_singleton.mp hlast⟩

/-- The steps that do not run `call_register` run no setup, and only the unregistered event
touches the flag. -/
theorem Step.quiet (h : Step cfg c l c') (hl : ¬Starts c l) : setups l.trace = [] ∧
    (l.op = .clientUnregistered → c'.self.registerCalled = false) ∧
    (l.op ≠ .clientUnregistered → c'.self.registerCalled = c.self.registerCalled) := by
  have hspec := h.spec
  have hcallback : ∀ tr : List CloudEvent, (∀ e ∈ tr, IsResourceCallback e) → setups tr = [] := by
    intro tr htr
    refine List.filterMap_eq_nil_iff.mpr fun e he => ?_
    obtain ⟨call, reply⟩ := e
    cases call with
    | setup => exact absurd (htr _ he) id
    | _ => rfl
  obtain ⟨op, tr, result⟩ := l
  cases op with
  | callRegister => exact absurd (.inl rfl) hl
  | registerAndConnect memory =>
    obtain ⟨b, -, hexec⟩ := hspec
    rcases exec_registerAndConnect.mp hexec with ⟨-, htr, -, rfl⟩ | ⟨hnot, -⟩
    · subst htr
      exact ⟨rfl, nofun, fun _ => rfl⟩
    · exact absurd (.inr ⟨⟨memory, rfl⟩, hnot⟩) hl
  | clientRegistered =>
    obtain ⟨reply, rfl, rfl⟩ := hspec
    refine ⟨?_, nofun, fun _ => rfl⟩
    unfold registeredTrace
    split
    · rfl
    · split <;> rfl
  | clientUnregistered =>
    obtain ⟨rfl, rfl⟩ := hspec
    refine ⟨?_, fun _ => rfl, fun hne => absurd rfl hne⟩
    cases c.self.unregisteredCb <;> rfl
  | onRegistered | onUnregistered | onUpdateAuthorized | onUpdateProgress | createResource =>
    obtain ⟨rfl, rfl⟩ := hspec
    exact ⟨rfl, nofun, fun _ => rfl⟩
  | changeResource i change =>
    obtain ⟨rfl, r, -, rfl⟩ := hspec
    exact ⟨rfl, nofun, fun _ => rfl⟩
  | cloudWrite i value =>
    obtain ⟨htr, r, res, -, -, rfl⟩ := hspec
    exact ⟨hcallback _ htr, nofun, fun _ => rfl⟩
  | cloudExecute | cloudNotification =>
    obtain ⟨htr, rfl⟩ := hspec
    exact ⟨hcallback _ htr, nofun, fun _ => rfl⟩

theorem Attempt.setups {front back : List CloudEvent} (htrace : l.trace = front ++ back)
    (hfront : ∀ e ∈ front, IsHandOver e) (h : Attempt cfg c l back c') :
    (c.self.registerCalled = true ∧ SimpleCloudClient.setups l.trace = [] ∧
      l.result = some false) ∨
    ∃ b, c.self.registerCalled = false ∧ SimpleCloudClient.setups l.trace = [b] ∧
      l.result = some b := by
  have hnone : SimpleCloudClient.setups front = [] := by
    refine List.filterMap_eq_nil_iff.mpr fun e he => ?_
    rcases hfront e he with ⟨args, rfl⟩ | ⟨list, rfl⟩ <;> rfl
  rw [htrace, setups_append, hnone, List.nil_append]
  cases h with
  | refused called trace result => exact .inl ⟨called, by rw [trace]; rfl, result⟩
  | accepted setup free trace result => exact .inr ⟨setup, free, by rw [trace]; simp, result⟩

/-- Whether `call_register` was run can be read off the trace. -/
theorem starts_iff (h : Step cfg c l c') :
    Starts c l ↔ l.op = .callRegister ∨ l.op.IsRegisterAndConnect ∧ handedOver l.trace ≠ [] := by
  refine or_congr_right (and_congr_right ?_)
  rintro ⟨memory, hop⟩
  have hspec := h.spec
  rw [hop] at hspec
  obtain ⟨b, -, hexec⟩ := hspec
  rcases exec_registerAndConnect.mp hexec with
    ⟨hcalled, htr, -⟩ | ⟨hnot, ⟨front, mid, back, htr, -⟩ | ⟨fault, hfault, -⟩⟩
  · simp [hcalled, htr, handedOver]
  · refine iff_of_true hnot fun hnil => ?_
    simp only [htr, handedOver_append] at hnil
    exact absurd (List.append_eq_nil_iff.mp hnil).2 (List.cons_ne_nil _ _)
  · cases hfault

end SimpleCloudClient
