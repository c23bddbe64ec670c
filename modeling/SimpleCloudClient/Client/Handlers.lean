import SimpleCloudClient.Client.Attempts

/-!
# Which update handlers are in force?

The cloud client keeps the handler that was set last. `on_update_authorized` and
`on_update_progress` set the application's; a `call_register` that is accepted and whose setup
succeeds sets the built-in ones, without asking whether the application has chosen others.
-/
namespace SimpleCloudClient
open Transition Procedure SimpleMbedCloudClient

inductive HandlerKind where
  | authorize
  | progress
  deriving DecidableEq, Repr

/-- The handler of this kind that an event sets. -/
def sets (kind : HandlerKind) (e : CloudEvent) : Option UpdateHandler :=
  match kind, e with
  | .authorize, ⟨.command (.setUpdateAuthorizeHandler handler), _⟩ => some handler
  | .progress, ⟨.command (.setUpdateProgressHandler handler), _⟩ => some handler
  | _, _ => none

/-- The handler that the application chooses in a step. -/
def choice (kind : HandlerKind) (l : Label) : Option AppCallback :=
  match kind, l.op with
  | .authorize, .onUpdateAuthorized cb => some cb
  | .progress, .onUpdateProgress cb => some cb
  | _, _ => none

def lastSet (kind : HandlerKind) (tr : List CloudEvent) : Option UpdateHandler :=
  (tr.filterMap (sets kind)).getLast?

/-- The handler in force after a history. -/
def inForce (kind : HandlerKind) (labels : List Label) : Option UpdateHandler :=
  lastSet kind (labels.flatMap (·.trace))

/-- The application's most recent choice. -/
def chosen (kind : HandlerKind) (labels : List Label) : Option AppCallback :=
  (labels.filterMap (choice kind)).getLast?

/-- The application's choice is in force; the built-in handler is while there is no choice. -/
def ChoiceInForce (labels : List Label) : Prop :=
  ∀ kind, (∀ cb, chosen kind labels = some cb → inForce kind labels = some (.application cb)) ∧
    (inForce kind labels = some .builtin → chosen kind labels = none)

/-- A registration is started, with success, only before the application has made a choice. -/
def BeforeChoice (labels : List Label) (c : Context) (l : Label) : Prop :=
  Starts c l → c.self.registerCalled = false → true ∈ setups l.trace →
    ∀ kind, chosen kind labels = none

variable {cfg : Config} {c c' t : Context} {labels : List Label} {l : Label} {kind : HandlerKind}

theorem lastSet_append (front back : List CloudEvent) :
    lastSet kind (front ++ back) = (lastSet kind back).or (lastSet kind front) := by
  simp [lastSet, List.filterMap_append, List.getLast?_append]

theorem inForce_concat :
    inForce kind (labels ++ [l]) = (lastSet kind l.trace).or (inForce kind labels) := by
  simp [inForce, lastSet_append]

theorem chosen_concat : chosen kind (labels ++ [l]) = (choice kind l).or (chosen kind labels) := by
  cases h : choice kind l <;> simp [chosen, List.filterMap_append, h]

theorem lastSet_eq_none {tr : List CloudEvent} (h : ∀ e ∈ tr, sets kind e = none) :
    lastSet kind tr = none := by
  rw [lastSet, List.filterMap_eq_nil_iff.mpr h]
  rfl

theorem sets_of_isHandOver (kind : HandlerKind) {e : CloudEvent} (h : IsHandOver e) :
    sets kind e = none := by
  rcases h with ⟨args, rfl⟩ | ⟨list, rfl⟩ <;> cases kind <;> rfl

theorem sets_of_isResourceCallback {e : CloudEvent} (h : IsResourceCallback e) :
    sets kind e = none := by
  obtain ⟨call, reply⟩ := e
  cases call with
  | command cmd => cases cmd <;> first | exact absurd h id | (cases kind <;> rfl)
  | setup | endpointInfo => exact absurd h id

theorem lastSet_setupTrace (hupdate : cfg.supportUpdate = true) (setup : Bool) :
    lastSet kind (setupTrace cfg setup) = if setup then some .builtin else none := by
  cases setup <;> cases kind <;> simp only [setupTrace, hupdate] <;> rfl

theorem choice_of_starts (h : Starts c l) : choice kind l = none := by
  rcases h with hop | ⟨⟨memory, hop⟩, -⟩ <;> cases kind <;> simp [choice, hop]

/-- `call_register` sets the built-in handlers when its setup succeeds. -/
theorem lastSet_of_starts (kind : HandlerKind) (hupdate : cfg.supportUpdate = true)
    (hstep : Step cfg c l c') (hstarts : Starts c l) :
    lastSet kind l.trace = if true ∈ setups l.trace then some UpdateHandler.builtin else none := by
  obtain ⟨front, back, htrace, hfront, hattempt, -⟩ := hstep.attempt hstarts
  have hnone := lastSet_eq_none fun e he => sets_of_isHandOver kind (hfront e he)
  have hsetups := hattempt.setups htrace hfront
  rw [htrace, lastSet_append, hnone, Option.or_none, ← htrace]
  cases hattempt with
  | refused hcalled hback hresult =>
    have hsetup : setups l.trace = [] := by
      rcases hsetups with ⟨-, hsetup, -⟩ | ⟨b, hfree, -⟩
      · exact hsetup
      · rw [hcalled] at hfree
        cases hfree
    rw [hback, hsetup]
    rfl
  | accepted setup hfree hback hresult =>
    have hsetup : setups l.trace = [setup] := by
      rcases hsetups with ⟨hcalled, -⟩ | ⟨b, -, hsetup, hb⟩
      · rw [hcalled] at hfree
        cases hfree
      · rw [hsetup, Option.some.inj (hb.symm.trans hresult)]
    rw [hback, hsetup, lastSet_setupTrace hupdate]
    cases setup <;> simp

/-- Any other step sets what the application chooses in it. -/
theorem lastSet_of_quiet (kind : HandlerKind) (hstep : Step cfg c l c') (hstarts : ¬Starts c l) :
    lastSet kind l.trace = (choice kind l).map UpdateHandler.application := by
  have hspec := hstep.spec
  obtain ⟨op, tr, result⟩ := l
  cases op with
  | callRegister => exact absurd (.inl rfl) hstarts
  | registerAndConnect memory =>
    obtain ⟨b, -, hexec⟩ := hspec
    rcases exec_registerAndConnect.mp hexec with ⟨-, htr, -, -⟩ | ⟨hnot, -⟩
    · subst htr
      cases kind <;> rfl
    · exact absurd (.inr ⟨⟨memory, rfl⟩, hnot⟩) hstarts
  | onUpdateAuthorized | onUpdateProgress =>
    obtain ⟨rfl, -⟩ := hspec
    cases kind <;> rfl
  | clientRegistered =>
    obtain ⟨reply, rfl, -⟩ := hspec
    unfold registeredTrace
    cases kind <;> split <;> first | rfl | (split <;> rfl)
  | clientUnregistered =>
    obtain ⟨rfl, -⟩ := hspec
    cases c.self.unregisteredCb <;> cases kind <;> rfl
  | onRegistered | onUnregistered | createResource | changeResource =>
    obtain ⟨rfl, -⟩ := hspec
    cases kind <;> rfl
  | cloudWrite | cloudExecute | cloudNotification =>
    obtain ⟨htr, -⟩ := hspec
    rw [lastSet_eq_none fun e he => sets_of_isResourceCallback (htr e he)]
    cases kind <;> rfl

/-- What a step sets: the built-in handlers when a setup succeeds, the application's when it
chooses one, and nothing otherwise. -/
theorem lastSet_of_step (kind : HandlerKind) (hupdate : cfg.supportUpdate = true)
    (hstep : Step cfg c l c') :
    lastSet kind l.trace =
      if true ∈ setups l.trace then some UpdateHandler.builtin
      else (choice kind l).map UpdateHandler.application := by
  by_cases hstarts : Starts c l
  · rw [lastSet_of_starts kind hupdate hstep hstarts, choice_of_starts hstarts]
    rfl
  · rw [(hstep.quiet hstarts).1, if_neg List.not_mem_nil]
    exact lastSet_of_quiet kind hstep hstarts

/-- A setup that succeeds shows that the step started a registration. -/
theorem starts_of_setup (hstep : Step cfg c l c') (h : true ∈ setups l.trace) :
    Starts c l ∧ c.self.registerCalled = false := by
  by_cases hstarts : Starts c l
  · obtain ⟨front, back, htrace, hfront, hattempt, -⟩ := hstep.attempt hstarts
    rcases hattempt.setups htrace hfront with ⟨-, hsetup, -⟩ | ⟨b, hfree, -⟩
    · rw [hsetup] at h
      cases h
    · exact ⟨hstarts, hfree⟩
  · rw [(hstep.quiet hstarts).1] at h
    cases h

theorem choiceInForce_step (hupdate : cfg.supportUpdate = true) (h : ChoiceInForce labels)
    (hstep : Step cfg c l c') :
    ChoiceInForce (labels ++ [l]) ↔ BeforeChoice labels c l := by
  have hset := fun kind => lastSet_of_step kind hupdate hstep
  by_cases hsetup : true ∈ setups l.trace
  · obtain ⟨hstarts, hfree⟩ := starts_of_setup hstep hsetup
    have hforce : ∀ kind, inForce kind (labels ++ [l]) = some .builtin := fun kind => by
      rw [inForce_concat, hset, if_pos hsetup]
      rfl
    have hchosen : ∀ kind, chosen kind (labels ++ [l]) = chosen kind labels := fun kind => by
      rw [chosen_concat, choice_of_starts hstarts]
      rfl
    constructor
    · intro hall _ _ _ kind
      rw [← hchosen]
      exact (hall kind).2 (hforce kind)
    · intro hbefore kind
      have hnone := hbefore hstarts hfree hsetup kind
      rw [hchosen, hnone]
      exact ⟨nofun, fun _ => rfl⟩
  · refine iff_of_true (fun kind => ?_) fun _ _ h => absurd h hsetup
    rw [inForce_concat, chosen_concat, hset, if_neg hsetup]
    cases choice kind l with
    | some cb => simp
    | none => exact h kind

/-- In the runs that start registrations, with success, only before the application has chosen
handlers, and in no others, the application's most recent choice is in force in every state. -/
theorem choiceInForce_iff (hupdate : cfg.supportUpdate = true) {fresh : Context} :
    RunWhen (Step cfg) BeforeChoice fresh labels t ↔
      RunAlong (Step cfg) (fun labels _ => ChoiceInForce labels) fresh labels t :=
  runWhen_iff_runAlong (fun _ _ => True) trivial (fun _ => ⟨nofun, nofun⟩)
    (fun _ _ _ _ _ _ _ => trivial)
    fun _ _ _ _ _ hgood hstep => choiceInForce_step hupdate hgood hstep

/-- The application chooses a handler once registration has been started. -/
theorem choiceInForce_iff_late : ∃ labels t,
    RunAlong (Step .reference) (fun labels _ => ChoiceInForce labels) {} labels t ∧
    inForce .authorize labels = some (.application ⟨7⟩) ∧
    inForce .progress labels = some .builtin := by
  let answer := cloudAnswers true none
  let c₁ := (Operation.callRegister.run .reference answer {}).2.2
  have hregister : Step .reference {} ⟨.callRegister, _, some true⟩ c₁ :=
    step_of_run answer .callRegister {} rfl
  have hchoose : Step .reference c₁ ⟨.onUpdateAuthorized ⟨7⟩, _, none⟩ _ :=
    step_of_run answer (.onUpdateAuthorized ⟨7⟩) c₁ rfl
  have hstart : RunWhen (Step .reference) BeforeChoice {} [] {} := .refl
  have hrun := (hstart.snoc (fun _ _ _ _ => rfl) hregister).snoc
    (by rintro (⟨⟨⟩⟩ | ⟨⟨memory, ⟨⟩⟩, -⟩)) hchoose
  exact ⟨_, _, (choiceInForce_iff rfl).mp hrun, rfl, rfl⟩

/-- A handler that is chosen before the first registration is replaced by it. -/
theorem not_choiceInForce_early : ∃ labels t, Run (Step .reference) {} labels t ∧
    labels.map (·.op) = [.onUpdateAuthorized ⟨7⟩, .callRegister] ∧
    chosen .authorize labels = some ⟨7⟩ ∧ inForce .authorize labels = some .builtin ∧
    ¬ChoiceInForce labels := by
  let answer := cloudAnswers true none
  let c₁ := ((Operation.onUpdateAuthorized ⟨7⟩).run .reference answer {}).2.2
  have hchoose : Step .reference {} ⟨.onUpdateAuthorized ⟨7⟩, _, none⟩ c₁ :=
    step_of_run answer (.onUpdateAuthorized ⟨7⟩) {} rfl
  have hregister : Step .reference c₁ ⟨.callRegister, _, some true⟩ _ :=
    step_of_run answer .callRegister c₁ rfl
  refine ⟨_, _, (Run.single hchoose).snoc hregister, rfl, rfl, rfl, fun h => ?_⟩
  exact absurd ((h .authorize).1 ⟨7⟩ rfl) (by decide)

end SimpleCloudClient
