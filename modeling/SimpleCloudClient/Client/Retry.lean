import SimpleCloudClient.Client.Attempts

/-!
# Can a failed start of registration be retried?

A refusal of `call_register` is justified by an earlier call whose setup succeeded and that no
unregistered event has followed. The flag `_register_called` is set before the result of setup
is looked at, so a call whose setup failed leads to refusals as well.
-/
namespace SimpleCloudClient
open Transition

/-- The history holds a setup with this result that no unregistered event has followed. -/
def Pending (setup : Bool) (labels : List Label) : Prop :=
  ∃ before l later, labels = before ++ l :: later ∧ setup ∈ setups l.trace ∧
    ∀ x ∈ later, x.op ≠ .clientUnregistered

/-- `call_register` is run, as the trace shows, and returns without calling setup. -/
def Refused (l : Label) : Prop :=
  (l.op = .callRegister ∨ l.op.IsRegisterAndConnect ∧ handedOver l.trace ≠ []) ∧
    setups l.trace = []

/-- Every refusal so far was justified, and every call whose setup succeeded returned true. -/
structure Retriable (labels : List Label) : Prop where
  refused : ∀ before l later, labels = before ++ l :: later → Refused l → Pending true before
  accepted : ∀ l ∈ labels, true ∈ setups l.trace → l.result = some true

/-- `call_register` is not run while a failed setup is pending. -/
def AfterSuccess (labels : List Label) (c : Context) (l : Label) : Prop :=
  Starts c l → ¬Pending false labels

variable {cfg : Config} {c c' t : Context} {labels : List Label} {l : Label} {setup : Bool}

theorem pending_concat : Pending setup (labels ++ [l]) ↔
    setup ∈ setups l.trace ∨ Pending setup labels ∧ l.op ≠ .clientUnregistered := by
  constructor
  · rintro ⟨before, x, later, hsplit, hx, hlater⟩
    rcases List.eq_nil_or_concat later with rfl | ⟨front, last, rfl⟩
    · obtain ⟨-, hlast⟩ := List.append_inj' hsplit rfl
      obtain rfl := List.singleton_inj.mp hlast
      exact .inl hx
    · have hcut : labels ++ [l] = (before ++ x :: front) ++ [last] := by simpa using hsplit
      obtain ⟨hfront, hlast⟩ := List.append_inj' hcut rfl
      obtain rfl := List.singleton_inj.mp hlast
      exact .inr ⟨⟨before, x, front, hfront, hx, fun y hy => hlater y (by simp [hy])⟩,
        hlater l (by simp)⟩
  · rintro (hx | ⟨⟨before, x, later, rfl, hx, hlater⟩, hl⟩)
    · exact ⟨labels, l, [], rfl, hx, by simp⟩
    · refine ⟨before, x, later ++ [l], by simp, hx, fun y hy => ?_⟩
      rcases List.mem_append.mp hy with hold | hlast
      · exact hlater y hold
      · rwa [List.mem_singleton.mp hlast]

@[simp] theorem not_pending_nil : ¬Pending setup [] := by simp [Pending]

theorem retriable_concat : Retriable (labels ++ [l]) ↔ Retriable labels ∧
    (Refused l → Pending true labels) ∧ (true ∈ setups l.trace → l.result = some true) := by
  constructor
  · intro h
    refine ⟨⟨fun before x later hsplit => ?_, fun x hx => h.accepted x (by simp [hx])⟩,
      h.refused labels l [] rfl, h.accepted l (by simp)⟩
    exact h.refused before x (later ++ [l]) (by simp [hsplit])
  · rintro ⟨h, hrefused, haccepted⟩
    refine ⟨fun before x later hsplit => ?_, fun x hx => ?_⟩
    · rcases List.eq_nil_or_concat later with rfl | ⟨front, last, rfl⟩
      · obtain ⟨rfl, hlast⟩ := List.append_inj' hsplit rfl
        obtain rfl := List.singleton_inj.mp hlast
        exact hrefused
      · have hcut : labels ++ [l] = (before ++ x :: front) ++ [last] := by simpa using hsplit
        exact h.refused before x front (List.append_inj' hcut rfl).1
    · rcases List.mem_append.mp hx with hold | hlast
      · exact h.accepted x hold
      · rwa [List.mem_singleton.mp hlast]

/-- The flag says that a setup is pending, but not which one; no two are pending at once. -/
structure Flagged (labels : List Label) (c : Context) : Prop where
  called : c.self.registerCalled = true ↔ Pending true labels ∨ Pending false labels
  single : ¬(Pending true labels ∧ Pending false labels)

theorem Flagged.step (h : Flagged labels c) (hstep : Step cfg c l c') :
    Flagged (labels ++ [l]) c' := by
  by_cases hstarts : Starts c l
  · obtain ⟨front, back, htrace, hfront, hattempt, hcalled⟩ := hstep.attempt hstarts
    have hop : l.op ≠ .clientUnregistered := by
      rcases hstarts with hop | ⟨⟨memory, hop⟩, -⟩ <;> rw [hop] <;> nofun
    have hfree : c.self.registerCalled = false → ¬Pending true labels ∧ ¬Pending false labels := by
      intro hfree
      have := h.called
      grind
    refine ⟨⟨fun _ => ?_, fun _ => hcalled⟩, ?_⟩ <;> simp only [pending_concat]
    · rcases hattempt.setups htrace hfront with ⟨hold, -, -⟩ | ⟨b, -, hsetup, -⟩
      · rcases h.called.mp hold with hp | hp
        · exact .inl (.inr ⟨hp, hop⟩)
        · exact .inr (.inr ⟨hp, hop⟩)
      · cases b
        · exact .inr (.inl (by simp [hsetup]))
        · exact .inl (.inl (by simp [hsetup]))
    · rcases hattempt.setups htrace hfront with ⟨hold, hsetup, -⟩ | ⟨b, hold, hsetup, -⟩
      · have := h.single
        simp [hsetup]
        grind
      · obtain ⟨htrue, hfalse⟩ := hfree hold
        simp [hsetup, htrue, hfalse]
  · obtain ⟨hsetup, hunregistered, hother⟩ := hstep.quiet hstarts
    have := h.called
    have := h.single
    by_cases hop : l.op = .clientUnregistered
    · refine ⟨?_, ?_⟩ <;> simp [pending_concat, hsetup, hop, hunregistered hop]
    · refine ⟨?_, ?_⟩ <;> simp only [pending_concat, hsetup, hother hop] <;> grind

theorem refused_iff (hstep : Step cfg c l c') :
    Refused l ↔ Starts c l ∧ c.self.registerCalled = true := by
  rw [Refused, ← starts_iff hstep]
  refine and_congr_right fun hstarts => ?_
  obtain ⟨front, back, htrace, hfront, hattempt, -⟩ := hstep.attempt hstarts
  rcases hattempt.setups htrace hfront with ⟨hcalled, hsetup, -⟩ | ⟨b, hfree, hsetup, -⟩
  · simp [hcalled, hsetup]
  · simp [hfree, hsetup]

/-- The result of a call whose setup succeeded is always true. -/
theorem result_of_setup (hstep : Step cfg c l c') (h : true ∈ setups l.trace) :
    l.result = some true := by
  by_cases hstarts : Starts c l
  · obtain ⟨front, back, htrace, hfront, hattempt, -⟩ := hstep.attempt hstarts
    rcases hattempt.setups htrace hfront with ⟨-, hsetup, -⟩ | ⟨b, -, hsetup, hresult⟩
    · simp [hsetup] at h
    · obtain rfl : true = b := by simpa [hsetup] using h
      exact hresult
  · simp [(hstep.quiet hstarts).1] at h

theorem retriable_step (hflag : Flagged labels c) (h : Retriable labels)
    (hstep : Step cfg c l c') : Retriable (labels ++ [l]) ↔ AfterSuccess labels c l := by
  have hiff : Retriable (labels ++ [l]) ↔ (Refused l → Pending true labels) :=
    retriable_concat.trans ⟨fun hall => hall.2.1, fun hp => ⟨h, hp, result_of_setup hstep⟩⟩
  rw [hiff, refused_iff hstep, AfterSuccess]
  have hcalled := hflag.called
  have hsingle := hflag.single
  grind

/-- Every refusal in the runs of a fresh client is justified exactly when `call_register` is
never run between a call whose setup failed and the next unregistered event. -/
theorem retriable_iff {fresh : Context} (hfresh : fresh.Fresh) :
    RunWhen (Step cfg) AfterSuccess fresh labels t ↔
      RunAlong (Step cfg) (fun labels _ => Retriable labels) fresh labels t := by
  refine runWhen_iff_runAlong Flagged ⟨?_, ?_⟩ ⟨?_, ?_⟩
    (fun _ _ _ _ hflag _ hstep => hflag.step hstep)
    (fun _ _ _ _ hflag hgood hstep => retriable_step hflag hgood hstep)
  · simp [show fresh.self = {} from hfresh]
  · simp
  · simp
  · simp

/-- A registration that succeeds, an unregistered event, and a registration again. -/
theorem retriable_iff_cycle : ∃ labels t,
    RunAlong (Step .reference) (fun labels _ => Retriable labels) {} labels t ∧
    labels.map (·.result) = [some true, none, some true] := by
  let answer := cloudAnswers true none
  let c₁ := (Operation.callRegister.run .reference answer {}).2.2
  let c₂ := (Operation.clientUnregistered.run .reference answer c₁).2.2
  have hfirst : Step .reference {} ⟨.callRegister, _, some true⟩ c₁ :=
    step_of_run answer .callRegister {} rfl
  have hevent : Step .reference c₁ ⟨.clientUnregistered, _, none⟩ c₂ :=
    step_of_run answer .clientUnregistered c₁ rfl
  have hsecond : Step .reference c₂ ⟨.callRegister, _, some true⟩ _ :=
    step_of_run answer .callRegister c₂ rfl
  have hstart : RunWhen (Step .reference) AfterSuccess {} [] {} := .refl
  have hrun := ((hstart.snoc (by simp [AfterSuccess, Pending]) hfirst).snoc
    (by rintro (⟨⟨⟩⟩ | ⟨⟨memory, ⟨⟩⟩, -⟩)) hevent).snoc
    (fun _ hpending => by
      rcases pending_concat.mp hpending with hsetup | ⟨-, hop⟩
      · exact absurd hsetup List.not_mem_nil
      · exact hop rfl) hsecond
  have hfresh : Context.Fresh {} := rfl
  exact ⟨_, _, (retriable_iff hfresh).mp hrun, rfl⟩

/-- After one failed setup the next call is refused, although its setup would have succeeded. -/
theorem not_retriable_failed_setup : ∃ labels t, Run (Step .reference) {} labels t ∧
    labels.map (·.op) = [.callRegister, .callRegister] ∧
    labels.map (·.result) = [some false, some false] ∧ ¬Retriable labels := by
  let c₁ := (Operation.callRegister.run .reference (cloudAnswers false none) {}).2.2
  have hfirst : Step .reference {} ⟨.callRegister, _, some false⟩ c₁ :=
    step_of_run (cloudAnswers false none) .callRegister {} rfl
  have hsecond : Step .reference c₁ ⟨.callRegister, _, some false⟩ _ :=
    step_of_run (cloudAnswers true none) .callRegister c₁ rfl
  refine ⟨_, _, (Run.single hfirst).snoc hsecond, rfl, rfl, fun h => ?_⟩
  have hpending : Pending true ([] ++ [_]) := h.refused [_] _ [] rfl ⟨.inl rfl, rfl⟩
  rcases pending_concat.mp hpending with hsetup | ⟨hnil, -⟩
  · exact absurd hsetup (by decide)
  · exact not_pending_nil hnil

end SimpleCloudClient
