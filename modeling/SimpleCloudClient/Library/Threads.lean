import SimpleCloudClient.Library.Monitor

/-!
# The rest of a thread

What is left of a procedure that other threads interrupt is again a procedure. Each of its steps
keeps what was proved of the whole: that certain calls come only after certain others, that it meets
a specification under a monitor, and that it does not destroy what holds of the state.
-/
namespace Procedure

variable {S C : Type} {R : C → Type} {F A B : Type} {early late : C → Prop}
variable {p q : Proc S C R F A} {s t : S} {call : Option (Event R)}

/-- In every execution a call in `late` comes only after one in `early`. -/
def OnlyAfter (early late : C → Prop) : Proc S C R F A → Prop
  | .ret _ => True
  | .crash _ => True
  | .read next => ∀ s, OnlyAfter early late (next s)
  | .modify _ next => OnlyAfter early late next
  | .call c next => early c ∨ ¬late c ∧ ∀ r, OnlyAfter early late (next r)

theorem OnlyAfter.bind {f : A → Proc S C R F B} (h : OnlyAfter early late p)
    (hf : ∀ a, OnlyAfter early late (f a)) : OnlyAfter early late (p >>= f) := by
  change OnlyAfter early late (p.bind f)
  induction p with
  | ret a => exact hf a
  | crash => exact trivial
  | read next ih => exact fun s => ih s (h s)
  | modify g next ih => exact ih h
  | call c next ih => exact h.imp_right fun hc => ⟨hc.1, fun r => ih r (hc.2 r)⟩

theorem OnlyAfter.get_bind {next : S → Proc S C R F A}
    (h : ∀ s, OnlyAfter early late (next s)) : OnlyAfter early late (get >>= next) := h

/-- After an early call everything is allowed. -/
theorem OnlyAfter.early_bind {c : C} {next : R c → Proc S C R F A} (h : early c) :
    OnlyAfter early late (perform c >>= next) := .inl h

theorem OnlyAfter.ite {c : Prop} [Decidable c] (hp : OnlyAfter early late p)
    (hq : OnlyAfter early late q) : OnlyAfter early late (if c then p else q) := by
  split <;> assumption

/-- A procedure without late calls is free to make its calls in any order. -/
theorem Calls.onlyAfter (h : Calls (fun c => ¬late c) p) : OnlyAfter early late p := by
  induction p with
  | ret | crash => exact trivial
  | read next ih => exact fun s => ih s (h s)
  | modify g next ih => exact ih h
  | call c next ih => exact .inr ⟨h.1, fun r => ih r (h.2 r)⟩

/-- A step makes an early call, or is not late and leaves the obligation to the rest. -/
theorem OnlyAfter.step (h : OnlyAfter early late p) (hstep : Step (p, s) call (q, t)) :
    (∃ e, call = some e ∧ early e.1) ∨
      (∀ e, call = some e → ¬late e.1) ∧ OnlyAfter early late q := by
  cases hstep with
  | read => exact .inr ⟨nofun, h _⟩
  | modify => exact .inr ⟨nofun, h⟩
  | call c next _ r =>
    rcases h with hearly | ⟨hlate, hnext⟩
    · exact .inl ⟨_, rfl, hearly⟩
    · refine .inr ⟨fun e he => ?_, hnext r⟩
      obtain rfl := Option.some.inj he
      exact hlate

/-- The monitor that remembers every event. -/
def recording {E : Type*} (safe : List E → E → Prop) : Monitor E (List E) where
  next past e := past ++ [e]
  safe := safe

/-- What is left of a procedure meets what is left of its specification. -/
theorem wp_step {M : Type*} {μ : Monitor (Event R) M} {Q : Except F A → S → M → Prop} {m : M}
    (h : wp μ p Q s m) (hstep : Step (p, s) call (q, t)) :
    (∀ e, call = some e → μ.safe m e) ∧ wp μ q Q t (μ.after m call.toList) := by
  cases hstep with
  | read => exact ⟨nofun, h⟩
  | modify => exact ⟨nofun, h⟩
  | call c next _ r =>
    obtain ⟨hsafe, hrest⟩ := h r
    refine ⟨fun e he => ?_, hrest⟩
    obtain rfl := Option.some.inj he
    exact hsafe

/-- A step that a monitor does not see. -/
theorem after_silent {M : Type*} {μ : Monitor (Event R) M} {m : M}
    (h : ∀ e, call = some e → μ.next m e = m) : μ.after m call.toList = m := by
  cases call with
  | none => rfl
  | some e => exact h e rfl

/-- A recording only grows. -/
theorem wp_recording {safe : List (Event R) → Event R → Prop}
    {P : A → S → List (Event R) → Prop} {past : List (Event R)}
    (h : wp (recording safe) p (Returns P) s past) :
    wp (recording safe) p (Returns fun a t more => P a t more ∧ past ⊆ more) s past := by
  induction p generalizing s past with
  | ret a => exact ⟨h, List.Subset.refl _⟩
  | crash fault => exact trivial
  | read next ih => exact ih s h
  | modify f next ih => exact ih h
  | call c next ih =>
    intro r
    obtain ⟨hsafe, hrest⟩ := h r
    refine ⟨hsafe, wp_returns_mono (ih r hrest) fun a t more ha => ⟨ha.1, ?_⟩⟩
    exact List.Subset.trans (List.subset_append_left ..) ha.2

/-- No update of the procedure destroys what holds of the state. -/
def Preserves (I : S → Prop) : Proc S C R F A → Prop
  | .ret _ => True
  | .crash _ => True
  | .read next => ∀ s, Preserves I (next s)
  | .modify f next => (∀ s, I s → I (f s)) ∧ Preserves I next
  | .call _ next => ∀ r, Preserves I (next r)

variable {I : S → Prop}

theorem Preserves.bind {f : A → Proc S C R F B} (h : Preserves I p)
    (hf : ∀ a, Preserves I (f a)) : Preserves I (p >>= f) := by
  change Preserves I (p.bind f)
  induction p with
  | ret a => exact hf a
  | crash => exact trivial
  | read next ih => exact fun s => ih s (h s)
  | modify g next ih => exact ⟨h.1, ih h.2⟩
  | call c next ih => exact fun r => ih r (h r)

theorem Preserves.ite {c : Prop} [Decidable c] (hp : Preserves I p) (hq : Preserves I q) :
    Preserves I (if c then p else q) := by
  split <;> assumption

theorem Keeps.preserves {X : Type*} {g : S → X} {J : X → Prop} (h : Keeps g p) :
    Preserves (fun s => J (g s)) p := by
  induction p with
  | ret | crash => exact trivial
  | read next ih => exact fun s => ih s (h s)
  | modify f next ih => exact ⟨fun s hs => (congrArg J (h.1 s)).mpr hs, ih h.2⟩
  | call c next ih => exact fun r => ih r (h r)

theorem Preserves.step (h : Preserves I p) (hstep : Step (p, s) call (q, t)) :
    Preserves I q ∧ (I s → I t) := by
  cases hstep with
  | read => exact ⟨h _, id⟩
  | modify => exact ⟨h.2, h.1 _⟩
  | call c next _ r => exact ⟨h r, id⟩

theorem Calls.step {ok : C → Prop} (h : Calls ok p) (hstep : Step (p, s) call (q, t)) :
    Calls ok q ∧ ∀ e, call = some e → ok e.1 := by
  cases hstep with
  | read => exact ⟨h _, nofun⟩
  | modify => exact ⟨h, nofun⟩
  | call c next _ r =>
    refine ⟨h.2 r, fun e he => ?_⟩
    obtain rfl := Option.some.inj he
    exact h.1

/-! ## Running step by step -/

/-- The steps of the execution in which every call is answered by `answer`. -/
def Proc.steps (answer : (c : C) → R c) :
    Proc S C R F A → S → List (Option (Event R)) × Except F A × S
  | .ret a, s => ([], .ok a, s)
  | .crash fault, s => ([], .error fault, s)
  | .read next, s =>
    let rest := (next s).steps answer s
    (none :: rest.1, rest.2)
  | .modify f next, s =>
    let rest := next.steps answer (f s)
    (none :: rest.1, rest.2)
  | .call c next, s =>
    let rest := (next (answer c)).steps answer s
    (some ⟨c, answer c⟩ :: rest.1, rest.2)

theorem run_steps (answer : (c : C) → R c) {a : A} (h : (p.steps answer s).2.1 = .ok a) :
    Transition.Run Step (p, s) (p.steps answer s).1 (.ret a, (p.steps answer s).2.2) := by
  induction p generalizing s with
  | ret b =>
    obtain rfl := Except.ok.inj h
    exact .refl
  | crash fault => cases h
  | read next ih => exact (Transition.Run.single (.read next s)).append (ih s h)
  | modify f next ih => exact (Transition.Run.single (.modify f next s)).append (ih h)
  | call c next ih => exact (Transition.Run.single (.call c next s (answer c))).append (ih _ h)

end Procedure
