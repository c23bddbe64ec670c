import SimpleCloudClient.Library.Transition
import Mathlib.Data.List.ReduceOption

/-!
# Procedures that call an environment

A procedure reads and updates a mutable state and calls functions whose results it does not
control. It is a finite tree: a call carries one continuation per possible reply, so quantifying
over executions quantifies over every sequence of results. `Exec` is the big-step semantics; its
trace lists the calls with their replies. `Proc.run` evaluates a procedure against a concrete
environment. Reading and updating the state are single steps, so that another party may be
scheduled between any two of them; `Step` is that finer semantics and agrees with `Exec`.
-/
namespace Procedure

/-- Procedures over the state `S` with calls `C`, replies `R`, faults `F` and result `A`. -/
inductive Proc (S C : Type) (R : C → Type) (F A : Type) where
  | ret (a : A)
  | crash (fault : F)
  | read (next : S → Proc S C R F A)
  | modify (f : S → S) (next : Proc S C R F A)
  | call (c : C) (next : R c → Proc S C R F A)

/-- A call with the reply it got. -/
abbrev Event {C : Type} (R : C → Type) := (c : C) × R c

variable {S C : Type} {R : C → Type} {F A B : Type}

def Proc.bind (p : Proc S C R F A) (f : A → Proc S C R F B) : Proc S C R F B :=
  match p with
  | .ret a => f a
  | .crash fault => .crash fault
  | .read next => .read fun s => (next s).bind f
  | .modify g next => .modify g (next.bind f)
  | .call c next => .call c fun r => (next r).bind f

instance : Monad (Proc S C R F) where
  pure := .ret
  bind := Proc.bind

/-- The whole state, as it is at this point of the execution. -/
def get : Proc S C R F S := .read .ret

/-- One atomic update of the state. -/
def update (f : S → S) : Proc S C R F Unit := .modify f (.ret ())

/-- One call of the environment. -/
def perform (c : C) : Proc S C R F (R c) := .call c .ret

/-- A pointer that has to be valid here. -/
def deref (fault : F) : Option A → Proc S C R F A
  | some a => .ret a
  | none => .crash fault

/-! ## Big-step semantics -/

inductive Exec : Proc S C R F A → S → List (Event R) → Except F A → S → Prop where
  | ret (a : A) (s : S) : Exec (.ret a) s [] (.ok a) s
  | crash (fault : F) (s : S) : Exec (.crash fault) s [] (.error fault) s
  | read {next : S → Proc S C R F A} {s t : S} {tr : List (Event R)} {o : Except F A} :
      Exec (next s) s tr o t → Exec (.read next) s tr o t
  | modify {f : S → S} {next : Proc S C R F A} {s t : S} {tr : List (Event R)}
      {o : Except F A} : Exec next (f s) tr o t → Exec (.modify f next) s tr o t
  | call {c : C} {next : R c → Proc S C R F A} {s t : S} {tr : List (Event R)}
      {o : Except F A} (r : R c) :
      Exec (next r) s tr o t → Exec (.call c next) s (⟨c, r⟩ :: tr) o t

section
variable {s t : S} {tr : List (Event R)} {o : Except F A}

@[simp] theorem exec_ret {a : A} :
    Exec (.ret a : Proc S C R F A) s tr o t ↔ tr = [] ∧ o = .ok a ∧ t = s := by
  constructor
  · rintro ⟨⟩; exact ⟨rfl, rfl, rfl⟩
  · rintro ⟨rfl, rfl, rfl⟩; exact .ret a t

@[simp] theorem exec_pure {a : A} :
    Exec (pure a : Proc S C R F A) s tr o t ↔ tr = [] ∧ o = .ok a ∧ t = s := exec_ret

@[simp] theorem exec_crash {fault : F} :
    Exec (.crash fault : Proc S C R F A) s tr o t ↔ tr = [] ∧ o = .error fault ∧ t = s := by
  constructor
  · rintro ⟨⟩; exact ⟨rfl, rfl, rfl⟩
  · rintro ⟨rfl, rfl, rfl⟩; exact .crash fault t

@[simp] theorem exec_read {next : S → Proc S C R F A} :
    Exec (.read next) s tr o t ↔ Exec (next s) s tr o t := by
  constructor
  · rintro ⟨⟩; assumption
  · exact .read

@[simp] theorem exec_modify {f : S → S} {next : Proc S C R F A} :
    Exec (.modify f next) s tr o t ↔ Exec next (f s) tr o t := by
  constructor
  · rintro ⟨⟩; assumption
  · exact .modify

@[simp] theorem exec_call {c : C} {next : R c → Proc S C R F A} :
    Exec (.call c next) s tr o t ↔
      ∃ r rest, tr = ⟨c, r⟩ :: rest ∧ Exec (next r) s rest o t := by
  constructor
  · rintro ⟨⟩; exact ⟨_, _, rfl, by assumption⟩
  · rintro ⟨r, rest, rfl, h⟩; exact .call r h

/-- A sequence runs its first part to the end, or stops in it with a fault. -/
theorem exec_bind {p : Proc S C R F A} {f : A → Proc S C R F B} {o : Except F B} :
    Exec (p >>= f) s tr o t ↔
      (∃ front a u back, tr = front ++ back ∧ Exec p s front (.ok a) u ∧ Exec (f a) u back o t) ∨
      ∃ fault, o = .error fault ∧ Exec p s tr (.error fault) t := by
  change Exec (p.bind f) s tr o t ↔ _
  induction p generalizing s tr with
  | ret a => simp [Proc.bind]
  | crash fault =>
    simp only [Proc.bind, exec_crash]
    grind
  | read next ih => simp only [Proc.bind, exec_read, ih]
  | modify g next ih => simp only [Proc.bind, exec_modify, ih]
  | call c next ih =>
    simp only [Proc.bind, exec_call, ih]
    constructor
    · rintro ⟨r, rest, rfl, ⟨front, a, u, back, rfl, h, g⟩ | ⟨fault, rfl, h⟩⟩
      · exact .inl ⟨⟨c, r⟩ :: front, a, u, back, rfl, ⟨r, front, rfl, h⟩, g⟩
      · exact .inr ⟨fault, rfl, r, rest, rfl, h⟩
    · rintro (⟨_, a, u, back, rfl, ⟨r, front, rfl, h⟩, g⟩ | ⟨fault, rfl, r, rest, rfl, h⟩)
      · exact ⟨r, front ++ back, rfl, .inl ⟨front, a, u, back, rfl, h, g⟩⟩
      · exact ⟨r, rest, rfl, .inr ⟨fault, rfl, h⟩⟩

/-- Only if the first part returns, the sequence does. -/
theorem exec_bind_ok {p : Proc S C R F A} {f : A → Proc S C R F B} {b : B} :
    Exec (p >>= f) s tr (.ok b) t ↔
      ∃ front a u back, tr = front ++ back ∧ Exec p s front (.ok a) u ∧
        Exec (f a) u back (.ok b) t := by
  simp [exec_bind]

/-- A function of the result leaves the execution as it is. -/
theorem exec_bind_pure {p : Proc S C R F A} {f : A → B} {o : Except F B} :
    Exec (p >>= fun a => pure (f a)) s tr o t ↔ ∃ o', o = o'.map f ∧ Exec p s tr o' t := by
  rw [exec_bind]
  constructor
  · rintro (⟨front, a, u, back, rfl, h, hpure⟩ | ⟨fault, rfl, h⟩)
    · obtain ⟨rfl, rfl, rfl⟩ := exec_pure.mp hpure
      exact ⟨.ok a, rfl, by simpa using h⟩
    · exact ⟨.error fault, rfl, h⟩
  · rintro ⟨fault | a, rfl, h⟩
    · exact .inr ⟨fault, rfl, h⟩
    · exact .inl ⟨tr, a, t, [], by simp, h, exec_pure.mpr ⟨rfl, rfl, rfl⟩⟩

@[simp] theorem exec_get_bind {f : S → Proc S C R F A} :
    Exec (get >>= f) s tr o t ↔ Exec (f s) s tr o t := exec_read

@[simp] theorem exec_update_bind {g : S → S} {f : Unit → Proc S C R F A} :
    Exec (update g >>= f) s tr o t ↔ Exec (f ()) (g s) tr o t := exec_modify

@[simp] theorem exec_perform_bind {c : C} {f : R c → Proc S C R F A} :
    Exec (perform c >>= f) s tr o t ↔
      ∃ r rest, tr = ⟨c, r⟩ :: rest ∧ Exec (f r) s rest o t := exec_call

@[simp] theorem exec_update {g : S → S} {o : Except F Unit} :
    Exec (update g : Proc S C R F Unit) s tr o t ↔ tr = [] ∧ o = .ok () ∧ t = g s := by
  simp [update]

@[simp] theorem exec_perform {c : C} {o : Except F (R c)} :
    Exec (perform c : Proc S C R F (R c)) s tr o t ↔
      ∃ r, tr = [⟨c, r⟩] ∧ o = .ok r ∧ t = s := by
  simp [perform]

@[simp] theorem exec_deref {fault : F} {x : Option A} :
    Exec (deref fault x : Proc S C R F A) s tr o t ↔
      tr = [] ∧ t = s ∧ o = (match x with | some a => .ok a | none => .error fault) := by
  cases x <;> simp [deref, and_comm]

@[simp] theorem exec_deref_bind {fault : F} {x : Option B} {f : B → Proc S C R F A} :
    Exec (deref fault x >>= f) s tr o t ↔
      (∃ b, x = some b ∧ Exec (f b) s tr o t) ∨
      x = none ∧ tr = [] ∧ o = .error fault ∧ t = s := by
  cases x with
  | none => exact exec_crash.trans (by simp)
  | some b => exact (iff_of_eq rfl : _ ↔ Exec (f b) s tr o t).trans (by simp)

end

/-! ## Running against a concrete environment -/

/-- The execution in which each call is answered from the calls made so far. -/
def Proc.run (answer : List (Event R) → (c : C) → R c) :
    Proc S C R F A → S → List (Event R) → List (Event R) × Except F A × S
  | .ret a, s, _ => ([], .ok a, s)
  | .crash fault, s, _ => ([], .error fault, s)
  | .read next, s, past => (next s).run answer s past
  | .modify f next, s, past => next.run answer (f s) past
  | .call c next, s, past =>
    let event : Event R := ⟨c, answer past c⟩
    let rest := (next event.2).run answer s (past ++ [event])
    (event :: rest.1, rest.2)

theorem exec_run (answer : List (Event R) → (c : C) → R c) (p : Proc S C R F A) (s : S)
    (past : List (Event R)) :
    Exec p s (p.run answer s past).1 (p.run answer s past).2.1 (p.run answer s past).2.2 := by
  induction p generalizing s past with
  | ret a => exact .ret a s
  | crash fault => exact .crash fault s
  | read next ih => exact .read (ih s s past)
  | modify f next ih => exact .modify (ih (f s) past)
  | call c next ih => exact .call _ (ih _ s _)

theorem exec_of_run (answer : List (Event R) → (c : C) → R c) {p : Proc S C R F A} {s : S}
    {o : Except F A} (h : (p.run answer s []).2.1 = o) :
    Exec p s (p.run answer s []).1 o (p.run answer s []).2.2 := by
  rw [← h]
  exact exec_run answer p s []

/-- What holds of every answer holds of every event. -/
theorem Proc.forall_mem_run (answer : List (Event R) → (c : C) → R c) (P : Event R → Prop)
    (h : ∀ past c, P ⟨c, answer past c⟩) (p : Proc S C R F A) (s : S) (past : List (Event R)) :
    ∀ e ∈ (p.run answer s past).1, P e := by
  induction p generalizing s past with
  | ret a => simp [Proc.run]
  | crash fault => simp [Proc.run]
  | read next ih => exact ih s s past
  | modify f next ih => exact ih (f s) past
  | call c next ih =>
    simp only [Proc.run, List.mem_cons, forall_eq_or_imp]
    exact ⟨h past c, ih _ s _⟩

/-- Every procedure ends, whatever the environment answers. -/
theorem exists_exec [∀ c, Inhabited (R c)] (p : Proc S C R F A) (s : S) :
    ∃ tr o t, Exec p s tr o t :=
  ⟨_, _, _, exec_run (fun _ _ => default) p s []⟩

/-! ## Small-step semantics -/

/-- One atomic step of a procedure; the label is the call it makes, if it makes one. -/
inductive Step : Proc S C R F A × S → Option (Event R) → Proc S C R F A × S → Prop where
  | read (next : S → Proc S C R F A) (s : S) : Step (.read next, s) none (next s, s)
  | modify (f : S → S) (next : Proc S C R F A) (s : S) : Step (.modify f next, s) none (next, f s)
  | call (c : C) (next : R c → Proc S C R F A) (s : S) (r : R c) :
      Step (.call c next, s) (some ⟨c, r⟩) (next r, s)

/-- Steps in front of an execution make an execution. -/
theorem Exec.of_run {p q : Proc S C R F A} {s u t : S} {labels : List (Option (Event R))}
    {tr : List (Event R)} {o : Except F A} (h : Transition.Run Step (p, s) labels (q, u))
    (g : Exec q u tr o t) : Exec p s (labels.reduceOption ++ tr) o t := by
  generalize hstart : (p, s) = start at h
  generalize hend : (q, u) = last at h
  induction h generalizing q u tr with
  | refl =>
    obtain ⟨rfl, rfl⟩ := Prod.mk.inj (hend.trans hstart.symm)
    exact g
  | snoc hrun hstep ih =>
    subst hend
    cases hstep with
    | read next => simpa [List.reduceOption_append] using ih (Exec.read g) rfl
    | modify f next => simpa [List.reduceOption_append] using ih (Exec.modify g) rfl
    | call c next s r => simpa [List.reduceOption_append] using ih (Exec.call r g) rfl

/-- The two semantics agree on the executions that end without a fault. -/
theorem exec_iff_run {p : Proc S C R F A} {s t : S} {tr : List (Event R)} {a : A} :
    Exec p s tr (.ok a) t ↔
      ∃ labels, Transition.Run Step (p, s) labels (.ret a, t) ∧ labels.reduceOption = tr := by
  constructor
  · intro h
    generalize ho : Except.ok a = o at h
    induction h with
    | ret b s =>
      obtain rfl := Except.ok.inj ho
      exact ⟨[], .refl, rfl⟩
    | crash fault s => cases ho
    | @read next s _ _ _ _ ih =>
      obtain ⟨labels, hrun, rfl⟩ := ih ho
      exact ⟨none :: labels, (Transition.Run.single (.read next s)).append hrun, rfl⟩
    | @modify f next s _ _ _ _ ih =>
      obtain ⟨labels, hrun, rfl⟩ := ih ho
      exact ⟨none :: labels, (Transition.Run.single (.modify f next s)).append hrun, rfl⟩
    | @call c next s _ _ _ r _ ih =>
      obtain ⟨labels, hrun, rfl⟩ := ih ho
      exact ⟨some ⟨c, r⟩ :: labels, (Transition.Run.single (.call c next s r)).append hrun, rfl⟩
  · rintro ⟨labels, hrun, rfl⟩
    simpa using Exec.of_run hrun (.ret a t)

end Procedure
