import SimpleCloudClient.Library.Procedure

/-!
# Weakest preconditions over monitored traces

A monitor reads the calls of an execution, keeps a state of its own and demands that each event is
safe. `wp` is the weakest precondition of a procedure running under a monitor: the postcondition
speaks about the result, the state and the monitor, and every event is checked on the way. A
temporal property of all executions is proved by giving each function one specification in terms
of `wp` and composing them along the code. The precondition is exact: it holds exactly when every
execution is safe and ends in the postcondition.
-/
namespace Procedure

/-- An observer of events: its transition and what it demands. -/
structure Monitor (E M : Type*) where
  next : M → E → M
  safe : M → E → Prop := fun _ _ => True

namespace Monitor
variable {E M : Type*}

/-- The monitor's state after a trace. -/
def after (μ : Monitor E M) (m : M) (tr : List E) : M := tr.foldl μ.next m

/-- `P` holds of every event of the trace in the monitor state just before it. -/
def AllAt (μ : Monitor E M) (P : M → E → Prop) : M → List E → Prop
  | _, [] => True
  | m, e :: es => P m e ∧ μ.AllAt P (μ.next m e) es

instance decidableAllAt (μ : Monitor E M) (P : M → E → Prop) [∀ m e, Decidable (P m e)] :
    ∀ m tr, Decidable (μ.AllAt P m tr)
  | _, [] => isTrue trivial
  | m, e :: es =>
    have := decidableAllAt μ P (μ.next m e) es
    inferInstanceAs (Decidable (P m e ∧ μ.AllAt P (μ.next m e) es))

variable {μ : Monitor E M} {P : M → E → Prop} {m : M} {e : E} {tr es : List E}

@[simp] theorem after_nil : μ.after m [] = m := rfl
@[simp] theorem after_cons : μ.after m (e :: es) = μ.after (μ.next m e) es := rfl
@[simp] theorem after_append : μ.after m (tr ++ es) = μ.after (μ.after m tr) es := by
  simp [after]

@[simp] theorem allAt_nil : μ.AllAt P m [] := trivial
@[simp] theorem allAt_cons :
    μ.AllAt P m (e :: es) ↔ P m e ∧ μ.AllAt P (μ.next m e) es := Iff.rfl
@[simp] theorem allAt_append :
    μ.AllAt P m (tr ++ es) ↔ μ.AllAt P m tr ∧ μ.AllAt P (μ.after m tr) es := by
  induction tr generalizing m with
  | nil => simp
  | cons e tr ih => simp [ih, and_assoc]

/-- A property that does not read the monitor's state. -/
theorem allAt_forall {P : E → Prop} : μ.AllAt (fun _ => P) m tr ↔ ∀ e ∈ tr, P e := by
  induction tr generalizing m with
  | nil => simp
  | cons e tr ih => simp [ih]

/-- The same property in terms of positions of the trace. -/
theorem allAt_iff : μ.AllAt P m tr ↔
    ∀ before e later, tr = before ++ e :: later → P (μ.after m before) e := by
  constructor
  · rintro h before e later rfl
    exact ((allAt_append.mp h).2).1
  · intro h
    induction tr generalizing m with
    | nil => exact trivial
    | cons e tr ih =>
      exact ⟨h [] e tr rfl, ih fun before x later hx => h (e :: before) x later (by simp [hx])⟩

end Monitor

section Since
variable {E : Type*} (good bad : E → Bool)

/-- The monitor of "a good event has happened, and no bad one since". -/
def since : Monitor E Bool where
  next armed e := if good e then true else if bad e then false else armed

/-- What the monitor has seen when it is on. -/
theorem since_iff (armed : Bool) (tr : List E) :
    (since good bad).after armed tr = true ↔
      (∃ before e later, tr = before ++ e :: later ∧ good e = true ∧ ∀ x ∈ later, bad x = false) ∨
      armed = true ∧ ∀ x ∈ tr, bad x = false := by
  induction tr generalizing armed with
  | nil => simp
  | cons e tr ih =>
    simp only [Monitor.after_cons, ih]
    constructor
    · rintro (⟨before, x, later, rfl, hx, hl⟩ | ⟨harmed, hl⟩)
      · exact .inl ⟨e :: before, x, later, rfl, hx, hl⟩
      · cases hg : good e with
        | true => exact .inl ⟨[], e, tr, rfl, hg, hl⟩
        | false =>
          have hb : bad e = false ∧ armed = true := by
            cases hb : bad e <;> simp_all [since]
          exact .inr ⟨hb.2, by simpa [hb.1] using hl⟩
    · rintro (⟨before, x, later, hs, hx, hl⟩ | ⟨harmed, hl⟩)
      · cases before with
        | nil =>
          obtain ⟨rfl, rfl⟩ := List.cons.inj hs
          exact .inr ⟨by simp [since, hx], hl⟩
        | cons y before =>
          obtain ⟨rfl, rfl⟩ := List.cons.inj hs
          exact .inl ⟨before, x, later, rfl, hx, hl⟩
      · exact .inr ⟨by simp [since, harmed, hl e (by simp)], fun x hx => hl x (by simp [hx])⟩

end Since

variable {S C : Type} {R : C → Type} {F A B : Type} {M : Type*}

/-- The weakest precondition of a procedure under a monitor. -/
def wp (μ : Monitor (Event R) M) :
    Proc S C R F A → (Except F A → S → M → Prop) → S → M → Prop
  | .ret a, Q, s, m => Q (.ok a) s m
  | .crash fault, Q, s, m => Q (.error fault) s m
  | .read next, Q, s, m => wp μ (next s) Q s m
  | .modify f next, Q, s, m => wp μ next Q (f s) m
  | .call c next, Q, s, m =>
    ∀ r, μ.safe m ⟨c, r⟩ ∧ wp μ (next r) Q s (μ.next m ⟨c, r⟩)

variable {μ : Monitor (Event R) M} {p : Proc S C R F A} {f : A → Proc S C R F B}
variable {Q Q' : Except F A → S → M → Prop} {T : Except F B → S → M → Prop} {s : S} {m : M}

/-- Soundness: every event is safe and the postcondition holds. -/
theorem wp_sound (h : wp μ p Q s m) {tr : List (Event R)} {o : Except F A} {t : S}
    (hx : Exec p s tr o t) : μ.AllAt μ.safe m tr ∧ Q o t (μ.after m tr) := by
  induction hx generalizing m with
  | ret | crash => exact ⟨trivial, h⟩
  | read _ ih | modify _ ih => exact ih h
  | call r _ ih =>
    obtain ⟨hsafe, hrest⟩ := h r
    obtain ⟨hall, hpost⟩ := ih hrest
    exact ⟨⟨hsafe, hall⟩, hpost⟩

/-- Completeness: what all executions guarantee is derivable. -/
theorem wp_iff [∀ c, Inhabited (R c)] : wp μ p Q s m ↔
    ∀ tr o t, Exec p s tr o t → μ.AllAt μ.safe m tr ∧ Q o t (μ.after m tr) := by
  refine ⟨fun h _ _ _ hx => wp_sound h hx, fun h => ?_⟩
  induction p generalizing s m with
  | ret a => exact (h [] _ _ (.ret a s)).2
  | crash fault => exact (h [] _ _ (.crash fault s)).2
  | read next ih => exact ih s fun tr o t hx => h tr o t (.read hx)
  | modify f next ih => exact ih fun tr o t hx => h tr o t (.modify hx)
  | call c next ih =>
    intro r
    obtain ⟨tr, o, t, hx⟩ := exists_exec (next r) s
    exact ⟨(h _ _ _ (.call r hx)).1.1, ih r fun tr o t hx =>
      ⟨(h _ _ _ (.call r hx)).1.2, (h _ _ _ (.call r hx)).2⟩⟩

theorem wp_mono (h : wp μ p Q s m) (hQ : ∀ o s m, Q o s m → Q' o s m) : wp μ p Q' s m := by
  induction p generalizing s m with
  | ret | crash => exact hQ _ _ _ h
  | read next ih => exact ih s h
  | modify f next ih => exact ih h
  | call c next ih => exact fun r => ⟨(h r).1, ih r (h r).2⟩

/-- The rule of sequencing: a specification of the first part carries over to the second. -/
theorem wp_seq (h : wp μ p Q s m) (ok : ∀ a s m, Q (.ok a) s m → wp μ (f a) T s m)
    (fault : ∀ e s m, Q (.error e) s m → T (.error e) s m) : wp μ (p >>= f) T s m := by
  change wp μ (p.bind f) T s m
  induction p generalizing s m with
  | ret a => exact ok a s m h
  | crash e => exact fault e s m h
  | read next ih => exact ih s h
  | modify g next ih => exact ih h
  | call c next ih => exact fun r => ⟨(h r).1, ih r (h r).2⟩

theorem wp_bind : wp μ (p >>= f) T s m ↔
    wp μ p (fun o s m => match o with
      | .ok a => wp μ (f a) T s m
      | .error e => T (.error e) s m) s m := by
  refine ⟨fun h => ?_, fun h => wp_seq h (fun _ _ _ h => h) fun _ _ _ h => h⟩
  change wp μ (p.bind f) T s m at h
  induction p generalizing s m with
  | ret | crash => exact h
  | read next ih => exact ih s h
  | modify g next ih => exact ih h
  | call c next ih => exact fun r => ⟨(h r).1, ih r (h r).2⟩

/-- The precondition of a sequence, after a given execution of its first part. -/
theorem wp_follow (h : wp μ (p >>= f) T s m) {tr : List (Event R)} {a : A} {t : S}
    (hx : Exec p s tr (.ok a) t) : wp μ (f a) T t (μ.after m tr) :=
  (wp_sound (wp_bind.mp h) hx).2

/-- What every execution does to the state may be added to a postcondition. -/
theorem wp_and {K : Except F A → S → Prop} (h : wp μ p Q s m)
    (hK : ∀ tr o t, Exec p s tr o t → K o t) :
    wp μ p (fun o t m => Q o t m ∧ K o t) s m := by
  induction p generalizing s m with
  | ret a => exact ⟨h, hK _ _ _ (.ret a s)⟩
  | crash fault => exact ⟨h, hK _ _ _ (.crash fault s)⟩
  | read next ih => exact ih s h fun _ _ _ hx => hK _ _ _ (.read hx)
  | modify f next ih => exact ih h fun _ _ _ hx => hK _ _ _ (.modify hx)
  | call c next ih => exact fun r => ⟨(h r).1, ih r (h r).2 fun _ _ _ hx => hK _ _ _ (.call r hx)⟩

/-- A postcondition of the executions that end without a fault. -/
def Returns (P : A → S → M → Prop) (o : Except F A) (s : S) (m : M) : Prop :=
  match o with
  | .ok a => P a s m
  | .error _ => True

@[simp] theorem returns_ok {P : A → S → M → Prop} {a : A} :
    Returns P (.ok a : Except F A) s m ↔ P a s m := Iff.rfl

@[simp] theorem returns_error {P : A → S → M → Prop} {e : F} :
    Returns P (.error e : Except F A) s m ↔ True := Iff.rfl

/-- Sequencing for such postconditions: a fault in the first part is a fault of the whole. -/
theorem wp_then {P : A → S → M → Prop} {P' : B → S → M → Prop} (h : wp μ p (Returns P) s m)
    (next : ∀ a s m, P a s m → wp μ (f a) (Returns P') s m) :
    wp μ (p >>= f) (Returns P') s m :=
  wp_seq h (fun a s m ha => next a s m ha) fun _ _ _ _ => trivial

theorem wp_returns_mono {P P' : A → S → M → Prop} (h : wp μ p (Returns P) s m)
    (hP : ∀ a s m, P a s m → P' a s m) : wp μ p (Returns P') s m :=
  wp_mono h fun o _ _ ho => match o, ho with
    | .ok _, ho => hP _ _ _ ho
    | .error _, _ => trivial

theorem wp_returns_and {P : A → S → M → Prop} {K : A → S → Prop} (h : wp μ p (Returns P) s m)
    (hK : ∀ tr a t, Exec p s tr (.ok a) t → K a t) :
    wp μ p (Returns fun a t m => P a t m ∧ K a t) s m := by
  have hboth := wp_and (K := fun o t => ∀ a, o = .ok a → K a t) h fun tr o t hx a ho =>
    hK tr a t (ho ▸ hx)
  exact wp_mono hboth fun o _ _ ho => match o, ho with
    | .ok a, ho => ⟨ho.1, ho.2 a rfl⟩
    | .error _, _ => trivial

theorem wp_returns_of_wp {P : S → M → Prop} (h : wp μ p (fun _ => P) s m) :
    wp μ p (Returns fun _ => P) s m :=
  wp_mono h fun o _ _ ho => match o with
    | .ok _ => ho
    | .error _ => trivial

/-! ## Rules for single steps -/

@[simp] theorem wp_ret {a : A} : wp μ (.ret a) Q s m ↔ Q (.ok a) s m := Iff.rfl
@[simp] theorem wp_pure {a : A} : wp μ (pure a) Q s m ↔ Q (.ok a) s m := Iff.rfl
@[simp] theorem wp_crash {e : F} : wp μ (.crash e) Q s m ↔ Q (.error e) s m := Iff.rfl

@[simp] theorem wp_get_bind {g : S → Proc S C R F A} :
    wp μ (get >>= g) Q s m ↔ wp μ (g s) Q s m := Iff.rfl

@[simp] theorem wp_update_bind {u : S → S} {g : Unit → Proc S C R F A} :
    wp μ (update u >>= g) Q s m ↔ wp μ (g ()) Q (u s) m := Iff.rfl

@[simp] theorem wp_perform_bind {c : C} {g : R c → Proc S C R F A} :
    wp μ (perform c >>= g) Q s m ↔
      ∀ r, μ.safe m ⟨c, r⟩ ∧ wp μ (g r) Q s (μ.next m ⟨c, r⟩) := Iff.rfl

@[simp] theorem wp_perform {c : C} {Q : Except F (R c) → S → M → Prop} :
    wp μ (perform c) Q s m ↔
      ∀ r, μ.safe m ⟨c, r⟩ ∧ Q (.ok r) s (μ.next m ⟨c, r⟩) := Iff.rfl

@[simp] theorem wp_deref_bind {e : F} {x : Option B} {g : B → Proc S C R F A} :
    wp μ (deref e x >>= g) Q s m ↔
      match x with
      | some b => wp μ (g b) Q s m
      | none => Q (.error e) s m := by
  cases x <;> exact Iff.rfl

theorem wp_ite {c : Prop} [Decidable c] {p q : Proc S C R F A} :
    wp μ (if c then p else q) Q s m ↔ if c then wp μ p Q s m else wp μ q Q s m := by
  split <;> exact Iff.rfl

/-- The rule of conditionals. -/
theorem wp_if {c : Prop} [Decidable c] {p q : Proc S C R F A} (pos : c → wp μ p Q s m)
    (neg : ¬c → wp μ q Q s m) : wp μ (if c then p else q) Q s m := by
  split
  · exact pos ‹c›
  · exact neg ‹¬c›

/-! ## Framing -/

/-- Every call a procedure can make satisfies `ok`. -/
def Calls (ok : C → Prop) : Proc S C R F A → Prop
  | .ret _ => True
  | .crash _ => True
  | .read next => ∀ s, Calls ok (next s)
  | .modify _ next => Calls ok next
  | .call c next => ok c ∧ ∀ r, Calls ok (next r)

theorem Calls.bind {ok : C → Prop} (h : Calls ok p) (hf : ∀ a, Calls ok (f a)) :
    Calls ok (p >>= f) := by
  change Calls ok (p.bind f)
  induction p with
  | ret a => exact hf a
  | crash => exact trivial
  | read next ih => exact fun s => ih s (h s)
  | modify g next ih => exact ih h
  | call c next ih => exact ⟨h.1, fun r => ih r (h.2 r)⟩

theorem Calls.mono {ok ok' : C → Prop} (h : Calls ok p) (sub : ∀ c, ok c → ok' c) :
    Calls ok' p := by
  induction p with
  | ret | crash => exact trivial
  | read next ih => exact fun s => ih s (h s)
  | modify g next ih => exact ih h
  | call c next ih => exact ⟨sub c h.1, fun r => ih r (h.2 r)⟩

theorem Calls.get_bind {ok : C → Prop} {next : S → Proc S C R F A} (h : ∀ s, Calls ok (next s)) :
    Calls ok (get >>= next) := h

theorem Calls.perform {ok : C → Prop} {c : C} (h : ok c) :
    Calls ok (Procedure.perform c : Proc S C R F (R c)) := ⟨h, fun _ => trivial⟩

theorem Calls.deref {ok : C → Prop} {e : F} {x : Option A} :
    Calls ok (Procedure.deref e x : Proc S C R F A) := by
  cases x <;> exact trivial

theorem Calls.ite {ok : C → Prop} {c : Prop} [Decidable c] {p q : Proc S C R F A}
    (hp : Calls ok p) (hq : Calls ok q) : Calls ok (if c then p else q) := by
  split <;> assumption

/-- A procedure whose calls are always safe needs no precondition. -/
theorem Calls.wp_returns_true {ok : C → Prop} (h : Calls ok p)
    (safe : ∀ m c r, ok c → μ.safe m ⟨c, r⟩) : wp μ p (Returns fun _ _ _ => True) s m := by
  induction p generalizing s m with
  | ret | crash => exact trivial
  | read next ih => exact ih s (h s)
  | modify g next ih => exact ih h
  | call c next ih => exact fun r => ⟨safe m c r h.1, ih r (h.2 r)⟩

/-- A procedure whose calls leave the monitor alone keeps the monitor's state. -/
theorem Calls.frame {ok : C → Prop} (h : Calls ok p)
    (quiet : ∀ m c r, ok c → μ.safe m ⟨c, r⟩ ∧ μ.next m ⟨c, r⟩ = m) :
    wp μ p (fun _ _ m' => m' = m) s m := by
  induction p generalizing s with
  | ret | crash => rfl
  | read next ih => exact ih s (h s)
  | modify g next ih => exact ih h
  | call c next ih =>
    intro r
    obtain ⟨hsafe, hnext⟩ := quiet m c r h.1
    rw [hnext]
    exact ⟨hsafe, ih r (h.2 r)⟩

theorem Calls.frame_returns {ok : C → Prop} (h : Calls ok p)
    (quiet : ∀ m c r, ok c → μ.safe m ⟨c, r⟩ ∧ μ.next m ⟨c, r⟩ = m) :
    wp μ p (Returns fun _ _ m' => m' = m) s m :=
  wp_returns_of_wp (h.frame quiet)

section Keeps
variable {X : Type*} {g : S → X}

/-- No update of the procedure changes what `g` reads of the state. -/
def Keeps (g : S → X) : Proc S C R F A → Prop
  | .ret _ => True
  | .crash _ => True
  | .read next => ∀ s, Keeps g (next s)
  | .modify f next => (∀ s, g (f s) = g s) ∧ Keeps g next
  | .call _ next => ∀ r, Keeps g (next r)

theorem Keeps.bind (h : Keeps g p) (hf : ∀ a, Keeps g (f a)) : Keeps g (p >>= f) := by
  change Keeps g (p.bind f)
  induction p with
  | ret a => exact hf a
  | crash => exact trivial
  | read next ih => exact fun s => ih s (h s)
  | modify u next ih => exact ⟨h.1, ih h.2⟩
  | call c next ih => exact fun r => ih r (h r)

theorem Keeps.get_bind {next : S → Proc S C R F A} (h : ∀ s, Keeps g (next s)) :
    Keeps g (get >>= next) := h

theorem Keeps.perform {c : C} : Keeps g (Procedure.perform c : Proc S C R F (R c)) :=
  fun _ => trivial

theorem Keeps.deref {e : F} {x : Option A} : Keeps g (Procedure.deref e x : Proc S C R F A) := by
  cases x <;> exact trivial

theorem Keeps.ite {c : Prop} [Decidable c] {p q : Proc S C R F A} (hp : Keeps g p)
    (hq : Keeps g q) : Keeps g (if c then p else q) := by
  split <;> assumption

theorem Keeps.exec (h : Keeps g p) {tr : List (Event R)} {o : Except F A} {t : S}
    (hx : Exec p s tr o t) : g t = g s := by
  induction hx with
  | ret | crash => rfl
  | read _ ih => exact ih (h _)
  | modify _ ih => exact (ih h.2).trans (h.1 _)
  | call r _ ih => exact ih (h r)

/-- A procedure that changes nothing leaves the state as it was. -/
theorem Keeps.unchanged (h : Keeps id p) {tr : List (Event R)} {o : Except F A} {t : S}
    (hx : Exec p s tr o t) : t = s := h.exec hx

end Keeps

end Procedure
