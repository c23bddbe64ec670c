import Mathlib.Data.List.Induction

/-!
# Runs of labelled transition relations

A run starts in one state and takes labelled steps, recording the labels it took. The labels
are the history against which temporal properties are stated: an invariant may speak about the
history and the state together. A restricted relation keeps the steps that meet a condition on
the state before them; a property that survives exactly the steps of the restriction is
characterised by that condition.
-/
namespace Transition

variable {S L : Type*}

/-- A run from `s` to `t` and the labels it took, oldest first. -/
inductive Run (step : S → L → S → Prop) (s : S) : List L → S → Prop where
  | refl : Run step s [] s
  | snoc {labels : List L} {t : S} {l : L} {u : S} :
      Run step s labels t → step t l u → Run step s (labels ++ [l]) u

/-- The step relation restricted to the steps whose source state meets `cond`. -/
def Guarded (step : S → L → S → Prop) (cond : S → L → Prop) (s : S) (l : L) (t : S) : Prop :=
  cond s l ∧ step s l t

variable {step other : S → L → S → Prop} {s t u : S} {labels labels' : List L}

theorem Run.single {l : L} (h : step s l t) : Run step s [l] t := Run.refl.snoc h

theorem Run.append (h : Run step s labels t) (g : Run step t labels' u) :
    Run step s (labels ++ labels') u := by
  induction g with
  | refl => simpa using h
  | snoc _ hstep ih => simpa [← List.append_assoc] using ih.snoc hstep

theorem Run.mono (sub : ∀ s l t, step s l t → other s l t) (h : Run step s labels t) :
    Run other s labels t := by
  induction h with
  | refl => exact .refl
  | snoc _ hstep ih => exact ih.snoc (sub _ _ _ hstep)

/-- A run is cut at any of its steps. -/
theorem Run.cut {l : L} {whole : List L} (h : Run step s whole u)
    (hwhole : whole = labels ++ l :: labels') :
    ∃ t t', Run step s labels t ∧ step t l t' ∧ Run step t' labels' u := by
  induction h generalizing labels' with
  | refl => simp at hwhole
  | @snoc front t' last u hrun hstep ih =>
    rcases List.eq_nil_or_concat labels' with rfl | ⟨middle, final, rfl⟩
    · obtain ⟨rfl, hlast⟩ := List.append_inj' hwhole rfl
      obtain rfl := List.singleton_inj.mp hlast
      exact ⟨t', u, hrun, hstep, .refl⟩
    · have hcut : front ++ [last] = (labels ++ l :: middle) ++ [final] := by simpa using hwhole
      obtain ⟨hfront, hlast⟩ := List.append_inj' hcut rfl
      obtain rfl := List.singleton_inj.mp hlast
      obtain ⟨t, t', hbefore, hl, hafter⟩ := ih hfront
      exact ⟨t, t', hbefore, hl, List.concat_eq_append ▸ hafter.snoc hstep⟩

/-- The induction rule: what holds at the start and survives every step holds at the end. -/
theorem Run.invariant {inv : S → Prop} (h : Run step s labels t) (base : inv s)
    (preserved : ∀ t l u, inv t → step t l u → inv u) : inv t := by
  induction h with
  | refl => exact base
  | snoc _ hstep ih => exact preserved _ _ _ ih hstep

/-- The induction rule for invariants that read the history. -/
theorem Run.historyInvariant {inv : List L → S → Prop} (h : Run step s labels t)
    (base : inv [] s)
    (preserved : ∀ labels t l u, inv labels t → step t l u → inv (labels ++ [l]) u) :
    inv labels t := by
  induction h with
  | refl => exact base
  | snoc _ hstep ih => exact preserved _ _ _ _ ih hstep

/-! ## Conditions and properties that read the history -/

/-- A run each of whose steps meets a condition on the history and the state before it. -/
inductive RunWhen (step : S → L → S → Prop) (cond : List L → S → L → Prop) (s : S) :
    List L → S → Prop where
  | refl : RunWhen step cond s [] s
  | snoc {labels : List L} {t : S} {l : L} {u : S} :
      RunWhen step cond s labels t → cond labels t l → step t l u →
      RunWhen step cond s (labels ++ [l]) u

/-- A run along which every state is good, given the history up to it. -/
inductive RunAlong (step : S → L → S → Prop) (good : List L → S → Prop) (s : S) :
    List L → S → Prop where
  | refl : good [] s → RunAlong step good s [] s
  | snoc {labels : List L} {t : S} {l : L} {u : S} :
      RunAlong step good s labels t → step t l u → good (labels ++ [l]) u →
      RunAlong step good s (labels ++ [l]) u

variable {cond : List L → S → L → Prop} {good : List L → S → Prop}

theorem RunWhen.run (h : RunWhen step cond s labels t) : Run step s labels t := by
  induction h with
  | refl => exact .refl
  | snoc _ _ hstep ih => exact ih.snoc hstep

theorem RunAlong.last_good (h : RunAlong step good s labels t) : good labels t := by
  cases h <;> assumption

/-- Let an auxiliary invariant hold in every run, and let each step from a good state lead to a
good state exactly when it meets the condition. Then the runs that stay good are exactly the runs
whose steps all meet the condition. -/
theorem runWhen_iff_runAlong (aux : List L → S → Prop) (base_aux : aux [] s) (base : good [] s)
    (preserved : ∀ labels t l u, aux labels t → good labels t → step t l u →
      aux (labels ++ [l]) u)
    (exact_step : ∀ labels t l u, aux labels t → good labels t → step t l u →
      (good (labels ++ [l]) u ↔ cond labels t l)) :
    RunWhen step cond s labels t ↔ RunAlong step good s labels t := by
  constructor
  · intro h
    have hall : RunAlong step good s labels t ∧ aux labels t := by
      induction h with
      | refl => exact ⟨.refl base, base_aux⟩
      | snoc _ hcond hstep ih =>
        obtain ⟨halong, haux⟩ := ih
        exact ⟨halong.snoc hstep ((exact_step _ _ _ _ haux halong.last_good hstep).mpr hcond),
          preserved _ _ _ _ haux halong.last_good hstep⟩
    exact hall.1
  · intro h
    have hall : RunWhen step cond s labels t ∧ aux labels t := by
      induction h with
      | refl => exact ⟨.refl, base_aux⟩
      | snoc halong hstep hgood ih =>
        obtain ⟨hwhen, haux⟩ := ih
        exact ⟨hwhen.snoc ((exact_step _ _ _ _ haux halong.last_good hstep).mp hgood) hstep,
          preserved _ _ _ _ haux halong.last_good hstep⟩
    exact hall.1

/-- Two conditions that agree wherever an invariant holds select the same runs. -/
theorem runWhen_congr {cond' : List L → S → L → Prop} (aux : List L → S → Prop) (base : aux [] s)
    (preserved : ∀ labels t l u, aux labels t → step t l u → aux (labels ++ [l]) u)
    (same : ∀ labels t l u, aux labels t → step t l u → (cond labels t l ↔ cond' labels t l)) :
    RunWhen step cond s labels t ↔ RunWhen step cond' s labels t := by
  have haux : ∀ {labels t}, Run step s labels t → aux labels t := fun hrun =>
    hrun.historyInvariant base preserved
  constructor
  · intro h
    induction h with
    | refl => exact .refl
    | snoc hrun hcond hstep ih =>
      exact ih.snoc ((same _ _ _ _ (haux hrun.run) hstep).mp hcond) hstep
  · intro h
    induction h with
    | refl => exact .refl
    | snoc hrun hcond hstep ih =>
      exact ih.snoc ((same _ _ _ _ (haux hrun.run) hstep).mpr hcond) hstep

end Transition
