import SimpleCloudClient.Library.Transition
import Mathlib.Logic.Function.Basic

/-!
# Simulations and families of machines

A simulation matches every step of one transition relation by a step of another. A machine
answers inputs deterministically, and a family of machines takes one step of one member at a time.
The run of a family, seen from one member, is the replay of that member's own inputs, so that
nothing the other members do can be observed.
-/
namespace Transition

section Simulation
variable {S T L M : Type*}

/-- Steps from a state that is related to `t` are matched by steps from `t`. -/
structure Simulation (source : S → L → S → Prop) (target : T → M → T → Prop) where
  rel : S → T → Prop
  label : L → M
  step : ∀ {s l s' t}, rel s t → source s l s' → ∃ t', target t (label l) t' ∧ rel s' t'

/-- A run is matched step by step. -/
theorem Simulation.run {source : S → L → S → Prop} {target : T → M → T → Prop}
    (sim : Simulation source target) {s s' : S} {t : T} {labels : List L} (hrel : sim.rel s t)
    (h : Run source s labels s') :
    ∃ t', Run target t (labels.map sim.label) t' ∧ sim.rel s' t' := by
  induction h with
  | refl => exact ⟨t, .refl, hrel⟩
  | snoc _ hstep ih =>
    obtain ⟨u, hu, hmid⟩ := ih
    obtain ⟨t', ht', hend⟩ := sim.step hmid hstep
    exact ⟨t', by simpa using hu.snoc ht', hend⟩

end Simulation

section Machine
variable {S I O K : Type*}

/-- A deterministic response to each input; `none` where the input is not accepted. -/
abbrev Machine (S I O : Type*) := S → I → Option (S × O)

/-- The final state and the outputs of a sequence of inputs. -/
def Machine.replay (m : Machine S I O) (s : S) (inputs : List I) : Option (S × List O) :=
  inputs.foldlM (fun p i => (m p.1 i).map fun q => (q.1, p.2 ++ [q.2])) (s, [])

@[simp] theorem Machine.replay_nil (m : Machine S I O) (s : S) : m.replay s [] = some (s, []) := rfl

theorem Machine.replay_concat (m : Machine S I O) {s t u : S} {inputs : List I} {outputs : List O}
    {i : I} {o : O} (h : m.replay s inputs = some (t, outputs)) (hi : m t i = some (u, o)) :
    m.replay s (inputs ++ [i]) = some (u, outputs ++ [o]) := by
  unfold replay at h ⊢
  simp [List.foldlM_append, h, hi]

theorem Machine.replay_concat_eq_some {m : Machine S I O} {s u : S} {inputs : List I} {i : I}
    {outputs : List O} (h : m.replay s (inputs ++ [i]) = some (u, outputs)) :
    ∃ t front o, m.replay s inputs = some (t, front) ∧ m t i = some (u, o) := by
  unfold replay at h
  simp only [List.foldlM_append, Option.bind_eq_bind, Option.bind_eq_some_iff] at h
  obtain ⟨⟨t, front⟩, hfront, hlast⟩ := h
  simp only [List.foldlM_cons, List.foldlM_nil, Option.bind_eq_bind, Option.bind_eq_some_iff,
    Option.map_eq_some_iff] at hlast
  obtain ⟨p, ⟨q, hq, rfl⟩, hp⟩ := hlast
  cases hp
  exact ⟨t, front, q.2, hfront, hq⟩

/-- What each response preserves holds after a replay, with the inputs as history. -/
theorem Machine.replay_invariant {m : Machine S I O} (inv : List I → S → Prop) {s t : S}
    {inputs : List I} {outputs : List O} (h : m.replay s inputs = some (t, outputs))
    (base : inv [] s) (preserved : ∀ inputs t i u o, inv inputs t → m t i = some (u, o) →
      inv (inputs ++ [i]) u) : inv inputs t := by
  induction inputs using List.reverseRecOn generalizing t outputs with
  | nil =>
    cases h
    exact base
  | append_singleton inputs i ih =>
    obtain ⟨u, front, o, hfront, hi⟩ := Machine.replay_concat_eq_some h
    exact preserved _ _ _ _ _ (ih hfront) hi

/-- An input of one member of a family, and its output. -/
structure FamilyLabel (K I O : Type*) where
  member : K
  input : I
  output : O

variable [DecidableEq K]

/-- One member responds and the others stay as they are. -/
def FamilyStep (m : Machine S I O) (f : K → S) (l : FamilyLabel K I O) (f' : K → S) : Prop :=
  ∃ s, m (f l.member) l.input = some (s, l.output) ∧ f' = Function.update f l.member s

/-- The labels of one member. -/
def labelsOf (k : K) (labels : List (FamilyLabel K I O)) : List (FamilyLabel K I O) :=
  labels.filter (·.member = k)

theorem labelsOf_concat (k : K) (labels : List (FamilyLabel K I O)) (l : FamilyLabel K I O) :
    labelsOf k (labels ++ [l]) = labelsOf k labels ++ if l.member = k then [l] else [] := by
  by_cases h : l.member = k <;> simp [labelsOf, List.filter_append, h]

/-- Seen from one member, a run of the family is the replay of its own inputs. -/
theorem replay_of_run {m : Machine S I O} {f f' : K → S} {labels : List (FamilyLabel K I O)}
    (h : Run (FamilyStep m) f labels f') (k : K) :
    m.replay (f k) ((labelsOf k labels).map (·.input)) =
      some (f' k, (labelsOf k labels).map (·.output)) := by
  induction h with
  | refl => rfl
  | @snoc labels g l _ hrun hstep ih =>
    obtain ⟨s, hs, rfl⟩ := hstep
    rw [labelsOf_concat]
    by_cases hk : l.member = k
    · subst hk
      simpa using m.replay_concat ih hs
    · simpa [hk, Function.update_of_ne (Ne.symm hk)] using ih

end Machine

end Transition
