import Mathlib.Data.List.Basic
import Mathlib.Data.List.Nodup

/-!
# Association lists with unique keys

`List.lookup` finds the first entry of a key. When the keys are distinct it is the only one, and
appending an entry under a new key changes the answer at that key alone.
-/
namespace AssocList

variable {K V : Type*} {l : List (K × V)} {k k' : K} {v : V}

def keys (l : List (K × V)) : List K := l.map (·.1)

@[simp] theorem keys_concat : keys (l ++ [(k, v)]) = keys l ++ [k] := by simp [keys]

theorem nodup_keys_concat (hl : (keys l).Nodup) (h : k ∉ keys l) :
    (keys (l ++ [(k, v)])).Nodup := by
  rw [keys_concat]
  exact List.nodup_append.mpr ⟨hl, by simp, by grind⟩

variable [DecidableEq K]

theorem lookup_eq_none : l.lookup k = none ↔ k ∉ keys l := by
  simp only [List.lookup_eq_none_iff, keys, List.mem_map, bne_iff_ne]
  grind

theorem isSome_lookup : (l.lookup k).isSome ↔ k ∈ keys l := by
  rw [← Option.ne_none_iff_isSome, ne_eq, lookup_eq_none, not_not]

theorem lookup_concat (h : k ∉ keys l) :
    (l ++ [(k, v)]).lookup k' = if k' = k then some v else l.lookup k' := by
  rw [List.lookup_append]
  by_cases hk : k' = k
  · subst hk
    simp [lookup_eq_none.mpr h]
  · simp [List.lookup_cons, beq_false_of_ne hk, hk]

end AssocList
