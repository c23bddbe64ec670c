import Mathlib.Data.List.Basic

/-!
# Typed stores of heap objects

Objects of one type live in one store and are named by references. Allocation returns the next
unused reference; nothing is ever freed, so a reference that is valid once stays valid.
-/
namespace Memory

/-- A pointer to an object of type `α`. -/
structure Ref (α : Type*) where
  index : Nat
  deriving DecidableEq, Repr

structure Store (α : Type*) where
  cells : List α := []
  deriving DecidableEq, Repr

namespace Store
variable {α : Type*} (s : Store α) (a : α) (r r' : Ref α) (f : α → α)

def get? : Option α := s.cells[r.index]?
def next : Ref α := ⟨s.cells.length⟩
def push : Store α := ⟨s.cells ++ [a]⟩
def modify : Store α := ⟨s.cells.modify r.index f⟩

@[simp] theorem get?_next : s.get? s.next = none := by simp [get?, next]

@[simp] theorem get?_push_next : (s.push a).get? s.next = some a := by
  simp [get?, push, next]

theorem get?_push_of_ne {r : Ref α} (h : r ≠ s.next) : (s.push a).get? r = s.get? r := by
  have hi : r.index ≠ s.cells.length := fun hi => h (by cases r; simpa [next] using hi)
  by_cases hlt : r.index < s.cells.length
  · simp [get?, push, List.getElem?_append_left hlt]
  · have hpushed : (s.cells ++ [a])[r.index]? = none :=
      List.getElem?_eq_none (by simp only [List.length_append, List.length_singleton]; omega)
    exact hpushed.trans (List.getElem?_eq_none (by omega)).symm

theorem ne_next {s : Store α} {a : α} {r : Ref α} (h : s.get? r = some a) : r ≠ s.next := by
  rintro rfl
  simp at h

theorem get?_push {b : α} (h : s.get? r = some b) : (s.push a).get? r = some b :=
  (s.get?_push_of_ne a (ne_next h)).trans h

@[simp] theorem get?_modify_self : (s.modify r f).get? r = (s.get? r).map f := by
  simp [get?, modify]

theorem get?_modify_of_ne {r r' : Ref α} (h : r ≠ r') :
    (s.modify r f).get? r' = s.get? r' := by
  have hi : r.index ≠ r'.index := fun hi => h (by cases r; cases r'; simpa using hi)
  simp [get?, modify, hi]

theorem isSome_get?_modify : ((s.modify r f).get? r').isSome = (s.get? r').isSome := by
  by_cases h : r = r'
  · subst h; simp
  · rw [get?_modify_of_ne s f h]

end Store

end Memory
