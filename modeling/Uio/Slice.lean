import Mathlib

/-!
Slices over a backing array: the elements in use, and room behind them that an append
fills in place. A copy reads its source before it writes, so it may overlap. What an
append allocates beyond what it needs is the caller's choice `spare`.
-/
namespace Slices

structure Slice (α : Type) where
  array : List α
  len : Nat
  within : len ≤ array.length

namespace Slice
variable {α : Type}

def elems (s : Slice α) : List α := s.array.take s.len

def cap (s : Slice α) : Nat := s.array.length

def empty : Slice α := ⟨[], 0, Nat.le_refl 0⟩

def make [Inhabited α] (cap : Nat) : Slice α := ⟨List.replicate cap default, 0, Nat.zero_le _⟩

def upTo (s : Slice α) (n : Nat) : Slice α := ⟨s.array, min n s.array.length, Nat.min_le_right _ _⟩

def copy (s : Slice α) (source : List α) : Slice α where
  array := source.take s.len ++ s.array.drop (min s.len source.length)
  len := s.len
  within := by
    have within := s.within
    simp only [List.length_append, List.length_take, List.length_drop]
    omega

def append [Inhabited α] (s : Slice α) (more : List α) (spare : Nat) : Slice α :=
  if room : s.len + more.length ≤ s.cap then
    ⟨s.elems ++ more ++ s.array.drop (s.len + more.length), s.len + more.length, by
      simp only [cap] at room
      simp only [elems, List.length_append, List.length_take, List.length_drop]
      omega⟩
  else
    ⟨s.elems ++ more ++ List.replicate spare default, s.len + more.length, by
      have within := s.within
      simp only [elems, List.length_append, List.length_take, List.length_replicate]
      omega⟩

@[simp] theorem length_elems (s : Slice α) : s.elems.length = s.len := by
  simp [elems, s.within]

@[simp] theorem elems_empty : (empty : Slice α).elems = [] := rfl

@[simp] theorem elems_make [Inhabited α] (cap : Nat) : (make cap : Slice α).elems = [] := rfl

theorem elems_upTo (s : Slice α) {n : Nat} (shorter : n ≤ s.len) :
    (s.upTo n).elems = s.elems.take n := by
  have within := s.within
  simp only [elems, upTo, List.take_take]
  congr 1
  omega

theorem len_upTo (s : Slice α) {n : Nat} (room : n ≤ s.cap) : (s.upTo n).len = n := by
  simp only [cap] at room
  simp only [upTo]
  omega

@[simp] theorem len_copy (s : Slice α) (source : List α) : (s.copy source).len = s.len := rfl

theorem elems_copy_take (s : Slice α) {source : List α} (fits : source.length ≤ s.len) :
    (s.copy source).elems.take source.length = source := by
  simp only [elems, copy, List.take_of_length_le fits, List.take_take]
  rw [Nat.min_eq_left fits, List.take_left]

theorem elems_copy (s : Slice α) {source : List α} (same : source.length = s.len) :
    (s.copy source).elems = source := by
  have front := elems_copy_take s (Nat.le_of_eq same)
  rwa [List.take_of_length_le (by simp [same])] at front

@[simp] theorem elems_append [Inhabited α] (s : Slice α) (more : List α) (spare : Nat) :
    (s.append more spare).elems = s.elems ++ more := by
  have length : s.len + more.length = (s.elems ++ more).length := by simp
  unfold append
  split
  · simp only [elems] at length ⊢
    rw [length, List.take_left]
  · simp only [elems] at length ⊢
    rw [length, List.take_left]

@[simp] theorem len_append [Inhabited α] (s : Slice α) (more : List α) (spare : Nat) :
    (s.append more spare).len = s.len + more.length := by
  unfold append
  split <;> rfl

end Slice
end Slices
