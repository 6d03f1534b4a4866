import Mathlib

/-!
A ring of slots that grows when it is full. Elements stand in order from `first`, one
after the other and from the last slot on to slot zero again. What a ring holds is the
list of its elements; each operation is given by what it does to that list.
-/
namespace RingBuffers
variable {α : Type}

structure RingBuffer (α : Type) where
  slots : List α
  first : Nat
  count : Nat
  first_lt : first < slots.length
  count_le : count ≤ slots.length

namespace RingBuffer

def index (r : RingBuffer α) (i : Nat) : Nat := (r.first + i) % r.slots.length

theorem index_lt (r : RingBuffer α) (i : Nat) : r.index i < r.slots.length :=
  Nat.mod_lt _ (Nat.lt_of_le_of_lt (Nat.zero_le _) r.first_lt)

theorem index_inj (r : RingBuffer α) {i j : Nat} (left : i < r.slots.length)
    (right : j < r.slots.length) (same : r.index i = r.index j) : i = j := by
  have back : (r.first + i) % r.slots.length = (r.first + j) % r.slots.length := same
  exact Nat.ModEq.eq_of_lt_of_lt (Nat.ModEq.add_left_cancel' r.first back) left right

variable [Inhabited α]

def item (r : RingBuffer α) (i : Nat) : α := r.slots.getD (r.index i) default

def toList (r : RingBuffer α) : List α := (List.range r.count).map r.item

def pop (r : RingBuffer α) : RingBuffer α :=
  { r with
    first := r.index 1
    count := r.count - 1
    first_lt := r.index_lt 1
    count_le := Nat.le_trans (Nat.sub_le _ _) r.count_le }

def put (r : RingBuffer α) (i : Nat) (a : α) : RingBuffer α :=
  { r with
    slots := r.slots.set (r.index i) a
    first_lt := by simpa using r.first_lt
    count_le := by simpa using r.count_le }

def grow (r : RingBuffer α) : RingBuffer α where
  slots := r.toList ++ List.replicate (2 * r.slots.length - r.count) default
  first := 0
  count := r.count
  first_lt := by
    have room := r.first_lt
    have full := r.count_le
    simp only [toList, List.length_append, List.length_map, List.length_range,
      List.length_replicate]
    omega
  count_le := by simp [toList]

def append (r : RingBuffer α) (a : α) (room : r.count < r.slots.length) : RingBuffer α where
  slots := r.slots.set (r.index r.count) a
  first := r.first
  count := r.count + 1
  first_lt := by simpa using r.first_lt
  count_le := by simpa using Nat.succ_le_of_lt room

theorem grow_room (r : RingBuffer α) : r.grow.count < r.grow.slots.length := by
  have room := r.first_lt
  have full := r.count_le
  simp only [grow, toList, List.length_append, List.length_map, List.length_range,
    List.length_replicate]
  omega

def push (r : RingBuffer α) (a : α) : RingBuffer α :=
  if room : r.count < r.slots.length then r.append a room else r.grow.append a r.grow_room

variable (r : RingBuffer α)

@[simp] theorem length_toList : r.toList.length = r.count := by simp [toList]

theorem toList_empty (empty : r.count = 0) : r.toList = [] := by simp [toList, empty]

theorem item_eq {i : Nat} (inside : i < r.count) : r.toList[i]? = some (r.item i) := by
  simp [toList, inside]

theorem item_put {i j : Nat} (left : i < r.slots.length) (right : j < r.slots.length) (a : α) :
    (r.slots.set (r.index j) a).getD (r.index i) default = if i = j then a else r.item i := by
  by_cases same : i = j
  · subst same
    simp [List.getD, r.index_lt i]
  · have apart : r.index j ≠ r.index i := fun eq => same (r.index_inj right left eq).symm
    simp [List.getD, List.getElem?_set_ne apart, same, item]

theorem toList_pop (some : 0 < r.count) : r.toList = r.item 0 :: r.pop.toList := by
  apply List.ext_getElem?
  intro i
  cases i with
  | zero => simp [item_eq r some]
  | succ i =>
    rw [List.getElem?_cons_succ]
    by_cases inside : i + 1 < r.count
    · have shift : r.pop.item i = r.item (i + 1) := by
        simp only [item, index, pop, Nat.mod_add_mod]
        rw [Nat.add_assoc, Nat.add_comm 1 i]
      rw [item_eq r inside, item_eq r.pop (by simp only [pop]; omega), shift]
    · rw [List.getElem?_eq_none (by simp; omega), List.getElem?_eq_none (by simp [pop]; omega)]

theorem toList_grow : r.grow.toList = r.toList := by
  apply List.ext_getElem?
  intro i
  by_cases inside : i < r.count
  · have big : i < r.toList.length + (2 * r.slots.length - r.count) := by
      rw [length_toList]
      omega
    rw [item_eq r.grow inside, item_eq r inside]
    have same : r.grow.item i = r.item i := by
      simp only [item, index, grow, Nat.zero_add, List.length_append, List.length_replicate,
        Nat.mod_eq_of_lt big, List.getD, List.getElem?_append_left (by simpa using inside : i < r.toList.length)]
      rw [item_eq r inside]
      rfl
    rw [same]
  · rw [List.getElem?_eq_none (by simpa [grow] using inside),
      List.getElem?_eq_none (by simpa using inside)]

theorem toList_append (a : α) (room : r.count < r.slots.length) :
    (r.append a room).toList = r.toList ++ [a] := by
  apply List.ext_getElem?
  intro i
  by_cases inside : i < r.count + 1
  · have written : (r.append a room).item i = if i = r.count then a else r.item i := by
      have eq := item_put r (Nat.lt_of_lt_of_le inside room) room a
      simpa [item, index, append] using eq
    rw [item_eq _ inside, written]
    by_cases last : i = r.count
    · subst last
      simp
    · rw [if_neg last, List.getElem?_append_left (by simp; omega), item_eq r (by omega)]
  · rw [List.getElem?_eq_none (by simpa [append] using inside),
      List.getElem?_eq_none (by simpa using inside)]

theorem toList_push (a : α) : (r.push a).toList = r.toList ++ [a] := by
  unfold push
  split
  · exact r.toList_append a _
  · rw [toList_append, toList_grow]

theorem toList_last (some : 0 < r.count) :
    r.toList = r.toList.dropLast ++ [r.item (r.count - 1)] := by
  have there : r.toList ≠ [] := by
    rw [← List.length_pos_iff, length_toList]
    exact some
  have last : r.toList.getLast there = r.item (r.count - 1) := by
    simp [toList, List.getLast_eq_getElem]
  rw [← last, List.dropLast_concat_getLast there]

theorem toList_put_last (some : 0 < r.count) (a : α) :
    (r.put (r.count - 1) a).toList = r.toList.dropLast ++ [a] := by
  have full := r.count_le
  apply List.ext_getElem?
  intro i
  by_cases inside : i < r.count
  · have written : (r.put (r.count - 1) a).item i = if i = r.count - 1 then a else r.item i := by
      have eq := item_put r (i := i) (j := r.count - 1) (by omega) (by omega) a
      simpa [item, index, put] using eq
    rw [item_eq (r.put (r.count - 1) a) inside, written]
    by_cases last : i = r.count - 1
    · simp [last]
    · rw [if_neg last, List.getElem?_append_left (by simp; omega), List.getElem?_dropLast,
        if_pos (by simp; omega), item_eq r inside]
  · rw [List.getElem?_eq_none (by simpa [put] using inside),
      List.getElem?_eq_none (by simp; omega)]

end RingBuffer
end RingBuffers
