import Mathlib

/-!
A binary min-heap in an array whose items know their index, so that any of them can be
taken out. `place` is an item's index plus one and zero off the heap. The items are
compared by a test; where that is the order of their keys, the heap keeps it. The sifts
carry the order with one gap, at the item on its way up or down.
-/
namespace IndexedHeap

open Function (update update_apply)

structure Heap (ι : Type) where
  item : Nat → ι
  size : Nat
  place : ι → Nat

variable {ι K : Type} [LinearOrder K] (key : ι → K)

structure Indexed (h : Heap ι) : Prop where
  place_item : ∀ k < h.size, h.place (h.item k) = k + 1
  item_place : ∀ e, h.place e ≠ 0 → h.place e ≤ h.size ∧ h.item (h.place e - 1) = e

def Ordered (h : Heap ι) : Prop :=
  ∀ k, 0 < k → k < h.size → key (h.item ((k - 1) / 2)) ≤ key (h.item k)

structure OrderedBelow (h : Heap ι) (i : Nat) : Prop where
  order : ∀ k, 0 < k → k < h.size → k ≠ i → key (h.item ((k - 1) / 2)) ≤ key (h.item k)
  across : ∀ k, 0 < k → k < h.size → 0 < i → (k - 1) / 2 = i →
    key (h.item ((i - 1) / 2)) ≤ key (h.item k)

structure OrderedAbove (h : Heap ι) (i : Nat) : Prop where
  order : ∀ k, 0 < k → k < h.size → (k - 1) / 2 ≠ i →
    key (h.item ((k - 1) / 2)) ≤ key (h.item k)
  across : ∀ k, 0 < k → k < h.size → 0 < i → (k - 1) / 2 = i →
    key (h.item ((i - 1) / 2)) ≤ key (h.item k)

theorem item_injective {h : Heap ι} (indexed : Indexed h) {j k : Nat} (hj : j < h.size)
    (hk : k < h.size) (same : h.item j = h.item k) : j = k := by
  have first := indexed.place_item j hj
  have second := indexed.place_item k hk
  rw [same, second] at first
  omega

theorem mem_iff {h : Heap ι} (indexed : Indexed h) (e : ι) :
    h.place e ≠ 0 ↔ ∃ k < h.size, h.item k = e := by
  constructor
  · intro held
    obtain ⟨most, same⟩ := indexed.item_place e held
    exact ⟨h.place e - 1, by omega, same⟩
  · rintro ⟨k, hk, rfl⟩
    rw [indexed.place_item k hk]
    exact Nat.succ_ne_zero k

variable {key} in
theorem top_le {h : Heap ι} (ordered : Ordered key h) (k : Nat) (hk : k < h.size) :
    key (h.item 0) ≤ key (h.item k) := by
  induction k using Nat.strongRecOn with
  | ind k ih =>
    rcases Nat.eq_zero_or_pos k with rfl | positive
    · exact le_refl _
    · exact le_trans (ih ((k - 1) / 2) (by omega) (by omega)) (ordered k positive hk)

variable (before : ι → ι → Bool)

def smallest (h : Heap ι) (i : Nat) : Nat :=
  let left := 2 * i + 1
  let right := 2 * i + 2
  let best := if left < h.size ∧ before (h.item left) (h.item i) then left else i
  if right < h.size ∧ before (h.item right) (h.item best) then right else best

def ByKey : Prop := ∀ a b, before a b = true ↔ key a < key b

variable {key before} in
theorem smallest_cases (byKey : ByKey key before) (h : Heap ι) (i : Nat) :
    (smallest before h i = i ∧
        ∀ k, 0 < k → k < h.size → (k - 1) / 2 = i → key (h.item i) ≤ key (h.item k)) ∨
      ((smallest before h i - 1) / 2 = i ∧ i < smallest before h i ∧ smallest before h i < h.size ∧
        key (h.item (smallest before h i)) < key (h.item i) ∧
        ∀ k, 0 < k → k < h.size → (k - 1) / 2 = i →
          key (h.item (smallest before h i)) ≤ key (h.item k)) := by
  have children : ∀ k, 0 < k → (k - 1) / 2 = i → k = 2 * i + 1 ∨ k = 2 * i + 2 := by omega
  unfold ByKey at byKey
  unfold smallest
  simp only [byKey]
  split_ifs with left right right
  · right
    refine ⟨by omega, by omega, right.1, lt_trans right.2 left.2, fun k hk size child => ?_⟩
    rcases children k hk child with rfl | rfl
    · exact le_of_lt right.2
    · exact le_refl _
  · right
    refine ⟨by omega, by omega, left.1, left.2, fun k hk size child => ?_⟩
    rcases children k hk child with rfl | rfl
    · exact le_refl _
    · exact le_of_not_gt fun less => right ⟨size, less⟩
  · right
    refine ⟨by omega, by omega, right.1, right.2, fun k hk size child => ?_⟩
    rcases children k hk child with rfl | rfl
    · exact le_of_lt (lt_of_lt_of_le right.2 (le_of_not_gt fun less => left ⟨size, less⟩))
    · exact le_refl _
  · left
    refine ⟨rfl, fun k hk size child => ?_⟩
    rcases children k hk child with rfl | rfl
    · exact le_of_not_gt fun less => left ⟨size, less⟩
    · exact le_of_not_gt fun less => right ⟨size, less⟩

variable [DecidableEq ι]

def swap (h : Heap ι) (i j : Nat) : Heap ι where
  item := Function.update (Function.update h.item i (h.item j)) j (h.item i)
  size := h.size
  place := Function.update (Function.update h.place (h.item j) (i + 1)) (h.item i) (j + 1)

def up : Nat → Nat → Heap ι → Heap ι
  | 0, _, h => h
  | fuel + 1, i, h =>
    if i = 0 then h
    else if before (h.item i) (h.item ((i - 1) / 2)) then
      up fuel ((i - 1) / 2) (swap h i ((i - 1) / 2))
    else h

def down : Nat → Nat → Heap ι → Heap ι
  | 0, _, h => h
  | fuel + 1, i, h =>
    if smallest before h i = i then h
    else down fuel (smallest before h i) (swap h i (smallest before h i))

def push (h : Heap ι) (e : ι) : Heap ι :=
  up before h.size h.size
    { item := Function.update h.item h.size e
      size := h.size + 1
      place := Function.update h.place e (h.size + 1) }

def fill (h : Heap ι) (i : Nat) : Heap ι where
  item := Function.update h.item i (h.item (h.size - 1))
  size := h.size - 1
  place := Function.update (Function.update h.place (h.item (h.size - 1)) (i + 1)) (h.item i) 0

def drop (h : Heap ι) : Heap ι :=
  { h with size := h.size - 1, place := Function.update h.place (h.item (h.size - 1)) 0 }

def pop (h : Heap ι) : Heap ι :=
  if h.size - 1 = 0 then drop h else down before h.size 0 (fill h 0)

def remove (h : Heap ι) (e : ι) : Option (Heap ι) :=
  let i := h.place e - 1
  if h.place e = 0 ∨ h.size ≤ i ∨ h.item i ≠ e then none
  else if i = h.size - 1 then some (drop h)
  else
    let filled := fill h i
    if 0 < i ∧ before (filled.item i) (filled.item ((i - 1) / 2)) then
      some (up before i i filled)
    else some (down before h.size i filled)

variable {key} {before} {h : Heap ι} {i : Nat}

theorem item_swap (i j k : Nat) :
    (swap h i j).item k = if k = j then h.item i else if k = i then h.item j else h.item k := by
  simp only [swap, update_apply]

theorem place_swap (i j : Nat) (e : ι) : (swap h i j).place e =
      if e = h.item i then j + 1 else if e = h.item j then i + 1 else h.place e := by
  simp only [swap, update_apply]

theorem indexed_swap (indexed : Indexed h) {i j : Nat} (hi : i < h.size) (hj : j < h.size) :
    Indexed (swap h i j) := by
  constructor
  · intro k hk
    have distinct := item_injective indexed (j := k) (k := i) hk hi
    have distinct' := item_injective indexed (j := k) (k := j) hk hj
    have same := indexed.place_item k hk
    rw [place_swap, item_swap]
    split_ifs <;> grind -ring -linarith
  · intro e held
    have placed := indexed.item_place e
    have first := indexed.place_item i hi
    have second := indexed.place_item j hj
    rw [place_swap] at held ⊢
    rw [item_swap]
    have size : (swap h i j).size = h.size := rfl
    rw [size]
    split_ifs <;> grind -ring -linarith

theorem place_swap_zero (indexed : Indexed h) {i j : Nat} (hi : i < h.size) (hj : j < h.size)
    (e : ι) : (swap h i j).place e = 0 ↔ h.place e = 0 := by
  have first := indexed.place_item i hi
  have second := indexed.place_item j hj
  rw [place_swap]
  split_ifs <;> grind -ring -linarith

theorem swap_below (held : OrderedBelow key h i) (hi : i < h.size) (positive : 0 < i)
    (less : key (h.item i) < key (h.item ((i - 1) / 2))) :
    OrderedBelow key (swap h i ((i - 1) / 2)) ((i - 1) / 2) := by
  constructor
  · intro k hk size other
    have order := held.order k hk size
    have across := held.across k hk size positive
    rw [item_swap, item_swap]
    split_ifs <;> grind -ring -linarith
  · intro k hk size above child
    have order := held.order k hk size
    have parent := held.order ((i - 1) / 2) above (by omega) (by omega)
    rw [item_swap, item_swap]
    split_ifs <;> grind -ring -linarith

theorem swap_above (held : OrderedAbove key h i) {j : Nat} (hj : j < h.size)
    (child : (j - 1) / 2 = i) (positive : 0 < j) (less : key (h.item j) < key (h.item i))
    (least : ∀ k, 0 < k → k < h.size → (k - 1) / 2 = i → key (h.item j) ≤ key (h.item k)) :
    OrderedAbove key (swap h i j) j := by
  constructor
  · intro k hk size other
    have order := held.order k hk size
    have across := held.across k hk size
    have best := least k hk size
    have beyond := held.across j positive hj
    rw [item_swap, item_swap]
    split_ifs <;> grind -ring -linarith
  · intro k hk size above grandchild
    have order := held.order k hk size
    rw [item_swap, item_swap]
    split_ifs <;> grind -ring -linarith

structure Sifted (key : ι → K) (h after : Heap ι) : Prop where
  indexed : Indexed after
  ordered : Ordered key after
  size : after.size = h.size
  same : ∀ e, after.place e = 0 ↔ h.place e = 0

theorem Sifted.after_swap {j : Nat} {after : Heap ι} (sifted : Sifted key (swap h i j) after)
    (indexed : Indexed h) (hi : i < h.size) (hj : j < h.size) : Sifted key h after where
  indexed := sifted.indexed
  ordered := sifted.ordered
  size := sifted.size
  same e := (sifted.same e).trans (place_swap_zero indexed hi hj e)

theorem up_sifted (byKey : ByKey key before) (fuel : Nat) (enough : i ≤ fuel)
    (indexed : Indexed h) (hi : i < h.size) (held : OrderedBelow key h i) :
    Sifted key h (up before fuel i h) := by
  induction fuel generalizing i h with
  | zero =>
    refine ⟨indexed, fun k hk size => held.order k hk size ?_, rfl, fun _ => Iff.rfl⟩
    omega
  | succ fuel ih =>
    unfold up
    by_cases root : i = 0
    · rw [if_pos root]
      exact ⟨indexed, fun k hk size => held.order k hk size (by omega), rfl, fun _ => Iff.rfl⟩
    rw [if_neg root]
    by_cases less : before (h.item i) (h.item ((i - 1) / 2)) = true
    · rw [if_pos less]
      have parent : (i - 1) / 2 < h.size := by omega
      have sifted := ih (by omega) (indexed_swap indexed hi parent) parent
        (swap_below held hi (by omega) ((byKey _ _).mp less))
      exact sifted.after_swap indexed hi parent
    · rw [if_neg less]
      refine ⟨indexed, fun k hk size => ?_, rfl, fun _ => Iff.rfl⟩
      by_cases here : k = i
      · rw [here]
        exact le_of_not_gt fun lower => less ((byKey _ _).mpr lower)
      · exact held.order k hk size here

theorem down_sifted (byKey : ByKey key before) (fuel : Nat) (enough : h.size ≤ i + fuel)
    (indexed : Indexed h) (hi : i < h.size) (held : OrderedAbove key h i) :
    Sifted key h (down before fuel i h) := by
  induction fuel generalizing i h with
  | zero => omega
  | succ fuel ih =>
    unfold down
    rcases smallest_cases byKey h i with ⟨stays, least⟩ | ⟨child, later, inside, less, least⟩
    · rw [if_pos stays]
      refine ⟨indexed, fun k hk size => ?_, rfl, fun _ => Iff.rfl⟩
      by_cases under : (k - 1) / 2 = i
      · rw [under]
        exact least k hk size under
      · exact held.order k hk size under
    · rw [if_neg (by omega)]
      have enough' : (swap h i (smallest before h i)).size ≤ smallest before h i + fuel := by
        change h.size ≤ _
        omega
      have sifted := ih enough' (indexed_swap indexed hi inside) inside
        (swap_above held inside child (by omega) less least)
      exact sifted.after_swap indexed hi inside

structure Sound (key : ι → K) (h : Heap ι) : Prop where
  indexed : Indexed h
  ordered : Ordered key h

omit [DecidableEq ι] in
theorem Sound.congr {key' : ι → K} (sound : Sound key h)
    (same : ∀ e, h.place e ≠ 0 → key' e = key e) : Sound key' h := by
  refine ⟨sound.indexed, fun k hk size => ?_⟩
  have here := (mem_iff sound.indexed (h.item k)).mpr ⟨k, size, rfl⟩
  have parent := (mem_iff sound.indexed (h.item ((k - 1) / 2))).mpr ⟨(k - 1) / 2, by omega, rfl⟩
  rw [same _ here, same _ parent]
  exact sound.ordered k hk size

theorem push_sound (byKey : ByKey key before) (sound : Sound key h) (e : ι)
    (off : h.place e = 0) : Sound key (push before h e) ∧
      ∀ x, (push before h e).place x = 0 ↔ x ≠ e ∧ h.place x = 0 := by
  obtain ⟨indexed, ordered⟩ := sound
  let grown : Heap ι := ⟨update h.item h.size e, h.size + 1,
    update h.place e (h.size + 1)⟩
  have indexed' : Indexed grown := by
    constructor
    · intro k hk
      have old := indexed.place_item k
      simp only [grown, update_apply] at hk ⊢
      split_ifs <;> grind -ring -linarith
    · intro x held
      have old := indexed.item_place x
      simp only [grown, update_apply] at held ⊢
      split_ifs at held ⊢ <;> grind -ring -linarith
  have below : OrderedBelow key grown h.size := by
    constructor
    · intro k hk size other
      have old := ordered k hk
      simp only [grown, update_apply] at size ⊢
      rw [if_neg other, if_neg (by omega)]
      exact old (by omega)
    · intro k hk size positive child
      simp only [grown] at size
      omega
  have sifted := up_sifted byKey h.size le_rfl indexed' (Nat.lt_succ_self _) below
  refine ⟨⟨sifted.indexed, sifted.ordered⟩, fun x => (sifted.same x).trans ?_⟩
  simp only [grown, update_apply]
  split_ifs <;> grind -ring -linarith

theorem drop_sound (sound : Sound key h) (some_left : 0 < h.size) : Sound key (drop h) ∧
      ∀ x, (drop h).place x = 0 ↔ x = h.item (h.size - 1) ∨ h.place x = 0 := by
  obtain ⟨indexed, ordered⟩ := sound
  have last := indexed.place_item (h.size - 1) (by omega)
  refine ⟨⟨⟨fun k hk => ?_, fun x held => ?_⟩, fun k hk size => ?_⟩, fun x => ?_⟩
  · have old := indexed.place_item k
    simp only [drop, update_apply] at hk ⊢
    split_ifs <;> grind -ring -linarith
  · have old := indexed.item_place x
    simp only [drop, update_apply] at held ⊢
    split_ifs at held ⊢ <;> grind -ring -linarith
  · simp only [drop] at size
    exact ordered k hk (by omega)
  · simp only [drop, update_apply]
    split_ifs <;> grind -ring -linarith

theorem fill_indexed (indexed : Indexed h) (hi : i < h.size - 1) :
    Indexed (fill h i) ∧ ∀ x, (fill h i).place x = 0 ↔ x = h.item i ∨ h.place x = 0 := by
  have last := indexed.place_item (h.size - 1) (by omega)
  have here := indexed.place_item i (by omega)
  refine ⟨⟨fun k hk => ?_, fun x held => ?_⟩, fun x => ?_⟩
  · have old := indexed.place_item k
    simp only [fill, update_apply] at hk ⊢
    split_ifs <;> grind -ring -linarith
  · have old := indexed.item_place x
    simp only [fill, update_apply] at held ⊢
    split_ifs at held ⊢ <;> grind -ring -linarith
  · simp only [fill, update_apply]
    split_ifs <;> grind -ring -linarith

theorem item_fill (k : Nat) :
    (fill h i).item k = if k = i then h.item (h.size - 1) else h.item k := by
  simp only [fill, update_apply]

theorem fill_across (ordered : Ordered key h) (hi : i < h.size - 1) (k : Nat) (hk : 0 < k)
    (size : k < h.size - 1) (positive : 0 < i) (child : (k - 1) / 2 = i) :
    key ((fill h i).item ((i - 1) / 2)) ≤ key ((fill h i).item k) := by
  have first := ordered i positive (by omega)
  have second := ordered k hk (by omega)
  rw [item_fill, item_fill, if_neg (by omega), if_neg (by omega)]
  rw [child] at second
  exact le_trans first second

theorem fill_above (ordered : Ordered key h) (hi : i < h.size - 1)
    (fits : 0 < i → key ((fill h i).item ((i - 1) / 2)) ≤ key ((fill h i).item i)) :
    OrderedAbove key (fill h i) i := by
  constructor
  · intro k hk size other
    change k < h.size - 1 at size
    by_cases here : k = i
    · rw [here]
      exact fits (by omega)
    · rw [item_fill, item_fill, if_neg other, if_neg here]
      exact ordered k hk (by omega)
  · exact fun k hk size => fill_across ordered hi k hk size

theorem fill_below (ordered : Ordered key h) (hi : i < h.size - 1) (positive : 0 < i)
    (less : key ((fill h i).item i) < key ((fill h i).item ((i - 1) / 2))) :
    OrderedBelow key (fill h i) i := by
  constructor
  · intro k hk size other
    change k < h.size - 1 at size
    by_cases child : (k - 1) / 2 = i
    · rw [child]
      exact le_trans (le_of_lt less) (fill_across ordered hi k hk size positive child)
    · rw [item_fill, item_fill, if_neg child, if_neg other]
      exact ordered k hk (by omega)
  · exact fun k hk size => fill_across ordered hi k hk size

theorem down_size (fuel i : Nat) (h : Heap ι) : (down before fuel i h).size = h.size := by
  induction fuel generalizing i h with
  | zero => rfl
  | succ fuel ih =>
    unfold down
    split_ifs
    · rfl
    · exact ih _ _

theorem pop_size (h : Heap ι) : (pop before h).size = h.size - 1 := by
  unfold pop
  split_ifs
  · rfl
  · exact down_size _ _ _

theorem pop_sound (byKey : ByKey key before) (sound : Sound key h) (some_left : 0 < h.size) :
    Sound key (pop before h) ∧
      ∀ x, (pop before h).place x = 0 ↔ x = h.item 0 ∨ h.place x = 0 := by
  unfold pop
  by_cases single : h.size - 1 = 0
  · rw [if_pos single]
    have dropped := drop_sound sound some_left
    rwa [single] at dropped
  · rw [if_neg single]
    obtain ⟨indexed, same⟩ := fill_indexed sound.indexed (i := 0) (by omega)
    have above := fill_above sound.ordered (i := 0) (by omega) nofun
    have sifted := down_sifted byKey h.size (by change h.size - 1 ≤ _; omega) indexed
      (by change 0 < h.size - 1; omega) above
    exact ⟨⟨sifted.indexed, sifted.ordered⟩, fun x => (sifted.same x).trans (same x)⟩

theorem remove_sound (byKey : ByKey key before) (sound : Sound key h) (e : ι)
    (on : h.place e ≠ 0) : ∃ after, remove before h e = some after ∧ Sound key after ∧
      ∀ x, after.place x = 0 ↔ x = e ∨ h.place x = 0 := by
  obtain ⟨most, here⟩ := sound.indexed.item_place e on
  have found : ¬ (h.place e = 0 ∨ h.size ≤ h.place e - 1 ∨ h.item (h.place e - 1) ≠ e) := by
    rintro (zero | past | other)
    · exact on zero
    · omega
    · exact other here
  unfold remove
  dsimp only
  rw [if_neg found]
  generalize index : h.place e - 1 = i at here
  by_cases last : i = h.size - 1
  · rw [if_pos last]
    have dropped := drop_sound sound (by omega)
    rw [← last, here] at dropped
    exact ⟨drop h, rfl, dropped⟩
  · rw [if_neg last]
    obtain ⟨indexed, same⟩ := fill_indexed sound.indexed (i := i) (by omega)
    rw [here] at same
    have inside : i < (fill h i).size := by change i < h.size - 1; omega
    by_cases higher : 0 < i ∧ before ((fill h i).item i) ((fill h i).item ((i - 1) / 2)) = true
    · rw [if_pos higher]
      have sifted := up_sifted byKey i le_rfl indexed inside
        (fill_below sound.ordered (by omega) higher.1 ((byKey _ _).mp higher.2))
      exact ⟨_, rfl, ⟨sifted.indexed, sifted.ordered⟩, fun x => (sifted.same x).trans (same x)⟩
    · rw [if_neg higher]
      have above := fill_above sound.ordered (i := i) (by omega)
        fun positive => le_of_not_gt fun less => higher ⟨positive, (byKey _ _).mpr less⟩
      have sifted := down_sifted byKey h.size (by change h.size - 1 ≤ _; omega) indexed inside above
      exact ⟨_, rfl, ⟨sifted.indexed, sifted.ordered⟩, fun x => (sifted.same x).trans (same x)⟩

end IndexedHeap
