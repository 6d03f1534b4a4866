import Mathlib

/-!
Spans of integer positions that stand in order with a gap between any two. A list of
them stands for the set of its positions; extending the newest span or opening a new one
adds the positions it covers, and counting above a bound looks at the oldest span only.
-/
namespace Spans

structure Span where
  size : Int
  stop : Int
deriving DecidableEq

instance : Inhabited Span := ⟨0, 0⟩

def Span.start (s : Span) : Int := s.stop - s.size

/-- The places after `a` up to `b`. -/
def stretch (a b : Int) : Finset Int :=
  (Finset.range (b - a).toNat).image fun i : Nat => a + 1 + i

@[simp] theorem mem_stretch {a b p : Int} : p ∈ stretch a b ↔ a < p ∧ p ≤ b := by
  simp only [stretch, Finset.mem_image, Finset.mem_range]
  constructor
  · rintro ⟨i, inside, rfl⟩
    omega
  · intro between
    exact ⟨(p - a - 1).toNat, by omega, by omega⟩

theorem card_stretch (a b : Int) : (stretch a b).card = (b - a).toNat := by
  rw [stretch, Finset.card_image_of_injective, Finset.card_range]
  intro i j same
  simpa using same

def positions : List Span → Finset Int
  | [] => ∅
  | s :: rest => stretch s.start s.stop ∪ positions rest

def sizes (spans : List Span) : Int := (spans.map Span.size).sum

structure Apart (spans : List Span) : Prop where
  positive : ∀ s ∈ spans, 0 < s.size
  ordered : spans.Pairwise fun a b => a.stop < b.start

theorem mem_positions {spans : List Span} {p : Int} :
    p ∈ positions spans ↔ ∃ s ∈ spans, s.start < p ∧ p ≤ s.stop := by
  induction spans with
  | nil => simp [positions]
  | cons s rest ih => simp [positions, ih]

theorem Apart.tail {s : Span} {rest : List Span} (apart : Apart (s :: rest)) : Apart rest :=
  ⟨fun a inside => apart.positive a (List.mem_cons_of_mem _ inside),
    (List.pairwise_cons.1 apart.ordered).2⟩

theorem Apart.above {s : Span} {rest : List Span} (apart : Apart (s :: rest)) {p : Int}
    (inside : p ∈ positions rest) : s.stop < p := by
  obtain ⟨a, member, low, -⟩ := mem_positions.1 inside
  have gap := (List.pairwise_cons.1 apart.ordered).1 a member
  omega

theorem card_positions {spans : List Span} (apart : Apart spans) :
    ((positions spans).card : Int) = sizes spans := by
  induction spans with
  | nil => rfl
  | cons s rest ih =>
    have disjoint : Disjoint (stretch s.start s.stop) (positions rest) := by
      rw [Finset.disjoint_left]
      intro p low high
      have beyond := apart.above high
      simp only [mem_stretch] at low
      omega
    have size := apart.positive s List.mem_cons_self
    rw [positions, Finset.card_union_of_disjoint disjoint, card_stretch, Nat.cast_add,
      ih apart.tail, sizes, sizes, List.map_cons, List.sum_cons, Span.start]
    omega

theorem card_above {s : Span} {rest : List Span} (apart : Apart (s :: rest)) {bound : Int}
    (reaches : bound < s.stop) : (((positions (s :: rest)).filter (bound < ·)).card : Int) =
      sizes (s :: rest) - (if s.stop - bound < s.size then s.size - (s.stop - bound) else 0) := by
  have split : (positions (s :: rest)).filter (bound < ·) =
      stretch (max s.start bound) s.stop ∪ positions rest := by
    ext p
    have beyond : p ∈ positions rest → s.stop < p := apart.above
    simp only [positions, Finset.mem_filter, Finset.mem_union, mem_stretch, sup_lt_iff]
    constructor
    · rintro ⟨⟨low, high⟩ | inside, up⟩
      · exact .inl ⟨⟨low, up⟩, high⟩
      · exact .inr inside
    · rintro (⟨⟨low, up⟩, high⟩ | inside)
      · exact ⟨.inl ⟨low, high⟩, up⟩
      · have := beyond inside
        exact ⟨.inr inside, by omega⟩
  have disjoint : Disjoint (stretch (max s.start bound) s.stop) (positions rest) := by
    rw [Finset.disjoint_left]
    intro p low high
    have beyond := apart.above high
    simp only [mem_stretch] at low
    omega
  have size := apart.positive s List.mem_cons_self
  rw [split, Finset.card_union_of_disjoint disjoint, card_stretch, Nat.cast_add,
    card_positions apart.tail, sizes, sizes, List.map_cons, List.sum_cons, Span.start]
  split <;> omega

theorem positions_append (left right : List Span) :
    positions (left ++ right) = positions left ∪ positions right := by
  ext p
  simp only [mem_positions, List.mem_append, Finset.mem_union, or_and_right, exists_or]

theorem sizes_append (left right : List Span) :
    sizes (left ++ right) = sizes left + sizes right := by
  simp [sizes]

theorem apart_open {spans : List Span} (apart : Apart spans) {s : Span} (positive : 0 < s.size)
    (gap : ∀ a ∈ spans, a.stop < s.start) : Apart (spans ++ [s]) := by
  constructor
  · intro a inside
    rcases List.mem_append.1 inside with old | new
    · exact apart.positive a old
    · rw [List.mem_singleton.1 new]
      exact positive
  · refine List.pairwise_append.2 ⟨apart.ordered, List.pairwise_singleton _ _, ?_⟩
    intro a old b new
    rw [List.mem_singleton.1 new]
    exact gap a old

theorem apart_extend {init : List Span} {last : Span} (apart : Apart (init ++ [last]))
    {stop : Int} (grows : last.stop ≤ stop) :
    Apart (init ++ [⟨last.size + (stop - last.stop), stop⟩]) := by
  have parts := List.pairwise_append.1 apart.ordered
  have size := apart.positive last (List.mem_append_right _ (List.mem_singleton_self _))
  apply apart_open ⟨fun a inside => apart.positive a (List.mem_append_left _ inside), parts.1⟩
  · simp only
    omega
  · intro a inside
    have gap := parts.2.2 a inside last (List.mem_singleton_self _)
    simp only [Span.start] at gap ⊢
    omega

theorem positions_extend {init : List Span} {last : Span} (apart : Apart (init ++ [last]))
    {stop : Int} (grows : last.stop ≤ stop) :
    positions (init ++ [⟨last.size + (stop - last.stop), stop⟩]) =
      positions (init ++ [last]) ∪ stretch last.stop stop := by
  have size := apart.positive last (List.mem_append_right _ (List.mem_singleton_self _))
  rw [positions_append, positions_append, Finset.union_assoc]
  congr 1
  ext p
  simp only [positions, Span.start, Finset.union_empty, Finset.mem_union, mem_stretch]
  omega

theorem stop_mem {spans : List Span} (apart : Apart spans) {s : Span} (inside : s ∈ spans) :
    s.stop ∈ positions spans := by
  have size := apart.positive s inside
  exact mem_positions.2 ⟨s, inside, by rw [Span.start]; omega, Int.le_refl _⟩

theorem le_last {init : List Span} {last : Span} (apart : Apart (init ++ [last])) {p : Int}
    (inside : p ∈ positions (init ++ [last])) : p ≤ last.stop := by
  obtain ⟨s, member, -, high⟩ := mem_positions.1 inside
  rcases List.mem_append.1 member with old | new
  · have gap := (List.pairwise_append.1 apart.ordered).2.2 s old last (List.mem_singleton_self _)
    have size := apart.positive last (List.mem_append_right _ (List.mem_singleton_self _))
    rw [Span.start] at gap
    omega
  · rw [List.mem_singleton.1 new] at high
    exact high

end Spans
