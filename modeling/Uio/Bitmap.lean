import Mathlib

/-!
A bitmap in words of 64 bits, and the cyclic search for its first set bit from a start
that may lie inside a word: the start word's upper part, the other words, and last the
start word's lower part.
-/
namespace Bitmap

abbrev Words := Nat → BitVec 64

def test (m : Words) (s : Nat) : Bool := (m (s / 64)).getLsbD (s % 64)

def set (m : Words) (s : Nat) : Words :=
  Function.update m (s / 64) (m (s / 64) ||| 1#64 <<< (s % 64))

def clear (m : Words) (s : Nat) : Words :=
  Function.update m (s / 64) (m (s / 64) &&& ~~~(1#64 <<< (s % 64)))

def setBits (x : BitVec 64) : List Nat := (List.range 64).filter x.getLsbD

def trailingZeros (x : BitVec 64) : Nat := (setBits x).headD 64

/-- The first word that is not zero from `word` on, short of `stop`, round after the last. -/
def scan (m : Words) (words stop : Nat) : Nat → Nat → Option Nat
  | 0, _ => none
  | fuel + 1, word =>
    if word = stop then none
    else if m word ≠ 0 then some (word * 64 + trailingZeros (m word))
    else scan m words stop fuel ((word + 1) % words)

def first (m : Words) (words start : Nat) : Option Nat :=
  let word := start / 64
  let bit := start % 64
  let upper := m word >>> bit
  if upper ≠ 0 then some (word * 64 + bit + trailingZeros upper)
  else
    match scan m words word words ((word + 1) % words) with
    | some s => some s
    | none =>
      let lower := m word &&& (1#64 <<< bit - 1#64)
      if bit ≠ 0 ∧ lower ≠ 0 then some (word * 64 + trailingZeros lower) else none

variable {m : Words}

theorem getLsbD_one_shift {n : Nat} (hn : n < 64) (i : Nat) :
    (1#64 <<< n).getLsbD i = decide (i = n) := by
  simp only [BitVec.getLsbD_shiftLeft, BitVec.getLsbD_one]
  by_cases h : i = n
  · subst h
    simp [hn]
  · simp only [h, decide_false]
    by_cases below : i < n
    · simp [below]
    · simp [show i - n ≠ 0 by omega]

theorem test_set (s r : Nat) : test (set m s) r = (decide (r = s) || test m r) := by
  have inside : s % 64 < 64 := Nat.mod_lt _ (by decide)
  unfold test set
  rw [Function.update_apply]
  by_cases word : r / 64 = s / 64
  · rw [if_pos word, BitVec.getLsbD_or, getLsbD_one_shift inside, word, Bool.or_comm]
    congr 1
    exact decide_eq_decide.mpr ⟨fun same => by omega, fun same => by omega⟩
  · rw [if_neg word, decide_eq_false (by rintro rfl; exact word rfl), Bool.false_or]

theorem test_clear (s r : Nat) : test (clear m s) r = (!decide (r = s) && test m r) := by
  have inside : s % 64 < 64 := Nat.mod_lt _ (by decide)
  unfold test clear
  rw [Function.update_apply]
  by_cases word : r / 64 = s / 64
  · rw [if_pos word, BitVec.getLsbD_and, BitVec.getLsbD_not, getLsbD_one_shift inside, word,
      Bool.and_comm, decide_eq_true (Nat.mod_lt r (by decide)), Bool.true_and]
    congr 2
    exact decide_eq_decide.mpr ⟨fun same => by omega, fun same => by omega⟩
  · rw [if_neg word, decide_eq_false (by rintro rfl; exact word rfl), Bool.not_false, Bool.true_and]

theorem mem_setBits {x : BitVec 64} {b : Nat} : b ∈ setBits x ↔ x.getLsbD b = true := by
  unfold setBits
  rw [List.mem_filter, List.mem_range]
  exact ⟨fun found => found.2, fun found => ⟨BitVec.lt_of_getLsbD found, found⟩⟩

theorem trailingZeros_spec {x : BitVec 64} (some_set : x ≠ 0) :
    x.getLsbD (trailingZeros x) = true ∧ ∀ b, x.getLsbD b = true → trailingZeros x ≤ b := by
  have sorted : (setBits x).Pairwise (· < ·) := List.pairwise_lt_range.filter _
  unfold trailingZeros
  cases bits : setBits x with
  | nil =>
    refine absurd (BitVec.eq_of_getLsbD_eq fun b _ => ?_) some_set
    have none_set : b ∉ setBits x := by simp [bits]
    rw [mem_setBits] at none_set
    simpa using none_set
  | cons b rest =>
    rw [bits, List.pairwise_cons] at sorted
    refine ⟨mem_setBits.mp (by simp [bits]), fun c found => ?_⟩
    have here : c ∈ setBits x := mem_setBits.mpr found
    rw [bits, List.mem_cons] at here
    rcases here with rfl | later
    · exact (Nat.le_refl _)
    · exact Nat.le_of_lt (sorted.1 c later)

theorem getLsbD_lower {n : Nat} (hn : n < 64) (x : BitVec 64) (i : Nat) :
    (x &&& (1#64 <<< n - 1#64)).getLsbD i = (decide (i < n) && x.getLsbD i) := by
  have power : 2 ^ n < 2 ^ 64 := Nat.pow_lt_pow_right (by decide) hn
  have positive : 0 < 2 ^ n := Nat.two_pow_pos n
  have shifted : (1#64 <<< n).toNat = 2 ^ n := by
    rw [BitVec.toNat_shiftLeft, BitVec.toNat_ofNat, Nat.shiftLeft_eq,
      Nat.mod_eq_of_lt (show 1 < 2 ^ 64 by decide), Nat.one_mul, Nat.mod_eq_of_lt power]
  have mask : (1#64 <<< n - 1#64).toNat = 2 ^ n - 1 := by
    rw [BitVec.toNat_sub, shifted, BitVec.toNat_ofNat]
    omega
  rw [BitVec.getLsbD_and, BitVec.getLsbD, BitVec.getLsbD, mask, Nat.testBit_two_pow_sub_one,
    Bool.and_comm]

/-- How far behind `start` a bit comes in the cyclic order of all the words. -/
def rank (words start r : Nat) : Nat :=
  if start ≤ r then r - start else r + words * 64 - start

theorem mod_add {words a j : Nat} (ha : a < words) (hj : j < words) :
    (a + j) % words = if a + j < words then a + j else a + j - words := by
  split_ifs with inside
  · exact Nat.mod_eq_of_lt inside
  · rw [Nat.mod_eq_sub_mod (by omega), Nat.mod_eq_of_lt (by omega)]

theorem rank_word {words start j r : Nat} (hstart : start / 64 < words) (positive : 0 < j)
    (hj : j < words) (word : r / 64 = (start / 64 + j) % words) :
    rank words start r = j * 64 + r % 64 - start % 64 := by
  rw [mod_add hstart hj] at word
  unfold rank
  split_ifs at word ⊢ <;> omega

theorem word_offset {words stop u : Nat} (hstop : stop < words) (hu : u < words)
    (other : u ≠ stop) : ∃ j, 0 < j ∧ j < words ∧ u = (stop + j) % words := by
  by_cases after : stop < u
  · exact ⟨u - stop, by omega, by omega, by rw [mod_add hstop (by omega), if_pos (by omega)]; omega⟩
  · exact ⟨u + words - stop, by omega, by omega, by
      rw [mod_add hstop (by omega), if_neg (by omega)]; omega⟩

theorem test_eq (u c : Nat) (hc : c < 64) : test m (u * 64 + c) = (m u).getLsbD c := by
  unfold test
  rw [show (u * 64 + c) / 64 = u by omega, show (u * 64 + c) % 64 = c by omega]

theorem scan_spec {words stop : Nat} (hstop : stop < words) (fuel j : Nat)
    (enough : words < fuel + j) (positive : 0 < j) (hj : j ≤ words) :
    match scan m words stop fuel ((stop + j) % words) with
    | none => ∀ i, j ≤ i → i < words → m ((stop + i) % words) = 0
    | some s => ∃ i, j ≤ i ∧ i < words ∧ s / 64 = (stop + i) % words ∧ test m s = true ∧
        (∀ b, (m (s / 64)).getLsbD b = true → s % 64 ≤ b) ∧
        ∀ k, j ≤ k → k < i → m ((stop + k) % words) = 0 := by
  induction fuel generalizing j with
  | zero => omega
  | succ fuel ih =>
    unfold scan
    rcases Nat.lt_or_eq_of_le hj with inside | round
    · have other : (stop + j) % words ≠ stop := by
        rw [mod_add hstop inside]
        split_ifs <;> omega
      rw [if_neg other]
      by_cases zero : m ((stop + j) % words) = 0
      · rw [if_neg (not_not_intro zero)]
        have next : ((stop + j) % words + 1) % words = (stop + (j + 1)) % words := by
          rw [Nat.mod_add_mod, Nat.add_assoc]
        have later := ih (j + 1) (by omega) (by omega) inside
        rw [next]
        split <;> rename_i found <;> rw [found] at later
        · intro i hi size
          rcases Nat.lt_or_eq_of_le hi with past | rfl
          · exact later i past size
          · exact zero
        · obtain ⟨i, hi, size, word, set, least, before⟩ := later
          refine ⟨i, by omega, size, word, set, least, fun k hk size => ?_⟩
          rcases Nat.lt_or_eq_of_le hk with past | rfl
          · exact before k past size
          · exact zero
      · rw [if_pos zero]
        obtain ⟨set, least⟩ := trailingZeros_spec zero
        have low := BitVec.lt_of_getLsbD set
        rw [← test_eq _ _ low] at set
        refine ⟨j, (Nat.le_refl _), inside, by omega, set, fun b found => ?_, by omega⟩
        have word : ((stop + j) % words * 64 + trailingZeros (m ((stop + j) % words))) / 64 =
            (stop + j) % words := by omega
        rw [word] at found
        have lowest := least b found
        omega
    · have stops : (stop + j) % words = stop := by
        rw [round, Nat.add_mod_right, Nat.mod_eq_of_lt hstop]
      rw [if_pos stops]
      omega

theorem rank_lower {words start r : Nat} (hstart : start / 64 < words)
    (word : r / 64 = start / 64) (below : r % 64 < start % 64) :
    rank words start r = words * 64 + r % 64 - start % 64 := by
  unfold rank
  rw [if_neg (by omega)]
  omega

theorem rank_upper {words start r : Nat} (word : r / 64 = start / 64)
    (above : start % 64 ≤ r % 64) : rank words start r = r % 64 - start % 64 := by
  unfold rank
  rw [if_pos (by omega)]
  omega

theorem scanned_word {words stop r : Nat} (hstop : stop < words) (hr : r / 64 < words)
    (set : test m r = true) (other : r / 64 ≠ stop) :
    ∃ j, 0 < j ∧ j < words ∧ r / 64 = (stop + j) % words ∧ m ((stop + j) % words) ≠ 0 := by
  obtain ⟨j, positive, hj, word⟩ := word_offset hstop hr other
  refine ⟨j, positive, hj, word, fun zero => ?_⟩
  rw [test, word, zero] at set
  simp at set

theorem below_start {start r : Nat}
    (upper : ∀ c, start % 64 ≤ c → (m (start / 64)).getLsbD c = false)
    (word : r / 64 = start / 64) (set : test m r = true) : r % 64 < start % 64 := by
  apply Nat.lt_of_not_le
  intro above
  have clear := upper (r % 64) above
  rw [test, word, clear] at set
  cases set

section
variable {words start : Nat} (hstart : start / 64 < words)
include hstart

theorem first_upper (upper : m (start / 64) >>> (start % 64) ≠ 0) :
    let s := start / 64 * 64 + start % 64 + trailingZeros (m (start / 64) >>> (start % 64))
    s / 64 < words ∧ test m s = true ∧
      ∀ r, r / 64 < words → test m r = true → rank words start s ≤ rank words start r := by
  obtain ⟨set, least⟩ := trailingZeros_spec upper
  generalize trailingZeros (m (start / 64) >>> (start % 64)) = c at *
  rw [BitVec.getLsbD_ushiftRight] at set
  have low := BitVec.lt_of_getLsbD set
  have found := test_eq (m := m) (start / 64) (start % 64 + c) low
  dsimp only
  rw [Nat.add_assoc]
  refine ⟨by omega, by rw [found, set], fun r hr other => ?_⟩
  rw [rank_upper (by omega) (by omega)]
  by_cases word : r / 64 = start / 64
  · by_cases above : start % 64 ≤ r % 64
    · rw [rank_upper word above]
      have lowest := least (r % 64 - start % 64) (by
        rw [BitVec.getLsbD_ushiftRight, Nat.add_sub_cancel' above, ← word]
        exact other)
      omega
    · rw [rank_lower hstart word (by omega)]
      omega
  · obtain ⟨j, positive, hj, behind, _⟩ := scanned_word hstart hr other word
    rw [rank_word hstart positive hj behind]
    omega

variable (upper : ∀ c, start % 64 ≤ c → (m (start / 64)).getLsbD c = false)
include upper

theorem first_scanned {s i : Nat} (positive : 0 < i) (hi : i < words)
    (here : s / 64 = (start / 64 + i) % words)
    (least : ∀ b, (m (s / 64)).getLsbD b = true → s % 64 ≤ b)
    (before : ∀ k, 1 ≤ k → k < i → m ((start / 64 + k) % words) = 0) :
    ∀ r, r / 64 < words → test m r = true → rank words start s ≤ rank words start r := by
  intro r hr set
  rw [rank_word hstart positive hi here]
  by_cases word : r / 64 = start / 64
  · rw [rank_lower hstart word (below_start upper word set)]
    omega
  · obtain ⟨j, later, hj, behind, nonzero⟩ := scanned_word hstart hr set word
    rw [rank_word hstart later hj behind]
    rcases Nat.lt_trichotomy j i with less | rfl | more
    · exact absurd (before j later less) nonzero
    · have lowest := least (r % 64) (by rw [here, ← behind]; exact set)
      omega
    · omega

theorem first_lower (others : ∀ i, 1 ≤ i → i < words → m ((start / 64 + i) % words) = 0)
    (lower : m (start / 64) &&& (1#64 <<< (start % 64) - 1#64) ≠ 0) :
    let s := start / 64 * 64 +
      trailingZeros (m (start / 64) &&& (1#64 <<< (start % 64) - 1#64))
    s / 64 < words ∧ test m s = true ∧
      ∀ r, r / 64 < words → test m r = true → rank words start s ≤ rank words start r := by
  have low : start % 64 < 64 := Nat.mod_lt _ (by decide)
  obtain ⟨set, least⟩ := trailingZeros_spec lower
  generalize trailingZeros (m (start / 64) &&& (1#64 <<< (start % 64) - 1#64)) = c at *
  rw [getLsbD_lower low, Bool.and_eq_true, decide_eq_true_eq] at set
  have found := test_eq (m := m) (start / 64) c (by omega)
  dsimp only
  refine ⟨by omega, by rw [found, set.2], fun r hr other => ?_⟩
  rw [rank_lower hstart (by omega) (by omega)]
  by_cases word : r / 64 = start / 64
  · have below := below_start upper word other
    rw [rank_lower hstart word below]
    have lowest := least (r % 64) (by
      rw [getLsbD_lower low, ← word, decide_eq_true below, Bool.true_and]
      exact other)
    omega
  · obtain ⟨j, positive, hj, _, nonzero⟩ := scanned_word hstart hr other word
    exact absurd (others j positive hj) nonzero

theorem first_none (others : ∀ i, 1 ≤ i → i < words → m ((start / 64 + i) % words) = 0)
    (lower : ¬ (start % 64 ≠ 0 ∧ m (start / 64) &&& (1#64 <<< (start % 64) - 1#64) ≠ 0)) :
    ∀ r, r / 64 < words → test m r = false := by
  have low : start % 64 < 64 := Nat.mod_lt _ (by decide)
  intro r hr
  rw [← Bool.not_eq_true]
  intro set
  by_cases word : r / 64 = start / 64
  · have below := below_start upper word set
    refine lower ⟨by omega, fun zero => ?_⟩
    have clear := getLsbD_lower low (m (start / 64)) (r % 64)
    rw [zero, decide_eq_true below, ← word, Bool.true_and] at clear
    rw [test, ← clear] at set
    simp at set
  · obtain ⟨j, positive, hj, _, nonzero⟩ := scanned_word hstart hr set word
    exact absurd (others j positive hj) nonzero

end

theorem first_spec {words start : Nat} (hstart : start / 64 < words) :
    match first m words start with
    | none => ∀ r, r / 64 < words → test m r = false
    | some s => s / 64 < words ∧ test m s = true ∧
        ∀ r, r / 64 < words → test m r = true → rank words start s ≤ rank words start r := by
  have scanned := scan_spec (m := m) hstart words 1 (by omega) (by omega) (by omega)
  unfold first
  dsimp only
  by_cases upper : m (start / 64) >>> (start % 64) = 0
  · rw [if_neg (not_not_intro upper)]
    have none_above : ∀ c, start % 64 ≤ c → (m (start / 64)).getLsbD c = false := by
      intro c hc
      have shifted := congrArg (fun x : BitVec 64 => x.getLsbD (c - start % 64)) upper
      simp only [BitVec.getLsbD_ushiftRight, Nat.add_sub_cancel' hc] at shifted
      simpa using shifted
    cases found : scan m words (start / 64) words ((start / 64 + 1) % words) with
    | none =>
      rw [found] at scanned
      dsimp only
      by_cases lower :
          start % 64 ≠ 0 ∧ m (start / 64) &&& (1#64 <<< (start % 64) - 1#64) ≠ 0
      · rw [if_pos lower]
        exact first_lower hstart none_above scanned lower.2
      · rw [if_neg lower]
        exact first_none hstart none_above scanned lower
    | some s =>
      rw [found] at scanned
      obtain ⟨i, positive, hi, here, set, least, before⟩ := scanned
      refine ⟨?_, set, first_scanned hstart none_above positive hi here least before⟩
      rw [here]
      exact Nat.mod_lt _ (by omega)
  · rw [if_pos upper]
    exact first_upper hstart upper

end Bitmap
