import Uio.Shardpool.Ring

/-!
Each position has one producer and one consumer. The number of a cell tells how far the
last position claimed for it has come: claimed, written, or free for the next lap; the
position one lap before is out of the cell by then. So a producer that finds its own
position in the cell writes into an empty one, and a consumer that finds the next takes
what its position's producer wrote.
-/
namespace ShardFifo
open Interleaving ShardRing
open Function (update update_of_ne update_self)

variable {T : Type} {cap : Nat} {s s' : TaskRing T} {a : Section T} {more : List (Section T)}
  {others owing : Multiset (Section T)}

theorem same_iff {a b : Nat} (low : a < b + 2 ^ 64) (high : b < a + 2 ^ 64) :
    same a b = true ↔ a = b := by
  simp only [same, beq_iff_eq]
  omega

theorem below_iff {a b : Nat} (low : a < b + 2 ^ 63) (high : b < a + 2 ^ 63) :
    below a b = true ↔ a < b := by
  simp only [below, decide_eq_true_eq]
  omega

theorem same_cell {p q : Nat} (cell : p % cap = q % cap) (low : p < q + cap) (high : q < p + cap) :
    p = q := by
  rcases Nat.le_total p q with le | le
  · have gap : (q - p) % cap = 0 := Nat.sub_mod_eq_zero_of_mod_eq cell.symm
    rw [Nat.mod_eq_of_lt (by omega)] at gap
    omega
  · have gap : (p - q) % cap = 0 := Nat.sub_mod_eq_zero_of_mod_eq cell
    rw [Nat.mod_eq_of_lt (by omega)] at gap
    omega

def writing (p : Nat) : Section T → Nat
  | .pushWrite q _ | .pushPublish q => if q = p then 1 else 0
  | _ => 0

/-- The consumer of a position between its claim and the cell's release. -/
def taking (p : Nat) : Section T → Nat
  | .popTake q | .popClear q | .popFree q => if q = p then 1 else 0
  | _ => 0

def reading (p : Nat) : Section T → Nat
  | .popTake q => if q = p then 1 else 0
  | _ => 0

def Known (cap : Nat) (s : TaskRing T) : Section T → Prop
  | .pushSeq pos _ => pos ≤ s.tail
  | .pushClaim pos _ => pos ≤ s.tail ∧ (s.tail = pos → s.seq (pos % cap) = pos)
  | .pushWrite pos task => s.claims[pos]? = some task
  | .pushPublish pos => s.claims[pos]? = some (s.task (pos % cap))
  | .popSeq pos => pos ≤ s.head
  | .popClaim pos => pos ≤ s.head ∧ (s.head = pos → s.seq (pos % cap) = pos + 1)
  | _ => True

/-- How far a position has come, from its producer's and its consumer's open sections. -/
structure Stage (cap tail head : Nat) (seq : Nat → Nat) (w t p : Nat) : Prop where
  writer : w ≤ 1
  unwritten : tail ≤ p ∨ p < head → w = 0
  taker : t ≤ 1
  untaken : head ≤ p → t = 0
  past : p + cap < tail → t = 0 ∧ p < head
  cell : p < tail → tail ≤ p + cap → seq (p % cap) =
    if 0 < w then p else if head ≤ p ∨ 0 < t then p + 1 else p + cap
  virgin : p < cap → tail ≤ p → seq p = p

structure Positions (cap : Nat) (s : TaskRing T) (owing : Multiset (Section T)) : Prop where
  claims : s.claims.length = s.tail
  popped : s.popped = List.range s.head
  ahead : s.head ≤ s.tail
  within : s.tail ≤ s.head + cap
  stage : ∀ p, Stage cap s.tail s.head s.seq (weigh (writing p) owing) (weigh (taking p) owing) p

inductive Step [Inhabited T] (cap : Nat) (s : TaskRing T) :
    Section T → TaskRing T → List (Section T) → Prop where
  | push (task : T) : Step cap s (.push task) s [.pushSeq s.tail task]
  | pushSeq (pos : Nat) (task : T) (free : s.seq (pos % cap) = pos) :
    Step cap s (.pushSeq pos task) s [.pushClaim pos task]
  | pushFull (pos : Nat) (task : T) (old : s.seq (pos % cap) < pos) :
    Step cap s (.pushSeq pos task) s []
  | pushLate (pos : Nat) (task : T) : Step cap s (.pushSeq pos task) s [.push task]
  | pushClaim (task : T) :
    Step cap s (.pushClaim s.tail task) { s with tail := s.tail + 1, claims := s.claims ++ [task] }
      [.pushWrite s.tail task]
  | pushLost (pos : Nat) (task : T) : Step cap s (.pushClaim pos task) s [.push task]
  | pushWrite (pos : Nat) (task : T) :
    Step cap s (.pushWrite pos task) { s with task := Function.update s.task (pos % cap) task }
      [.pushPublish pos]
  | pushPublish (pos : Nat) :
    Step cap s (.pushPublish pos) { s with seq := Function.update s.seq (pos % cap) (pos + 1) } []
  | pop : Step cap s .pop s [.popSeq s.head]
  | popSeq (pos : Nat) (full : s.seq (pos % cap) = pos + 1) :
    Step cap s (.popSeq pos) s [.popClaim pos]
  | popEmpty (pos : Nat) (old : s.seq (pos % cap) < pos + 1) : Step cap s (.popSeq pos) s []
  | popLate (pos : Nat) : Step cap s (.popSeq pos) s [.pop]
  | popClaim :
    Step cap s (.popClaim s.head)
      { s with head := s.head + 1, popped := s.popped ++ [s.head] } [.popTake s.head]
  | popLost (pos : Nat) : Step cap s (.popClaim pos) s [.pop]
  | popTake (pos : Nat) :
    Step cap s (.popTake pos) { s with took := s.took ++ [(pos, s.task (pos % cap))] }
      [.popClear pos]
  | popClear (pos : Nat) :
    Step cap s (.popClear pos) { s with task := Function.update s.task (pos % cap) default }
      [.popFree pos]
  | popFree (pos : Nat) :
    Step cap s (.popFree pos) { s with seq := Function.update s.seq (pos % cap) (pos + cap) } []

theorem latest {i tail : Nat} (inside : i < cap) (claimed : i < tail) :
    ∃ p, p % cap = i ∧ p < tail ∧ tail ≤ p + cap := by
  have spare := Nat.mod_lt (tail - 1 - i) (show 0 < cap by omega)
  have down := Nat.mod_le (tail - 1 - i) cap
  have split := Nat.div_add_mod (tail - 1 - i) cap
  refine ⟨i + cap * ((tail - 1 - i) / cap), ?_, by omega, by omega⟩
  rw [Nat.add_mul_mod_self_left, Nat.mod_eq_of_lt inside]

theorem seq_near (held : Positions cap s owing) {i : Nat} (inside : i < cap) :
    s.tail ≤ s.seq i + cap ∧ s.seq i < s.tail + cap := by
  rcases Nat.lt_or_ge i s.tail with claimed | unclaimed
  · obtain ⟨p, rfl, low, high⟩ := latest inside claimed
    have cell := (held.stage p).cell low high
    split at cell
    · omega
    · split at cell <;> omega
  · have virgin := (held.stage i).virgin inside unclaimed
    omega

theorem exec_step [Inhabited T] (large : 2 ≤ cap) (small : cap ≤ 2 ^ 60) (a : Section T)
    (held : Positions cap s owing) (known : Known cap s a) (prompt : Prompt () a s) :
    Step cap s a (exec cap a s).1 (exec cap a s).2 := by
  have ahead := held.ahead
  have within := held.within
  cases a with
  | pushSeq pos task =>
    have near := seq_near held (Nat.mod_lt pos (show 0 < cap by omega))
    simp only [Known] at known
    simp only [Prompt, ShardRing.prompt, decide_eq_true_eq] at prompt
    simp only [exec]
    split
    · rename_i equal
      exact .pushSeq pos task ((same_iff (by omega) (by omega)).mp equal)
    · split
      · rename_i less
        exact .pushFull pos task ((below_iff (by omega) (by omega)).mp less)
      · exact .pushLate pos task
  | pushClaim pos task =>
    simp only [Known] at known
    simp only [Prompt, ShardRing.prompt, decide_eq_true_eq] at prompt
    simp only [exec]
    split
    · rename_i equal
      have mine : s.tail = pos := (same_iff (by omega) (by omega)).mp equal
      subst mine
      exact .pushClaim task
    · exact .pushLost pos task
  | popSeq pos =>
    have near := seq_near held (Nat.mod_lt pos (show 0 < cap by omega))
    simp only [Known] at known
    simp only [Prompt, ShardRing.prompt, decide_eq_true_eq] at prompt
    simp only [exec]
    split
    · rename_i equal
      exact .popSeq pos ((same_iff (by omega) (by omega)).mp equal)
    · split
      · rename_i less
        exact .popEmpty pos ((below_iff (by omega) (by omega)).mp less)
      · exact .popLate pos
  | popClaim pos =>
    simp only [Known] at known
    simp only [Prompt, ShardRing.prompt, decide_eq_true_eq] at prompt
    simp only [exec]
    split
    · rename_i equal
      have mine : s.head = pos := (same_iff (by omega) (by omega)).mp equal
      subst mine
      exact .popClaim
    · exact .popLost pos
  | _ => constructor

section Stages

variable {tail head w t p pos : Nat} {seq : Nat → Nat}

theorem Stage.written (stage : Stage cap tail head seq w t p) (busy : 0 < w) :
    p < tail ∧ head ≤ p ∧ tail ≤ p + cap := by
  have unwritten := stage.unwritten
  have past := stage.past
  omega

theorem Stage.taken (stage : Stage cap tail head seq w t p) (busy : 0 < t) :
    p < head ∧ tail ≤ p + cap := by
  have untaken := stage.untaken
  have past := stage.past
  omega

theorem Stage.free (large : 2 ≤ cap) (stage : Stage cap tail head seq w t p)
    (free : seq (tail % cap) = tail) (lap : p + cap = tail) : t = 0 ∧ p < head := by
  have cell := stage.cell (by omega) (by omega)
  have same : p % cap = tail % cap := by rw [← lap, Nat.add_mod_right]
  rw [same, free] at cell
  split at cell
  · omega
  · split at cell <;> omega

theorem Stage.claim (large : 2 ≤ cap) (ahead : head ≤ tail) (free : seq (tail % cap) = tail)
    (stage : Stage cap tail head seq w t p) :
    Stage cap (tail + 1) head seq ((if tail = p then 1 else 0) + w) t p := by
  have unwritten := stage.unwritten
  have past := stage.past
  constructor
  · have writer := stage.writer
    split <;> omega
  · intro outside
    rw [if_neg (by omega)]
    omega
  · exact stage.taker
  · exact stage.untaken
  · intro lap
    rcases Nat.lt_or_ge (p + cap) tail with old | new
    · exact past old
    · exact stage.free large free (by omega)
  · intro low high
    rcases Nat.lt_or_ge p tail with old | new
    · simp only [show ¬ tail = p by omega, if_false, Nat.zero_add]
      exact stage.cell old (by omega)
    · have own : tail = p := by omega
      subst own
      rw [if_pos (by simp)]
      exact free
  · intro inside high
    exact stage.virgin inside (by omega)

theorem cell_other (stage : Stage cap tail head seq w t p) {n : Nat} (other : p ≠ pos)
    (claimed : pos < tail) (window : tail ≤ pos + cap) :
    Stage cap tail head (update seq (pos % cap) n) w t p := by
  constructor
  · exact stage.writer
  · exact stage.unwritten
  · exact stage.taker
  · exact stage.untaken
  · exact stage.past
  · intro low high
    have apart : p % cap ≠ pos % cap := fun same => other (same_cell same (by omega) (by omega))
    rw [update_of_ne apart]
    exact stage.cell low high
  · intro inside high
    have down := Nat.mod_le pos cap
    rw [update_of_ne (by omega)]
    exact stage.virgin inside high

theorem Stage.publish (stage : Stage cap tail head seq (1 + w) t p) :
    Stage cap tail head (update seq (p % cap) (p + 1)) w t p := by
  have window := stage.written (by omega)
  have writer := stage.writer
  have down := Nat.mod_le p cap
  constructor
  · omega
  · omega
  · exact stage.taker
  · exact stage.untaken
  · exact stage.past
  · intro _ _
    rw [update_self, if_neg (by omega), if_pos (by omega)]
  · intro _ _
    omega

theorem full_written (large : 2 ≤ cap) (ahead : head ≤ tail) (within : tail ≤ head + cap)
    {ws ts : Nat → Nat} (stage : ∀ p, Stage cap tail head seq (ws p) (ts p) p)
    (full : seq (head % cap) = head + 1) : head < tail ∧ ws head = 0 := by
  have claimed : head < tail := by
    by_contra unclaimed
    rcases Nat.lt_or_ge head cap with early | late
    · have virgin := (stage head).virgin early (by omega)
      rw [Nat.mod_eq_of_lt early] at full
      omega
    · have cell := (stage (head - cap)).cell (by omega) (by omega)
      rw [← Nat.mod_eq_sub_mod late, full] at cell
      split at cell
      · omega
      · split at cell <;> omega
  have cell := (stage head).cell claimed within
  rw [full] at cell
  split at cell <;> omega

theorem Stage.take (stage : Stage cap tail head seq w t p) (written : head = p → w = 0) :
    Stage cap tail (head + 1) seq w ((if head = p then 1 else 0) + t) p := by
  have unwritten := stage.unwritten
  have untaken := stage.untaken
  have past := stage.past
  constructor
  · exact stage.writer
  · omega
  · have taker := stage.taker
    split <;> omega
  · intro later
    rw [if_neg (by omega)]
    omega
  · intro lap
    have old := past lap
    rw [if_neg (by omega)]
    omega
  · intro low high
    have cell := stage.cell low high
    rcases Nat.lt_trichotomy head p with later | own | earlier
    · rw [cell]
      simp only [show head ≤ p by omega, show head + 1 ≤ p by omega, true_or, if_true]
    · simp [cell, written own, own]
    · rw [cell]
      simp only [show ¬ head = p by omega, show ¬ head ≤ p by omega, show ¬ head + 1 ≤ p by omega,
        if_false, Nat.zero_add]
  · exact stage.virgin

theorem Stage.release (ahead : head ≤ tail) (stage : Stage cap tail head seq w (1 + t) p) :
    Stage cap tail head (update seq (p % cap) (p + cap)) w t p := by
  have window := stage.taken (by omega)
  have unwritten := stage.unwritten
  have taker := stage.taker
  have down := Nat.mod_le p cap
  constructor
  · exact stage.writer
  · exact unwritten
  · omega
  · omega
  · have past := stage.past
    omega
  · intro _ _
    rw [update_self, if_neg (by omega), if_neg (by omega)]
  · intro _ _
    omega

end Stages

theorem positions_step [Inhabited T] (large : 2 ≤ cap) (step : Step cap s a s' more)
    (known : Known cap s a) (held : Positions cap s (a ::ₘ others)) :
    Positions cap s' (↑more + others) := by
  have ahead := held.ahead
  have within := held.within
  have stage := held.stage
  simp only [weigh_cons] at stage
  cases step with
  | pushClaim task =>
    have free := known.2 rfl
    refine ⟨by simp [held.claims], held.popped, Nat.le_succ_of_le ahead, ?_, fun p => ?_⟩
    · rcases Nat.lt_or_ge s.tail cap with early | late
      · exact Nat.le_trans early (Nat.le_add_left _ _)
      · have below := (held.stage (s.tail - cap)).free large free (by omega)
        change s.tail + 1 ≤ s.head + cap
        omega
    · have after := (stage p).claim large ahead free
      simpa [writing, taking] using after
  | pushPublish pos =>
    refine ⟨held.claims, held.popped, ahead, within, fun p => ?_⟩
    have own := stage pos
    simp only [writing, if_true] at own
    have window := own.written (by omega)
    by_cases mine : p = pos
    · subst mine
      simpa [taking] using own.publish
    · have after := cell_other (n := pos + 1) (stage p) mine window.1 window.2.2
      simpa [writing, taking, Ne.symm mine] using after
  | popClaim =>
    have written := full_written large ahead within stage (known.2 rfl)
    refine ⟨held.claims, by simp [held.popped, List.range_succ], written.1, Nat.le_trans within (by
      simp only; omega), fun p => ?_⟩
    have after := (stage p).take (fun own => by rw [← own]; exact written.2)
    simpa [writing, taking] using after
  | popFree pos =>
    refine ⟨held.claims, held.popped, ahead, within, fun p => ?_⟩
    have own := stage pos
    simp only [taking, if_true] at own
    have window := own.taken (by omega)
    by_cases mine : p = pos
    · subst mine
      simpa [writing] using own.release ahead
    · have after := cell_other (n := pos + cap) (stage p) mine (by omega) window.2
      simpa [writing, taking, Ne.symm mine] using after
  | _ =>
    refine ⟨held.claims, held.popped, ahead, within, fun p => ?_⟩
    simpa [writing, taking] using stage p

structure Contents (cap : Nat) (s : TaskRing T) (owing : Multiset (Section T)) : Prop where
  known : ∀ a ∈ owing, Known cap s a
  stored : ∀ p, p < s.tail → s.tail ≤ p + cap → weigh (writing p) owing = 0 →
    s.head ≤ p ∨ 0 < weigh (reading p) owing → s.claims[p]? = some (s.task (p % cap))
  once : ∀ p, (s.took.map Prod.fst).count p + weigh (reading p) owing = if p < s.head then 1 else 0
  right : ∀ x ∈ s.took, s.claims[x.1]? = some x.2

theorem reading_le (p : Nat) (owing : Multiset (Section T)) :
    weigh (reading p) owing ≤ weigh (taking p) owing :=
  weigh_le (fun a => by cases a <;> first | exact Nat.le_refl _ | exact Nat.zero_le _) owing

theorem claim_kept {claims : List T} {p : Nat} {task : T} (more : List T)
    (claimed : claims[p]? = some task) : (claims ++ more)[p]? = some task := by
  rw [List.getElem?_append_left (List.getElem?_eq_some_iff.mp claimed).1]
  exact claimed

/-- What the other threads know outlives a step: the cells that claimed positions wait for
    are not the cell of a position whose producer or consumer is at work. -/
theorem known_step [Inhabited T] (large : 2 ≤ cap) (step : Step cap s a s' more)
    (held : Positions cap s (a ::ₘ others)) {b : Section T} (member : b ∈ others)
    (known : Known cap s b) : Known cap s' b := by
  have stage := held.stage
  simp only [weigh_cons] at stage
  cases step with
  | pushClaim task =>
    cases b with
    | pushSeq pos task => exact Nat.le_succ_of_le known
    | pushClaim pos task =>
      refine ⟨Nat.le_succ_of_le known.1, fun equal => ?_⟩
      have loaded := known.1
      simp only at equal
      omega
    | pushWrite pos task | pushPublish pos => exact claim_kept _ known
    | _ => exact known
  | popClaim =>
    cases b with
    | popSeq pos => exact Nat.le_succ_of_le known
    | popClaim pos =>
      refine ⟨Nat.le_succ_of_le known.1, fun equal => ?_⟩
      have loaded := known.1
      simp only at equal
      omega
    | _ => exact known
  | pushWrite pos task =>
    cases b with
    | pushPublish q =>
      have own := stage pos
      have other := stage q
      have busy : 1 ≤ weigh (writing q) others := by
        simpa [writing] using weigh_of_mem (writing q) member
      simp only [writing, if_true] at own other
      have window := own.written (by omega)
      have beside := other.written (by omega)
      have apart : q % cap ≠ pos % cap := by
        intro same
        have equal := same_cell same (by omega) (by omega)
        subst equal
        have writer := own.writer
        omega
      simp only [Known, update_of_ne apart]
      exact known
    | _ => exact known
  | popClear pos =>
    cases b with
    | pushPublish q =>
      have own := stage pos
      have other := stage q
      have busy : 1 ≤ weigh (writing q) others := by
        simpa [writing] using weigh_of_mem (writing q) member
      simp only [taking, writing, if_true] at own other
      have window := own.taken (by omega)
      have beside := other.written (by omega)
      have apart : q % cap ≠ pos % cap := by
        intro same
        have equal := same_cell same (by omega) (by omega)
        omega
      simp only [Known, update_of_ne apart]
      exact known
    | _ => exact known
  | pushPublish pos =>
    have own := stage pos
    simp only [writing, if_true] at own
    have window := own.written (by omega)
    have number := own.cell window.1 window.2.2
    rw [if_pos (by omega)] at number
    cases b with
    | pushClaim q task =>
      refine ⟨known.1, fun equal => ?_⟩
      have free := known.2 equal
      have apart : q % cap ≠ pos % cap := by
        intro same
        rw [same, number] at free
        simp only at equal
        omega
      simp only [update_of_ne apart]
      exact free
    | popClaim q =>
      refine ⟨known.1, fun equal => ?_⟩
      have full := known.2 equal
      have apart : q % cap ≠ pos % cap := by
        intro same
        rw [same, number] at full
        have equal := same_cell same (by omega) (by omega)
        omega
      simp only [update_of_ne apart]
      exact full
    | _ => exact known
  | popFree pos =>
    have own := stage pos
    have ahead := held.ahead
    simp only [taking, if_true] at own
    have window := own.taken (by omega)
    have number := own.cell (by omega) window.2
    rw [own.unwritten (by omega), if_neg (by omega), if_pos (by omega)] at number
    cases b with
    | pushClaim q task =>
      refine ⟨known.1, fun equal => ?_⟩
      have free := known.2 equal
      have apart : q % cap ≠ pos % cap := by
        intro same
        rw [same, number] at free
        have equal := same_cell same (by omega) (by omega)
        omega
      simp only [update_of_ne apart]
      exact free
    | popClaim q =>
      refine ⟨known.1, fun equal => ?_⟩
      have full := known.2 equal
      have apart : q % cap ≠ pos % cap := by
        intro same
        rw [same, number] at full
        simp only at equal
        omega
      simp only [update_of_ne apart]
      exact full
    | _ => exact known
  | _ => exact known

theorem known_next [Inhabited T] (step : Step cap s a s' more) (known : Known cap s a)
    (claims : s.claims.length = s.tail) : ∀ b ∈ more, Known cap s' b := by
  cases step with
  | pushSeq pos task free | popSeq pos free =>
    simp only [List.mem_singleton, forall_eq]
    exact ⟨known, fun _ => free⟩
  | pushClaim task => simp [Known, claims]
  | pushWrite pos task => simpa [Known] using known
  | _ => simp [Known]

theorem stored_step [Inhabited T] (step : Step cap s a s' more) (known : Known cap s a)
    (held : Positions cap s (a ::ₘ others))
    (stored : ∀ p, p < s.tail → s.tail ≤ p + cap → weigh (writing p) (a ::ₘ others) = 0 →
      s.head ≤ p ∨ 0 < weigh (reading p) (a ::ₘ others) → s.claims[p]? = some (s.task (p % cap)))
    (p : Nat) (low : p < s'.tail) (high : s'.tail ≤ p + cap)
    (written : weigh (writing p) ((↑more : Multiset (Section T)) + others) = 0)
    (full : s'.head ≤ p ∨ 0 < weigh (reading p) ((↑more : Multiset (Section T)) + others)) :
    s'.claims[p]? = some (s'.task (p % cap)) := by
  have before := stored p
  have stage := held.stage
  have within := reading_le p others
  simp only [weigh_cons, weigh_add, weigh_coe] at before stage written full
  cases step with
  | pushClaim task =>
    simp only [writing, reading, sum_map_cons, sum_map_nil, Nat.zero_add,
      Nat.add_zero] at before written full low high
    have other : s.tail ≠ p := by
      intro own
      rw [if_pos own] at written
      omega
    rw [if_neg other] at written
    exact claim_kept _ (before (by omega) (by omega) (by omega) full)
  | pushWrite pos task =>
    have own := stage pos
    simp only [writing, reading, if_true, sum_map_cons, sum_map_nil, Nat.zero_add,
      Nat.add_zero] at before written full own
    have window := own.written (by omega)
    have other : pos ≠ p := by
      intro same
      rw [if_pos same] at written
      omega
    have apart : p % cap ≠ pos % cap :=
      fun same => other (same_cell same (by simp only at low; omega) (by simp only at high; omega)).symm
    simp only [update_of_ne apart]
    rw [if_neg other] at before
    exact before low high (by omega) full
  | pushPublish pos =>
    simp only [writing, reading, List.map_nil, List.sum_nil, Nat.zero_add] at before written full
    by_cases own : pos = p
    · subst own
      exact known
    · rw [if_neg own] at before
      exact before low high (by omega) full
  | popClaim =>
    simp only [writing, reading, sum_map_cons, sum_map_nil, Nat.zero_add,
      Nat.add_zero] at before written full
    refine before low high written ?_
    by_cases own : s.head = p
    · exact Or.inl (by omega)
    · rw [if_neg own, Nat.zero_add] at full
      exact full.imp_left (fun later => by omega)
  | popTake pos =>
    simp only [writing, reading, sum_map_cons, sum_map_nil, Nat.zero_add,
      Nat.add_zero] at before written full
    exact before low high written (full.imp_right (Nat.lt_add_left _))
  | popClear pos =>
    have own := stage pos
    have ahead := held.ahead
    simp only [writing, taking, reading, if_true, sum_map_cons, sum_map_nil, Nat.zero_add, Nat.add_zero] at before written full own
    have window := own.taken (by omega)
    have taker := own.taker
    have apart : p % cap ≠ pos % cap := by
      intro same
      simp only at low high
      have equal := same_cell same (by omega) (by omega)
      subst equal
      omega
    simp only [update_of_ne apart]
    exact before low high written full
  | _ =>
    simp only [writing, reading, sum_map_cons, sum_map_nil, Nat.zero_add,
      Nat.add_zero] at before written full
    exact before low high written full

theorem once_step [Inhabited T] (step : Step cap s a s' more) {p : Nat}
    (once : (s.took.map Prod.fst).count p + weigh (reading p) (a ::ₘ others) =
      if p < s.head then 1 else 0) :
    (s'.took.map Prod.fst).count p + weigh (reading p) ((↑more : Multiset (Section T)) + others) =
      if p < s'.head then 1 else 0 := by
  simp only [weigh_cons, weigh_add, weigh_coe] at once ⊢
  cases step with
  | popClaim =>
    simp only [reading, sum_map_cons, sum_map_nil, Nat.zero_add, Nat.add_zero] at once ⊢
    split at once <;> split <;> split <;> omega
  | popTake pos =>
    simp only [reading, List.map_append, List.map_cons, List.map_nil, List.sum_cons, List.sum_nil,
      List.count_append, List.count_singleton, Nat.zero_add, beq_iff_eq] at once ⊢
    omega
  | _ => simpa [reading] using once

theorem contents_step [Inhabited T] (large : 2 ≤ cap) (step : Step cap s a s' more)
    (positions : Positions cap s (a ::ₘ others)) (held : Contents cap s (a ::ₘ others)) :
    Contents cap s' (↑more + others) := by
  have known := held.known a (Multiset.mem_cons_self a others)
  constructor
  · exact forall_pushed (known_next step known positions.claims) fun b other =>
      known_step large step positions other (held.known b (Multiset.mem_cons_of_mem other))
  · exact stored_step step known positions held.stored
  · exact fun p => once_step step (held.once p)
  · have right := held.right
    cases step with
    | pushClaim task => exact fun x member => claim_kept _ (right x member)
    | popTake pos =>
      refine List.forall_mem_append.mpr ⟨right, List.forall_mem_singleton.mpr ?_⟩
      have stage := positions.stage pos
      have reads : 0 < weigh (reading pos) (.popTake pos ::ₘ others) := by
        simp [reading]
      have window := stage.taken (Nat.lt_of_lt_of_le reads (reading_le pos _))
      exact held.stored pos (Nat.lt_of_lt_of_le window.1 positions.ahead) window.2
        (stage.unwritten (Or.inr window.1)) (Or.inr reads)
    | _ => exact right

section Runs

variable [Inhabited T] {q : Pool (TaskRing T) (Section T)}

def Sound (cap : Nat) (s : TaskRing T) (owing : Multiset (Section T)) : Prop :=
  Positions cap s owing ∧ Contents cap s owing

omit [Inhabited T] in
theorem sound_cons {s : TaskRing T} {a : Section T} {owing : Multiset (Section T)}
    (plain : ∀ p, writing p a = 0 ∧ taking p a = 0 ∧ reading p a = 0) :
    Sound cap s (a ::ₘ owing) ↔ Known cap s a ∧ Sound cap s owing := by
  constructor
  · intro held
    obtain ⟨positions, contents⟩ := held
    refine ⟨contents.known a (Multiset.mem_cons_self a owing), ?_, ?_⟩
    · refine ⟨positions.claims, positions.popped, positions.ahead, positions.within, fun p => ?_⟩
      simpa [plain p] using positions.stage p
    · refine ⟨fun b other => contents.known b (Multiset.mem_cons_of_mem other), fun p => ?_,
        fun p => ?_, contents.right⟩
      · simpa [plain p] using contents.stored p
      · simpa [plain p] using contents.once p
  · intro held
    obtain ⟨known, positions, contents⟩ := held
    refine ⟨⟨positions.claims, positions.popped, positions.ahead, positions.within, fun p => ?_⟩, ?_⟩
    · simpa [plain p] using positions.stage p
    · refine ⟨Multiset.forall_mem_cons.mpr ⟨known, contents.known⟩, fun p => ?_, fun p => ?_,
        contents.right⟩
      · simpa [plain p] using contents.stored p
      · simpa [plain p] using contents.once p

omit [Inhabited T] in
theorem sound_enter {s : TaskRing T} {a : Section T} {owing : Multiset (Section T)}
    (legal : ShardRing.entry a = true) (held : Sound cap s owing) : Sound cap s (a ::ₘ owing) := by
  have plain : ∀ p, writing p a = 0 ∧ taking p a = 0 ∧ reading p a = 0 := by
    intro p
    cases a <;> first | exact ⟨rfl, rfl, rfl⟩ | cases legal
  refine (sound_cons plain).mpr ⟨?_, held⟩
  cases a <;> trivial

theorem sound_exec (large : 2 ≤ cap) (small : cap ≤ 2 ^ 60) {s : TaskRing T} {a : Section T}
    {owing : Multiset (Section T)} (prompt : Prompt () a s) (held : Sound cap s (a ::ₘ owing)) :
    Sound cap (ShardRing.exec cap a s).1 (↑(ShardRing.exec cap a s).2 + owing) := by
  have known := held.2.known a (Multiset.mem_cons_self a owing)
  have step := exec_step large small a held.1 known prompt
  exact ⟨positions_step large step known held.1, contents_step large step held.1 held.2⟩

theorem sound_fresh : Sound cap (.fresh : TaskRing T) 0 := by
  refine ⟨⟨rfl, rfl, le_rfl, Nat.zero_le _, fun p => ?_⟩, ?_⟩
  · constructor <;> simp [TaskRing.fresh]
  · constructor <;> simp [TaskRing.fresh]

theorem ring_run (large : 2 ≤ cap) (small : cap ≤ 2 ^ 60) (run : Run (program cap) Prompt empty q) :
    Sound cap q.state (owed q) :=
  owed_invariant (Sound cap) sound_fresh (fun _ _ _ legal held => sound_enter legal held)
    (fun _ _ _ _ _ prompt held => sound_exec large small prompt held) run

end Runs

/-- One queue of bounded length, whatever the threads are in the middle of. -/
structure BoundedFifo [Inhabited T] (cap : Nat) (q : Pool (TaskRing T) (Section T)) : Prop where
  bounded : q.state.head ≤ q.state.tail ∧ q.state.tail ≤ q.state.head + cap
  /-- consumers claim the positions in the order in which producers claimed them -/
  inOrder : q.state.popped = List.range q.state.head
  /-- each claimed position was read once, or is going to be -/
  once : ∀ p, (q.state.took.map Prod.fst).count p + weigh (reading p) (owed q) =
    if p < q.state.head then 1 else 0
  /-- what was read is what the producer of the position pushed -/
  right : ∀ x ∈ q.state.took, q.state.claims[x.1]? = some x.2
  /-- a consumer about to read finds the whole task -/
  whole : ∀ p, 0 < weigh (reading p) (owed q) → weigh (writing p) (owed q) = 0 ∧
    q.state.claims[p]? = some (q.state.task (p % cap))
  /-- a task that no consumer has claimed is in its cell, or is being written there -/
  kept : ∀ p, q.state.head ≤ p → p < q.state.tail → 0 < weigh (writing p) (owed q) ∨
    q.state.claims[p]? = some (q.state.task (p % cap))
  /-- a refused push found the lap before in the cell at the tail -/
  refuses : ∀ pos task, .pushSeq pos task ∈ owed q → Prompt () (.pushSeq pos task) q.state →
    (exec cap (.pushSeq pos task) q.state).2 = [] → pos = q.state.tail ∧
      ∃ p, p + cap = pos ∧ (q.state.head ≤ p ∨ 0 < weigh (taking p) (owed q))
  /-- a pop that found nothing found the head's position unwritten -/
  empties : ∀ pos, .popSeq pos ∈ owed q → Prompt () (.popSeq pos) q.state →
    (exec cap (.popSeq pos) q.state).2 = [] → pos = q.state.head ∧
      (pos = q.state.tail ∨ 0 < weigh (writing pos) (owed q))

theorem two_le_capacityOf (asked : Int) : 2 ≤ capacityOf asked := by
  have some : 0 < Nat.size (max (if asked ≤ 0 then defaultCapacity else asked.toNat) 2 - 1) :=
    Nat.size_pos.mpr (by omega)
  exact Nat.le_self_pow (by omega) 2

theorem seq_past (held : Positions cap s owing) (large : 2 ≤ cap) {pos : Nat}
    (claimed : pos < s.tail) : pos ≤ s.seq (pos % cap) ∧ (pos < s.head → pos < s.seq (pos % cap)) := by
  have inside := Nat.mod_lt pos (show 0 < cap by omega)
  have down := Nat.mod_le pos cap
  obtain ⟨p, same, low, high⟩ := latest inside (Nat.lt_of_le_of_lt down claimed)
  have cell := (held.stage p).cell low high
  have unwritten := (held.stage p).unwritten
  rw [same] at cell
  have later : p = pos ∨ pos + 2 ≤ p := by
    rcases Nat.lt_or_ge p (pos + cap) with near | far
    · exact Or.inl (same_cell same near (by omega))
    · exact Or.inr (by omega)
  split at cell
  · omega
  · split at cell <;> omega

theorem stale_number (held : Positions cap s owing) (large : 2 ≤ cap) {pos : Nat}
    (loaded : pos ≤ s.tail) (old : s.seq (pos % cap) < pos) : pos = s.tail ∧
      ∃ p, p + cap = pos ∧ (s.head ≤ p ∨ 0 < weigh (taking p) owing) := by
  have last : pos = s.tail := by
    by_contra other
    have past := (seq_past held large (show pos < s.tail by omega)).1
    omega
  refine ⟨last, ?_⟩
  rcases Nat.lt_or_ge pos cap with early | late
  · have virgin := (held.stage pos).virgin early (by omega)
    rw [Nat.mod_eq_of_lt early] at old
    omega
  · refine ⟨pos - cap, by omega, ?_⟩
    have cell := (held.stage (pos - cap)).cell (by omega) (by omega)
    have unwritten := (held.stage (pos - cap)).unwritten
    rw [← Nat.mod_eq_sub_mod late] at cell
    split at cell
    · exact Or.inl (by omega)
    · split at cell
      · assumption
      · omega

theorem unwritten_number (held : Positions cap s owing) (large : 2 ≤ cap) {pos : Nat}
    (loaded : pos ≤ s.head) (old : s.seq (pos % cap) < pos + 1) : pos = s.head ∧
      (pos = s.tail ∨ 0 < weigh (writing pos) owing) := by
  have ahead := held.ahead
  have within := held.within
  have first : pos = s.head := by
    by_contra other
    have past := (seq_past held large (show pos < s.tail by omega)).2 (by omega)
    omega
  refine ⟨first, ?_⟩
  rcases Nat.lt_or_ge pos s.tail with claimed | unclaimed
  · have cell := (held.stage pos).cell claimed (by omega)
    split at cell
    · exact Or.inr (by assumption)
    · rw [if_pos (by omega)] at cell
      omega
  · exact Or.inl (by omega)

theorem ring_is_fifo [Inhabited T] {asked : Int} (small : capacityOf asked ≤ 2 ^ 60)
    {q : Pool (TaskRing T) (Section T)} (run : Run (program (capacityOf asked)) Prompt empty q) :
    BoundedFifo (capacityOf asked) q := by
  have large := two_le_capacityOf asked
  obtain ⟨positions, contents⟩ := ring_run large small run
  constructor
  · exact ⟨positions.ahead, positions.within⟩
  · exact positions.popped
  · exact contents.once
  · exact contents.right
  · intro p reads
    have window := (positions.stage p).taken (Nat.lt_of_lt_of_le reads (reading_le p _))
    have written := (positions.stage p).unwritten (Or.inr window.1)
    exact ⟨written, contents.stored p (Nat.lt_of_lt_of_le window.1 positions.ahead) window.2 written
      (Or.inr reads)⟩
  · intro p unclaimed claimed
    rcases Nat.eq_zero_or_pos (weigh (writing p) (owed q)) with written | busy
    · exact Or.inr (contents.stored p claimed
        (Nat.le_trans positions.within (Nat.add_le_add_right unclaimed _)) written (Or.inl unclaimed))
    · exact Or.inl busy
  · intro pos task member prompt refused
    have known := contents.known _ member
    have step := exec_step large small _ positions known prompt
    rw [refused] at step
    generalize (exec (capacityOf asked) (.pushSeq pos task) q.state).1 = after at step
    cases step with
    | pushFull _ _ old => exact stale_number positions large known old
  · intro pos member prompt refused
    have known := contents.known _ member
    have step := exec_step large small _ positions known prompt
    rw [refused] at step
    generalize (exec (capacityOf asked) (.popSeq pos) q.state).1 = after at step
    cases step with
    | popEmpty _ old => exact unwritten_number positions large known old

/-- A producer pauses between its claim and its write while a consumer looks. -/
def pausedProducer : List (Move (Section Bool) Unit) :=
  List.flatten [[.start (.push true)], runs 0 3 (), [.start .pop], runs 1 1 ()]

theorem ring_is_fifo_paused : ∃ q : Pool (TaskRing Bool) (Section Bool),
    (capacityOf 2 ≤ 2 ^ 60 ∧ Run (program (capacityOf 2)) Prompt empty q ∧
      q.threads = [[.pushWrite 0 true], [.popSeq 0]]) ∧ BoundedFifo (capacityOf 2) q := by
  have small : capacityOf 2 ≤ 2 ^ 60 := by decide +kernel
  have sound : ∀ c (a : Section Bool) s, prompt c a s = true → Prompt c a s := fun _ _ _ held => held
  obtain ⟨q, run, checked⟩ := replay_meets (P := program (capacityOf 2)) sound
    (fun q => decide (q.threads = [[Section.pushWrite 0 true], [.popSeq 0]])) pausedProducer
    (p := empty) (by decide +kernel) (by decide +kernel)
  exact ⟨q, ⟨small, run, of_decide_eq_true checked⟩, ring_is_fifo small run⟩

section Alone

variable [Inhabited T]

theorem same_self (n : Nat) : same n n = true := by
  simp [same]

def afterPush (cap : Nat) (s : TaskRing T) (task : T) : TaskRing T :=
  { s with
    tail := s.tail + 1, task := Function.update s.task (s.tail % cap) task,
    seq := Function.update s.seq (s.tail % cap) (s.tail + 1), claims := s.claims ++ [task] }

def afterPop (cap : Nat) (s : TaskRing T) : TaskRing T :=
  { s with
    head := s.head + 1, task := Function.update s.task (s.head % cap) default,
    seq := Function.update s.seq (s.head % cap) (s.head + cap), popped := s.popped ++ [s.head],
    took := s.took ++ [(s.head, s.task (s.head % cap))] }

theorem push_alone (cap : Nat) (s : TaskRing T) (threads : List (List (Section T))) (task : T)
    (free : s.seq (s.tail % cap) = s.tail) :
    Reachable (program cap) ⟨s, threads⟩ ⟨afterPush cap s task, threads ++ [[]]⟩ := by
  have loaded := reachable_call (P := program cap) (s := s) threads () (a := .push task) rfl rfl
  have looked := reachable_section (P := program cap) (s := s) (a := .pushSeq s.tail task) []
    threads [] () rfl
  have claimed := reachable_section (P := program cap) (s := s) (a := .pushClaim s.tail task) []
    threads [] () rfl
  simp only [program, exec, free, same_self, if_true] at looked claimed
  have written := reachable_section (P := program cap) (a := .pushWrite s.tail task)
    (s := { s with tail := s.tail + 1, claims := s.claims ++ [task] }) [] threads [] () rfl
  have published := reachable_section (P := program cap) (a := .pushPublish s.tail)
    (s := { s with
      tail := s.tail + 1, claims := s.claims ++ [task],
      task := update s.task (s.tail % cap) task }) [] threads [] () rfl
  exact run_trans (run_trans (run_trans (run_trans loaded looked) claimed) written) published

theorem pop_alone (cap : Nat) (s : TaskRing T) (threads : List (List (Section T)))
    (full : s.seq (s.head % cap) = s.head + 1) :
    Reachable (program cap) ⟨s, threads⟩ ⟨afterPop cap s, threads ++ [[]]⟩ := by
  have loaded := reachable_call (P := program cap) (s := s) threads () (a := .pop) rfl rfl
  have looked := reachable_section (P := program cap) (s := s) (a := .popSeq s.head) [] threads []
    () rfl
  have claimed := reachable_section (P := program cap) (s := s) (a := .popClaim s.head) [] threads []
    () rfl
  simp only [program, exec, full, same_self, if_true] at looked claimed
  have took := reachable_section (P := program cap) (a := .popTake s.head)
    (s := { s with head := s.head + 1, popped := s.popped ++ [s.head] }) [] threads [] () rfl
  have cleared := reachable_section (P := program cap) (a := .popClear s.head)
    (s := { s with
      head := s.head + 1, popped := s.popped ++ [s.head],
      took := s.took ++ [(s.head, s.task (s.head % cap))] }) [] threads [] () rfl
  have freed := reachable_section (P := program cap) (a := .popFree s.head)
    (s := { s with
      head := s.head + 1, task := update s.task (s.head % cap) default,
      popped := s.popped ++ [s.head],
      took := s.took ++ [(s.head, s.task (s.head % cap))] }) [] threads [] () rfl
  exact run_trans (run_trans (run_trans (run_trans (run_trans loaded looked) claimed) took) cleared)
    freed

end Alone

/-- An empty ring of two cells, after `n` tasks have passed through it, with a producer asleep
    since it found the first position free. -/
structure Asleep (n done : Nat) (s : TaskRing Bool) : Prop where
  run : Reachable (program 2) empty ⟨s, [.pushClaim 0 true] :: List.replicate done []⟩
  tail : s.tail = n
  head : s.head = n
  first : s.seq (n % 2) = n
  second : s.seq ((n + 1) % 2) = n + 1
  claims : s.claims = List.replicate n false

theorem asleep_start : Asleep 0 0 .fresh := by
  have loaded := reachable_call (P := program 2) (s := TaskRing.fresh) [] () (a := .push true) rfl rfl
  have looked := reachable_section (P := program 2) (s := TaskRing.fresh) (a := .pushSeq 0 true) [] [] []
    () rfl
  exact ⟨run_trans loaded looked, rfl, rfl, rfl, rfl, rfl⟩

theorem asleep_next {n done : Nat} {s : TaskRing Bool} (held : Asleep n done s) :
    Asleep (n + 1) (done + 2) (afterPop 2 (afterPush 2 s false)) := by
  have apart : (n + 1) % 2 ≠ n % 2 := by omega
  have around : (n + 1 + 1) % 2 = n % 2 := by omega
  have pushed := push_alone 2 s ([.pushClaim 0 true] :: List.replicate done []) false
    (by rw [held.tail]; exact held.first)
  have popped := pop_alone 2 (afterPush 2 s false)
    (([Section.pushClaim 0 true] :: List.replicate done []) ++ [[]])
    (by simp [afterPush, held.tail, held.head])
  have both := run_trans held.run (run_trans pushed popped)
  simp only [List.cons_append, ← List.replicate_succ'] at both
  constructor
  · exact both
  · simp [afterPop, afterPush, held.tail]
  · simp [afterPop, afterPush, held.head]
  · simp only [afterPop, afterPush, held.head, held.tail, update_of_ne apart]
    exact held.second
  · simp only [afterPop, afterPush, held.head, around, update_self]
  · simp only [afterPop, afterPush, held.claims, List.replicate_succ']

theorem asleep_run (n : Nat) : ∃ done s, Asleep n done s := by
  induction n with
  | zero => exact ⟨0, .fresh, asleep_start⟩
  | succ n before =>
    obtain ⟨done, s, held⟩ := before
    exact ⟨_, _, asleep_next held⟩

theorem asleep_overwrites {n done : Nat} {s : TaskRing Bool} (held : Asleep n done s)
    (wraps : same (n + 2) 0 = true) (even : n % 2 = 0) :
    ∃ q : Pool (TaskRing Bool) (Section Bool), Reachable (program 2) empty q ∧ q.state.head ≤ n ∧
      n < q.state.tail ∧ q.state.claims[n]? = some false ∧
      owed q = ↑[Section.pushPublish (T := Bool) 0] ∧ q.state.task (n % 2) = true := by
  have pushed := push_alone 2 s ([.pushClaim 0 true] :: List.replicate done []) false
    (by rw [held.tail]; exact held.first)
  have apart : (n + 1) % 2 ≠ n % 2 := by omega
  have again := push_alone 2 (afterPush 2 s false)
    (([Section.pushClaim 0 true] :: List.replicate done []) ++ [[]]) false
    (by simp only [afterPush, held.tail, update_of_ne apart]; exact held.second)
  have filled := run_trans held.run (run_trans pushed again)
  simp only [List.cons_append, ← List.replicate_succ'] at filled
  have claimed := reachable_section (P := program 2) (s := afterPush 2 (afterPush 2 s false) false)
    (a := .pushClaim 0 true) [] [] (List.replicate (done + 2) []) () rfl
  have mine : same (afterPush 2 (afterPush 2 s false) false).tail 0 = true := by
    simpa [afterPush, held.tail] using wraps
  simp only [program, exec, mine, if_true] at claimed
  have written := reachable_section (P := program 2) (a := .pushWrite 0 true)
    (s := { afterPush 2 (afterPush 2 s false) false with
      tail := (afterPush 2 (afterPush 2 s false) false).tail + 1,
      claims := (afterPush 2 (afterPush 2 s false) false).claims ++ [true] }) [] []
    (List.replicate (done + 2) []) () rfl
  refine ⟨_, run_trans filled (run_trans claimed written), ?_, ?_, ?_, ?_, ?_⟩
  · simp [program, exec, afterPush, held.head]
  · simp only [program, exec, afterPush, held.tail]
    omega
  · simp [program, exec, afterPush, held.claims]
  · simp [program, exec, owed]
  · simp [program, exec, even]

theorem ring_overwritten : ∃ (q : Pool (TaskRing Bool) (Section Bool)) (p : Nat),
    Reachable (program (capacityOf 2)) empty q ∧ q.state.head ≤ p ∧ p < q.state.tail ∧
      q.state.claims[p]? = some false ∧ weigh (writing p) (owed q) = 0 ∧
      q.state.task (p % capacityOf 2) = true := by
  have two : capacityOf 2 = 2 := by decide +kernel
  obtain ⟨n, wraps, even, some⟩ : ∃ n, same (n + 2) 0 = true ∧ n % 2 = 0 ∧ n ≠ 0 :=
    ⟨2 ^ 64 - 2, by decide +kernel, by decide +kernel, by decide +kernel⟩
  obtain ⟨done, s, held⟩ := asleep_run n
  obtain ⟨q, run, low, high, claims, left, task⟩ := asleep_overwrites held wraps even
  rw [two]
  refine ⟨q, n, run, low, high, claims, ?_, task⟩
  rw [left, weigh_coe]
  simp [writing, Ne.symm some]

end ShardFifo
