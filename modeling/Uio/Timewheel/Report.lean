import Uio.Timewheel.Shape

/-!
An advance reports every entry that is due, once. Each of its steps reports some due
entries and keeps the others armed, so the steps compose; what is left is that none due
stays behind. Where the readings agree, ticks follow time, so an entry that is due lies
behind the cursor once it has come to now: in the slot ahead of it, or on the heap.
-/
namespace TimewheelReport
open IndexedHeap WheelClock Timewheel TimewheelShape
open Clock (wall)
open Function (update update_apply)
variable {τ ι : Type} (cfg : Config)
variable {horizon : Nat} {e : ι}

def Armed (w : Wheel τ ι) (e : ι) : Prop := w.bucket e ≠ .notInWheel

variable [Clock τ]

theorem tickOf_eq (t : τ) :
    tickOf cfg t = (max 0 (min (wall t - unixEpoch) (2 ^ 63 - 1)) / cfg.tick).toNat := by
  have limit : lastNano - unixEpoch = 2 ^ 63 - 1 := by decide
  unfold tickOf
  split_ifs with early late
  · rw [max_eq_left (by omega), Int.zero_ediv, Int.toNat_zero]
  · rw [max_eq_right (by omega), min_eq_right (by omega)]
  · rw [max_eq_right (by omega), min_eq_left (by omega)]

theorem tickOf_mono {a b : τ} (le : wall a ≤ wall b) : tickOf cfg a ≤ tickOf cfg b := by
  rw [tickOf_eq, tickOf_eq]
  apply Int.toNat_le_toNat
  apply Int.ediv_le_ediv cfg.tick_positive
  omega

theorem lt_of_tickOf_lt {a b : τ} (lt : tickOf cfg a < tickOf cfg b) : wall a < wall b := by
  apply Int.lt_of_not_ge
  intro ge
  have mono := tickOf_mono cfg ge
  omega

/-- The slot `s` is that of tick `t`: its own within the window, or the one ahead of the
cursor when the cursor has passed it. -/
def Fits (cursor t s : Nat) : Prop :=
  t ≤ cursor + cfg.buckets ∧
    s = if t ≤ cursor then (cursor % cfg.buckets + 1) % cfg.buckets else t % cfg.buckets

/-- Each entry lies where its tick belongs; those on the heap are past `horizon`. -/
structure Placed (w : Wheel τ ι) (horizon : Nat) : Prop where
  slot : ∀ e s, w.bucket e = .slot s → Fits cfg w.cursor (tickOf cfg (w.when e)) s
  overflow : ∀ e, w.bucket e = .inOverflow → horizon < tickOf cfg (w.when e)

structure Fires (now : τ) (fired : List ι) (w after : Wheel τ ι) : Prop where
  when : after.when = w.when
  period : after.period = w.period
  earliest : after.earliest = w.earliest
  distinct : fired.Nodup
  due : ∀ e ∈ fired, Armed w e ∧ passed now (w.when e) ∧ ¬ Armed after e
  rest : ∀ e, e ∉ fired → (Armed after e ↔ Armed w e)

variable {cfg} {w : Wheel τ ι}

theorem fits_placeOf {horizon cursor t : Nat} {b : Bucket}
    (near : horizon ≤ cursor + cfg.buckets) (place : placeOf cfg cursor t = b) :
    (∀ s, b = .slot s → Fits cfg cursor t s) ∧ (b = .inOverflow → horizon < t) := by
  unfold placeOf at place
  split_ifs at place with far passed
  · subst place
    exact ⟨nofun, fun _ => by omega⟩
  · subst place
    refine ⟨fun s slot => ?_, nofun⟩
    cases slot
    exact ⟨by omega, by rw [if_pos passed]⟩
  · subst place
    refine ⟨fun s slot => ?_, nofun⟩
    cases slot
    exact ⟨by omega, by rw [if_neg passed]⟩

theorem Fires.refl (now : τ) (w : Wheel τ ι) : Fires now [] w w :=
  ⟨rfl, rfl, rfl, List.nodup_nil, by simp, fun _ _ => Iff.rfl⟩

theorem Fires.trans {now : τ} {first second : List ι} {mid after : Wheel τ ι}
    (one : Fires now first w mid) (two : Fires now second mid after) :
    Fires now (first ++ second) w after where
  when := two.when.trans one.when
  period := two.period.trans one.period
  earliest := two.earliest.trans one.earliest
  distinct := by
    rw [List.nodup_append']
    refine ⟨one.distinct, two.distinct, fun e early late => ?_⟩
    exact (one.due e early).2.2 (two.due e late).1
  due e fired := by
    rcases List.mem_append.mp fired with early | late
    · obtain ⟨armed, due, off⟩ := one.due e early
      refine ⟨armed, due, fun again => off ?_⟩
      by_cases late : e ∈ second
      · exact (two.due e late).1
      · exact (two.rest e late).mp again
    · obtain ⟨armed, due, off⟩ := two.due e late
      refine ⟨?_, one.when ▸ due, off⟩
      by_cases early : e ∈ first
      · exact (one.due e early).1
      · exact (one.rest e early).mp armed
  rest e missing := by
    rw [List.mem_append, not_or] at missing
    exact (two.rest e missing.2).trans (one.rest e missing.1)

variable [DecidableEq ι]

theorem reported_fires {now : τ} {l : List ι} {after : Wheel τ ι}
    (reported : Reported cfg now l w after) (distinct : l.Nodup) (armed : ∀ e ∈ l, Armed w e) :
    Fires now (l.filter fun x => passed now (w.when x)) w after where
  when := reported.frame.when
  period := reported.frame.period
  earliest := reported.frame.earliest
  distinct := distinct.filter _
  due e fired := by
    obtain ⟨member, late⟩ := List.mem_filter.mp fired
    refine ⟨armed e member, late, fun again => again ?_⟩
    rw [reported.bucket e, if_pos member, if_pos late]
  rest e missing := by
    unfold Armed
    rw [reported.bucket e]
    by_cases member : e ∈ l
    · have early : ¬ passed now (w.when e) = true := fun late =>
        missing (List.mem_filter.mpr ⟨member, late⟩)
      rw [if_pos member, if_neg early]
      exact ⟨fun _ => armed e member, fun _ => placeOf_in_wheel cfg _ _⟩
    · rw [if_neg member]

structure Progress (cfg : Config) (now : τ) (w : Wheel τ ι) (due : List ι)
    (r : Wheel τ ι × List ι) : Prop where
  shape : Shape cfg r.1 []
  counted : Counted r.1
  fired : ∃ fired, r.2 = due ++ fired ∧ Fires now fired w r.1

variable {now : τ} {due : List ι} {r : Wheel τ ι × List ι}

omit [DecidableEq ι] in
theorem Progress.next (progress : Progress cfg now w due r) {after : Wheel τ ι × List ι}
    (shape : Shape cfg after.1 []) (counted : Counted after.1)
    (fires : ∃ more, after.2 = r.2 ++ more ∧ Fires now more r.1 after.1) :
    Progress cfg now w due after := by
  obtain ⟨fired, out, before⟩ := progress.fired
  obtain ⟨more, out', later⟩ := fires
  exact ⟨shape, counted, fired ++ more, by rw [out', out, List.append_assoc], before.trans later⟩

omit [DecidableEq ι] in
theorem Progress.move (progress : Progress cfg now w due r) (cursor : Nat) :
    Progress cfg now w due ({ r.1 with cursor }, r.2) := by
  obtain ⟨fired, out, fires⟩ := progress.fired
  have shape := progress.shape
  exact ⟨⟨shape.ring, shape.nodup, shape.inside, shape.summary, shape.heap, shape.overflow⟩,
    progress.counted, fired, out,
    ⟨fires.when, fires.period, fires.earliest, fires.distinct, fires.due, fires.rest⟩⟩

variable [Agreeing τ]

theorem reportSlot_progress (progress : Progress cfg now w due r) (s : Nat) :
    Progress cfg now w due (reportSlot cfg now r s) ∧ Frame r.1 (reportSlot cfg now r s).1 ∧
      ∀ e, (reportSlot cfg now r s).1.bucket e = if r.1.bucket e = .slot s then
          if passed now (r.1.when e) then .notInWheel
          else placeOf cfg r.1.cursor (tickOf cfg (r.1.when e))
        else r.1.bucket e := by
  obtain ⟨l, distinct, members, reported, out⟩ :=
    reportSlot_reported now s r.1 r.2 progress.shape
  have armed : ∀ e ∈ l, Armed r.1 e := by
    intro e member
    rw [Armed, (members e).mp member]
    nofun
  refine ⟨progress.next reported.shape (reported.counted progress.counted)
    ⟨_, out, reported_fires reported distinct armed⟩, reported.frame, fun e => ?_⟩
  rw [reported.bucket e]
  simp only [members]

theorem reportSlot_placed (progress : Progress cfg now w due r)
    (near : horizon ≤ r.1.cursor + cfg.buckets) {s : Nat}
    (others : ∀ e s', s' ≠ s → r.1.bucket e = .slot s' →
      Fits cfg r.1.cursor (tickOf cfg (r.1.when e)) s')
    (overflow : ∀ e, r.1.bucket e = .inOverflow → horizon < tickOf cfg (r.1.when e)) :
    Placed cfg (reportSlot cfg now r s).1 horizon := by
  obtain ⟨_, frame, bucket⟩ := reportSlot_progress progress s
  have placed : ∀ e, r.1.bucket e = .slot s → ¬ passed now (r.1.when e) = true →
      (reportSlot cfg now r s).1.bucket e =
        placeOf cfg r.1.cursor (tickOf cfg (r.1.when e)) := by
    intro e here early
    rw [bucket e, if_pos here, if_neg early]
  constructor
  · intro e s' slot
    rw [frame.when, frame.cursor]
    by_cases here : r.1.bucket e = .slot s
    · by_cases late : passed now (r.1.when e) = true
      · rw [bucket e, if_pos here, if_pos late] at slot
        cases slot
      · exact (fits_placeOf near (placed e here late).symm).1 s' slot
    · rw [bucket e, if_neg here] at slot
      exact others e s' (by rintro rfl; exact here slot) slot
  · intro e beyond
    rw [frame.when]
    by_cases here : r.1.bucket e = .slot s
    · by_cases late : passed now (r.1.when e) = true
      · rw [bucket e, if_pos here, if_pos late] at beyond
        cases beyond
      · exact (fits_placeOf near (placed e here late).symm).2 beyond
    · rw [bucket e, if_neg here] at beyond
      exact overflow e beyond

theorem mod_succ (c n : Nat) : (c % n + 1) % n = (c + 1) % n := Nat.mod_add_mod c n 1

theorem roll_step (progress : Progress cfg now w due r)
    (placed : Placed cfg r.1 horizon) (near : horizon ≤ r.1.cursor + cfg.buckets) :
    Placed cfg (reportSlot cfg now ({ r.1 with cursor := r.1.cursor + 1 }, r.2)
      ((r.1.cursor + 1) % cfg.buckets)).1 horizon := by
  refine reportSlot_placed (progress.move _) (by dsimp only; omega) (fun e s other slot => ?_)
    placed.overflow
  obtain ⟨most, here⟩ := placed.slot e s slot
  dsimp only
  by_cases passed : tickOf cfg (r.1.when e) ≤ r.1.cursor
  · rw [if_pos passed, mod_succ] at here
    exact absurd here other
  · rw [if_neg passed] at here
    have ahead : tickOf cfg (r.1.when e) ≠ r.1.cursor + 1 := by
      intro same
      rw [same] at here
      exact other here
    exact ⟨by omega, by rw [if_neg (by omega)]; exact here⟩

theorem roll_progress (ticks : Nat) (progress : Progress cfg now w due r)
    (placed : Placed cfg r.1 horizon) (near : horizon ≤ r.1.cursor + cfg.buckets) :
    Progress cfg now w due (roll cfg now ticks r) ∧ Placed cfg (roll cfg now ticks r).1 horizon ∧
      (roll cfg now ticks r).1.cursor = r.1.cursor + ticks := by
  induction ticks generalizing r with
  | zero => exact ⟨progress, placed, rfl⟩
  | succ ticks ih =>
    obtain ⟨stepped, frame, _⟩ := reportSlot_progress (progress.move (r.1.cursor + 1))
      ((r.1.cursor + 1) % cfg.buckets)
    have cursor := frame.cursor
    dsimp only at cursor
    obtain ⟨rolled, placed', last⟩ := ih stepped (roll_step progress placed near)
      (by rw [cursor]; omega)
    exact ⟨rolled, placed', by rw [roll, last, cursor]; omega⟩

def RingDue (now : τ) (w : Wheel τ ι) : Prop :=
  ∀ e s, w.bucket e = .slot s → passed now (w.when e) = true

theorem reportSlot_empties (progress : Progress cfg now w due r) (all : RingDue now r.1) (s : Nat) :
    RingDue now (reportSlot cfg now r s).1 ∧
      ∀ e s', (reportSlot cfg now r s).1.bucket e = .slot s' →
        r.1.bucket e = .slot s' ∧ s' ≠ s := by
  obtain ⟨_, frame, bucket⟩ := reportSlot_progress progress s
  have kept : ∀ e s', (reportSlot cfg now r s).1.bucket e = .slot s' →
      r.1.bucket e = .slot s' ∧ s' ≠ s := by
    intro e s' slot
    rw [bucket e] at slot
    by_cases here : r.1.bucket e = .slot s
    · rw [if_pos here, if_pos (all e s here)] at slot
      cases slot
    · rw [if_neg here] at slot
      exact ⟨slot, by rintro rfl; exact here slot⟩
  refine ⟨fun e s' slot => ?_, kept⟩
  rw [frame.when]
  exact all e s' (kept e s' slot).1

theorem reportSlots_empty (slots : List Nat) (progress : Progress cfg now w due r)
    (all : RingDue now r.1) : Progress cfg now w due (slots.foldl (reportSlot cfg now) r) ∧
      RingDue now (slots.foldl (reportSlot cfg now) r).1 ∧
      Frame r.1 (slots.foldl (reportSlot cfg now) r).1 ∧
      (∀ e, (slots.foldl (reportSlot cfg now) r).1.bucket e = .inOverflow →
        r.1.bucket e = .inOverflow) ∧
      ∀ e s', (slots.foldl (reportSlot cfg now) r).1.bucket e = .slot s' →
        r.1.bucket e = .slot s' ∧ s' ∉ slots := by
  induction slots generalizing r with
  | nil => exact ⟨progress, all, ⟨rfl, rfl, rfl, rfl, rfl⟩, fun _ => id, by simp⟩
  | cons s slots ih =>
    obtain ⟨stepped, frame, bucket⟩ := reportSlot_progress progress s
    obtain ⟨all', kept⟩ := reportSlot_empties progress all s
    obtain ⟨swept, all'', frame', beyond, kept'⟩ := ih stepped all'
    refine ⟨swept, all'', frame'.after frame, fun e on => ?_, fun e s' slot => ?_⟩
    · have before := beyond e on
      rw [bucket e] at before
      by_cases here : r.1.bucket e = .slot s
      · rw [if_pos here, if_pos (all e s here)] at before
        cases before
      · rwa [if_neg here] at before
    · obtain ⟨slot', missing⟩ := kept' e s' slot
      obtain ⟨slot'', other⟩ := kept e s' slot'
      exact ⟨slot'', by simp [other, missing]⟩

omit [DecidableEq ι] [Agreeing τ] in
theorem slot_tested (shape : Shape cfg w []) {s : Nat} (slot : w.bucket e = .slot s) :
    s % 64 ∈ Bitmap.setBits (w.summary (s / 64)) := by
  have member : e ∈ w.ring s := (shape.ring s e).mpr ⟨slot, List.not_mem_nil⟩
  exact Bitmap.mem_setBits.mpr ((shape.summary s).mpr (List.ne_nil_of_mem member))

theorem sweepWords_empty (ws : List Nat) (progress : Progress cfg now w due r)
    (all : RingDue now r.1) : Progress cfg now w due (ws.foldl (sweepWord cfg now) r) ∧
      Frame r.1 (ws.foldl (sweepWord cfg now) r).1 ∧
      (∀ e, (ws.foldl (sweepWord cfg now) r).1.bucket e = .inOverflow →
        r.1.bucket e = .inOverflow) ∧ ∀ e s, (ws.foldl (sweepWord cfg now) r).1.bucket e = .slot s →
        r.1.bucket e = .slot s ∧ s / 64 ∉ ws := by
  induction ws generalizing r with
  | nil => exact ⟨progress, ⟨rfl, rfl, rfl, rfl, rfl⟩, fun _ => id, by simp⟩
  | cons word ws ih =>
    have split : sweepWord cfg now r word =
        ((Bitmap.setBits (r.1.summary word)).map (word * 64 + ·)).foldl (reportSlot cfg now) r := by
      rw [List.foldl_map]
      rfl
    obtain ⟨swept, all', frame, beyond, kept⟩ :=
      reportSlots_empty ((Bitmap.setBits (r.1.summary word)).map (word * 64 + ·)) progress all
    rw [← split] at swept all' frame beyond kept
    obtain ⟨swept', frame', over', kept'⟩ := ih swept all'
    refine ⟨swept', frame'.after frame, fun e on => beyond e (over' e on), fun e s slot => ?_⟩
    obtain ⟨slot', missing⟩ := kept' e s slot
    obtain ⟨slot'', unnamed⟩ := kept e s slot'
    refine ⟨slot'', fun member => ?_⟩
    rcases List.mem_cons.mp member with here | later
    · have named := slot_tested progress.shape slot''
      rw [here] at named
      exact unnamed (List.mem_map.mpr ⟨s % 64, named, by omega⟩)
    · exact missing later

theorem turn_progress (progress : Progress cfg now w due r)
    (placed : Placed cfg r.1 (r.1.cursor + cfg.buckets)) : Progress cfg now w due (turn cfg now r) ∧
      Placed cfg (turn cfg now r).1 (r.1.cursor + cfg.buckets) ∧
      r.1.cursor ≤ (turn cfg now r).1.cursor ∧ tickOf cfg now ≤ (turn cfg now r).1.cursor := by
  unfold turn
  dsimp only
  split_ifs with gap
  · have all : RingDue now r.1 := by
      intro e s slot
      have most := (placed.slot e s slot).1
      exact passed_iff.mpr (Int.le_of_lt (lt_of_tickOf_lt cfg (by omega)))
    obtain ⟨swept, frame, beyond, kept⟩ := sweepWords_empty (List.range (words cfg))
      (progress.move (tickOf cfg now - cfg.buckets)) all
    have empty : ∀ e s, (sweep cfg now
        ({ r.1 with cursor := tickOf cfg now - cfg.buckets }, r.2)).1.bucket e ≠ .slot s := by
      intro e s slot
      obtain ⟨slot', missing⟩ := kept e s slot
      have inside := progress.shape.inside e s slot'
      refine missing (List.mem_range.mpr ?_)
      unfold words
      omega
    refine ⟨swept.move _, ⟨fun e s slot => absurd slot (empty e s), fun e on => ?_⟩, by
      dsimp only; omega, le_rfl⟩
    have when := frame.when
    dsimp only [sweep] at when ⊢
    rw [when]
    exact placed.overflow e (beyond e on)
  · obtain ⟨rolled, placed', cursor⟩ := roll_progress (tickOf cfg now - r.1.cursor) progress placed
      le_rfl
    exact ⟨rolled, placed', by omega, by omega⟩

/-- The cached moment is the least deadline, and zero if none is armed. -/
structure Earliest (w : Wheel τ ι) : Prop where
  least : ∀ e, Armed w e → ¬ IsZero w.earliest ∧ wall w.earliest ≤ wall (w.when e)
  attained : ¬ IsZero w.earliest → ∃ e, Armed w e ∧ w.when e = w.earliest

omit [DecidableEq ι] [Agreeing τ] in
theorem Fires.armed_before {fired : List ι} {after : Wheel τ ι} (fires : Fires now fired w after)
    (armed : Armed after e) : Armed w e := by
  by_cases out : e ∈ fired
  · exact absurd armed (fires.due e out).2.2
  · exact (fires.rest e out).mp armed

omit [Clock τ] [DecidableEq ι] [Agreeing τ] in
theorem count_positive (counted : Counted w) (armed : Armed w e) : 0 < w.count := by
  have nonneg := counted_nonneg counted
  have nonzero : w.count ≠ 0 := fun zero => armed ((counted_zero counted).mp zero e)
  omega

def RingLater (now : τ) (w : Wheel τ ι) : Prop :=
  ∀ e s, w.bucket e = .slot s → before now (w.when e) = true

theorem reportParked_progress (earliest : Earliest w) (progress : Progress cfg now w due r)
    (placed : Placed cfg r.1 horizon)
    (near : horizon ≤ r.1.cursor + cfg.buckets) (come : tickOf cfg now ≤ r.1.cursor) :
    Progress cfg now w due (reportParked cfg now r) ∧
      Placed cfg (reportParked cfg now r).1 horizon ∧
      (reportParked cfg now r).1.cursor = r.1.cursor ∧
      RingLater now (reportParked cfg now r).1 := by
  unfold reportParked
  split_ifs with due_now
  · obtain ⟨reported, frame, bucket⟩ := reportSlot_progress progress (nextSlot cfg r.1)
    refine ⟨reported, ?_, frame.cursor, fun e s slot => ?_⟩
    · exact reportSlot_placed progress near (fun e s _ slot => placed.slot e s slot)
        placed.overflow
    rw [frame.when]
    rw [bucket e] at slot
    by_cases here : r.1.bucket e = .slot (nextSlot cfg r.1)
    · rw [if_pos here] at slot
      by_cases late : passed now (r.1.when e) = true
      · rw [if_pos late] at slot
        cases slot
      · exact not_passed.mp late
    · rw [if_neg here] at slot
      obtain ⟨_, own⟩ := placed.slot e s slot
      apply before_iff.mpr (lt_of_tickOf_lt cfg ?_)
      by_cases passed : tickOf cfg (r.1.when e) ≤ r.1.cursor
      · rw [if_pos passed] at own
        subst own
        exact absurd slot here
      · omega
  · refine ⟨progress, placed, rfl, fun e s slot => ?_⟩
    obtain ⟨fired, _, fires⟩ := progress.fired
    have armed : Armed r.1 e := by
      rw [Armed, slot]
      nofun
    obtain ⟨nonzero, least⟩ := earliest.least e (fires.armed_before armed)
    have positive := count_positive progress.counted armed
    have same := fires.earliest
    have when := congrFun fires.when e
    have waits : ¬ passed now r.1.earliest = true := fun le => due_now ⟨positive, same ▸ nonzero, le⟩
    rw [passed_iff, same] at waits
    rw [before_iff, when]
    omega

theorem promote_step (progress : Progress cfg now w due r)
    (placed : Placed cfg r.1 horizon) (near : horizon ≤ r.1.cursor + cfg.buckets)
    (later : RingLater now r.1) (some_left : 0 < r.1.overflow.size)
    (top : r.1.overflow.item 0 = e) {after : Wheel τ ι × List ι}
    (step : after =
      let popped := setBucket { r.1 with overflow := pop (sooner r.1) r.1.overflow } e .notInWheel
      if passed now (r.1.when e) then ({ popped with count := popped.count - 1 }, r.2 ++ [e])
      else (link cfg popped e, r.2)) :
    Progress cfg now w due after ∧ Placed cfg after.1 horizon ∧ after.1.cursor = r.1.cursor ∧
      RingLater now after.1 ∧
      (passed now (r.1.when e) = true ∨ tickOf cfg (r.1.when e) ≤ r.1.cursor + cfg.buckets →
        after.1.overflow.size = r.1.overflow.size - 1) := by
  have shape := progress.shape
  obtain ⟨sound, places⟩ := pop_sound sooner_byKey shape.heap some_left
  rw [top] at places
  have held : r.1.overflow.place e ≠ 0 :=
    (mem_iff shape.heap.indexed e).mpr ⟨0, some_left, top⟩
  have on : r.1.bucket e = .inOverflow := by
    by_contra off
    exact held ((shape.overflow e).mpr off)
  have popped := remove_shape shape on sound places
  by_cases late : passed now (r.1.when e) = true
  · simp only [if_pos late] at step
    obtain ⟨out, rfl, bucket, frame, count, shape', size⟩ : ∃ out : Wheel τ ι,
        after = (out, r.2 ++ [e]) ∧
          out.bucket = update r.1.bucket e .notInWheel ∧ Frame r.1 out ∧
          out.count = r.1.count - 1 ∧ Shape cfg out [] ∧
          out.overflow.size = r.1.overflow.size - 1 :=
      ⟨_, step, rfl, ⟨rfl, rfl, rfl, rfl, rfl⟩, rfl, shape_count popped _, pop_size _⟩
    have counted := counted_erase progress.counted (by rw [on]; nofun) bucket count
    refine ⟨progress.next shape' counted ⟨[e], rfl, ?_⟩, ⟨fun x s slot => ?_, fun x beyond => ?_⟩,
      frame.cursor, fun x s slot => ?_, fun _ => size⟩
    · refine ⟨frame.when, frame.period, frame.earliest, by simp, fun x same => ?_, fun x other => ?_⟩
      · rw [List.mem_singleton.mp same, Armed, Armed, on, bucket]
        exact ⟨nofun, late, by simp⟩
      · rw [Armed, Armed, bucket, Function.update_of_ne (by simpa using other)]
    all_goals
      rw [frame.when]
      simp only [bucket, update_apply] at *
    · rw [frame.cursor]
      split_ifs at slot
      exact placed.slot x s slot
    · split_ifs at beyond
      exact placed.overflow x beyond
    · split_ifs at slot
      exact later x s slot
  · simp only [if_neg late] at step
    obtain ⟨out, rfl, bucket, frame, count, shape', size⟩ : ∃ out : Wheel τ ι,
        after = (link cfg out e, r.2) ∧
          out.bucket = update r.1.bucket e .notInWheel ∧ Frame r.1 out ∧
          out.count = r.1.count ∧ Shape cfg out [] ∧
          out.overflow.size = r.1.overflow.size - 1 :=
      ⟨_, step, rfl, ⟨rfl, rfl, rfl, rfl, rfl⟩, rfl, popped, pop_size _⟩
    have linked : (link cfg out e).bucket =
        update r.1.bucket e (placeOf cfg r.1.cursor (tickOf cfg (r.1.when e))) := by
      rw [link_bucket, frame.cursor, frame.when, bucket, Function.update_idem]
    have frame' : Frame r.1 (link cfg out e) := link_frame.after frame
    have shape'' := link_shape shape' (by rw [bucket, Function.update_self]) List.not_mem_nil
    have held' := placeOf_in_wheel cfg r.1.cursor (tickOf cfg (r.1.when e))
    have same : ∀ x, Armed (link cfg out e) x ↔ Armed r.1 x := by
      intro x
      rw [Armed, Armed, linked, update_apply]
      split_ifs with here
      · rw [here, on]
        exact ⟨fun _ => nofun, fun _ => held'⟩
      · rfl
    have counted := counted_congr progress.counted (fun x => not_iff_not.mp (same x))
      (link_count.trans count)
    refine ⟨progress.next shape'' counted ⟨[], by simp, ?_⟩, ⟨fun x s slot => ?_, fun x beyond => ?_⟩,
      frame'.cursor, fun x s slot => ?_, fun inside => ?_⟩
    · exact ⟨frame'.when, frame'.period, frame'.earliest, List.nodup_nil, by simp,
        fun x _ => same x⟩
    · rw [frame'.when, frame'.cursor]
      rw [linked, update_apply] at slot
      split_ifs at slot with here
      · exact here ▸ (fits_placeOf near rfl).1 s slot
      · exact placed.slot x s slot
    · rw [frame'.when]
      rw [linked, update_apply] at beyond
      split_ifs at beyond with here
      · exact here ▸ (fits_placeOf near rfl).2 beyond
      · exact placed.overflow x beyond
    · rw [frame'.when]
      rw [linked, update_apply] at slot
      split_ifs at slot with here
      · rw [here]
        exact not_passed.mp late
      · exact later x s slot
    · have ring : (link cfg out e).overflow = out.overflow := by
        unfold link
        have near : tickOf cfg (r.1.when e) ≤ r.1.cursor + cfg.buckets := inside.resolve_left late
        rw [frame.cursor, frame.when, if_neg (by omega)]
        split_ifs <;> rfl
      rw [ring, size]

structure Settled (cfg : Config) (now : τ) (w : Wheel τ ι) : Prop where
  placed : Placed cfg w (w.cursor + cfg.buckets)
  later : ∀ e, Armed w e → before now (w.when e) = true

omit [DecidableEq ι] [Agreeing τ] in
theorem settled_of_heap (placed : Placed cfg w horizon) (later : RingLater now w)
    (far : ∀ e, w.bucket e = .inOverflow →
      before now (w.when e) = true ∧ w.cursor + cfg.buckets < tickOf cfg (w.when e)) : Settled cfg now w := by
  refine ⟨⟨placed.slot, fun e on => (far e on).2⟩, fun e armed => ?_⟩
  cases bucket : w.bucket e with
  | notInWheel => exact absurd bucket armed
  | inOverflow => exact (far e bucket).1
  | slot s => exact later e s bucket

omit [DecidableEq ι] [Agreeing τ] in
theorem top_least (shape : Shape cfg w []) (on : w.bucket e = .inOverflow) :
    0 < w.overflow.size ∧ wall (w.when (w.overflow.item 0)) ≤ wall (w.when e) := by
  obtain ⟨k, hk, here⟩ := (mem_iff shape.heap.indexed e).mp (on_heap shape on)
  exact ⟨by omega, here ▸ top_le shape.heap.ordered k hk⟩

theorem promote_progress (fuel : Nat) (enough : r.1.overflow.size ≤ fuel)
    (progress : Progress cfg now w due r) (placed : Placed cfg r.1 horizon)
    (near : horizon ≤ r.1.cursor + cfg.buckets) (later : RingLater now r.1) :
    Progress cfg now w due (promote cfg now fuel r) ∧
      Settled cfg now (promote cfg now fuel r).1 := by
  induction fuel generalizing r with
  | zero =>
    refine ⟨progress, settled_of_heap placed later fun e on => ?_⟩
    have top := (top_least progress.shape on).1
    omega
  | succ fuel ih =>
    unfold promote
    dsimp only
    by_cases empty : r.1.overflow.size = 0
    · rw [if_pos empty]
      refine ⟨progress, settled_of_heap placed later fun e on => ?_⟩
      have top := (top_least progress.shape on).1
      omega
    rw [if_neg empty]
    by_cases far : before now (r.1.when (r.1.overflow.item 0)) = true ∧
        r.1.cursor + cfg.buckets < tickOf cfg (r.1.when (r.1.overflow.item 0))
    · rw [if_pos far]
      refine ⟨progress, settled_of_heap placed later fun e on => ?_⟩
      have least := (top_least progress.shape on).2
      have ticks := tickOf_mono cfg least
      rw [before_iff] at far ⊢
      omega
    · rw [if_neg far, ← apply_ite (promote cfg now fuel)]
      obtain ⟨progress', placed', cursor, later', size⟩ :=
        promote_step progress placed near later (by omega) rfl rfl
      have smaller := size (by
        rw [← not_passed] at far
        by_contra none_holds
        rw [not_or] at none_holds
        exact far ⟨none_holds.1, by omega⟩)
      dsimp only at smaller
      exact ih (by omega) progress' placed' (by rw [cursor]; exact near) later'

theorem collect_settles (earliest : Earliest w) (shape : Shape cfg w []) (counted : Counted w)
    (placed : Placed cfg w (w.cursor + cfg.buckets)) (now : τ) (due : List ι) :
    Progress cfg now w due (collect cfg w now due) ∧ Settled cfg now (collect cfg w now due).1 := by
  have progress : Progress cfg now w due (w, due) :=
    ⟨shape, counted, [], by simp, Fires.refl now w⟩
  obtain ⟨progress', placed', ahead, come⟩ := turn_progress progress placed
  dsimp only at ahead placed'
  obtain ⟨progress'', placed'', cursor, later⟩ :=
    reportParked_progress earliest progress' placed' (by omega) come
  exact promote_progress _ le_rfl progress'' placed'' (by omega) later

end TimewheelReport
