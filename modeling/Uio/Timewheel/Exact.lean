import Uio.Timewheel.Report

/-!
What holds of a wheel after any history. The cached moment is the least armed deadline,
which the cyclic search of the summary and the top of the heap find, so the clock is
never aimed late; and an advance reports exactly what is due. Both rest on the readings
of a time being a fixed distance apart, and both fail when the wall clock is set while
the monotonic one runs on. The zero time stands for no deadline, so a clock from before
it can bring a periodic entry onto it.
-/
namespace TimewheelExact
open IndexedHeap WheelClock Timewheel TimewheelShape TimewheelReport
open Clock (wall zero add)
open Function (update update_apply update_of_ne update_self)
variable {τ ι : Type} [Clock τ] {cfg : Config} {w : Wheel τ ι}

/-- A moment from the zero time on, with room for any duration behind it. -/
def Ordinary (now : τ) : Prop := 0 ≤ wall now ∧ wall now + 2 ^ 63 ≤ lastSecond * 10 ^ 9

variable [Agreeing τ]

theorem wall_add_eq {t : τ} {d : Int} (room : wall t + d ≤ lastSecond * 10 ^ 9) :
    wall (add t d) = wall t + d := by
  rw [Agreeing.wall_add, addWall, if_neg (by omega)]

theorem next_after {now t : τ} {d : Int64} (ordinary : Ordinary now) (due : passed now t = true)
    (positive : 0 < d.toInt) :
    let next := if passed now (add t d.toInt) then add now d.toInt else add t d.toInt
    wall now < wall next ∧ wall next ≤ wall now + d.toInt := by
  have most := Int64.toInt_lt d
  obtain ⟨_, room⟩ := ordinary
  rw [passed_iff] at due
  simp only [passed_iff]
  split_ifs with late
  · rw [wall_add_eq (by omega)]
    omega
  · rw [wall_add_eq (by omega)] at late ⊢
    omega

theorem foldl_earlier (when : ι → τ) (l : List ι) (nonzero : ∀ e ∈ l, ¬ IsZero (when e)) (top : τ) :
    let best := l.foldl (fun best e => earlier best (when e)) top
    (∀ e ∈ l, ¬ IsZero best ∧ wall best ≤ wall (when e)) ∧
      (¬ IsZero top → ¬ IsZero best ∧ wall best ≤ wall top) ∧
      (best = top ∨ ∃ e ∈ l, best = when e) := by
  induction l generalizing top with
  | nil => simp
  | cons e l ih =>
    obtain ⟨members, start, found⟩ := ih (fun x member => nonzero x (by simp [member]))
      (earlier top (when e))
    have here := nonzero e (by simp)
    rw [List.foldl_cons]
    generalize l.foldl (fun best e => earlier best (when e)) (earlier top (when e)) = best at *
    unfold earlier at start found
    simp only [before_iff] at start found
    refine ⟨fun x member => ?_, fun held => ?_, ?_⟩
    · rcases List.mem_cons.mp member with rfl | later
      · split_ifs at start <;> grind -ring -linarith
      · exact members x later
    · split_ifs at start <;> grind -ring -linarith
    · split_ifs at found <;> grind -ring -linarith

theorem rank_of_fits {cursor t s : Nat} (fits : Fits cfg cursor t s) :
    (if (cursor % cfg.buckets + 1) % cfg.buckets ≤ s then
        s - (cursor % cfg.buckets + 1) % cfg.buckets
      else s + cfg.buckets - (cursor % cfg.buckets + 1) % cfg.buckets) = t - (cursor + 1) := by
  obtain ⟨most, here⟩ := fits
  have positive := cfg.buckets_positive
  split_ifs at here with passed
  · rw [here, if_pos le_rfl]
    omega
  · have inside : (cursor + 1) % cfg.buckets < cfg.buckets := Nat.mod_lt _ positive
    have split : t % cfg.buckets = ((cursor + 1) % cfg.buckets + (t - (cursor + 1))) % cfg.buckets := by
      rw [Nat.mod_add_mod]
      congr 1
      omega
    rw [Bitmap.mod_add inside (by omega)] at split
    rw [mod_succ, here, split]
    split_ifs <;> omega

omit [Agreeing τ] in
theorem firstOccupied_least (shape : Shape cfg w [])
    (placed : Placed cfg w (w.cursor + cfg.buckets)) :
    match firstOccupied cfg w with
    | none => ∀ e s, w.bucket e ≠ .slot s
    | some s => ∃ e ∈ w.ring s, ∀ x r, w.bucket x = .slot r →
        x ∈ w.ring s ∨ wall (w.when e) < wall (w.when x) := by
  have inside : nextSlot cfg w < cfg.buckets := Nat.mod_lt _ cfg.buckets_positive
  have first := Bitmap.first_spec (m := w.summary)
    (show nextSlot cfg w / 64 < words cfg by unfold words; omega)
  have tested : ∀ x r, w.bucket x = .slot r →
      r / 64 < words cfg ∧ Bitmap.test w.summary r = true := by
    intro x r slot
    have small := shape.inside x r slot
    have member : x ∈ w.ring r := (shape.ring r x).mpr ⟨slot, List.not_mem_nil⟩
    exact ⟨by unfold words; omega, (shape.summary r).mpr (List.ne_nil_of_mem member)⟩
  unfold firstOccupied
  cases found : Bitmap.first w.summary (words cfg) (nextSlot cfg w) with
  | none =>
    rw [found] at first
    intro e s slot
    have clear := first s (tested e s slot).1
    rw [(tested e s slot).2] at clear
    cases clear
  | some s =>
    rw [found] at first
    obtain ⟨_, set, least⟩ := first
    obtain ⟨e, member⟩ := List.exists_mem_of_ne_nil _ ((shape.summary s).mp set)
    refine ⟨e, member, fun x r slot => ?_⟩
    have own := ((shape.ring s e).mp member).1
    have before := least r (tested x r slot).1 (tested x r slot).2
    by_cases same : r = s
    · left
      exact (shape.ring s x).mpr ⟨same ▸ slot, List.not_mem_nil⟩
    · right
      apply lt_of_tickOf_lt cfg
      have small := shape.inside x r slot
      have small' := shape.inside e s own
      have words_most : cfg.buckets ≤ words cfg * 64 := by
        unfold words
        omega
      have mine := rank_of_fits (placed.slot e s own)
      have theirs := rank_of_fits (placed.slot x r slot)
      unfold Bitmap.rank nextSlot at before
      unfold nextSlot at inside
      split_ifs at before mine theirs <;> omega

theorem earliestHeld_least (shape : Shape cfg w [])
    (placed : Placed cfg w (w.cursor + cfg.buckets)) (nonzero : ∀ e, Armed w e → ¬ IsZero (w.when e)) :
    (∀ e, Armed w e →
      ¬ IsZero (earliestHeld cfg w) ∧ wall (earliestHeld cfg w) ≤ wall (w.when e)) ∧
      (¬ IsZero (earliestHeld cfg w) → ∃ e, Armed w e ∧ w.when e = earliestHeld cfg w) := by
  generalize heap : (if 0 < w.overflow.size then w.when (w.overflow.item 0) else zero) = top
  have top_armed : 0 < w.overflow.size → Armed w (w.overflow.item 0) := by
    intro some_left off
    have held := (mem_iff shape.heap.indexed _).mpr ⟨0, some_left, rfl⟩
    exact held ((shape.overflow _).mpr (by rw [off]; simp))
  have beyond : ∀ e, w.bucket e = .inOverflow → ¬ IsZero top ∧ wall top ≤ wall (w.when e) := by
    intro e on
    obtain ⟨some_left, least⟩ := top_least shape on
    rw [if_pos some_left] at heap
    rw [← heap]
    exact ⟨nonzero _ (top_armed some_left), least⟩
  have from_heap : ¬ IsZero top → ∃ e, Armed w e ∧ w.when e = top := by
    intro held
    split_ifs at heap with some_left
    · exact ⟨_, top_armed some_left, heap⟩
    · exact absurd (heap ▸ Agreeing.wall_zero) held
  have first := firstOccupied_least shape placed
  unfold earliestHeld
  rw [heap]
  cases found : firstOccupied cfg w with
  | none =>
    rw [found] at first
    refine ⟨fun e armed => ?_, from_heap⟩
    cases bucket : w.bucket e with
    | notInWheel => exact absurd bucket armed
    | inOverflow => exact beyond e bucket
    | slot s => exact absurd bucket (first e s)
  | some s =>
    rw [found] at first
    obtain ⟨e, member, least⟩ := first
    have in_slot : ∀ x ∈ w.ring s, Armed w x := by
      intro x here
      rw [Armed, ((shape.ring s x).mp here).1]
      simp
    obtain ⟨members, start, attained⟩ := foldl_earlier w.when (w.ring s)
      (fun x here => nonzero x (in_slot x here)) top
    dsimp only at members start attained ⊢
    generalize (w.ring s).foldl (fun best e => earlier best (w.when e)) top = best at *
    refine ⟨fun x armed => ?_, fun held => ?_⟩
    · cases bucket : w.bucket x with
      | notInWheel => exact absurd bucket armed
      | inOverflow =>
        obtain ⟨held, below⟩ := beyond x bucket
        obtain ⟨held', below'⟩ := start held
        exact ⟨held', Int.le_trans below' below⟩
      | slot r =>
        rcases least x r bucket with here | later
        · exact members x here
        · obtain ⟨held, below⟩ := members e member
          exact ⟨held, by omega⟩
    · rcases attained with same | ⟨x, here, same⟩
      · rw [same] at held ⊢
        exact from_heap held
      · exact ⟨x, in_slot x here, same.symm⟩

structure Sane (cfg : Config) (w : Wheel τ ι) : Prop where
  shape : Shape cfg w []
  counted : Counted w
  placed : Placed cfg w (w.cursor + cfg.buckets)
  nonzero : ∀ e, Armed w e → ¬ IsZero (w.when e)
  earliest : Earliest w
  aimed : w.aimed = w.earliest

structure Stale (cfg : Config) (w : Wheel τ ι) : Prop where
  shape : Shape cfg w []
  counted : Counted w
  placed : Placed cfg w (w.cursor + cfg.buckets)
  nonzero : ∀ e, Armed w e → ¬ IsZero (w.when e)

theorem rearmEarliest_sane (stale : Stale cfg w) : Sane cfg (rearmEarliest cfg w) := by
  have shape := stale.shape
  obtain ⟨least, attained⟩ := earliestHeld_least shape stale.placed stale.nonzero
  refine ⟨⟨shape.ring, shape.nodup, shape.inside, shape.summary, shape.heap, shape.overflow⟩,
    stale.counted, ⟨stale.placed.slot, stale.placed.overflow⟩, stale.nonzero,
    ⟨fun e armed => ?_, fun held => ?_⟩, rfl⟩
  · have some_left : w.count ≠ 0 := fun zero => armed ((counted_zero stale.counted).mp zero e)
    unfold rearmEarliest
    rw [if_neg some_left]
    exact least e armed
  · unfold rearmEarliest at held ⊢
    dsimp only at held ⊢
    split_ifs at held ⊢
    · exact absurd Agreeing.wall_zero held
    · exact attained held

theorem new_sane [Inhabited ι] (now : τ) : Sane cfg (new cfg now : Wheel τ ι) where
  shape :=
    { ring := by simp [new]
      nodup := by simp [new]
      inside := nofun
      summary := by simp [new, Bitmap.test]
      heap := ⟨⟨by simp [new], by simp [new]⟩, by simp [new, Ordered]⟩
      overflow := by simp [new] }
  counted := ⟨∅, by simp [new], rfl⟩
  placed := ⟨nofun, nofun⟩
  nonzero e armed := absurd rfl armed
  earliest := ⟨fun e armed => absurd rfl armed, fun held => absurd Agreeing.wall_zero held⟩
  aimed := rfl

variable [DecidableEq ι]

omit [Agreeing τ] in
theorem retime_stale (stale : Stale cfg w) {e : ι} (out : w.bucket e = .notInWheel) (t : τ)
    (period : ι → Int64) :
    Stale cfg { w with when := update w.when e t, period := period } := by
  have shape := stale.shape
  have same : ∀ x, w.bucket x ≠ .notInWheel → update w.when e t x = w.when x := by
    intro x held
    apply update_of_ne
    rintro rfl
    exact held out
  refine ⟨⟨shape.ring, shape.nodup, shape.inside, shape.summary, ?_, shape.overflow⟩,
    stale.counted, ⟨fun x s slot => ?_, fun x on => ?_⟩, fun x armed => ?_⟩
  · apply shape.heap.congr
    intro x on
    apply congrArg wall
    apply same
    intro off
    exact on ((shape.overflow x).mpr (by rw [off]; nofun))
  · dsimp only
    rw [same x (by rw [slot]; nofun)]
    exact stale.placed.slot x s slot
  · dsimp only
    rw [same x (by rw [on]; nofun)]
    exact stale.placed.overflow x on
  · dsimp only
    rw [same x armed]
    exact stale.nonzero x armed

theorem attach_stale (stale : Stale cfg w) {e : ι} (out : w.bucket e = .notInWheel)
    (held : ¬ IsZero (w.when e)) : Stale cfg (attach cfg w e) ∧ Frame w (attach cfg w e) ∧
      ∀ x, Armed (attach cfg w e) x ↔ x = e ∨ Armed w x := by
  have bucket : (attach cfg w e).bucket =
      update w.bucket e (placeOf cfg w.cursor (tickOf cfg (w.when e))) := link_bucket
  have frame : Frame w (attach cfg w e) := by
    have linked : Frame w (link cfg w e) := link_frame
    exact ⟨linked.cursor, linked.when, linked.period, linked.earliest, linked.aimed⟩
  have armed : ∀ x, Armed (attach cfg w e) x ↔ x = e ∨ Armed w x := by
    intro x
    rw [Armed, Armed, bucket, update_apply]
    split_ifs with same
    · simp [same, placeOf_in_wheel]
    · simp [same]
  refine ⟨⟨?_, ?_, ⟨fun x s slot => ?_, fun x on => ?_⟩, fun x here => ?_⟩, frame, armed⟩
  · exact shape_count (link_shape stale.shape out List.not_mem_nil) _
  · exact counted_insert stale.counted out (placeOf_in_wheel cfg _ _) bucket
      (congrArg (· + 1) link_count)
  · rw [frame.cursor, frame.when]
    rw [bucket, update_apply] at slot
    split_ifs at slot with same
    · exact same ▸ (fits_placeOf le_rfl rfl).1 s slot
    · exact stale.placed.slot x s slot
  · rw [frame.cursor, frame.when]
    rw [bucket, update_apply] at on
    split_ifs at on with same
    · exact same ▸ (fits_placeOf le_rfl rfl).2 on
    · exact stale.placed.overflow x on
  · rw [frame.when]
    rcases (armed x).mp here with rfl | old
    · exact held
    · exact stale.nonzero x old

theorem detach_stale (stale : Stale cfg w) (e : ι) :
    Stale cfg (detach w e) ∧ Frame w (detach w e) ∧ (detach w e).bucket e = .notInWheel ∧
      ∀ x, Armed (detach w e) x ↔ x ≠ e ∧ Armed w x := by
  obtain ⟨shape, bucket, frame, counted⟩ := detach_shape stale.shape e
  have armed : ∀ x, Armed (detach w e) x ↔ x ≠ e ∧ Armed w x := by
    intro x
    rw [Armed, Armed, bucket, update_apply]
    split_ifs with same
    · simp [same]
    · simp [same]
  refine ⟨⟨shape, counted stale.counted, ⟨fun x s slot => ?_, fun x on => ?_⟩, fun x here => ?_⟩,
    frame, by rw [bucket, update_self], armed⟩
  · rw [frame.cursor, frame.when]
    rw [bucket, update_apply] at slot
    split_ifs at slot
    exact stale.placed.slot x s slot
  · rw [frame.cursor, frame.when]
    rw [bucket, update_apply] at on
    split_ifs at on
    exact stale.placed.overflow x on
  · rw [frame.when]
    exact stale.nonzero x ((armed x).mp here).2

omit [Agreeing τ] [DecidableEq ι] in
theorem Sane.stale (sane : Sane cfg w) : Stale cfg w :=
  ⟨sane.shape, sane.counted, sane.placed, sane.nonzero⟩

theorem cancel_sane (sane : Sane cfg w) (e : ι) :
    Sane cfg (cancel cfg w e) ∧ (cancel cfg w e).when = w.when ∧
      ∀ x, Armed (cancel cfg w e) x ↔ x ≠ e ∧ Armed w x := by
  obtain ⟨stale, frame, _, armed⟩ := detach_stale sane.stale e
  unfold cancel
  dsimp only
  split_ifs with was
  · exact ⟨rearmEarliest_sane stale, frame.when, armed⟩
  · refine ⟨⟨stale.shape, stale.counted, stale.placed, stale.nonzero,
      ⟨fun x here => ?_, fun held => ?_⟩, ?_⟩, frame.when, armed⟩
    · rw [frame.earliest, frame.when]
      exact sane.earliest.least x ((armed x).mp here).2
    · rw [frame.earliest] at held ⊢
      obtain ⟨x, here, same⟩ := sane.earliest.attained held
      refine ⟨x, (armed x).mpr ⟨?_, here⟩, frame.when ▸ same⟩
      rintro rfl
      exact was ⟨equal_iff.mpr (congrArg wall same), here⟩
    · rw [frame.aimed, frame.earliest]
      exact sane.aimed

theorem arm_sane (sane : Sane cfg w) (e : ι) (t : τ) (period : Int64) :
    Sane cfg (arm cfg w e t period) ∧ if IsZero t then arm cfg w e t period = cancel cfg w e
      else (arm cfg w e t period).when = update w.when e t ∧
        (arm cfg w e t period).period = update w.period e period ∧
        ∀ x, Armed (arm cfg w e t period) x ↔ x = e ∨ Armed w x := by
  unfold arm
  by_cases zero : IsZero t
  · rw [if_pos zero, if_pos zero]
    exact ⟨(cancel_sane sane e).1, rfl⟩
  rw [if_neg zero, if_neg zero]
  obtain ⟨stale, frame, out, armed⟩ := detach_stale sane.stale e
  have retimed := retime_stale stale out t (update (detach w e).period e period)
  obtain ⟨stale', frame', armed'⟩ := attach_stale retimed out
    (by dsimp only; rw [update_self]; exact zero)
  dsimp only
  generalize attach cfg
    { detach w e with
      when := update (detach w e).when e t
      period := update (detach w e).period e period } e = after at *
  have when : after.when = update w.when e t := by rw [frame'.when, ← frame.when]
  have period' : after.period = update w.period e period := by
    rw [frame'.period, ← frame.period]
  have held : ∀ x, Armed after x ↔ x = e ∨ Armed w x := by
    intro x
    rw [armed' x]
    constructor
    · rintro (same | old)
      · exact .inl same
      · exact .inr ((armed x).mp old).2
    · rintro (same | old)
      · exact .inl same
      · by_cases same : x = e
        · exact .inl same
        · exact .inr ((armed x).mpr ⟨same, old⟩)
  split_ifs with moved
  · exact ⟨rearmEarliest_sane stale', when, period', held⟩
  · rw [not_or, not_or, before_iff] at moved
    have earliest : after.earliest = w.earliest := frame'.earliest.trans frame.earliest
    refine ⟨⟨stale'.shape, stale'.counted, stale'.placed, stale'.nonzero,
      ⟨fun x here => ?_, fun cached => ?_⟩, ?_⟩, when, period', held⟩
    · rw [earliest, when, update_apply]
      split_ifs with same
      · exact ⟨moved.1, by omega⟩
      · exact sane.earliest.least x (((held x).mp here).resolve_left same)
    · rw [earliest] at cached ⊢
      obtain ⟨x, here, same⟩ := sane.earliest.attained cached
      refine ⟨x, (held x).mpr (.inr here), ?_⟩
      rw [when, update_of_ne (by rintro rfl; exact moved.2.2 (equal_iff.mpr (congrArg wall same)))]
      exact same
    · rw [earliest, frame'.aimed, frame.aimed]
      exact sane.aimed

structure Repeated (now : τ) (l : List ι) (w after : Wheel τ ι) : Prop where
  period : after.period = w.period
  others : ∀ e, e ∉ l → (Armed after e ↔ Armed w e) ∧ after.when e = w.when e
  gone : ∀ e ∈ l, ¬ 0 < (w.period e).toInt → ¬ Armed after e
  back : ∀ e ∈ l, 0 < (w.period e).toInt →
    Armed after e ∧ wall now < wall (after.when e) ∧
      wall (after.when e) ≤ wall now + (w.period e).toInt

theorem repeatEntry_stale {now : τ} (ordinary : Ordinary now) (stale : Stale cfg w) {e : ι}
    (off : ¬ Armed w e) (due : passed now (w.when e) = true) :
    Stale cfg (repeatEntry cfg now w e) ∧ Repeated now [e] w (repeatEntry cfg now w e) := by
  unfold repeatEntry
  split_ifs with periodic
  · obtain ⟨after, most⟩ := next_after ordinary due periodic
    have out : w.bucket e = .notInWheel := not_not.mp off
    dsimp only
    generalize (if passed now (add (w.when e) (w.period e).toInt) then add now (w.period e).toInt
      else add (w.when e) (w.period e).toInt) = next at after most ⊢
    have retimed := retime_stale stale out next w.period
    have nonzero : ¬ IsZero next := by
      have start := ordinary.1
      omega
    obtain ⟨stale', frame, armed⟩ := attach_stale retimed out
      (by dsimp only; rw [update_self]; exact nonzero)
    refine ⟨stale', frame.period, fun x other => ?_, fun x here once => ?_, fun x here _ => ?_⟩
    · have other : x ≠ e := by simpa using other
      rw [armed x, frame.when]
      exact ⟨⟨fun held => held.resolve_left other, .inr⟩, update_of_ne other _ _⟩
    · rw [List.mem_singleton.mp here] at once
      exact absurd periodic once
    · rw [List.mem_singleton.mp here, armed, frame.when]
      dsimp only
      rw [update_self]
      exact ⟨.inl rfl, after, most⟩
  · refine ⟨stale, rfl, fun x _ => ⟨Iff.rfl, rfl⟩, fun x here _ => ?_, fun x here again => ?_⟩
    · rw [List.mem_singleton.mp here]
      exact off
    · rw [List.mem_singleton.mp here] at again
      exact absurd again periodic

theorem repeatEntries_stale {now : τ} (ordinary : Ordinary now) (l : List ι)
    (stale : Stale cfg w) (distinct : l.Nodup) 
    (out : ∀ e ∈ l, ¬ Armed w e ∧ passed now (w.when e) = true) :
    Stale cfg (l.foldl (repeatEntry cfg now) w) ∧
      Repeated now l w (l.foldl (repeatEntry cfg now) w) := by
  induction l generalizing w with
  | nil =>
    exact ⟨stale, rfl, fun _ _ => ⟨Iff.rfl, rfl⟩, by simp, by simp⟩
  | cons e l ih =>
    rw [List.nodup_cons] at distinct
    obtain ⟨off, due⟩ := out e (by simp)
    obtain ⟨stale', first⟩ := repeatEntry_stale ordinary stale off due
    obtain ⟨stale'', rest⟩ := ih stale' distinct.2 (by
      intro x member
      have other : x ∉ [e] := by
        intro same
        exact distinct.1 (List.mem_singleton.mp same ▸ member)
      obtain ⟨armed, when⟩ := first.others x other
      rw [armed, when]
      exact out x (by simp [member]))
    rw [List.foldl_cons]
    refine ⟨stale'', rest.period.trans first.period, fun x missing => ?_, fun x here once => ?_,
      fun x here periodic => ?_⟩
    · have missing' : x ∉ [e] ∧ x ∉ l := by simpa using missing
      obtain ⟨armed, when⟩ := first.others x missing'.1
      obtain ⟨armed', when'⟩ := rest.others x missing'.2
      exact ⟨armed'.trans armed, when'.trans when⟩
    · by_cases later : x ∈ l
      · exact rest.gone x later (by rw [first.period]; exact once)
      · have same : x ∈ [e] := by simpa [later] using here
        rw [(rest.others x later).1]
        exact first.gone x same once
    · by_cases later : x ∈ l
      · have back := rest.back x later (by rw [first.period]; exact periodic)
        rwa [first.period] at back
      · have same : x ∈ [e] := by simpa [later] using here
        rw [(rest.others x later).1, (rest.others x later).2]
        exact first.back x same periodic

theorem advanceInto_spec (sane : Sane cfg w) {now : τ} (ordinary : Ordinary now) (due : List ι) :
    Sane cfg (advanceInto cfg w now due).1 ∧
      ∃ fired, (advanceInto cfg w now due).2 = due ++ fired ∧ fired.Nodup ∧
        (∀ e, e ∈ fired ↔ Armed w e ∧ passed now (w.when e) = true) ∧
        Repeated now fired w (advanceInto cfg w now due).1 := by
  obtain ⟨progress, settled⟩ := collect_settles sane.earliest sane.shape sane.counted sane.placed
    now due
  unfold advanceInto
  dsimp only
  generalize collect cfg w now due = promoted at progress settled ⊢
  obtain ⟨fired, out, fires⟩ := progress.fired
  rw [out, List.drop_left]
  have stale : Stale cfg promoted.1 := by
    refine ⟨progress.shape, progress.counted, settled.placed, fun e armed => ?_⟩
    rw [fires.when]
    exact sane.nonzero e (fires.armed_before armed)
  have members : ∀ e, e ∈ fired ↔ Armed w e ∧ passed now (w.when e) = true := by
    intro e
    refine ⟨fun member => ⟨(fires.due e member).1, (fires.due e member).2.1⟩, fun ⟨armed, late⟩ => ?_⟩
    by_contra missing
    have waits := settled.later e ((fires.rest e missing).mpr armed)
    rw [fires.when] at waits
    exact not_passed.mpr waits late
  obtain ⟨stale', repeated⟩ := repeatEntries_stale ordinary fired stale fires.distinct (by
    intro e member
    obtain ⟨_, late, off⟩ := fires.due e member
    exact ⟨off, fires.when ▸ late⟩)
  refine ⟨rearmEarliest_sane stale', fired, rfl, fires.distinct, members,
    repeated.period.trans fires.period, fun e missing => ?_, fun e here once => ?_,
    fun e here periodic => ?_⟩
  · obtain ⟨armed, when⟩ := repeated.others e missing
    exact ⟨armed.trans (fires.rest e missing), when.trans (congrFun fires.when e)⟩
  · exact repeated.gone e here (by rw [fires.period]; exact once)
  · have back := repeated.back e here (by rw [fires.period]; exact periodic)
    rwa [fires.period] at back

def OrdinaryCall : Call τ ι → Prop
  | .advanceInto now => Ordinary now
  | _ => True

theorem call_sane (sane : Sane cfg w) (c : Call τ ι) (ordinary : OrdinaryCall c) :
    Sane cfg (call cfg w c) := by
  cases c with
  | arm e t period => exact (arm_sane sane e t period).1
  | cancel e => exact (cancel_sane sane e).1
  | advanceInto now => exact (advanceInto_spec sane ordinary []).1

theorem run_sane (calls : List (Call τ ι)) (sane : Sane cfg w)
    (ordinary : ∀ c ∈ calls, OrdinaryCall c) : Sane cfg (run cfg w calls) := by
  induction calls generalizing w with
  | nil => exact sane
  | cons c calls ih =>
    exact ih (call_sane sane c (ordinary c (by simp)))
      fun later member => ordinary later (by simp [member])

/-- An advance reports the armed entries whose time has come, each once, and no other
leaves or moves. Arming and cancelling touch their own entry alone. -/
theorem advance_reports_due [Inhabited ι] {offset : Int} (cfg : Config) (start : SteadyTime offset)
    (calls : List (Call (SteadyTime offset) ι)) (ordinary : ∀ c ∈ calls, OrdinaryCall c) :
    let w := run cfg (new cfg start) calls
    (∀ now due, Ordinary now → ∃ fired,
      (advanceInto cfg w now due).2 = due ++ fired ∧ fired.Nodup ∧
        (∀ e, e ∈ fired ↔ Armed w e ∧ passed now (w.when e)) ∧
        (∀ e, Armed w e → before now (w.when e) → Armed (advanceInto cfg w now due).1 e ∧
          (advanceInto cfg w now due).1.when e = w.when e) ∧
        (∀ e, ¬ Armed w e → ¬ Armed (advanceInto cfg w now due).1 e) ∧
        (∀ e ∈ fired, (w.period e).toInt ≤ 0 → ¬ Armed (advanceInto cfg w now due).1 e) ∧
        ∀ e ∈ fired, 0 < (w.period e).toInt → Armed (advanceInto cfg w now due).1 e ∧
          before now ((advanceInto cfg w now due).1.when e) ∧
          wall ((advanceInto cfg w now due).1.when e) ≤ wall now + (w.period e).toInt) ∧
    (∀ e t period, ¬ IsZero t → (arm cfg w e t period).when = Function.update w.when e t ∧
      ∀ x, Armed (arm cfg w e t period) x ↔ x = e ∨ Armed w x) ∧
    ∀ e, (cancel cfg w e).when = w.when ∧
      ∀ x, Armed (cancel cfg w e) x ↔ x ≠ e ∧ Armed w x := by
  dsimp only
  have sane : Sane cfg (run cfg (new cfg start) calls) :=
    run_sane calls (new_sane start) ordinary
  generalize run cfg (new cfg start) calls = w at sane
  refine ⟨fun now due ordinary => ?_, fun e t period nonzero => ?_, fun e => (cancel_sane sane e).2⟩
  · obtain ⟨_, fired, out, distinct, members, repeated⟩ := advanceInto_spec sane ordinary due
    refine ⟨fired, out, distinct, members, fun e armed later => ?_, fun e off => ?_,
      fun e here once => repeated.gone e here (by omega), fun e here periodic => ?_⟩
    · have missing : e ∉ fired := by
        rw [members]
        exact fun held => not_passed.mpr later held.2
      obtain ⟨same, when⟩ := repeated.others e missing
      exact ⟨same.mpr armed, when⟩
    · have missing : e ∉ fired := by
        rw [members]
        exact fun held => off held.1
      exact fun armed => off ((repeated.others e missing).1.mp armed)
    · rw [before_iff]
      exact repeated.back e here periodic
  · have armed := (arm_sane sane e t period).2
    rw [if_neg nonzero] at armed
    exact ⟨armed.1, armed.2.2⟩

/-- The wheel of an event loop: 4 ms a slot, about 65 s a turn. -/
def loopWheel : Config := ⟨4 * 10 ^ 6, 16384, by decide, by decide⟩

/-- A time of the running clock, its two readings in seconds. -/
def clock (wall mono : Int) : Time := ⟨unixEpoch + wall * 10 ^ 9, some (mono * 10 ^ 9)⟩

def steadyClock (s : Int) : SteadyTime unixEpoch := ⟨clock s s, .inr (by simp [clock])⟩

def twoArmed : List (Call (SteadyTime unixEpoch) Bool) :=
  [.arm false (steadyClock 101) (10 ^ 9), .arm true (steadyClock 300) 0]

theorem advance_reports_due_periodic :
    (∀ c ∈ twoArmed, OrdinaryCall c) ∧ Ordinary (steadyClock 102) ∧
      let w := run loopWheel (new loopWheel (steadyClock 100)) twoArmed
      ∃ fired, (advanceInto loopWheel w (steadyClock 102) []).2 = [] ++ fired ∧ false ∈ fired ∧
        Armed (advanceInto loopWheel w (steadyClock 102) []).1 true := by
  have ordinary : ∀ c ∈ twoArmed, OrdinaryCall c := by simp [twoArmed, OrdinaryCall]
  have now : Ordinary (steadyClock 102) := by unfold Ordinary; decide
  obtain ⟨advance, _, _⟩ := advance_reports_due loopWheel (steadyClock 100) twoArmed ordinary
  obtain ⟨fired, out, _, members, stays, _⟩ := advance (steadyClock 102) [] now
  refine ⟨ordinary, now, fired, out, (members false).mpr ⟨?_, ?_⟩, (stays true ?_ ?_).1⟩
  all_goals first | (unfold Armed; decide +kernel) | decide +kernel

/-- The wall clock is set back ten seconds while an entry waits for one. When its time has
come its slot is still ahead of the cursor, and the tick of now behind it. -/
theorem set_back_clock_unreported :
    let w := run loopWheel (new loopWheel (clock 100 100)) [.arm () (clock 101 101) 0]
    w.bucket () ≠ .notInWheel ∧ passed (clock 91 101) (w.when ()) ∧
      (advanceInto loopWheel w (clock 91 101) []).2 = [] := by
  decide +kernel

/-- Times from before the zero time: the entry comes back with the zero time itself. -/
def ontoZero : List (Call Time Unit) := [.arm () ⟨-1, none⟩ 1, .advanceInto ⟨-1, none⟩]

example : let w := run loopWheel (new loopWheel ⟨-2, none⟩) ontoZero
    w.bucket () ≠ .notInWheel ∧ w.earliest = Clock.zero ∧
      (advanceInto loopWheel w ⟨5, none⟩ []).2 = [] := by
  decide +kernel

/-- The moment the clock is aimed at is the least armed deadline. -/
theorem earliest_is_least [Inhabited ι] {offset : Int} (cfg : Config) (start : SteadyTime offset)
    (calls : List (Call (SteadyTime offset) ι)) (ordinary : ∀ c ∈ calls, OrdinaryCall c) :
    let w := run cfg (new cfg start) calls
    (IsZero w.earliest ↔ ∀ e, ¬ Armed w e) ∧ (∀ e, Armed w e → passed (w.when e) w.earliest) ∧
      (¬ IsZero w.earliest → ∃ e, Armed w e ∧ w.when e = w.earliest) ∧ w.aimed = w.earliest := by
  dsimp only
  have sane : Sane cfg (run cfg (new cfg start) calls) :=
    run_sane calls (new_sane start) ordinary
  generalize run cfg (new cfg start) calls = w at sane
  refine ⟨⟨fun zero e armed => (sane.earliest.least e armed).1 zero, fun none_armed => ?_⟩,
    fun e armed => passed_iff.mpr (sane.earliest.least e armed).2, sane.earliest.attained, sane.aimed⟩
  by_contra held
  obtain ⟨e, armed, _⟩ := sane.earliest.attained held
  exact none_armed e armed

theorem earliest_is_least_two :
    (∀ c ∈ twoArmed, OrdinaryCall c) ∧
      let w := run loopWheel (new loopWheel (steadyClock 100)) twoArmed
      passed (w.when false) w.earliest ∧ w.aimed = w.earliest := by
  have ordinary : ∀ c ∈ twoArmed, OrdinaryCall c := by simp [twoArmed, OrdinaryCall]
  obtain ⟨_, least, _, aimed⟩ := earliest_is_least loopWheel (steadyClock 100) twoArmed ordinary
  exact ⟨ordinary, least false (by unfold Armed; decide +kernel), aimed⟩

/-- One entry waits for five seconds, the wall clock is set forward ten, and another is
armed for two: its slot is the later one, and the clock stays aimed at the first. -/
theorem set_forward_clock_late :
    let w := run loopWheel (new loopWheel (clock 100 100))
      [.arm false (clock 105 105) 0, .arm true (clock 112 102) 0]
    w.bucket true ≠ .notInWheel ∧ before (w.when true) w.earliest ∧ w.aimed = clock 105 105 := by
  decide +kernel

end TimewheelExact
