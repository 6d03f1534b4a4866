import Uio.Timewheel.Wheel

/-!
The containers of the wheel agree with the bucket each entry carries: a slot's list
holds the entries of the slot once, the summary names the slots that hold any, and the
heap is sound and holds the rest. While a slot is reported, the entries still to come
are loose: their bucket is stale and no container has them.
-/
namespace TimewheelShape
open IndexedHeap WheelClock Timewheel
open Clock (wall)
open Function (update update_apply)
variable {τ ι : Type} [DecidableEq ι] (cfg : Config)

structure Shape [Clock τ] (w : Wheel τ ι) (loose : List ι) : Prop where
  ring : ∀ s e, e ∈ w.ring s ↔ w.bucket e = .slot s ∧ e ∉ loose
  nodup : ∀ s, (w.ring s).Nodup
  inside : ∀ e s, w.bucket e = .slot s → s < cfg.buckets
  summary : ∀ s, Bitmap.test w.summary s = true ↔ w.ring s ≠ []
  heap : Sound (fun e => wall (w.when e)) w.overflow
  overflow : ∀ e, w.overflow.place e = 0 ↔ w.bucket e ≠ .inOverflow

def Counted (w : Wheel τ ι) : Prop :=
  ∃ armed : Finset ι, (∀ e, e ∈ armed ↔ w.bucket e ≠ .notInWheel) ∧ w.count = armed.card

structure Frame (w after : Wheel τ ι) : Prop where
  cursor : after.cursor = w.cursor
  when : after.when = w.when
  period : after.period = w.period
  earliest : after.earliest = w.earliest
  aimed : after.aimed = w.aimed

def placeOf (cursor t : Nat) : Bucket :=
  if cursor + cfg.buckets < t then .inOverflow
  else .slot (if t ≤ cursor then (cursor % cfg.buckets + 1) % cfg.buckets else t % cfg.buckets)

theorem placeOf_in_wheel (cursor t : Nat) : placeOf cfg cursor t ≠ .notInWheel := by
  unfold placeOf
  split <;> nofun

variable {cfg} {w : Wheel τ ι} {loose : List ι} {e : ι}

omit [DecidableEq ι] in
theorem Frame.after {w' w'' : Wheel τ ι} (second : Frame w' w'') (first : Frame w w') : Frame w w'' :=
  ⟨second.cursor.trans first.cursor, second.when.trans first.when,
    second.period.trans first.period, second.earliest.trans first.earliest,
    second.aimed.trans first.aimed⟩

omit [DecidableEq ι] in
theorem counted_congr {after : Wheel τ ι} (counted : Counted w)
    (same : ∀ x, after.bucket x = .notInWheel ↔ w.bucket x = .notInWheel)
    (count : after.count = w.count) : Counted after := by
  obtain ⟨armed, mem, size⟩ := counted
  exact ⟨armed, fun x => (mem x).trans (not_congr (same x)).symm, count.trans size⟩

theorem counted_insert {after : Wheel τ ι} (counted : Counted w) (out : w.bucket e = .notInWheel)
    {b : Bucket} (held : b ≠ .notInWheel) (bucket : after.bucket = update w.bucket e b)
    (count : after.count = w.count + 1) : Counted after := by
  obtain ⟨armed, mem, size⟩ := counted
  have fresh : e ∉ armed := fun old => (mem e).mp old out
  refine ⟨insert e armed, fun x => ?_, ?_⟩
  · rw [Finset.mem_insert, mem x, bucket, update_apply]
    by_cases same : x = e
    · simp [same, held]
    · simp [same]
  · rw [Finset.card_insert_of_notMem fresh, count, size]
    omega

theorem counted_erase {after : Wheel τ ι} (counted : Counted w) (held : w.bucket e ≠ .notInWheel)
    (bucket : after.bucket = update w.bucket e .notInWheel)
    (count : after.count = w.count - 1) : Counted after := by
  obtain ⟨armed, mem, size⟩ := counted
  have here : e ∈ armed := (mem e).mpr held
  refine ⟨armed.erase e, fun x => ?_, ?_⟩
  · rw [Finset.mem_erase, mem x, bucket, update_apply]
    by_cases same : x = e
    · simp [same]
    · simp [same]
  · have some_left := Finset.card_pos.mpr ⟨e, here⟩
    rw [Finset.card_erase_of_mem here, count, size]
    omega

omit [DecidableEq ι] in
theorem counted_zero (counted : Counted w) : w.count = 0 ↔ ∀ e, w.bucket e = .notInWheel := by
  obtain ⟨armed, mem, size⟩ := counted
  rw [size, Int.natCast_eq_zero, Finset.card_eq_zero, Finset.eq_empty_iff_forall_notMem]
  exact forall_congr' fun e => (not_congr (mem e)).trans not_not

omit [DecidableEq ι] in
theorem counted_nonneg (counted : Counted w) : 0 ≤ w.count := by
  obtain ⟨armed, _, size⟩ := counted
  rw [size]
  exact Int.natCast_nonneg _

variable [Clock τ]

omit [DecidableEq ι] in
theorem sooner_byKey [Agreeing τ] : ByKey (fun e => wall (w.when e)) (sooner w) :=
  fun _ _ => before_iff

theorem linkSlot_shape (shape : Shape cfg w loose) (out : w.bucket e = .notInWheel)
    (free : e ∉ loose) {s : Nat} (hs : s < cfg.buckets) : Shape cfg (linkSlot w e s) loose where
  ring r x := by
    have old := shape.ring r x
    have missing := shape.ring r e
    simp only [linkSlot, update_apply]
    by_cases same : x = e
    · by_cases here : r = s
      · simp [same, here, free]
      · have other : ¬ s = r := fun back => here back.symm
        subst same
        simp [here, other, missing, out]
    · by_cases here : r = s
      · simp [same, here ▸ old, here]
      · simp [same, here, old]
  nodup r := by
    have old := shape.nodup r
    have missing := shape.ring r e
    simp only [linkSlot, update_apply]
    by_cases here : r = s
    · subst here
      rw [if_pos rfl, List.nodup_cons, missing, out]
      exact ⟨(nomatch ·.1), old⟩
    · rw [if_neg here]
      exact old
  inside x r slot := by
    simp only [linkSlot, update_apply] at slot
    split_ifs at slot with same
    · cases slot
      exact hs
    · exact shape.inside x r slot
  summary r := by
    have old := shape.summary r
    simp only [linkSlot, update_apply]
    by_cases here : r = s
    · subst here
      by_cases empty : w.ring r = []
      · simp [empty, Bitmap.test_set]
      · simp [empty, old.mpr empty]
    · by_cases empty : w.ring s = []
      · simp [empty, Bitmap.test_set, here, old]
      · simp [empty, here, old]
  heap := shape.heap
  overflow x := by
    have old := shape.overflow x
    simp only [linkSlot, update_apply]
    by_cases same : x = e
    · subst same
      rw [out] at old
      simpa using old
    · simp [same, old]

theorem link_overflow_shape [Agreeing τ] (shape : Shape cfg w loose) (out : w.bucket e = .notInWheel) :
    Shape cfg
      { w with
        bucket := update w.bucket e .inOverflow
        overflow := push (sooner w) w.overflow e } loose := by
  have off : w.overflow.place e = 0 := (shape.overflow e).mpr (by rw [out]; nofun)
  obtain ⟨sound, places⟩ := push_sound sooner_byKey shape.heap e off
  constructor
  · intro s x
    have old := shape.ring s x
    simp only [update_apply]
    by_cases same : x = e
    · subst same
      rw [out] at old
      simp [old]
    · simp [same, old]
  · exact shape.nodup
  · intro x s slot
    simp only [update_apply] at slot
    split_ifs at slot
    exact shape.inside x s slot
  · exact shape.summary
  · exact sound
  · intro x
    have old := shape.overflow x
    simp only [places, update_apply]
    by_cases same : x = e
    · simp [same]
    · simp [same, old]

theorem link_shape [Agreeing τ] (shape : Shape cfg w loose) (out : w.bucket e = .notInWheel)
    (free : e ∉ loose) : Shape cfg (link cfg w e) loose := by
  unfold link
  split_ifs
  · exact link_overflow_shape shape out
  · exact linkSlot_shape shape out free (Nat.mod_lt _ cfg.buckets_positive)
  · exact linkSlot_shape shape out free (Nat.mod_lt _ cfg.buckets_positive)

theorem link_bucket : (link cfg w e).bucket =
    update w.bucket e (placeOf cfg w.cursor (tickOf cfg (w.when e))) := by
  unfold link placeOf
  split_ifs <;> rfl

theorem link_frame : Frame w (link cfg w e) := by
  unfold link
  split_ifs <;> exact ⟨rfl, rfl, rfl, rfl, rfl⟩

theorem link_count : (link cfg w e).count = w.count := by
  unfold link
  split_ifs <;> rfl

theorem unlink_shape (shape : Shape cfg w []) {s : Nat} (here : w.bucket e = .slot s) :
    Shape cfg (setBucket (unlink w e s) e .notInWheel) [] where
  ring r x := by
    have old := shape.ring r x
    have distinct := shape.nodup r
    simp only [setBucket, unlink, update_apply]
    by_cases slot : r = s
    · subst slot
      rw [if_pos rfl, distinct.mem_erase_iff, old]
      by_cases same : x = e
      · simp [same]
      · simp [same]
    · rw [if_neg slot, old]
      by_cases same : x = e
      · have other : ¬ s = r := fun back => slot back.symm
        simp [same, here, other]
      · simp [same]
  nodup r := by
    have old := shape.nodup r
    simp only [setBucket, unlink, update_apply]
    split_ifs with slot
    · exact slot ▸ old.erase e
    · exact old
  inside x r slot := by
    simp only [setBucket, unlink, update_apply] at slot
    split_ifs at slot
    exact shape.inside x r slot
  summary r := by
    have old := shape.summary r
    have member : e ∈ w.ring s := (shape.ring s e).mpr ⟨here, List.not_mem_nil⟩
    simp only [setBucket, unlink, update_apply]
    by_cases slot : r = s
    · subst slot
      rw [if_pos rfl]
      by_cases empty : (w.ring r).erase e = []
      · rw [if_pos empty, empty, Bitmap.test_clear]
        simp
      · rw [if_neg empty, old]
        exact ⟨fun _ => empty, fun _ => List.ne_nil_of_mem member⟩
    · rw [if_neg slot]
      split_ifs
      · simpa [Bitmap.test_clear, slot] using old
      · exact old
  heap := shape.heap
  overflow x := by
    have old := shape.overflow x
    simp only [setBucket, unlink, update_apply]
    by_cases same : x = e
    · subst same
      rw [here] at old
      simpa using old
    · simp [same, old]

theorem remove_shape (shape : Shape cfg w loose) {h : Heap ι} (on : w.bucket e = .inOverflow)
    (sound : Sound (fun e => wall (w.when e)) h)
    (places : ∀ x, h.place x = 0 ↔ x = e ∨ w.overflow.place x = 0) :
    Shape cfg { setBucket w e .notInWheel with overflow := h } loose := by
  constructor
  · intro s x
    have old := shape.ring s x
    simp only [setBucket, update_apply]
    by_cases same : x = e
    · subst same
      rw [on] at old
      simp [old]
    · simp [same, old]
  · exact shape.nodup
  · intro x s slot
    simp only [setBucket, update_apply] at slot
    split_ifs at slot
    exact shape.inside x s slot
  · exact shape.summary
  · exact sound
  · intro x
    simp only [setBucket, places, update_apply]
    by_cases same : x = e
    · simp [same]
    · simp [same, shape.overflow x]

omit [DecidableEq ι] in
theorem shape_count (shape : Shape cfg w loose) (n : Int) : Shape cfg { w with count := n } loose :=
  ⟨shape.ring, shape.nodup, shape.inside, shape.summary, shape.heap, shape.overflow⟩

omit [DecidableEq ι] in
theorem on_heap (shape : Shape cfg w loose) (on : w.bucket e = .inOverflow) :
    w.overflow.place e ≠ 0 :=
  fun off => (shape.overflow e).mp off on

theorem detach_shape [Agreeing τ] (shape : Shape cfg w []) (e : ι) : Shape cfg (detach w e) [] ∧
      (detach w e).bucket = update w.bucket e .notInWheel ∧ Frame w (detach w e) ∧
      (Counted w → Counted (detach w e)) := by
  unfold detach
  cases here : w.bucket e with
  | notInWheel =>
    refine ⟨shape, ?_, ⟨rfl, rfl, rfl, rfl, rfl⟩, id⟩
    exact (here ▸ Function.update_eq_self e w.bucket).symm
  | inOverflow =>
    obtain ⟨h, removed, sound, places⟩ := remove_sound sooner_byKey shape.heap e (on_heap shape here)
    simp only [removed]
    refine ⟨shape_count (remove_shape shape here sound places) _, rfl, ⟨rfl, rfl, rfl, rfl, rfl⟩,
      fun counted => ?_⟩
    exact counted_erase counted (by rw [here]; nofun) rfl rfl
  | slot s =>
    refine ⟨shape_count (unlink_shape shape here) _, rfl, ⟨rfl, rfl, rfl, rfl, rfl⟩, fun counted => ?_⟩
    exact counted_erase counted (by rw [here]; nofun) rfl rfl

/-- What reporting the entries `l` comes to: the due ones leave, the others are linked again. -/
structure Reported (cfg : Config) (now : τ) (l : List ι) (w after : Wheel τ ι) : Prop where
  shape : Shape cfg after []
  frame : Frame w after
  bucket : ∀ x, after.bucket x =
    if x ∈ l then
      if passed now (w.when x) then .notInWheel else placeOf cfg w.cursor (tickOf cfg (w.when x))
    else w.bucket x
  counted : Counted w → Counted after

theorem setBucket_shape (shape : Shape cfg w (e :: loose)) (on : w.bucket e ≠ .inOverflow) :
    Shape cfg (setBucket w e .notInWheel) loose := by
  constructor
  · intro s x
    have old := shape.ring s x
    simp only [setBucket, update_apply]
    by_cases same : x = e
    · subst same
      simpa using old
    · simpa [same] using old
  · exact shape.nodup
  · intro x s slot
    simp only [setBucket, update_apply] at slot
    split_ifs at slot
    exact shape.inside x s slot
  · exact shape.summary
  · exact shape.heap
  · intro x
    have old := shape.overflow x
    simp only [setBucket, update_apply]
    by_cases same : x = e
    · subst same
      simpa using old.mpr on
    · simp [same, old]

theorem reportEntries [Agreeing τ] (now : τ) (l : List ι) (s : Nat) (w : Wheel τ ι) (due : List ι)
    (shape : Shape cfg w l) (distinct : l.Nodup) (here : ∀ x ∈ l, w.bucket x = .slot s) :
    Reported cfg now l w (l.foldl (reportEntry cfg now) (w, due)).1 ∧
      (l.foldl (reportEntry cfg now) (w, due)).2 = due ++ l.filter fun x => passed now (w.when x) := by
  induction l generalizing w due with
  | nil => exact ⟨⟨shape, ⟨rfl, rfl, rfl, rfl, rfl⟩, by simp, id⟩, by simp⟩
  | cons e l ih =>
    rw [List.nodup_cons] at distinct
    have slot := here e (by simp)
    have off := setBucket_shape shape (by rw [slot]; nofun)
    rw [List.foldl_cons]
    by_cases late : passed now (w.when e) = true
    · obtain ⟨out, step, bucket, frame, count, shape⟩ : ∃ out : Wheel τ ι,
          reportEntry cfg now (w, due) e = (out, due ++ [e]) ∧
            out.bucket = update w.bucket e .notInWheel ∧ Frame w out ∧
            out.count = w.count - 1 ∧ Shape cfg out l :=
        ⟨_, if_pos late, rfl, ⟨rfl, rfl, rfl, rfl, rfl⟩, rfl, shape_count off _⟩
      obtain ⟨reported, fired⟩ := ih out (due ++ [e]) shape distinct.2 (by
        intro x member
        have other : x ≠ e := by rintro rfl; exact distinct.1 member
        rw [bucket, update_apply, if_neg other]
        exact here x (by simp [member]))
      rw [step]
      refine ⟨⟨reported.shape, reported.frame.after frame, fun x => ?_, fun counted => ?_⟩, ?_⟩
      · rw [reported.bucket x, frame.when, frame.cursor, bucket]
        by_cases same : x = e
        · subst same
          simp [distinct.1, late]
        · simp [same]
      · exact reported.counted (counted_erase counted (by rw [slot]; nofun) bucket count)
      · rw [fired, frame.when]
        simp [late]
    · have step : reportEntry cfg now (w, due) e =
          (link cfg (setBucket w e .notInWheel) e, due) := if_neg late
      have linked : (link cfg (setBucket w e .notInWheel) e).bucket =
          update w.bucket e (placeOf cfg w.cursor (tickOf cfg (w.when e))) := by
        rw [link_bucket]
        simp [setBucket]
      have frame : Frame w (link cfg (setBucket w e .notInWheel) e) :=
        link_frame.after ⟨rfl, rfl, rfl, rfl, rfl⟩
      obtain ⟨reported, fired⟩ := ih (link cfg (setBucket w e .notInWheel) e) due
        (link_shape off (by simp [setBucket]) distinct.1) distinct.2 (by
          intro x member
          have other : x ≠ e := by rintro rfl; exact distinct.1 member
          rw [linked, update_apply, if_neg other]
          exact here x (by simp [member]))
      rw [step]
      refine ⟨⟨reported.shape, reported.frame.after frame, fun x => ?_, fun counted => ?_⟩, ?_⟩
      · rw [reported.bucket x, frame.when, frame.cursor, linked]
        by_cases same : x = e
        · subst same
          simp [distinct.1, late]
        · simp [same]
      · refine reported.counted (counted_congr counted (fun x => ?_) link_count)
        rw [linked, update_apply]
        split_ifs with same
        · subst same
          simp [slot, placeOf_in_wheel]
        · rfl
      · rw [fired, frame.when]
        simp [late]

theorem reportSlot_reported [Agreeing τ] (now : τ) (s : Nat) (w : Wheel τ ι) (due : List ι)
    (shape : Shape cfg w []) : ∃ l : List ι, l.Nodup ∧ (∀ x, x ∈ l ↔ w.bucket x = .slot s) ∧
      Reported cfg now l w (reportSlot cfg now (w, due) s).1 ∧
      (reportSlot cfg now (w, due) s).2 = due ++ l.filter fun x => passed now (w.when x) := by
  have members : ∀ x, x ∈ w.ring s ↔ w.bucket x = .slot s := by
    intro x
    rw [shape.ring s x]
    simp
  refine ⟨w.ring s, shape.nodup s, members, ?_⟩
  unfold reportSlot
  by_cases empty : w.ring s = []
  · rw [if_pos empty, empty]
    exact ⟨⟨shape, ⟨rfl, rfl, rfl, rfl, rfl⟩, by simp, id⟩, by simp⟩
  rw [if_neg empty]
  have loose : Shape cfg
      { w with
        ring := update w.ring s []
        summary := Bitmap.clear w.summary s } (w.ring s) := by
    constructor
    · intro r x
      simp only [update_apply]
      by_cases slot : r = s
      · subst slot
        rw [if_pos rfl, members]
        simp
      · rw [if_neg slot, shape.ring r x, members]
        constructor
        · rintro ⟨bucket, _⟩
          refine ⟨bucket, fun other => slot ?_⟩
          rw [bucket] at other
          cases other
          rfl
        · exact fun ⟨bucket, _⟩ => ⟨bucket, List.not_mem_nil⟩
    · intro r
      simp only [update_apply]
      split_ifs
      · exact List.nodup_nil
      · exact shape.nodup r
    · exact shape.inside
    · intro r
      simp only [update_apply, Bitmap.test_clear]
      by_cases slot : r = s
      · simp [slot]
      · simp [slot, shape.summary r]
    · exact shape.heap
    · exact shape.overflow
  obtain ⟨reported, fired⟩ := reportEntries now (w.ring s) s _ due loose (shape.nodup s)
    fun x member => (members x).mp member
  exact ⟨⟨reported.shape, reported.frame.after ⟨rfl, rfl, rfl, rfl, rfl⟩, reported.bucket,
    reported.counted⟩, fired⟩

end TimewheelShape
