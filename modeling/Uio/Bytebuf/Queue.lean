import Uio.Bytebuf.Composite

/-!
Whatever the blocks, the buffer is one queue of bytes. Each operation is compared with
what it does to the queue of its blocks' unread bytes: writes append, reads and peeks
see the front, and discards drop it. The same holds of a connection's view, whose queue
is the blocks followed by the borrowed tail.
-/
namespace BytebufQueue
open Bytebuf
open CompositeBuffer (fillLast roomy coalesce readLoop peekLoop discardLoop writeToLoop blockFor
  removeRange)
open List (append_assoc append_cancel_left append_nil drop_append drop_eq_nil_of_le drop_length
  eq_nil_of_length_eq_zero flatten_cons length_append length_drop length_take nil_append
  take_append take_append_drop take_length take_of_length_le take_zero)
variable (list : List Buffer) (b : CompositeBuffer) (p : Bytes) (blockSize : Int) {c : Inbound}
  (extra : Nat) (k : Nat)

def flat (list : List Buffer) : Bytes := (list.map Buffer.bytes).flatten

@[simp] theorem flat_nil : flat [] = [] := rfl

@[simp] theorem flat_cons (b : Buffer) (list : List Buffer) :
    flat (b :: list) = b.bytes ++ flat list := rfl

@[simp] theorem flat_append (first second : List Buffer) :
    flat (first ++ second) = flat first ++ flat second := by
  simp [flat]

theorem flat_last {list : List Buffer} {last : Buffer} (found : list.getLast? = some last) :
    flat list = flat list.dropLast ++ last.bytes := by
  obtain ⟨front, rfl⟩ := List.getLast?_eq_some_iff.mp found
  simp

def content (b : CompositeBuffer) : Bytes := flat b.bufList

def Valid (b : CompositeBuffer) : Prop := b.length = (content b).length

theorem valid_sum : Valid b ↔ b.length = ((b.bufList.map Buffer.len).sum : Nat) := by
  have same : b.bufList.map Buffer.len = (b.bufList.map Buffer.bytes).map List.length := by
    rw [List.map_map]
    exact List.map_congr_left fun x _ => (Buffer.length_bytes x).symm
  unfold Valid content flat
  rw [List.length_flatten, same]

structure Appended (b : CompositeBuffer) (p : Bytes) (after : CompositeBuffer) : Prop where
  content : content after = content b ++ p
  length : after.length = b.length + p.length

theorem Appended.valid {b after : CompositeBuffer} {p : Bytes} (appended : Appended b p after)
    (valid : Valid b) : Valid after := by
  rw [Valid, appended.content, appended.length, valid, length_append]
  omega

theorem append_list {b : CompositeBuffer} {list : List Buffer} {p : Bytes} {n : Int}
    (same : flat list = flat b.bufList ++ p) (length : n = b.length + p.length) :
    Appended b p ⟨list, n⟩ :=
  ⟨same, length⟩

theorem fillLast_flat : (fillLast list p).2 ≤ p.length ∧
      flat (fillLast list p).1 =
        flat list ++ p.take (fillLast list p).2 := by
  unfold fillLast
  cases found : list.getLast? with
  | none => exact ⟨Nat.zero_le _, by simp⟩
  | some last =>
    dsimp only
    split_ifs
    · refine ⟨Nat.min_le_right _ _, ?_⟩
      rw [flat_last found]
      simp
    · exact ⟨Nat.zero_le _, by simp⟩

theorem write_appended : Appended b p (b.write p extra).1 ∧ (b.write p extra).2 = p.length := by
  unfold CompositeBuffer.write
  by_cases none_given : p = []
  · rw [if_pos none_given, none_given]
    exact ⟨⟨by simp, by simp⟩, rfl⟩
  rw [if_neg none_given]
  obtain ⟨most, filled⟩ := fillLast_flat b.bufList p
  generalize fillLast b.bufList p = r at most filled
  obtain ⟨list, n⟩ := r
  dsimp only
  split_ifs with drained
  · have whole : n = p.length := by
      have past := List.drop_eq_nil_iff.mp drained
      omega
    subst whole
    exact ⟨append_list (by simpa using filled) rfl, rfl⟩
  · have count : n + (p.drop n).length = p.length := by
      rw [length_drop]
      omega
    refine ⟨append_list ?_ (by omega), count⟩
    simp [filled]

theorem writev_appended (vec : List Bytes) (b : CompositeBuffer) (extra : Nat) :
    Appended b vec.flatten (b.writev vec extra).1 ∧
      (b.writev vec extra).2 = vec.flatten.length := by
  have general : ∀ (b' : CompositeBuffer) (n : Nat),
      let r := vec.foldl (fun r buf => ((r.1.write buf extra).1, r.2 + (r.1.write buf extra).2))
        (b', n)
      Appended b' vec.flatten r.1 ∧ r.2 = n + vec.flatten.length := by
    induction vec with
    | nil => exact fun b' n => ⟨⟨by simp, by simp⟩, rfl⟩
    | cons p vec ih =>
      intro b' n
      obtain ⟨first, count⟩ := write_appended b' p extra
      obtain ⟨rest, total⟩ := ih (b'.write p extra).1 (n + (b'.write p extra).2)
      dsimp only at rest total ⊢
      rw [List.foldl_cons]
      refine ⟨⟨?_, ?_⟩, ?_⟩
      · rw [rest.content, first.content]
        simp
      · rw [rest.length, first.length]
        simp only [flatten_cons, length_append]
        omega
      · rw [total, count]
        simp only [flatten_cons, length_append]
        omega
  obtain ⟨appended, count⟩ := general b 0
  exact ⟨appended, count.trans (Nat.zero_add _)⟩

theorem appendOwned_appended (buffer : Buffer) :
    Appended b buffer.bytes (b.appendOwned (some buffer)) := by
  unfold CompositeBuffer.appendOwned
  dsimp only
  split_ifs with drained
  · rw [Buffer.bytes_eq_nil drained]
    exact ⟨by simp, by simp⟩
  · exact append_list (by simp) (by simp)

theorem appendOwnedCoalesced_appended (buffer : Buffer) (targetCapacity : Int) (extra : Nat) :
    Appended b buffer.bytes (b.appendOwnedCoalesced targetCapacity extra (some buffer)) := by
  unfold CompositeBuffer.appendOwnedCoalesced
  dsimp only
  by_cases drained : buffer.len = 0
  · rw [if_pos drained, Buffer.bytes_eq_nil drained]
    exact ⟨by simp, by simp⟩
  rw [if_neg drained]
  have fresh : Appended b buffer.bytes
      (if targetCapacity ≤ buffer.len then b.appendOwned (some buffer)
      else
        ⟨b.bufList ++ [(Buffer.take targetCapacity.toNat extra).write buffer.bytes 0],
          b.length + buffer.len⟩) := by
    split_ifs
    · exact appendOwned_appended b buffer
    · exact append_list (by simp) (by simp)
  cases found : b.bufList.getLast? with
  | none => exact fresh
  | some last =>
    dsimp only
    by_cases room : buffer.len ≤ last.available
    · rw [if_pos room]
      exact append_list (by simp [flat_last found]) (by simp)
    · rw [if_neg room]
      exact fresh

theorem reserve_appended (fill : Bytes) (blockSize : Int) (extra : Nat) :
    Appended b fill (b.reserve fill blockSize extra) := by
  unfold CompositeBuffer.reserve
  dsimp only
  by_cases none_asked : fill = []
  · rw [if_pos none_asked, none_asked]
    exact ⟨by simp, by simp⟩
  rw [if_neg none_asked]
  cases found : b.bufList.getLast? with
  | none => exact append_list (by simp) rfl
  | some last =>
    dsimp only
    split_ifs
    · exact append_list (by simp [flat_last found]) rfl
    · exact append_list (by simp) rfl

theorem roomy_flat {remaining : Nat} (some_left : 0 < remaining) (blockSize : Int) (extra : Nat) :
    flat list = flat (roomy list remaining blockSize extra).1 ++
        (roomy list remaining blockSize extra).2.bytes ∧
      0 < (roomy list remaining blockSize extra).2.available := by
  have fresh : 0 < (Buffer.take (blockFor list remaining blockSize) extra).available := by
    unfold blockFor
    simp only [Buffer.available, Buffer.take, Slices.Slice.cap, Slices.Slice.make,
      List.length_replicate]
    split_ifs <;> omega
  unfold roomy
  cases found : list.getLast? with
  | none => exact ⟨by simp, fresh⟩
  | some last =>
    dsimp only
    by_cases full : last.available = 0
    · rw [if_pos full]
      exact ⟨by simp, fresh⟩
    · rw [if_neg full]
      exact ⟨flat_last found, Nat.pos_of_ne_zero full⟩

theorem coalesce_flat (extra fuel : Nat) (p : Bytes) (list : List Buffer)
    (remaining : Nat) (enough : p.length ≤ fuel) (counted : p.length ≤ remaining) :
    flat (coalesce blockSize extra fuel p (list, remaining)).1 = flat list ++ p ∧
      (coalesce blockSize extra fuel p (list, remaining)).2 =
        remaining - p.length := by
  induction fuel generalizing p list remaining with
  | zero =>
    have none_given : p = [] := eq_nil_of_length_eq_zero (by omega)
    rw [none_given]
    exact ⟨by simp [coalesce], rfl⟩
  | succ fuel ih =>
    unfold coalesce
    by_cases none_given : p = []
    · rw [if_pos none_given, none_given]
      exact ⟨by simp, rfl⟩
    have positive : 0 < p.length := List.length_pos_iff.mpr none_given
    rw [if_neg none_given]
    obtain ⟨same, room⟩ := roomy_flat list (show 0 < remaining by omega) blockSize extra
    generalize roomy list remaining blockSize extra = r at same room
    obtain ⟨front, last⟩ := r
    dsimp only at same room ⊢
    generalize taken : min last.available p.length = n
    obtain ⟨filled, left⟩ := ih (p.drop n) (front ++ [last.push (p.take n)]) (remaining - n)
      (by rw [length_drop]; omega) (by rw [length_drop]; omega)
    refine ⟨?_, by rw [left, length_drop]; omega⟩
    rw [filled, same]
    simp

theorem writeCoalesced_appended : Appended b p (b.writeCoalesced p blockSize extra).1 ∧
      (b.writeCoalesced p blockSize extra).2 = p.length := by
  unfold CompositeBuffer.writeCoalesced
  dsimp only
  split_ifs with none_given
  · rw [eq_nil_of_length_eq_zero none_given]
    exact ⟨⟨by simp, by simp⟩, rfl⟩
  · obtain ⟨filled, _⟩ := coalesce_flat blockSize extra p.length p b.bufList p.length
      le_rfl le_rfl
    exact ⟨append_list filled rfl, rfl⟩

theorem writevCoalesced_appended (vec : List Bytes) (blockSize : Int) (extra : Nat) :
    Appended b vec.flatten (b.writevCoalesced vec blockSize extra).1 ∧
      (b.writevCoalesced vec blockSize extra).2 = vec.flatten.length := by
  have general : ∀ (list : List Buffer) (remaining : Nat), vec.flatten.length ≤ remaining →
      flat (vec.foldl (fun r p => coalesce blockSize extra p.length p r)
        (list, remaining)).1 = flat list ++ vec.flatten := by
    induction vec with
    | nil => simp
    | cons p vec ih =>
      intro list remaining counted
      rw [flatten_cons, length_append] at counted
      obtain ⟨filled, left⟩ := coalesce_flat blockSize extra p.length p list remaining
        le_rfl (by omega)
      rw [List.foldl_cons]
      generalize coalesce blockSize extra p.length p (list, remaining) = r
        at filled left
      obtain ⟨list', remaining'⟩ := r
      dsimp only at filled left
      rw [ih list' remaining' (by omega), filled]
      simp
  unfold CompositeBuffer.writevCoalesced
  dsimp only
  split_ifs with none_given
  · rw [eq_nil_of_length_eq_zero none_given]
    exact ⟨⟨by simp, by simp⟩, rfl⟩
  · exact ⟨append_list (general _ _ le_rfl) rfl, rfl⟩

theorem readLoop_flat (err : Bool) :
    flat (readLoop list k err).1 = (flat list).drop k ∧
      (readLoop list k err).2.1 = (flat list).take k ∧
      ((readLoop list k err).2.2 = true →
        flat (readLoop list k err).1 = []) := by
  induction list generalizing k err with
  | nil => simp [readLoop]
  | cons buf rest ih =>
    obtain ⟨data, left, drained⟩ := buf.read_spec k
    unfold readLoop
    generalize buf.read k = r at data left drained
    obtain ⟨got, after, err'⟩ := r
    dsimp only at data left drained ⊢
    by_cases more : after.len = 0
    · have short : buf.bytes.length ≤ k := by
        have none_left := Buffer.bytes_eq_nil more
        rw [left] at none_left
        exact List.drop_eq_nil_iff.mp none_left
      obtain ⟨content, front, ended⟩ := ih (k - got.length) err'
      rw [if_neg (not_not_intro more)]
      have whole : got = buf.bytes := by rw [data, take_of_length_le short]
      rw [whole] at content front ended ⊢
      refine ⟨?_, ?_, ended⟩
      · rw [content, flat_cons, drop_append, drop_eq_nil_of_le short, nil_append]
      · rw [front, flat_cons, take_append, take_of_length_le short]
    · have long : k ≤ buf.bytes.length := by
        rw [← Buffer.length_bytes, left, length_drop] at more
        omega
      rw [if_pos more]
      refine ⟨?_, ?_, fun eof => ?_⟩
      · rw [flat_cons, flat_cons, left, List.drop_append_of_le_length long]
      · rw [data, flat_cons, List.take_append_of_le_length long]
      · have none_held := (drained eof).1
        rw [← Buffer.length_bytes, left, none_held] at more
        simp at more

structure Dropped (b : CompositeBuffer) (front : Bytes) (after : CompositeBuffer) : Prop where
  content : content b = front ++ content after
  length : after.length = b.length - front.length

theorem Dropped.valid {b after : CompositeBuffer} {front : Bytes} (dropped : Dropped b front after)
    (valid : Valid b) : Valid after := by
  rw [Valid] at valid ⊢
  rw [dropped.length, valid, dropped.content, length_append]
  omega

theorem content_dropped {b after : CompositeBuffer} {k : Nat}
    (dropped : Dropped b ((content b).take k) after) : content after = (content b).drop k := by
  have split := dropped.content
  nth_rewrite 1 [← (content b).take_append_drop k] at split
  exact (append_cancel_left split).symm

theorem read_dropped :
    Dropped b ((content b).take k) (b.read k).1 ∧ (b.read k).2.1 = (content b).take k ∧
      ((b.read k).2.2 = true → content (b.read k).1 = []) := by
  unfold CompositeBuffer.read
  by_cases none_held : b.bufList = []
  · have drained : content b = [] := by rw [content, none_held, flat_nil]
    rw [if_pos none_held]
    exact ⟨⟨by simp [drained], by simp [drained]⟩, by simp [drained], fun _ => drained⟩
  · rw [if_neg none_held]
    obtain ⟨left, front, ended⟩ := readLoop_flat b.bufList k false
    generalize readLoop b.bufList k false = r at left front ended
    obtain ⟨list, data, err⟩ := r
    dsimp only at left front ended ⊢
    refine ⟨⟨?_, by rw [front]; rfl⟩, front, ended⟩
    rw [content, content, left, take_append_drop]

theorem peekLoop_flat : peekLoop list k = (flat list).take k := by
  induction list generalizing k with
  | nil => simp [peekLoop]
  | cons buf rest ih =>
    unfold peekLoop
    dsimp only
    rw [flat_cons, take_append, length_take]
    split_ifs with filled
    · rw [show k - buf.bytes.length = 0 by omega, take_zero, append_nil]
    · rw [ih]
      congr 2
      omega

theorem peek_front : b.peek k = (content b).take k := by
  unfold CompositeBuffer.peek content
  cases list : b.bufList with
  | nil => simp
  | cons first rest =>
    dsimp only
    split_ifs with none_asked long
    · simp [none_asked]
    · rw [flat_cons, List.take_append_of_le_length (by rw [Buffer.length_bytes]; exact long)]
    · exact peekLoop_flat (first :: rest) k

theorem flatten_bytes_length :
    ((list.map Buffer.bytes).flatten).length = (list.map Buffer.len).sum := by
  induction list with
  | nil => rfl
  | cons buf list ih => simp [ih]

theorem peekVec_content (dst : List Bytes) : (b.peekVec dst).2 = (content b).length ∧
      (b.peekVec dst).1.flatten = if b.bufList = [] then [] else dst.flatten ++ content b := by
  unfold CompositeBuffer.peekVec content flat
  split_ifs with none_held
  · simp [none_held]
  · exact ⟨(flatten_bytes_length b.bufList).symm, by simp⟩

theorem peekVecN_front (limit : Int) : (b.peekVecN limit).1.flatten <+: content b ∧
      (b.peekVecN limit).2 = (b.peekVecN limit).1.flatten.length ∧
      (b.peekVecN limit).1.length ≤ limit.toNat ∧
      ((b.peekVecN limit).1.length < limit.toNat → (b.peekVecN limit).1.flatten = content b) := by
  unfold CompositeBuffer.peekVecN
  split_ifs with none_held
  · refine ⟨List.nil_prefix, rfl, Nat.zero_le _, fun room => ?_⟩
    rw [content, none_held.resolve_right (by change 0 < _ at room; omega)]
    rfl
  · dsimp only
    refine ⟨⟨flat (b.bufList.drop (min b.bufList.length limit.toNat)), ?_⟩,
      (flatten_bytes_length _).symm, by simp, fun room => ?_⟩
    · have split := flat_append (b.bufList.take (min b.bufList.length limit.toNat))
        (b.bufList.drop (min b.bufList.length limit.toNat))
      rw [take_append_drop] at split
      exact split.symm
    · rw [List.length_map, length_take] at room
      rw [take_of_length_le (by omega)]
      rfl

theorem discardLoop_flat (n : Nat) (within : n ≤ (flat list).length)
    (some_held : list ≠ []) (proper : n = 0 → flat list = []) :
    ∃ blocks endIdx, discardLoop list n = (blocks, some endIdx, n) ∧
      flat (blocks.drop endIdx) = (flat list).drop n := by
  induction list generalizing n with
  | nil => exact absurd rfl some_held
  | cons buf rest ih =>
    unfold discardLoop
    by_cases inside : n < buf.len
    · rw [if_pos inside]
      refine ⟨_, _, rfl, ?_⟩
      rw [List.drop_zero, flat_cons, flat_cons]
      have positive : 0 < n := by
        apply Nat.pos_of_ne_zero
        intro zero
        have none_held := List.append_eq_nil_iff.mp (proper zero)
        rw [← Buffer.length_bytes, none_held.1] at inside
        exact absurd inside (Nat.not_lt_zero n)
      rw [Buffer.bytes_discard buf positive,
        List.drop_append_of_le_length (by rw [Buffer.length_bytes]; omega)]
    · rw [if_neg inside]
      have past : buf.bytes.length ≤ n := by
        rw [Buffer.length_bytes]
        omega
      have skipped : (flat (buf :: rest)).drop n = (flat rest).drop (n - buf.len) := by
        rw [flat_cons, drop_append, drop_eq_nil_of_le past, nil_append,
          Buffer.length_bytes]
      rw [skipped]
      by_cases ended : n - buf.len = 0
      · rw [if_pos ended, ended]
        refine ⟨buf :: rest, 1, ?_, by simp⟩
        congr 2
        omega
      · rw [if_neg ended]
        rw [flat_cons, length_append, Buffer.length_bytes] at within
        obtain ⟨blocks, endIdx, found, left⟩ := ih (n - buf.len) (by omega) (by
          rintro rfl
          simp only [flat_nil, List.length_nil] at within
          omega) (by omega)
        rw [found]
        refine ⟨buf :: blocks, endIdx + 1, ?_, left⟩
        dsimp only [Option.map_some]
        congr 2
        omega

theorem discard_dropped (valid : Valid b) (n : Int) :
    Dropped b ((content b).take (if n ≤ 0 then (content b).length else n.toNat)) (b.discard n).1 ∧
      (b.discard n).2 =
        ((content b).take (if n ≤ 0 then (content b).length else n.toNat)).length := by
  unfold CompositeBuffer.discard
  by_cases none_held : b.bufList = []
  · have drained : content b = [] := by rw [content, none_held, flat_nil]
    rw [if_pos none_held]
    exact ⟨⟨by simp [drained], by simp [drained]⟩, by simp [drained]⟩
  rw [if_neg none_held]
  by_cases all : n ≤ 0
  · rw [if_pos all, if_pos all, take_length]
    have emptied : content b.reset = [] := by
      simp [content, CompositeBuffer.reset, removeRange]
    refine ⟨⟨by rw [emptied, append_nil], ?_⟩, valid⟩
    rw [← valid, Int.sub_self]
    rfl
  · rw [if_neg all, if_neg all]
    have clamp : (min n b.length).toNat = min n.toNat (content b).length := by
      rw [valid]
      omega
    obtain ⟨blocks, endIdx, found, left⟩ := discardLoop_flat b.bufList
      (min n.toNat (content b).length) (Nat.min_le_right _ _) none_held (by
        intro zero
        apply eq_nil_of_length_eq_zero
        change (content b).length = 0
        omega)
    rw [clamp, found]
    dsimp only [Option.getD_some, removeRange]
    refine ⟨⟨?_, by rw [length_take]⟩, by rw [length_take]⟩
    change content b = _ ++ flat (blocks.drop endIdx)
    rw [left]
    change content b = _ ++ (content b).drop _
    rcases Nat.le_total n.toNat (content b).length with less | more
    · rw [Nat.min_eq_left less, take_append_drop]
    · rw [Nat.min_eq_right more, take_of_length_le more, drop_length, append_nil]

theorem foldl_write_bytes (block : Buffer) :
    (list.foldl (fun block buffer => block.write buffer.bytes 0) block).bytes =
      block.bytes ++ flat list := by
  induction list generalizing block with
  | nil => simp
  | cons buf list ih => simp [ih]

def taken (b : CompositeBuffer) (n : Int) (tail : Bytes) : Nat :=
  min tail.length (max (n - b.length) 0).toNat

theorem gather_appended (n : Int) (tail : Bytes) (extra : Nat) :
    Appended b (tail.take (taken b n tail)) (b.gather n tail extra).1 ∧
      (b.gather n tail extra).2 = tail.drop (taken b n tail) := by
  have count : b.length + (taken b n tail : Int) = b.length + (tail.take (taken b n tail)).length := by
    rw [length_take, taken]
    omega
  unfold CompositeBuffer.gather
  dsimp only
  have gathered : Appended b (tail.take (taken b n tail))
      ⟨[(b.bufList.foldl (fun block buffer => block.write buffer.bytes 0)
        (Buffer.take (max n (b.length + (taken b n tail : Int))).toNat extra)).write
          (tail.take (taken b n tail)) 0], b.length + (taken b n tail : Int)⟩ :=
    append_list (by simp [foldl_write_bytes]) count
  split
  · rename_i first list
    split_ifs
    · exact ⟨append_list (by simp [list, taken]) count, rfl⟩
    · exact ⟨gathered, rfl⟩
  · exact ⟨gathered, rfl⟩

/-- Some write was answered with an error, or with less than all there was to write. -/
def Stopped (answers : Nat → Buffer.Answer) (total : Nat) : Prop :=
  ∃ call, (answers call).failed = true ∨ (answers call).taken < total

theorem writeToLoop_flat (answers : Nat → Buffer.Answer) (list : List Buffer) (call : Nat) :
    flat list = (writeToLoop answers list call).1 ++
        flat (writeToLoop answers list call).2.1 ∧
      ((writeToLoop answers list call).2.2 = false →
        flat (writeToLoop answers list call).2.1 = []) ∧
      ((writeToLoop answers list call).2.2 = true → Stopped answers (flat list).length) := by
  induction list generalizing call with
  | nil => simp [writeToLoop]
  | cons buf rest ih =>
    obtain ⟨split, drained, stopped⟩ := buf.writeTo_spec (answers call)
    unfold writeToLoop
    have whole : (flat (buf :: rest)).length = buf.len + (flat rest).length := by simp [flat_cons]
    generalize buf.writeTo (answers call) = r at split drained stopped
    obtain ⟨data, after, failed⟩ := r
    dsimp only at split drained stopped ⊢
    cases failed with
    | true => exact ⟨by simp [split], nofun, fun _ => ⟨call, (stopped rfl).imp_right (by omega)⟩⟩
    | false =>
      rw [if_neg (by decide)]
      obtain ⟨split', drained', stopped'⟩ := ih (if buf.len = 0 then call else call + 1)
      refine ⟨?_, drained', fun failed => ?_⟩
      · dsimp only
        rw [flat_cons, split, drained rfl, append_nil, append_assoc, ← split']
      · obtain ⟨later, short⟩ := stopped' failed
        exact ⟨later, short.imp_right (by omega)⟩

theorem writeTo_dropped (answers : Nat → Buffer.Answer) :
    Dropped b (b.writeTo answers).2.1 (b.writeTo answers).1 ∧
      ((b.writeTo answers).2.2 = false → content (b.writeTo answers).1 = []) ∧
      ((b.writeTo answers).2.2 = true → Stopped answers (content b).length) := by
  obtain ⟨split, ends⟩ := writeToLoop_flat answers b.bufList 0
  exact ⟨⟨split, rfl⟩, ends⟩

theorem reset_content : content b.reset = [] ∧ b.reset.length = 0 := by
  simp [content, CompositeBuffer.reset, removeRange]

def unread : Option Buffer → Bytes
  | none => []
  | some buffer => buffer.bytes

/-- The operations of a buffer; each comes with what the pool hands out in excess. -/
inductive Op where
  | write (p : Bytes)
  | writev (vec : List Bytes)
  | writeCoalesced (p : Bytes) (blockSize : Int)
  | writevCoalesced (vec : List Bytes) (blockSize : Int)
  | appendOwned (buffer : Option Buffer)
  | appendOwnedCoalesced (buffer : Option Buffer) (targetCapacity : Int)
  | prependOwned (buffer : Option Buffer)
  | reserve (fill : Bytes) (blockSize : Int)
  | read (k : Nat)
  | peek (k : Nat)
  | peekVec (dst : List Bytes)
  | peekVecN (limit : Int)
  | discard (n : Int)
  | gather (n : Int) (tail : Bytes)
  | writeTo (answers : Nat → Buffer.Answer)
  | reset

inductive Output where
  | nothing
  | count (n : Int)
  | data (bytes : Bytes) (eof : Bool)
  | segments (vec : List Bytes) (n : Nat)
  | rest (tail : Bytes)
  | written (bytes : Bytes) (failed : Bool)

def step (b : CompositeBuffer) (extra : Nat) : Op → CompositeBuffer × Output
  | .write p => ((b.write p extra).1, .count (b.write p extra).2)
  | .writev vec => ((b.writev vec extra).1, .count (b.writev vec extra).2)
  | .writeCoalesced p blockSize =>
    ((b.writeCoalesced p blockSize extra).1, .count (b.writeCoalesced p blockSize extra).2)
  | .writevCoalesced vec blockSize =>
    ((b.writevCoalesced vec blockSize extra).1, .count (b.writevCoalesced vec blockSize extra).2)
  | .appendOwned buffer => (b.appendOwned buffer, .nothing)
  | .appendOwnedCoalesced buffer targetCapacity =>
    (b.appendOwnedCoalesced targetCapacity extra buffer, .nothing)
  | .prependOwned buffer => (b.prependOwned buffer, .nothing)
  | .reserve fill blockSize => (b.reserve fill blockSize extra, .nothing)
  | .read k => ((b.read k).1, .data (b.read k).2.1 (b.read k).2.2)
  | .peek k => (b, .data (b.peek k) false)
  | .peekVec dst => (b, .segments (b.peekVec dst).1 (b.peekVec dst).2)
  | .peekVecN limit => (b, .segments (b.peekVecN limit).1 (b.peekVecN limit).2)
  | .discard n => ((b.discard n).1, .count (b.discard n).2)
  | .gather n tail => ((b.gather n tail extra).1, .rest (b.gather n tail extra).2)
  | .writeTo answers => ((b.writeTo answers).1, .written (b.writeTo answers).2.1 (b.writeTo answers).2.2)
  | .reset => (b.reset, .nothing)

inductive Spec : Op → Bytes → Output → Bytes → Prop where
  | write {q p} : Spec (.write p) q (.count p.length) (q ++ p)
  | writev {q vec} : Spec (.writev vec) q (.count vec.flatten.length) (q ++ vec.flatten)
  | writeCoalesced {q p size} : Spec (.writeCoalesced p size) q (.count p.length) (q ++ p)
  | writevCoalesced {q vec size} :
    Spec (.writevCoalesced vec size) q (.count vec.flatten.length) (q ++ vec.flatten)
  | appendOwned {q buffer} : Spec (.appendOwned buffer) q .nothing (q ++ unread buffer)
  | appendOwnedCoalesced {q buffer size} :
    Spec (.appendOwnedCoalesced buffer size) q .nothing (q ++ unread buffer)
  | prependOwned {q buffer} : Spec (.prependOwned buffer) q .nothing (unread buffer ++ q)
  | reserve {q fill size} : Spec (.reserve fill size) q .nothing (q ++ fill)
  | read {q k eof} (ended : eof = true → q.drop k = []) :
    Spec (.read k) q (.data (q.take k) eof) (q.drop k)
  | peek {q k} : Spec (.peek k) q (.data (q.take k) false) q
  | peekVec {q dst vec} (all : vec.flatten = dst.flatten ++ q ∨ (q = [] ∧ vec = [])) :
    Spec (.peekVec dst) q (.segments vec q.length) q
  | peekVecN {q limit vec} (front : vec.flatten <+: q) (most : vec.length ≤ limit.toNat)
      (all : vec.length < limit.toNat → vec.flatten = q) :
    Spec (.peekVecN limit) q (.segments vec vec.flatten.length) q
  | discardAll {q n} (all : n ≤ 0) : Spec (.discard n) q (.count q.length) []
  | discard {q n} (some_kept : 0 < n) :
    Spec (.discard n) q (.count (q.take n.toNat).length) (q.drop n.toNat)
  | gather {q n head rest} (room : head.length = min (head ++ rest).length (n - q.length).toNat) :
    Spec (.gather n (head ++ rest)) q (.rest rest) (q ++ head)
  | writeTo {q answers failed} {bytes : Bytes} (ended : failed = false → q = [])
      (stopped : failed = true → Stopped answers (bytes ++ q).length) :
    Spec (.writeTo answers) (bytes ++ q) (.written bytes failed) q
  | reset {q} : Spec .reset q .nothing []

theorem appended_spec {b after : CompositeBuffer} {p : Bytes} {op : Op} {out : Output}
    (valid : Valid b) (appended : Appended b p after)
    (spec : Spec op (content b) out (content b ++ p)) :
    Valid after ∧ Spec op (content b) out (content after) :=
  ⟨appended.valid valid, appended.content ▸ spec⟩

theorem appendOwned_unread (buffer : Option Buffer) :
    Appended b (unread buffer) (b.appendOwned buffer) := by
  cases buffer with
  | none => exact ⟨by simp [unread, CompositeBuffer.appendOwned], by
      simp [unread, CompositeBuffer.appendOwned]⟩
  | some buffer => exact appendOwned_appended b buffer

theorem appendOwnedCoalesced_unread (buffer : Option Buffer) (size : Int)
    (extra : Nat) : Appended b (unread buffer) (b.appendOwnedCoalesced size extra buffer) := by
  cases buffer with
  | none => exact ⟨by simp [unread, CompositeBuffer.appendOwnedCoalesced], by
      simp [unread, CompositeBuffer.appendOwnedCoalesced]⟩
  | some buffer => exact appendOwnedCoalesced_appended b buffer size extra

theorem prependOwned_unread {b : CompositeBuffer} (valid : Valid b) (buffer : Option Buffer) :
    Valid (b.prependOwned buffer) ∧ content (b.prependOwned buffer) = unread buffer ++ content b := by
  cases buffer with
  | none => exact ⟨valid, rfl⟩
  | some buffer =>
    unfold CompositeBuffer.prependOwned
    dsimp only [unread]
    split_ifs with drained
    · rw [Buffer.bytes_eq_nil drained]
      exact ⟨valid, rfl⟩
    · refine ⟨?_, rfl⟩
      change b.length + (buffer.len : Int) = ((buffer.bytes ++ content b).length : Int)
      rw [valid, length_append, Buffer.length_bytes]
      omega

theorem step_spec {b : CompositeBuffer} (valid : Valid b) (extra : Nat) (op : Op) :
    Valid (step b extra op).1 ∧
      Spec op (content b) (step b extra op).2 (content (step b extra op).1) := by
  cases op with
  | write p =>
    obtain ⟨appended, count⟩ := write_appended b p extra
    exact appended_spec valid appended (by dsimp only [step]; rw [count]; exact .write)
  | writev vec =>
    obtain ⟨appended, count⟩ := writev_appended vec b extra
    exact appended_spec valid appended (by dsimp only [step]; rw [count]; exact .writev)
  | writeCoalesced p size =>
    obtain ⟨appended, count⟩ := writeCoalesced_appended b p size extra
    exact appended_spec valid appended (by dsimp only [step]; rw [count]; exact .writeCoalesced)
  | writevCoalesced vec size =>
    obtain ⟨appended, count⟩ := writevCoalesced_appended b vec size extra
    exact appended_spec valid appended (by dsimp only [step]; rw [count]; exact .writevCoalesced)
  | appendOwned buffer =>
    exact appended_spec valid (appendOwned_unread b buffer) .appendOwned
  | appendOwnedCoalesced buffer size =>
    exact appended_spec valid (appendOwnedCoalesced_unread b buffer size extra)
      .appendOwnedCoalesced
  | prependOwned buffer =>
    obtain ⟨valid', same⟩ := prependOwned_unread valid buffer
    exact ⟨valid', same ▸ .prependOwned⟩
  | reserve fill size => exact appended_spec valid (reserve_appended b fill size extra) .reserve
  | read k =>
    obtain ⟨dropped, data, ended⟩ := read_dropped b k
    rw [content_dropped dropped] at ended
    refine ⟨dropped.valid valid, ?_⟩
    dsimp only [step]
    rw [data, content_dropped dropped]
    exact .read ended
  | peek k =>
    dsimp only [step]
    rw [peek_front]
    exact ⟨valid, .peek⟩
  | peekVec dst =>
    obtain ⟨count, all⟩ := peekVec_content b dst
    refine ⟨valid, ?_⟩
    dsimp only [step]
    rw [count]
    apply Spec.peekVec
    split_ifs at all with none_held
    · refine .inr ⟨by rw [content, none_held, flat_nil], ?_⟩
      rw [CompositeBuffer.peekVec, if_pos none_held]
    · exact .inl all
  | peekVecN limit =>
    obtain ⟨front, count, most, all⟩ := peekVecN_front b limit
    refine ⟨valid, ?_⟩
    dsimp only [step]
    rw [count]
    exact .peekVecN front most all
  | discard n =>
    obtain ⟨dropped, count⟩ := discard_dropped b valid n
    refine ⟨dropped.valid valid, ?_⟩
    dsimp only [step]
    rw [count, content_dropped dropped]
    by_cases all : n ≤ 0
    · simp only [if_pos all, take_length, drop_length]
      exact .discardAll all
    · simp only [if_neg all]
      exact .discard (by omega)
  | gather n tail =>
    obtain ⟨appended, rest⟩ := gather_appended b n tail extra
    refine ⟨appended.valid valid, ?_⟩
    dsimp only [step]
    rw [appended.content, rest]
    nth_rewrite 1 [← tail.take_append_drop (taken b n tail)]
    apply Spec.gather
    rw [take_append_drop, length_take, taken, valid]
    omega
  | writeTo answers =>
    obtain ⟨dropped, ended, stopped⟩ := writeTo_dropped b answers
    refine ⟨dropped.valid valid, ?_⟩
    rw [dropped.content] at stopped
    dsimp only [step]
    nth_rewrite 1 [dropped.content]
    exact .writeTo ended stopped
  | reset =>
    obtain ⟨emptied, length⟩ := reset_content b
    refine ⟨?_, ?_⟩
    · dsimp only [step]
      rw [Valid, emptied, length]
      rfl
    · dsimp only [step]
      rw [emptied]
      exact .reset

def run (b : CompositeBuffer) : List (Op × Nat) → List Output × CompositeBuffer
  | [] => ([], b)
  | (op, extra) :: ops =>
    let after := step b extra op
    ((after.2 :: (run after.1 ops).1), (run after.1 ops).2)

inductive SpecRun : Bytes → List (Op × Nat) → List Output → Bytes → Prop where
  | nil (q) : SpecRun q [] [] q
  | cons {q q' q'' op extra ops out outs} (first : Spec op q out q')
      (rest : SpecRun q' ops outs q'') : SpecRun q ((op, extra) :: ops) (out :: outs) q''

theorem run_spec (ops : List (Op × Nat)) {b : CompositeBuffer} (valid : Valid b) :
    Valid (run b ops).2 ∧ SpecRun (content b) ops (run b ops).1 (content (run b ops).2) := by
  induction ops generalizing b with
  | nil => exact ⟨valid, .nil _⟩
  | cons call ops ih =>
    obtain ⟨valid', first⟩ := step_spec valid call.2 call.1
    obtain ⟨valid'', rest⟩ := ih valid'
    exact ⟨valid'', .cons first rest⟩

def view (c : Inbound) : Bytes := content c.inbound ++ c.inboundTail

/-- What a connection does with its inbound bytes. A read from the socket becomes the
borrowed tail, and what its callback leaves of it is copied into the blocks. -/
inductive Use where
  | arrive (p : Bytes)
  | keep
  | read (k : Nat)
  | peek (k : Nat)
  | discard (n : Int)
  | reserveInbound (n limit : Int)
  | writeTo (answers : Nat → Buffer.Answer) (last : Buffer.Answer)

inductive Answered where
  | nothing
  | count (n : Int)
  | data (bytes : Bytes)
  | refused (limit : Bool)
  | written (bytes : Bytes) (failed : Bool)

def use (c : Inbound) (extra : Nat) : Use → Inbound × Answered
  | .arrive p => (if c.inboundTail = [] then { c with inboundTail := p } else c, .nothing)
  | .keep => (⟨(c.inbound.write c.inboundTail extra).1, []⟩, .nothing)
  | .read k => ((c.read k).1, .data (c.read k).2)
  | .peek k => (c, .data (c.peek k))
  | .discard n => ((c.discard n).1, .count (c.discard n).2)
  | .reserveInbound n limit =>
    ((c.reserveInbound n limit extra).1, .refused (c.reserveInbound n limit extra).2)
  | .writeTo answers last =>
    ((c.writeTo answers last).1, .written (c.writeTo answers last).2.1 (c.writeTo answers last).2.2)

/-- What each use does to the one queue. A read arrives only behind a spent tail. -/
inductive UseSpec : Use → Bytes → Answered → Bytes → Prop where
  | arrive {q p} : UseSpec (.arrive p) q .nothing (q ++ p)
  | early {q p} : UseSpec (.arrive p) q .nothing q
  | keep {q} : UseSpec .keep q .nothing q
  | read {q k} : UseSpec (.read k) q (.data (q.take k)) (q.drop k)
  | peek {q k} : UseSpec (.peek k) q (.data (q.take k)) q
  | discardAll {q n} (all : n < 0) : UseSpec (.discard n) q (.count q.length) []
  | discard {q n} (some_kept : 0 ≤ n) :
    UseSpec (.discard n) q (.count (q.take n.toNat).length) (q.drop n.toNat)
  | reserveInbound {q n limit} :
    UseSpec (.reserveInbound n limit) q (.refused (0 < limit ∧ limit < n)) q
  | writeTo {q answers last failed} {bytes : Bytes}
      (ended : failed = false → q = [] ∨ last.taken < (bytes ++ q).length)
      (stopped : failed = true → last.failed = true ∨ Stopped answers (bytes ++ q).length) :
    UseSpec (.writeTo answers last) (bytes ++ q) (.written bytes failed) q

theorem empty_content {b : CompositeBuffer} (valid : Valid b) :
    b.isEmpty = true ↔ content b = [] := by
  unfold CompositeBuffer.isEmpty
  rw [valid, decide_eq_true_eq, ← List.length_eq_zero_iff]
  omega

theorem inbound_read (valid : Valid c.inbound) (k : Nat) :
    Valid (c.read k).1.inbound ∧ (c.read k).2 = (view c).take k ∧
      view (c.read k).1 = (view c).drop k := by
  obtain ⟨dropped, data, _⟩ := read_dropped c.inbound k
  have valid' := dropped.valid valid
  have left := content_dropped dropped
  unfold Inbound.read view
  by_cases none_held : c.inbound.isEmpty = true
  · have drained := (empty_content valid).mp none_held
    simp [none_held, drained, valid]
  · simp only [none_held, Bool.false_eq_true, if_false, not_false_eq_true, true_and, data]
    by_cases filled : ((content c.inbound).take k).length = k
    · have long : k ≤ (content c.inbound).length := by
        rw [length_take] at filled
        omega
      rw [if_pos filled]
      refine ⟨valid', ?_, ?_⟩
      · rw [List.take_append_of_le_length long]
      · rw [List.drop_append_of_le_length long, left]
    · have short : (content c.inbound).length ≤ k := by
        rw [length_take] at filled
        omega
      rw [if_neg filled]
      refine ⟨valid', ?_, ?_⟩
      · rw [take_append, take_of_length_le short]
      · rw [drop_append, left, take_of_length_le short]

theorem inbound_peek (valid : Valid c.inbound) (k : Nat) : c.peek k = (view c).take k := by
  unfold Inbound.peek view
  dsimp only
  rw [peek_front, valid]
  split_ifs with nothing drained short
  · rcases nothing with zero | empty
    · rw [zero, take_zero]
    · have none_held : content c.inbound = [] ∧ c.inboundTail = [] := by
        constructor <;> apply eq_nil_of_length_eq_zero <;> omega
      simp [none_held]
  · have none_held : content c.inbound = [] := eq_nil_of_length_eq_zero (by omega)
    rw [none_held, nil_append]
    rcases Nat.le_total k c.inboundTail.length with less | more
    · rw [Nat.min_eq_left less]
    · rw [Nat.min_eq_right more, take_length, take_of_length_le more]
  · rw [length_take] at short
    rw [take_append, take_of_length_le (by omega)]
  · rw [length_take] at short
    rw [List.take_append_of_le_length (by omega)]

theorem discard_content {b : CompositeBuffer} (valid : Valid b) {n : Int} (positive : 0 < n) :
    Valid (b.discard n).1 ∧ content (b.discard n).1 = (content b).drop n.toNat := by
  obtain ⟨dropped, _⟩ := discard_dropped b valid n
  refine ⟨dropped.valid valid, ?_⟩
  rw [content_dropped dropped, if_neg (by omega)]

theorem inbound_discardCount (valid : Valid c.inbound) {n : Int} (nonneg : 0 ≤ n) :
    Valid (c.discardCount n).1.inbound ∧ (c.discardCount n).2 = n ∧
      view (c.discardCount n).1 = (view c).drop n.toNat := by
  have length : c.inbound.length = (content c.inbound).length := valid
  unfold Inbound.discardCount
  split_ifs with zero drained inside
  · rw [zero]
    exact ⟨valid, rfl, rfl⟩
  · have none_held : content c.inbound = [] := eq_nil_of_length_eq_zero (by omega)
    exact ⟨valid, rfl, by simp [view, none_held]⟩
  · obtain ⟨valid', left⟩ := discard_content valid (show 0 < n by omega)
    refine ⟨valid', rfl, ?_⟩
    rw [view, view, left, List.drop_append_of_le_length (by omega)]
  · obtain ⟨valid', left⟩ := discard_content valid (show 0 < c.inbound.length by omega)
    have spent : (content c.inbound).drop c.inbound.length.toNat = [] := by
      apply drop_eq_nil_of_le
      omega
    have passed : (content c.inbound).drop n.toNat = [] := by
      apply drop_eq_nil_of_le
      omega
    have past : n.toNat - (content c.inbound).length = (n - c.inbound.length).toNat := by omega
    refine ⟨valid', rfl, ?_⟩
    rw [view, view, left, spent, drop_append, passed, past]

theorem inbound_discard (valid : Valid c.inbound) (n : Int) : Valid (c.discard n).1.inbound ∧
      UseSpec (.discard n) (view c) (.count (c.discard n).2) (view (c.discard n).1) := by
  have total : c.inbound.length + c.inboundTail.length = ((view c).length : Int) := by
    rw [valid, view, length_append]
    omega
  unfold Inbound.discard
  dsimp only
  rw [total]
  by_cases all : n < 0
  · obtain ⟨valid', count, left⟩ := inbound_discardCount valid (Int.natCast_nonneg (view c).length)
    simp only [all, true_or, if_true]
    refine ⟨valid', ?_⟩
    rw [count, left, Int.toNat_natCast, drop_length]
    exact .discardAll all
  · have clamp : (if n < 0 ∨ n > ((view c).length : Int) then ((view c).length : Int) else n) =
        ((view c).take n.toNat).length := by
      rw [length_take]
      split_ifs <;> omega
    have same : (view c).drop ((view c).take n.toNat).length = (view c).drop n.toNat := by
      rw [length_take]
      rcases Nat.le_total n.toNat (view c).length with less | more
      · rw [Nat.min_eq_left less]
      · rw [Nat.min_eq_right more, drop_length, drop_eq_nil_of_le more]
    obtain ⟨valid', count, left⟩ :=
      inbound_discardCount valid (Int.natCast_nonneg ((view c).take n.toNat).length)
    rw [clamp]
    refine ⟨valid', ?_⟩
    rw [count, left, Int.toNat_natCast, same]
    exact .discard (by omega)

theorem inbound_reserve (valid : Valid c.inbound) (n limit : Int) (extra : Nat) :
    Valid (c.reserveInbound n limit extra).1.inbound ∧
      (c.reserveInbound n limit extra).2 = decide (0 < limit ∧ limit < n) ∧
      view (c.reserveInbound n limit extra).1 = view c := by
  obtain ⟨appended, rest⟩ := gather_appended c.inbound n c.inboundTail extra
  unfold Inbound.reserveInbound
  by_cases beyond : 0 < limit ∧ limit < n
  · rw [if_pos beyond]
    exact ⟨valid, (decide_eq_true beyond).symm, rfl⟩
  · rw [if_neg beyond, decide_eq_false beyond]
    by_cases held : (if c.inbound.isEmpty = true then n ≤ (c.inboundTail.length : Int)
        else n ≤ (c.inbound.peekChunk.length : Int))
    · rw [if_pos held]
      exact ⟨valid, rfl, rfl⟩
    · rw [if_neg held]
      refine ⟨appended.valid valid, rfl, ?_⟩
      dsimp only [view]
      rw [appended.content, rest, append_assoc, take_append_drop]

theorem inbound_writeTo (valid : Valid c.inbound) (answers : Nat → Buffer.Answer)
    (last : Buffer.Answer) : Valid (c.writeTo answers last).1.inbound ∧
      view c = (c.writeTo answers last).2.1 ++ view (c.writeTo answers last).1 ∧
      ((c.writeTo answers last).2.2 = false → view (c.writeTo answers last).1 = [] ∨
        last.taken < (view c).length) ∧
      ((c.writeTo answers last).2.2 = true →
        last.failed = true ∨ Stopped answers (view c).length) := by
  have blocks : ∃ inbound data failed, (if c.inbound.isEmpty = true then (c.inbound, [], false)
      else c.inbound.writeTo answers) = (inbound, data, failed) ∧ Valid inbound ∧
      content c.inbound = data ++ content inbound ∧ (failed = false → content inbound = []) ∧
      (failed = true → Stopped answers (content c.inbound).length) := by
    split_ifs with none_held
    · have drained := (empty_content valid).mp none_held
      exact ⟨_, _, _, rfl, valid, by simp, fun _ => drained, nofun⟩
    · obtain ⟨dropped, ends⟩ := writeTo_dropped c.inbound answers
      exact ⟨_, _, _, rfl, dropped.valid valid, dropped.content, ends⟩
  obtain ⟨inbound, data, failed, same, valid', split, ended, stopped⟩ := blocks
  have total : (view c).length = (content c.inbound).length + c.inboundTail.length := by simp [view]
  unfold Inbound.writeTo
  rw [same]
  dsimp only
  split_ifs with stops
  · refine ⟨valid', by simp [view, split], fun (fine : failed = false) => ?_, fun fails => .inr ?_⟩
    · left
      rw [view, ended fine, stops.resolve_left (by simp [fine])]
      rfl
    · obtain ⟨call, short⟩ := stopped fails
      exact ⟨call, short.imp_right (by omega)⟩
  · rw [not_or] at stops
    have drained := ended (Bool.eq_false_iff.mpr stops.1)
    refine ⟨valid', by simp [view, split, drained], fun _ => ?_, .inl⟩
    by_cases short : last.taken < c.inboundTail.length
    · exact .inr (by omega)
    · left
      simp [view, drained]
      omega

theorem use_spec (valid : Valid c.inbound) (extra : Nat) (u : Use) :
    Valid (use c extra u).1.inbound ∧
      UseSpec u (view c) (use c extra u).2 (view (use c extra u).1) := by
  cases u with
  | arrive p =>
    dsimp only [use]
    split_ifs with spent
    · refine ⟨valid, ?_⟩
      have before : view c = content c.inbound := by rw [view, spent, append_nil]
      rw [before]
      exact .arrive
    · exact ⟨valid, .early⟩
  | keep =>
    obtain ⟨appended, _⟩ := write_appended c.inbound c.inboundTail extra
    refine ⟨appended.valid valid, ?_⟩
    dsimp only [use, view]
    rw [appended.content, append_nil]
    exact .keep
  | read k =>
    obtain ⟨valid', data, left⟩ := inbound_read valid k
    refine ⟨valid', ?_⟩
    dsimp only [use]
    rw [data, left]
    exact .read
  | peek k =>
    refine ⟨valid, ?_⟩
    dsimp only [use]
    rw [inbound_peek valid]
    exact .peek
  | discard n => exact inbound_discard valid n
  | reserveInbound n limit =>
    obtain ⟨valid', refused, same⟩ := inbound_reserve valid n limit extra
    refine ⟨valid', ?_⟩
    dsimp only [use]
    rw [refused, same]
    exact .reserveInbound
  | writeTo answers last =>
    obtain ⟨valid', split, ended, stopped⟩ := inbound_writeTo valid answers last
    refine ⟨valid', ?_⟩
    rw [split] at ended stopped
    dsimp only [use]
    nth_rewrite 1 [split]
    exact .writeTo ended stopped

def useRun (c : Inbound) : List (Use × Nat) → List Answered × Inbound
  | [] => ([], c)
  | (u, extra) :: uses =>
    let after := use c extra u
    ((after.2 :: (useRun after.1 uses).1), (useRun after.1 uses).2)

inductive UseSpecRun : Bytes → List (Use × Nat) → List Answered → Bytes → Prop where
  | nil (q) : UseSpecRun q [] [] q
  | cons {q q' q'' u extra uses out outs} (first : UseSpec u q out q')
      (rest : UseSpecRun q' uses outs q'') : UseSpecRun q ((u, extra) :: uses) (out :: outs) q''

theorem useRun_spec (uses : List (Use × Nat)) (valid : Valid c.inbound) :
    UseSpecRun (view c) uses (useRun c uses).1 (view (useRun c uses).2) := by
  induction uses generalizing c with
  | nil => exact .nil _
  | cons call uses ih =>
    obtain ⟨valid', first⟩ := use_spec valid call.2 call.1
    exact .cons first (ih valid')

/-- A buffer after any operations is the queue their specification leaves, of the length
it has cached; and so is a connection's view that starts from it and any tail. -/
theorem buffered_bytes_one_queue (ops : List (Op × Nat)) (tail : Bytes) (uses : List (Use × Nat)) :
    let ran := run .new ops
    SpecRun [] ops ran.1 (content ran.2) ∧
      ran.2.length = ((ran.2.bufList.map Buffer.len).sum : Nat) ∧
      ran.2.length = (content ran.2).length ∧
      UseSpecRun (content ran.2 ++ tail) uses (useRun ⟨ran.2, tail⟩ uses).1
        (view (useRun ⟨ran.2, tail⟩ uses).2) := by
  obtain ⟨valid, spec⟩ := run_spec ops (show Valid .new from rfl)
  have uses_spec := useRun_spec uses (show Valid (⟨(run .new ops).2, tail⟩ : Inbound).inbound from valid)
  exact ⟨spec, (valid_sum _).mp valid, valid, uses_spec⟩

end BytebufQueue
