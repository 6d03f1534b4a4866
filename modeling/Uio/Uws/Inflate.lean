import Uio.Uws.Deflate

/-!
Decompressing one message. The reader is fed the payload and then the tail that ends a
message; the text it yields goes into a buffer that grows in steps, and a text that fills
the limit is probed for one byte more. The window advances with the text that is handed
over and with nothing else.
-/
namespace UwsInflate
open UwsDeflate

def decodeTail : Bytes := [0, 0, 0xff, 0xff, 1, 0, 0, 0xff, 0xff]

structure Source where
  payload : Bytes
  payloadOffset : Nat
  tailOffset : Nat

def Source.reset (payload : Bytes) : Source := ⟨payload, 0, 0⟩

def Source.read (s : Source) (size : Nat) : Bytes × Source :=
  let first := (s.payload.drop s.payloadOffset).take size
  let second := (decodeTail.drop s.tailOffset).take (size - first.length)
  (first ++ second,
    { s with
      payloadOffset := s.payloadOffset + first.length
      tailOffset := s.tailOffset + second.length })

def Source.reads (s : Source) : List Nat → Bytes
  | [] => []
  | size :: sizes => (s.read size).1 ++ (s.read size).2.reads sizes

def Source.left (s : Source) : Bytes :=
  s.payload.drop s.payloadOffset ++ decodeTail.drop s.tailOffset

theorem drop_min {α : Type} (l : List α) (from_ n : Nat) :
    l.drop (from_ + min n (l.length - from_)) = (l.drop from_).drop n := by
  rw [List.drop_drop]
  by_cases short : n ≤ l.length - from_
  · rw [Nat.min_eq_left short]
  · rw [List.drop_eq_nil_of_le (by omega), List.drop_eq_nil_of_le (by omega)]

theorem read_left (s : Source) (size : Nat) :
    (s.read size).1 = s.left.take size ∧ (s.read size).2.left = s.left.drop size := by
  have rest : size - min size (s.payload.length - s.payloadOffset) =
      size - (s.payload.length - s.payloadOffset) := by omega
  simp only [Source.read, Source.left, List.take_append, List.drop_append, List.length_take,
    List.length_drop, rest, drop_min, and_self]

theorem reads_eq (s : Source) (sizes : List Nat) : s.reads sizes = s.left.take sizes.sum := by
  induction sizes generalizing s with
  | nil => rfl
  | cons size sizes ih =>
    obtain ⟨read, left⟩ := read_left s size
    rw [Source.reads, ih, read, left, List.sum_cons, List.take_add]

structure Within (capacity maxSize : Nat) (r : Progress) : Prop where
  held : r.output.length ≤ r.capacity
  size : r.output.length ≤ maxSize
  buffer : r.capacity ≤ max capacity maxSize

theorem writeLimit_room {capacity maxSize length : Nat} (within : length < maxSize)
    (held : length ≤ capacity) : length < (writeLimit capacity maxSize length).2 ∧
      (writeLimit capacity maxSize length).2 ≤ maxSize ∧
      (writeLimit capacity maxSize length).2 ≤ (writeLimit capacity maxSize length).1 := by
  unfold writeLimit growDecodeOutput
  dsimp only
  split_ifs <;> dsimp only <;> omega

theorem writeLimit_capacity (capacity maxSize length : Nat) :
    (writeLimit capacity maxSize length).1 ≤ max capacity maxSize := by
  unfold writeLimit growDecodeOutput
  dsimp only
  split_ifs <;> dsimp only <;> omega

theorem decodeLoop_spec {first maxSize : Nat} (ending : Ending) (pieces : Nat → Piece) (fuel : Nat)
    (r : Progress) (enough : r.rest.length + 1 < fuel) (within : Within first maxSize r) :
    (decodeLoop maxSize ending pieces fuel r).1 =
        some (if maxSize < r.output.length + r.rest.length then .tooLarge
          else ending.verdict (r.output ++ r.rest)) ∧
      ∀ t ∈ (decodeLoop maxSize ending pieces fuel r).2, Within first maxSize t := by
  induction fuel generalizing r with
  | zero => omega
  | succ fuel ih =>
    obtain ⟨capacity, output, rest⟩ := r
    have ⟨held, size, buffer⟩ := within
    unfold decodeLoop
    dsimp only at *
    by_cases full : output.length = maxSize
    · rw [if_pos full]
      cases rest <;> simp [full, within]
    · rw [if_neg full]
      obtain ⟨below, most, inside⟩ := writeLimit_room (Nat.lt_of_le_of_ne size full) held
      have grown := writeLimit_capacity capacity maxSize output.length
      generalize writeLimit capacity maxSize output.length = limits at *
      generalize piece : min ((pieces fuel).size + 1) (limits.2 - output.length) = n
      have next : Within first maxSize ⟨limits.1, output ++ rest.take n, rest.drop n⟩ := by
        constructor <;> simp only [List.length_append, List.length_take] <;> omega
      split
      · rename_i last
        have taken : rest.take n = rest := by
          rcases last with rfl | ⟨short, _⟩
          · exact List.take_nil
          · exact List.take_of_length_le short
        have fits := next.size
        rw [taken, List.length_append] at fits
        simp [taken, Nat.not_lt.mpr fits, within, taken ▸ next]
      · rename_i more
        have left : rest ≠ [] := fun none => more (.inl none)
        have shorter := List.length_pos_of_ne_nil left
        obtain ⟨verdict, bounded⟩ := ih ⟨limits.1, output ++ rest.take n, rest.drop n⟩
          (by rw [List.length_drop]; omega) next
        have total : (output ++ rest.take n).length + (rest.drop n).length =
            output.length + rest.length := by
          simp only [List.length_append, List.length_take, List.length_drop]
          omega
        rw [verdict, total, List.append_assoc, List.take_append_drop]
        exact ⟨rfl, List.forall_mem_cons.mpr ⟨within, bounded⟩⟩

variable (inflate : Bytes → Bytes → Bytes × Ending) (d : Decoder) (payload : Bytes) (maxSize : Int)
  (capacity : Nat) (pieces : Nat → Piece) (spare : Nat)

def text : Bytes × Ending := inflate d.dictionary.elems (payload ++ decodeTail)

def decodeRun : Option Verdict × List Progress :=
  let stream := text inflate d payload
  decodeLoop (decodeLimit maxSize) stream.2 pieces (stream.1.length + 2) ⟨capacity, [], stream.1⟩

/-- What the caller is told or the consumer is handed, and the decoder left behind. -/
def decodeBorrowed : Option Verdict × Decoder :=
  match (decodeRun inflate d payload maxSize capacity pieces).1 with
  | some (.handed output) => (some (.handed output), d.advance output spare)
  | verdict => (verdict, d)

theorem decodeRun_spec : (decodeRun inflate d payload maxSize capacity pieces).1 =
      some (if decodeLimit maxSize < (text inflate d payload).1.length then .tooLarge
        else (text inflate d payload).2.verdict (text inflate d payload).1) ∧
    ∀ r ∈ (decodeRun inflate d payload maxSize capacity pieces).2,
      Within capacity (decodeLimit maxSize) r := by
  have start : Within capacity (decodeLimit maxSize) ⟨capacity, [], (text inflate d payload).1⟩ :=
    ⟨Nat.zero_le _, Nat.zero_le _, Nat.le_max_left _ _⟩
  simpa [decodeRun] using
    decodeLoop_spec (text inflate d payload).2 pieces _ _ (Nat.lt_succ_self _) start

/-- Whatever the reads bring: the text is handed over just when it ends properly within the
    limit, and refused as too large just when it exceeds it; the buffer stays within the limit,
    and only a text that is handed over advances the window. -/
theorem decode_bounded_transactional :
    (∀ sizes, (Source.reset payload).reads sizes = (payload ++ decodeTail).take sizes.sum) ∧
      (∀ output, (decodeBorrowed inflate d payload maxSize capacity pieces spare).1 =
          some (.handed output) ↔ (text inflate d payload).1.length ≤ decodeLimit maxSize ∧
        (text inflate d payload).2 = .eof ∧ (text inflate d payload).1 = output) ∧
      ((decodeBorrowed inflate d payload maxSize capacity pieces spare).1 = some .tooLarge ↔
        decodeLimit maxSize < (text inflate d payload).1.length) ∧
      (∀ r ∈ (decodeRun inflate d payload maxSize capacity pieces).2,
        Within capacity (decodeLimit maxSize) r) ∧
      ((∀ output, (decodeBorrowed inflate d payload maxSize capacity pieces spare).1 ≠
        some (.handed output)) →
        (decodeBorrowed inflate d payload maxSize capacity pieces spare).2 = d) := by
  obtain ⟨verdict, bounded⟩ := decodeRun_spec inflate d payload maxSize capacity pieces
  refine ⟨fun sizes => reads_eq _ sizes, ?_, ?_, bounded, ?_⟩
  all_goals
    rw [decodeBorrowed, verdict]
    generalize text inflate d payload = stream
    obtain ⟨output, ending⟩ := stream
    by_cases large : decodeLimit maxSize < output.length
    · simp [large, Nat.not_le.mpr large]
    · cases ending <;> simp [large, Nat.not_lt.mp large, Ending.verdict]

end UwsInflate
