import Uio.Streaming
import Uio.Uws.Frame

/-!
The frame parser does not see how its input was cut. `parseFrame` is a front parser
whose verdict later bytes never change. The incremental parser keeps the bytes of an
unfinished frame in one of three stages, and each of its rounds goes to the next one
or reaches the verdict of `parseFrame` on the kept bytes and the new ones together.
-/
namespace UwsSegments
open ByteOrder Streaming UwsMask UwsFrame
open List (append_assoc cons_append length_append length_take)
variable (m : Platform) (cfg : ParserConfig)
variable {xs : List UInt8} (ys : List UInt8) {p : Parser} {raw : List UInt8} (src : List UInt8)

theorem vet_ok {b0 b1 : UInt8} {opcode : OpCode} : vet cfg b0 b1 = .ok opcode ↔
      b0 &&& 0x30 = 0 ∧ (isRSV1 b0 && !cfg.allowRSV1) = false ∧
        OpCode.ofByte (b0 &&& 0x0f) = some opcode ∧ isMasked b1 = cfg.expectMask ∧
          (opcode.isControl && (!isFin b0 || 126 ≤ b1 &&& 0x7f || isRSV1 b0)) = false := by
  unfold vet
  by_cases reserved : b0 &&& 0x30 = 0
  · rw [if_neg (not_not_intro reserved)]
    cases rsv1 : isRSV1 b0 && !cfg.allowRSV1 with
    | true => simp
    | false =>
      rw [if_neg (by decide)]
      cases OpCode.ofByte (b0 &&& 0x0f) with
      | none => simp
      | some found =>
        dsimp only
        by_cases masked : isMasked b1 = cfg.expectMask
        · rw [if_neg (not_not_intro masked)]
          by_cases control :
              (found.isControl && (!isFin b0 || 126 ≤ b1 &&& 0x7f || isRSV1 b0)) = true
          · rw [if_pos control]
            refine ⟨nofun, fun ⟨_, _, same, _, free⟩ => ?_⟩
            cases same
            rw [control] at free
            cases free
          · rw [if_neg control]
            refine ⟨fun same => ?_, fun ⟨_, _, same, _⟩ => ?_⟩
            · cases same
              exact ⟨reserved, rfl, rfl, masked, Bool.eq_false_iff.mpr control⟩
            · cases same
              rfl
        · simp [masked]
  · simp [reserved]

def measured (b1 : UInt8) (header : List UInt8) : Except Err Nat :=
  limited cfg (headerSize b1) (payloadLength (b1 &&& 0x7f) header (b1 &&& 0x7f).toNat)

/-- The key of a header; an unmasked frame is as one masked with zeros. -/
def keyOf (b1 : UInt8) (header : List UInt8) : Key :=
  if isMasked b1 then keyAt header (2 + extension (b1 &&& 0x7f)) else .zero

def payloadOf (b1 : UInt8) (src : List UInt8) : List UInt8 :=
  xorBytes (keyOf b1 src) 0 (src.drop (headerSize b1))

theorem getD_append {i : Nat} (within : i < xs.length) (ys : List UInt8) :
    (xs ++ ys).getD i 0 = xs.getD i 0 := by
  simp only [List.getD_eq_getElem?_getD, List.getElem?_append_left within]

theorem slice_append {i n : Nat} (within : i + n ≤ xs.length) (ys : List UInt8) :
    ((xs ++ ys).drop i).take n = (xs.drop i).take n := by
  rw [List.drop_append_of_le_length (by omega), List.take_append_of_le_length]
  rw [List.length_drop]
  omega

theorem payloadLength_append (code : UInt8) (within : 2 + extension code ≤ xs.length)
    (ys : List UInt8) (short : Nat) :
    payloadLength code (xs ++ ys) short = payloadLength code xs short := by
  unfold extension at within
  unfold payloadLength
  split
  · rename_i two
    rw [if_pos two] at within
    rw [slice_append within]
  · split
    · rename_i two eight
      rw [if_neg two, if_pos eight] at within
      rw [getD_append (by omega), slice_append within]
    · rfl

theorem two_le_headerSize (b1 : UInt8) : 2 ≤ headerSize b1 :=
  Nat.le_trans (Nat.le_add_right 2 _) (Nat.le_add_right _ _)

theorem length_le_headerSize (b1 : UInt8) : 2 + extension (b1 &&& 0x7f) ≤ headerSize b1 :=
  Nat.le_add_right _ _

theorem measured_append {b1 : UInt8} (whole : headerSize b1 ≤ xs.length)
    (ys : List UInt8) : measured cfg b1 (xs ++ ys) = measured cfg b1 xs := by
  unfold measured
  rw [payloadLength_append _ (Nat.le_trans (length_le_headerSize b1) whole)]

theorem keyAt_append {i : Nat} (within : i + 4 ≤ xs.length) (ys : List UInt8) :
    keyAt (xs ++ ys) i = keyAt xs i := by
  unfold keyAt
  rw [getD_append (by omega), getD_append (by omega), getD_append (by omega), getD_append (by omega)]

theorem keyOf_append {b1 : UInt8} (whole : headerSize b1 ≤ xs.length)
    (ys : List UInt8) : keyOf b1 (xs ++ ys) = keyOf b1 xs := by
  unfold keyOf
  split
  · rename_i masked
    apply keyAt_append
    simp only [headerSize, masked, if_true] at whole
    exact whole
  · rfl

theorem payloadOf_append {b1 : UInt8} (whole : headerSize b1 ≤ xs.length) (ys : List UInt8) :
    payloadOf b1 (xs ++ ys) =
      payloadOf b1 xs ++ unmask m.useAVX2 (keyOf b1 xs) ((xs.length - headerSize b1) % 4) ys := by
  unfold payloadOf
  rw [keyOf_append whole, List.drop_append_of_le_length whole, xorBytes_append, unmask_eq,
    List.length_drop, Nat.zero_add]
  congr 1
  apply xorBytes_congr
  intro i
  exact (at_add_mod _ _ _).symm

theorem payloadOf_whole {b1 : UInt8} {src : List UInt8} {n : Nat}
    (long : headerSize b1 + n ≤ src.length) : (if isMasked b1 = true then
        unmask m.useAVX2 (keyAt src (headerSize b1 - 4)) 0 ((src.drop (headerSize b1)).take n)
      else (src.drop (headerSize b1)).take n) = payloadOf b1 (src.take (headerSize b1 + n)) := by
  have inside : headerSize b1 ≤ (src.take (headerSize b1 + n)).length := by
    rw [length_take]
    omega
  have key : keyOf b1 (src.take (headerSize b1 + n)) = keyOf b1 src := by
    rw [← keyOf_append inside (src.drop (headerSize b1 + n)), List.take_append_drop]
  unfold payloadOf
  rw [key, List.drop_take, Nat.add_sub_cancel_left]
  unfold keyOf
  split
  · rename_i masked
    rw [unmask_eq]
    simp only [headerSize, masked, if_true, Nat.add_sub_cancel]
  · rw [xorBytes_zero]

theorem parseBody_eq (b0 b1 : UInt8) (opcode : OpCode) (src : List UInt8) :
    parseBody m cfg b0 b1 opcode src =
      if src.length < headerSize b1 then .incomplete
      else
        match measured cfg b1 src with
        | .error e => .failed e
        | .ok n =>
          if src.length < headerSize b1 + n then .incomplete
          else
            match checkClose m opcode (payloadOf b1 (src.take (headerSize b1 + n))) with
            | some e => .failed e
            | none =>
              .complete ⟨⟨isFin b0, isRSV1 b0, opcode, isMasked b1,
                payloadOf b1 (src.take (headerSize b1 + n))⟩, true⟩ (headerSize b1 + n) := by
  unfold parseBody
  change (if _ then _ else match measured cfg b1 src with | .error e => _ | .ok n => _) = _
  by_cases header : src.length < headerSize b1
  · rw [if_pos header, if_pos header]
  · rw [if_neg header, if_neg header]
    cases measured cfg b1 src with
    | error e => rfl
    | ok n =>
      dsimp only
      by_cases short : src.length < headerSize b1 + n
      · rw [if_pos short, if_pos short]
      · have whole := payloadOf_whole m (show headerSize b1 + n ≤ src.length by omega)
        cases check : checkClose m opcode (payloadOf b1 (src.take (headerSize b1 + n))) <;>
          simp only [if_neg short, whole, check]

theorem parseBody_append {b0 b1 : UInt8} {opcode : OpCode} {src : List UInt8}
    (settled : parseBody m cfg b0 b1 opcode src ≠ .incomplete) (ys : List UInt8) :
    parseBody m cfg b0 b1 opcode (src ++ ys) = parseBody m cfg b0 b1 opcode src := by
  rw [parseBody_eq] at settled
  rw [parseBody_eq, parseBody_eq, length_append]
  by_cases header : src.length < headerSize b1
  · exact absurd (if_pos header) settled
  · rw [if_neg header] at settled ⊢
    rw [if_neg (by omega), measured_append cfg (Nat.not_lt.mp header)]
    cases size : measured cfg b1 src with
    | error e => rfl
    | ok n =>
      rw [size] at settled
      dsimp only at settled ⊢
      by_cases short : src.length < headerSize b1 + n
      · exact absurd (if_pos short) settled
      · rw [if_neg short, if_neg (by omega), List.take_append_of_le_length (Nat.not_lt.mp short)]

theorem parseFrame_append {src : List UInt8} (settled : parseFrame m cfg src ≠ .incomplete)
    (ys : List UInt8) : parseFrame m cfg (src ++ ys) = parseFrame m cfg src := by
  match src, settled with
  | [], settled => exact absurd rfl settled
  | [_], settled => exact absurd rfl settled
  | b0 :: b1 :: tail, settled =>
    unfold parseFrame at settled ⊢
    dsimp only [cons_append] at settled ⊢
    cases vetted : vet cfg b0 b1 with
    | error e => rfl
    | ok opcode =>
      rw [vetted] at settled
      exact parseBody_append m cfg settled ys

/-- A verdict as a caller sees it: the content of the frame, the class of the error. -/
def seen : Parsed → Outcome Content ErrKind
  | .incomplete => .more
  | .complete f n => .item f.toContent n
  | .failed e => .fail e.kind

def oneShot : Front UInt8 Content ErrKind where
  parse src := seen (parseFrame m cfg src)
  sized := by
    intro src f n item
    cases parsed : parseFrame m cfg src with
    | incomplete => rw [parsed] at item; cases item
    | failed e => rw [parsed] at item; cases item
    | complete g size =>
      rw [parsed] at item
      cases item
      exact parseFrame_sized m cfg parsed
  item_append := by
    intro src f n ys item
    rw [parseFrame_append m cfg (fun more => by rw [more] at item; cases item), item]
  fail_append := by
    intro src e ys fail
    rw [parseFrame_append m cfg (fun more => by rw [more] at fail; cases fail), fail]

def opened (b0 b1 : UInt8) (opcode : OpCode) (raw : List UInt8) : Parser where
  header := raw
  headerNeed := headerSize b1
  fin := isFin b0
  rsv1 := isRSV1 b0
  opcode := opcode
  masked := isMasked b1
  payloadLen := if b1 &&& 0x7f = 126 ∨ b1 &&& 0x7f = 127 then 0 else (b1 &&& 0x7f).toNat
  need_two := two_le_headerSize b1

def paying (b0 b1 : UInt8) (opcode : OpCode) (n : Nat) (raw : List UInt8) : Parser where
  header := raw.take (headerSize b1)
  headerNeed := headerSize b1
  fin := isFin b0
  rsv1 := isRSV1 b0
  opcode := opcode
  masked := isMasked b1
  payloadLen := n
  payloadRead := raw.length - headerSize b1
  maskKey := keyOf b1 raw
  maskOffset := (raw.length - headerSize b1) % 4
  payload := some (payloadOf b1 raw)
  payloadBuf := 0 < n
  need_two := two_le_headerSize b1

inductive Keeps : Parser → List UInt8 → Prop where
  | start {raw : List UInt8} (short : raw.length < 2) : Keeps { header := raw } raw
  | opened {b0 b1 : UInt8} {tail : List UInt8} {opcode : OpCode} (vetted : vet cfg b0 b1 = .ok opcode)
      (short : (b0 :: b1 :: tail).length < headerSize b1) :
      Keeps (opened b0 b1 opcode (b0 :: b1 :: tail)) (b0 :: b1 :: tail)
  | paying {b0 b1 : UInt8} {tail : List UInt8} {opcode : OpCode} {n : Nat}
      (vetted : vet cfg b0 b1 = .ok opcode) (whole : headerSize b1 ≤ (b0 :: b1 :: tail).length)
      (size : measured cfg b1 (b0 :: b1 :: tail) = .ok n)
      (short : (b0 :: b1 :: tail).length < headerSize b1 + n) :
      Keeps (paying b0 b1 opcode n (b0 :: b1 :: tail)) (b0 :: b1 :: tail)

theorem parseFrame_vetted {b0 b1 : UInt8} {opcode : OpCode} (vetted : vet cfg b0 b1 = .ok opcode)
    (tail : List UInt8) :
    parseFrame m cfg (b0 :: b1 :: tail) = parseBody m cfg b0 b1 opcode (b0 :: b1 :: tail) := by
  simp only [parseFrame, vetted]

theorem keeps_incomplete (keeps : Keeps cfg p raw) : parseFrame m cfg raw = .incomplete := by
  cases keeps with
  | start short =>
    match raw, short with
    | [], _ => rfl
    | [_], _ => rfl
  | opened vetted short =>
    rw [parseFrame_vetted m cfg vetted, parseBody_eq, if_pos short]
  | paying vetted whole size short =>
    rw [parseFrame_vetted m cfg vetted, parseBody_eq, if_neg (Nat.not_lt.mpr whole), size]
    exact if_pos short

theorem keeps_boundary (keeps : Keeps cfg p raw)
    (boundary : p.header = []) : raw = [] ∧ p = {} := by
  cases keeps with
  | start short =>
    subst boundary
    exact ⟨rfl, rfl⟩
  | opened vetted short => cases boundary
  | @paying b0 b1 tail opcode n vetted whole size short =>
    have none := congrArg List.length boundary
    have two := two_le_headerSize b1
    simp only [UwsSegments.paying, length_take, List.length_nil] at none
    omega

def Agrees (whole : List UInt8) : Round → Prop
  | .again p rest => ∃ kept, whole = kept ++ rest ∧ Keeps cfg p kept
  | .frame f rest =>
    ∃ g n, parseFrame m cfg whole = .complete g n ∧ g.toContent = f.toContent ∧
      rest = whole.drop n
  | .fail e _ => ∃ e', parseFrame m cfg whole = .failed e' ∧ e'.kind = e.kind

section
variable {b0 b1 : UInt8} {tail rest : List UInt8} {opcode : OpCode} {n : Nat}

theorem parseFrame_whole (vetted : vet cfg b0 b1 = .ok opcode)
    (size : measured cfg b1 (b0 :: b1 :: tail) = .ok n)
    (whole : (b0 :: b1 :: tail).length = headerSize b1 + n) (rest : List UInt8) :
    parseFrame m cfg (b0 :: b1 :: tail ++ rest) =
      match checkClose m opcode (payloadOf b1 (b0 :: b1 :: tail)) with
      | some e => .failed e
      | none => .complete ⟨⟨isFin b0, isRSV1 b0, opcode, isMasked b1,
          payloadOf b1 (b0 :: b1 :: tail)⟩, true⟩ (headerSize b1 + n) := by
  rw [cons_append, cons_append, parseFrame_vetted m cfg vetted, parseBody_eq,
    ← cons_append, ← cons_append, length_append, if_neg (by omega),
    measured_append cfg (by omega), size]
  dsimp only
  rw [if_neg (by omega), ← whole, List.take_left]

theorem finishFrame_agrees (vetted : vet cfg b0 b1 = .ok opcode)
    (size : measured cfg b1 (b0 :: b1 :: tail) = .ok n)
    (whole : (b0 :: b1 :: tail).length = headerSize b1 + n) :
    Agrees m cfg (b0 :: b1 :: tail ++ rest)
      (finishFrame m (paying b0 b1 opcode n (b0 :: b1 :: tail)) rest) := by
  have parsed := parseFrame_whole m cfg vetted size whole rest
  simp only [finishFrame, paying, Option.getD_some]
  cases close : checkClose m opcode (payloadOf b1 (b0 :: b1 :: tail)) with
  | some e =>
    rw [close] at parsed
    exact ⟨e, parsed, rfl⟩
  | none =>
    rw [close] at parsed
    refine ⟨_, _, parsed, rfl, ?_⟩
    rw [← whole, List.drop_left]

theorem paying_append (whole : headerSize b1 ≤ raw.length) (more : List UInt8) :
    paying b0 b1 opcode n (raw ++ more) =
      { paying b0 b1 opcode n raw with
        payload := some (payloadOf b1 raw ++
          unmask m.useAVX2 (keyOf b1 raw) ((raw.length - headerSize b1) % 4) more)
        maskOffset := ((raw.length - headerSize b1) % 4 + more.length) % 4
        payloadRead := raw.length - headerSize b1 + more.length } := by
  have read : raw.length + more.length - headerSize b1 = raw.length - headerSize b1 + more.length := by
    omega
  simp only [paying, List.take_append_of_le_length whole, keyOf_append whole,
    payloadOf_append m whole, length_append, read, Nat.mod_add_mod]

theorem takePayload_paying (whole : headerSize b1 ≤ raw.length)
    (short : raw.length < headerSize b1 + n) (more rest : List UInt8)
    (end_ : (raw ++ more).length ≤ headerSize b1 + n)
    (stops : (raw ++ more).length = headerSize b1 + n ∨ rest = []) :
    takePayload m (paying b0 b1 opcode n raw) (more ++ rest) =
      if (raw ++ more).length < headerSize b1 + n then
        .again (paying b0 b1 opcode n (raw ++ more)) rest
      else finishFrame m (paying b0 b1 opcode n (raw ++ more)) rest := by
  rw [length_append] at end_ stops
  have some : 0 < n - (raw.length - headerSize b1) := by omega
  have taken : min (more ++ rest).length (n - (raw.length - headerSize b1)) = more.length := by
    rw [length_append]
    rcases stops with full | rfl
    · omega
    · rw [List.length_nil]
      omega
  have same : (raw ++ more).length < headerSize b1 + n ↔
      raw.length - headerSize b1 + more.length < n := by
    rw [length_append]
    omega
  rw [paying_append m whole]
  simp only [takePayload, paying, if_pos some, taken, List.take_left, List.drop_left,
    Option.getD_some, same]

theorem takePayload_agrees (vetted : vet cfg b0 b1 = .ok opcode)
    (header : headerSize b1 ≤ (b0 :: b1 :: tail).length)
    (size : measured cfg b1 (b0 :: b1 :: tail) = .ok n)
    (within : (b0 :: b1 :: tail).length ≤ headerSize b1 + n) (rest : List UInt8) :
    Agrees m cfg (b0 :: b1 :: tail ++ rest)
      (takePayload m (paying b0 b1 opcode n (b0 :: b1 :: tail)) rest) := by
  by_cases short : (b0 :: b1 :: tail).length < headerSize b1 + n
  · have split := List.take_append_drop (headerSize b1 + n - (b0 :: b1 :: tail).length) rest
    have most := List.length_take_le (headerSize b1 + n - (b0 :: b1 :: tail).length) rest
    have stops : (rest.take (headerSize b1 + n - (b0 :: b1 :: tail).length)).length =
        headerSize b1 + n - (b0 :: b1 :: tail).length ∨
        rest.drop (headerSize b1 + n - (b0 :: b1 :: tail).length) = [] := by
      rw [length_take, List.drop_eq_nil_iff]
      omega
    revert split most stops
    generalize rest.take (headerSize b1 + n - (b0 :: b1 :: tail).length) = more
    generalize rest.drop (headerSize b1 + n - (b0 :: b1 :: tail).length) = left
    rintro rfl most stops
    have length : (b0 :: b1 :: (tail ++ more)).length = (b0 :: b1 :: tail).length + more.length := by
      simp only [List.length_cons, length_append]
      omega
    have size' : measured cfg b1 (b0 :: b1 :: (tail ++ more)) = .ok n :=
      (measured_append cfg header more).trans size
    rw [takePayload_paying m header short more left, ← append_assoc]
    · simp only [cons_append]
      split
      · rename_i unfinished
        exact ⟨_, rfl, .paying vetted (by omega) size' unfinished⟩
      · rename_i finished
        exact finishFrame_agrees m cfg vetted size' (by omega)
    · simp only [cons_append]
      omega
    · refine stops.imp_left fun full => ?_
      simp only [cons_append]
      omega
  · have done : (paying b0 b1 opcode n (b0 :: b1 :: tail)).payloadLen -
        (paying b0 b1 opcode n (b0 :: b1 :: tail)).payloadRead = 0 := by
      simp only [paying]
      omega
    simp only [takePayload, done, Nat.lt_irrefl, if_false]
    exact finishFrame_agrees m cfg vetted size (by omega)

theorem finishHeader_opened (second : raw.getD 1 0 = b1)
    (whole : raw.length = headerSize b1) :
    finishHeader cfg (opened b0 b1 opcode raw) =
      match measured cfg b1 raw with
      | .error e => .error e
      | .ok n => .ok (paying b0 b1 opcode n raw) := by
  have length : payloadLength (b1 &&& 0x7f) raw (opened b0 b1 opcode raw).payloadLen =
      payloadLength (b1 &&& 0x7f) raw (b1 &&& 0x7f).toNat := by
    unfold payloadLength opened
    split
    · rfl
    · split
      · rfl
      · rename_i two eight
        simp only [two, eight, or_self, if_false]
  have empty : payloadOf b1 raw = [] := by
    unfold payloadOf
    rw [List.drop_of_length_le (by omega)]
    rfl
  have header : raw.take (headerSize b1) = raw := List.take_of_length_le (by omega)
  have read : raw.length - headerSize b1 = 0 := by omega
  have code : (opened b0 b1 opcode raw).header.getD 1 0 = b1 := second
  unfold finishHeader
  dsimp only
  rw [code, show (opened b0 b1 opcode raw).header = raw from rfl, length,
    show limited cfg (opened b0 b1 opcode raw).headerNeed _ = measured cfg b1 raw from rfl]
  cases measured cfg b1 raw with
  | error e => rfl
  | ok n =>
    have buf : (if 0 < n then true else false) = decide (0 < n) := by
      by_cases some : 0 < n <;> simp [some]
    simp only [opened, paying, header, read, empty, keyOf, Nat.zero_mod, buf]
    rfl

theorem endHeader_once (whole : (b0 :: b1 :: tail).length = headerSize b1) (rest : List UInt8) :
    endHeader m cfg (opened b0 b1 opcode (b0 :: b1 :: tail)) rest =
      match finishHeader cfg (opened b0 b1 opcode (b0 :: b1 :: tail)) with
      | .error e => .fail e rest
      | .ok p => takePayload m p rest := by
  have fresh : (opened b0 b1 opcode (b0 :: b1 :: tail)).payload = none := rfl
  unfold endHeader readPayload
  by_cases some : 0 < (opened b0 b1 opcode (b0 :: b1 :: tail)).payloadLen
  · rw [if_pos ⟨fresh, some⟩,
      finishHeader_opened cfg (show (b0 :: b1 :: tail).getD 1 0 = b1 from rfl) whole]
    cases measured cfg b1 (b0 :: b1 :: tail) with
    | error e => rfl
    | ok n => exact if_neg (fun both => by cases both.1)
  · have none : (opened b0 b1 opcode (b0 :: b1 :: tail)).payloadLen = 0 := by omega
    cases finishHeader cfg (opened b0 b1 opcode (b0 :: b1 :: tail)) <;>
      simp only [if_neg (fun both => some (And.right both)), if_pos (And.intro fresh none)]

theorem endHeader_agrees (vetted : vet cfg b0 b1 = .ok opcode)
    (whole : (b0 :: b1 :: tail).length = headerSize b1) (rest : List UInt8) :
    Agrees m cfg (b0 :: b1 :: tail ++ rest)
      (endHeader m cfg (opened b0 b1 opcode (b0 :: b1 :: tail)) rest) := by
  rw [endHeader_once m cfg whole,
    finishHeader_opened cfg (show (b0 :: b1 :: tail).getD 1 0 = b1 from rfl) whole]
  cases size : measured cfg b1 (b0 :: b1 :: tail) with
  | error e =>
    refine ⟨e, ?_, rfl⟩
    rw [cons_append, cons_append, parseFrame_vetted m cfg vetted, parseBody_eq,
      ← cons_append, ← cons_append, length_append, if_neg (by omega),
      measured_append cfg (by omega), size]
  | ok n => exact takePayload_agrees m cfg vetted (by omega) size (by omega) rest

theorem prepareHeader_vetted (vetted : vet cfg b0 b1 = .ok opcode) :
    prepareHeader cfg { header := [b0, b1] } = .ok (opened b0 b1 opcode [b0, b1]) := by
  obtain ⟨reserved, rsv1, valid, masked, control⟩ := (vet_ok cfg).mp vetted
  rw [Bool.and_or_distrib_left, Bool.or_eq_false_iff] at control
  simp only [prepareHeader, List.getD_cons_zero, List.getD_cons_succ, reserved, rsv1, valid, masked,
    control.1, control.2, ne_eq, not_true_eq_false, if_false, Bool.false_eq_true, opened]

theorem prepareHeader_refused {e : Err} (refused : vet cfg b0 b1 = .error e) :
    ∃ e', prepareHeader cfg { header := [b0, b1] } = .error e' ∧ e.kind = e'.kind := by
  simp only [prepareHeader, List.getD_cons_zero, List.getD_cons_succ]
  unfold vet at refused
  split at refused
  · rename_i reserved
    cases refused
    exact ⟨_, if_pos reserved, rfl⟩
  · rename_i reserved
    rw [if_neg reserved]
    split at refused
    · rename_i rsv1
      cases refused
      exact ⟨_, if_pos rsv1, rfl⟩
    · rename_i rsv1
      rw [if_neg rsv1]
      cases valid : OpCode.ofByte (b0 &&& 0x0f) with
      | none =>
        rw [valid] at refused
        cases refused
        exact ⟨_, rfl, rfl⟩
      | some opcode =>
        rw [valid] at refused
        dsimp only at refused ⊢
        split at refused
        · rename_i masked
          cases refused
          exact ⟨_, if_pos masked, rfl⟩
        · rename_i masked
          rw [if_neg masked]
          split at refused
          · rename_i control
            cases refused
            rw [Bool.and_or_distrib_left, Bool.or_eq_true_iff] at control
            split
            · exact ⟨_, rfl, rfl⟩
            · rename_i plain
              exact ⟨_, if_pos (control.resolve_right plain), rfl⟩
          · cases refused

theorem readHeader_split (p : Parser) (short : p.header.length < p.headerNeed) (src : List UInt8) :
    ∃ more rest, src = more ++ rest ∧ (p.header ++ more).length ≤ p.headerNeed ∧
      readHeader m cfg p src =
        if (p.header ++ more).length < p.headerNeed then .again { p with header := p.header ++ more } rest
        else if p.headerNeed = 2 then
          match prepareHeader cfg { p with header := p.header ++ more } with
          | .error e => .fail e rest
          | .ok p => if p.header.length < p.headerNeed then .again p rest else endHeader m cfg p rest
        else endHeader m cfg { p with header := p.header ++ more } rest := by
  refine ⟨src.take (min (p.headerNeed - p.header.length) src.length),
    src.drop (min (p.headerNeed - p.header.length) src.length), (List.take_append_drop _ _).symm, ?_, rfl⟩
  rw [length_append, length_take]
  omega

theorem readHeader_start (short : raw.length < 2) (src : List UInt8) :
    Agrees m cfg (raw ++ src) (readHeader m cfg { header := raw } src) := by
  obtain ⟨more, rest, rfl, within, round⟩ := readHeader_split m cfg { header := raw } short src
  rw [round, ← append_assoc]
  dsimp only at within ⊢
  generalize raw ++ more = read at within
  split
  · rename_i unfinished
    exact ⟨read, rfl, .start unfinished⟩
  · rename_i finished
    have two : read.length = 2 := by omega
    match read, two with
    | [b0, b1], _ =>
      cases vetted : vet cfg b0 b1 with
      | error e =>
        obtain ⟨e', refused, kind⟩ := prepareHeader_refused cfg vetted
        simp only [if_true, refused]
        refine ⟨e, ?_, kind⟩
        simp only [cons_append, parseFrame, vetted]
      | ok opcode =>
        simp only [if_true, prepareHeader_vetted cfg vetted]
        split
        · rename_i unread
          exact ⟨_, rfl, .opened vetted unread⟩
        · rename_i whole
          have exactly : [b0, b1].length = headerSize b1 :=
            Nat.le_antisymm (two_le_headerSize b1) (Nat.not_lt.mp whole)
          exact endHeader_agrees m cfg vetted exactly rest

theorem readHeader_opened (vetted : vet cfg b0 b1 = .ok opcode)
    (short : (b0 :: b1 :: tail).length < headerSize b1) (src : List UInt8) :
    Agrees m cfg (b0 :: b1 :: tail ++ src)
      (readHeader m cfg (opened b0 b1 opcode (b0 :: b1 :: tail)) src) := by
  obtain ⟨more, rest, rfl, within, round⟩ :=
    readHeader_split m cfg (opened b0 b1 opcode (b0 :: b1 :: tail)) short src
  have more_than_two : (opened b0 b1 opcode (b0 :: b1 :: tail)).headerNeed ≠ 2 := by
    simp only [opened, List.length_cons] at short ⊢
    omega
  rw [round, ← append_assoc, if_neg more_than_two]
  split
  · rename_i unfinished
    exact ⟨b0 :: b1 :: (tail ++ more), rfl, .opened vetted unfinished⟩
  · rename_i finished
    have exactly : (b0 :: b1 :: (tail ++ more)).length = headerSize b1 :=
      Nat.le_antisymm within (Nat.not_lt.mp finished)
    exact endHeader_agrees m cfg vetted exactly rest

end

theorem advance_agrees (keeps : Keeps cfg p raw) (src : List UInt8) :
    Agrees m cfg (raw ++ src) (advance m cfg p src) := by
  unfold advance
  cases keeps with
  | start short =>
    rw [if_pos short]
    exact readHeader_start m cfg short src
  | opened vetted short =>
    split
    · exact readHeader_opened m cfg vetted short src
    · rename_i read
      exact absurd short read
  | paying vetted whole size short =>
    split
    · rename_i unread
      refine absurd whole (Nat.not_le.mpr ?_)
      simp only [paying, length_take] at unread
      omega
    · unfold readPayload
      rw [if_neg (fun both => nomatch both.1)]
      exact takePayload_agrees m cfg vetted whole size (Nat.le_of_lt short) src

def feed (sink : Sink) (p : Parser) (seen : List Frame) (src : List UInt8) : Fed Parser Frame Err :=
  let out := feedTo m cfg sink false p seen src
  ⟨out.parser, out.emitted, out.err⟩

def sinkKind (sink : Sink) (contents : List Content) : Option ErrKind := (sink contents).map .sink

theorem accepts_kind (sink : Sink) (emitted : List Frame) :
    (accepts sink emitted).map Err.kind = sinkKind sink (emitted.map Frame.toContent) := by
  unfold accepts sinkKind
  cases sink (emitted.map Frame.toContent) <;> rfl

/-- What a feed of `whole` from a parser that keeps a part of it must be. -/
def Follows (sink : Sink) (seen : List Frame) (whole : List UInt8) (out : FeedResult) : Prop :=
  let d := drain (oneShot m cfg) (sinkKind sink) (seen.map Frame.toContent) whole
  out.emitted.map Frame.toContent = d.emitted ∧ out.err.map Err.kind = d.err ∧
    (out.err = none → Keeps cfg out.parser d.rest)

theorem follows_failed {sink : Sink} {seen : List Frame} {whole : List UInt8} {e e' : Err}
    (parsed : parseFrame m cfg whole = .failed e') (kind : e'.kind = e.kind) (p : Parser)
    (rest : List UInt8) : Follows m cfg sink seen whole ⟨p, seen, rest, some e⟩ := by
  have fail : (oneShot m cfg).parse whole = .fail e.kind := by
    change UwsSegments.seen (parseFrame m cfg whole) = _
    rw [parsed, ← kind]
    rfl
  unfold Follows
  rw [drain_fail fail]
  exact ⟨rfl, rfl, nofun⟩

section
variable {sink : Sink} {seen : List Frame} {whole : List UInt8} {f g : Frame} {n : Nat}

theorem parse_item (parsed : parseFrame m cfg whole = .complete g n)
    (content : g.toContent = f.toContent) : (oneShot m cfg).parse whole = .item f.toContent n := by
  change UwsSegments.seen (parseFrame m cfg whole) = _
  rw [parsed, ← content]
  rfl

theorem listed (seen : List Frame) (f : Frame) :
    (seen ++ [f]).map Frame.toContent = seen.map Frame.toContent ++ [f.toContent] := by
  simp only [List.map_append, List.map_cons, List.map_nil]

theorem follows_stop (parsed : parseFrame m cfg whole = .complete g n)
    (content : g.toContent = f.toContent) {e : Err} (stop : accepts sink (seen ++ [f]) = some e)
    (p : Parser) (rest : List UInt8) :
    Follows m cfg sink seen whole ⟨p, seen ++ [f], rest, some e⟩ := by
  have kind := accepts_kind sink (seen ++ [f])
  rw [listed, stop] at kind
  unfold Follows
  rw [drain_stop (parse_item m cfg parsed content) kind.symm]
  exact ⟨listed seen f, rfl, nofun⟩

theorem follows_go (parsed : parseFrame m cfg whole = .complete g n)
    (content : g.toContent = f.toContent) (go : accepts sink (seen ++ [f]) = none)
    {next : FeedResult} (goes : Follows m cfg sink (seen ++ [f]) (whole.drop n) next) :
    Follows m cfg sink seen whole next := by
  have kind := accepts_kind sink (seen ++ [f])
  rw [listed, go] at kind
  unfold Follows at goes ⊢
  rw [drain_item (parse_item m cfg parsed content) kind.symm, ← listed]
  exact goes

end

theorem feedTo_follows (sink : Sink) (seen : List Frame) (src : List UInt8)
    (keeps : Keeps cfg p raw) :
    Follows m cfg sink seen (raw ++ src) (feedTo m cfg sink false p seen src) := by
  fun_induction feedTo m cfg sink false p seen src generalizing raw with
  | case1 p seen =>
    have more : (oneShot m cfg).parse raw = .more := by
      change UwsSegments.seen (parseFrame m cfg raw) = _
      rw [keeps_incomplete m cfg keeps]
      rfl
    unfold Follows
    rw [List.append_nil, drain_more more]
    exact ⟨rfl, rfl, fun _ => keeps⟩
  | case2 p seen src some finish => cases finish.2
  | case3 p seen src some unfinished e failed =>
    obtain ⟨boundary, parsed⟩ := glance_settled m cfg failed nofun
    obtain ⟨rfl, _⟩ := keeps_boundary cfg keeps boundary
    exact follows_failed m cfg parsed rfl p src
  | case4 p seen src some unfinished f size complete e stop =>
    obtain ⟨boundary, parsed⟩ := glance_settled m cfg complete nofun
    obtain ⟨rfl, _⟩ := keeps_boundary cfg keeps boundary
    exact follows_stop m cfg parsed rfl stop p _
  | case5 p seen src some unfinished f size complete go ih =>
    obtain ⟨boundary, parsed⟩ := glance_settled m cfg complete nofun
    obtain ⟨rfl, _⟩ := keeps_boundary cfg keeps boundary
    exact follows_go m cfg parsed rfl go (ih keeps)
  | case6 p seen src some unfinished unparsed p' rest round ih =>
    have agrees := advance_agrees m cfg keeps src
    rw [round] at agrees
    obtain ⟨kept, split, keeps'⟩ := agrees
    rw [split]
    exact ih keeps'
  | case7 p seen src some unfinished unparsed e rest round =>
    have agrees := advance_agrees m cfg keeps src
    rw [round] at agrees
    obtain ⟨e', parsed, kind⟩ := agrees
    exact follows_failed m cfg parsed kind p rest
  | case8 p seen src some unfinished unparsed f rest round e stop =>
    have agrees := advance_agrees m cfg keeps src
    rw [round] at agrees
    obtain ⟨g, n, parsed, content, rfl⟩ := agrees
    exact follows_stop m cfg parsed content stop _ _
  | case9 p seen src some unfinished unparsed f rest round go ih =>
    have agrees := advance_agrees m cfg keeps src
    rw [round] at agrees
    obtain ⟨g, n, parsed, content, rfl⟩ := agrees
    exact follows_go m cfg parsed content go (ih (.start (by decide)))

/-- What the receiver and the caller see of a feed of these chunks to a new parser. -/
def feedChunks (sink : Sink) (chunks : List (List UInt8)) : List Content × Option ErrKind :=
  let out := feedAll (feed m cfg sink) newParser [] chunks
  (out.emitted.map Frame.toContent, out.err.map Err.kind)

def foldParse (sink : Sink) (stream : List UInt8) : List Content × Option ErrKind :=
  let out := drain (oneShot m cfg) (sinkKind sink) [] stream
  (out.emitted, out.err)

theorem feed_shows (sink : Sink) (p : Parser) (kept : List UInt8) (seen : List Frame)
    (piece : List UInt8) (keeps : Keeps cfg p kept) :
    Shows Frame.toContent Err.kind (feed m cfg sink p seen piece)
        (drain (oneShot m cfg) (sinkKind sink) (seen.map Frame.toContent) (kept ++ piece)) ∧
      ((feed m cfg sink p seen piece).err = none → Keeps cfg (feed m cfg sink p seen piece).state
        (drain (oneShot m cfg) (sinkKind sink) (seen.map Frame.toContent) (kept ++ piece)).rest) := by
  obtain ⟨emitted, err, after⟩ := feedTo_follows m cfg sink seen piece keeps
  exact ⟨⟨emitted, err⟩, after⟩

theorem feedChunks_eq (sink : Sink) (chunks : List (List UInt8)) :
    feedChunks m cfg sink chunks = foldParse m cfg sink chunks.flatten := by
  have new : Keeps cfg newParser [] := .start (by decide)
  obtain ⟨emitted, err⟩ := feedAll_shows (Keeps cfg) (feed_shows m cfg sink) new rfl [] chunks
  exact Prod.ext emitted err

theorem feed_ignores_segmentation (sink : Sink) (chunks : List (List UInt8)) :
    feedChunks m cfg sink chunks = feedChunks m cfg sink [chunks.flatten] ∧
      feedChunks m cfg sink chunks = foldParse m cfg sink chunks.flatten := by
  have whole := feedChunks_eq m cfg sink [chunks.flatten]
  rw [List.flatten_cons, List.flatten_nil, List.append_nil] at whole
  exact ⟨(feedChunks_eq m cfg sink chunks).trans whole.symm, feedChunks_eq m cfg sink chunks⟩

end UwsSegments
