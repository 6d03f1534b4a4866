import Uio.Uws.Frame

/- Putting messages together from frames. The assembler, its shortcut for whole
   frames and the connection's own branch for plain whole messages are compared with
   the fragmentation rules of RFC 6455, which keep the fragments of the open message.
   The parser lets only the six defined opcodes through, and a payload is a slice. -/
namespace UwsAssembly
open UwsFrame
variable {ε : Type}
variable (seen : List Event) {a : Assembler} (first : Frame) {fragments : List Frame} {f : Frame}

structure AssemblerConfig where
  maxMessage : Nat := 0
  maxCompressedPayload : Nat := 0
  validateUTF8 : Bool := true

inductive Violation where
  | rsv1OnControl
  | dataInside
  | continuationOutside
  | rsv1OnContinuation
  | invalidOpcode (op : OpCode)
  | fragmented
  deriving DecidableEq, Repr

/-- `protocol` wraps `ErrProtocol`; `callback` is an error of the receiver. -/
inductive AcceptError (ε : Type) where
  | protocol (v : Violation)
  | messageTooBig
  | invalidUTF8
  | nilControl
  | nilMessage
  | closed
  | callback (e : ε)

structure Message where
  opcode : OpCode
  payload : List UInt8
  compressed : Bool
  deriving DecidableEq, Repr

inductive Event where
  | control (f : Frame)
  | message (m : Message)
  deriving DecidableEq, Repr

structure Accepted (ε : Type) where
  event : Option Event
  err : Option (AcceptError ε)

def failed (e : AcceptError ε) : Accepted ε := ⟨none, some e⟩

def nothing : Accepted ε := ⟨none, none⟩

def delivered (e : Event) (answer : Option ε) : Accepted ε := ⟨some e, answer.map .callback⟩

structure Callbacks (ε : Type) where
  onControl : Option (Frame → Option ε)
  onMessage : Option (Message → Option ε)

def assemblerMaxMessage : Option AssemblerConfig → Nat
  | none => maxInt
  | some cfg => if cfg.maxMessage = 0 then maxInt else cfg.maxMessage

def assemblerMaxCompressedPayload : Option AssemblerConfig → Nat
  | none => maxInt
  | some cfg => if cfg.maxCompressedPayload = 0 then maxInt else cfg.maxCompressedPayload

def assemblerValidateUTF8 : Option AssemblerConfig → Bool
  | none => true
  | some cfg => cfg.validateUTF8

structure Assembler where
  cfg : Option AssemblerConfig
  fragmented : Bool
  opcode : OpCode
  compressed : Bool
  payload : List UInt8
  idle : fragmented = false → payload = []

def Assembler.init (cfg : Option AssemblerConfig) : Assembler :=
  ⟨cfg, false, .continuation, false, [], fun _ => rfl⟩

def Assembler.atMessageBoundary (a : Assembler) : Bool := !a.fragmented

def Assembler.exceedsPayloadLimit (a : Assembler) (incoming : Nat) (compressed : Bool) : Bool :=
  let limit := if compressed then assemblerMaxCompressedPayload a.cfg else assemblerMaxMessage a.cfg
  limit < a.payload.length || limit - a.payload.length < incoming

section
variable (m : Platform)

def emitMessage (cfg : Option AssemblerConfig) (msg : Message) (onMessage : Message → Option ε) :
    Accepted ε :=
  if assemblerValidateUTF8 cfg && msg.opcode = .text && !msg.compressed && !m.validUTF8 msg.payload then
    failed .invalidUTF8
  else delivered (.message msg) (onMessage msg)

/-- The branch of a control frame, which both accepting functions begin with. -/
def passControl (f : Frame) (onControl : Option (Frame → Option ε)) : Accepted ε :=
  if f.rsv1 then failed (.protocol .rsv1OnControl)
  else
    match onControl with
    | none => failed .nilControl
    | some call => delivered (.control f) (call f)

def acceptSingle (f : Frame) (cfg : Option AssemblerConfig) (cb : Callbacks ε) : Accepted ε :=
  if f.opcode.isControl then passControl f cb.onControl
  else
    match cb.onMessage with
    | none => failed .nilMessage
    | some onMessage =>
      if f.opcode ≠ .text ∧ f.opcode ≠ .binary then failed (.protocol (.invalidOpcode f.opcode))
      else if f.fin = false then failed (.protocol .fragmented)
      else if (Assembler.init cfg).exceedsPayloadLimit f.payload.length f.rsv1 then
        failed .messageTooBig
      else emitMessage m cfg ⟨f.opcode, f.payload, f.rsv1⟩ onMessage

def Assembler.accept (a : Assembler) (f : Frame) (cb : Callbacks ε) : Assembler × Accepted ε :=
  if f.opcode.isControl then (a, passControl f cb.onControl)
  else
    match cb.onMessage with
    | none => (a, failed .nilMessage)
    | some onMessage =>
      match f.opcode with
      | .text | .binary =>
        if a.fragmented then (a, failed (.protocol .dataInside))
        else if a.exceedsPayloadLimit f.payload.length f.rsv1 then (a, failed .messageTooBig)
        else if f.fin then (a, emitMessage m a.cfg ⟨f.opcode, f.payload, f.rsv1⟩ onMessage)
        else (⟨a.cfg, true, f.opcode, f.rsv1, f.payload, nofun⟩, nothing)
      | .continuation =>
        if a.fragmented = false then (a, failed (.protocol .continuationOutside))
        else if f.rsv1 then (a, failed (.protocol .rsv1OnContinuation))
        else if a.exceedsPayloadLimit f.payload.length a.compressed then (a, failed .messageTooBig)
        else if f.fin = false then
          (⟨a.cfg, true, a.opcode, a.compressed, a.payload ++ f.payload, nofun⟩, nothing)
        else
          (.init a.cfg, emitMessage m a.cfg ⟨a.opcode, a.payload ++ f.payload, a.compressed⟩ onMessage)
      | op => (a, failed (.protocol (.invalidOpcode op)))

inductive MessageType where
  | text
  | binary
  deriving DecidableEq, Repr

def messageType : OpCode → MessageType
  | .text => .text
  | _ => .binary

/-- What a connection does with a control frame, with a message, and with the payload of
a compressed message, which it inflates first. -/
structure Handlers (ε : Type) where
  acceptControl : Frame → Option ε
  notifyMessage : MessageType → List UInt8 → Option ε
  inflate : Message → Option ε

def Handlers.acceptMessage (h : Handlers ε) (msg : Message) : Option ε :=
  if msg.compressed then h.inflate msg else h.notifyMessage (messageType msg.opcode) msg.payload

def Handlers.callbacks (h : Handlers ε) : Callbacks ε := ⟨some h.acceptControl, some h.acceptMessage⟩

def acceptFragment (h : Handlers ε) (a : Assembler) (f : Frame) : Option Assembler × Accepted ε :=
  let (a', out) := a.accept m f h.callbacks
  (if out.err.isSome || a'.atMessageBoundary then none else some a', out)

def acceptFrame (cfg : AssemblerConfig) (closed : Bool) (h : Handlers ε) (assembler : Option Assembler)
    (f : Frame) : Option Assembler × Accepted ε :=
  if closed then (assembler, failed .closed)
  else
    match assembler with
    | some a => acceptFragment m h a f
    | none =>
      if f.fin && !f.rsv1 && (f.opcode = .binary || f.opcode = .text) then
        (none,
          if cfg.maxMessage ≠ 0 ∧ cfg.maxMessage < f.payload.length then failed .messageTooBig
          else if f.opcode = .text && cfg.validateUTF8 && !m.validUTF8 f.payload then
            failed .invalidUTF8
          else delivered (.message ⟨f.opcode, f.payload, false⟩)
            (h.notifyMessage (messageType f.opcode) f.payload))
      else if f.opcode.isControl || ((f.opcode = .text || f.opcode = .binary) && f.fin) then
        (none, acceptSingle m f (some cfg) h.callbacks)
      else acceptFragment m h (.init (some cfg)) f

def Handlers.answer (h : Handlers ε) : Event → Option ε
  | .control f => h.acceptControl f
  | .message msg => h.acceptMessage msg

def bound (cfg : AssemblerConfig) (compressed : Bool) : Nat :=
  if compressed then assemblerMaxCompressedPayload (some cfg) else assemblerMaxMessage (some cfg)

/-- The message that fragments make: the type and the compression of the first, and the
payloads of all. -/
def joined (first : Frame) (rest : List Frame) : Message where
  opcode := first.opcode
  payload := (first :: rest).flatMap (·.payload)
  compressed := first.rsv1

def rfcData (cfg : AssemblerConfig) (first : Frame) (rest : List Frame) (fin : Bool)
    (answer : Event → Option ε) : List Frame × Accepted ε :=
  let msg := joined first rest
  if bound cfg first.rsv1 < msg.payload.length then ([], failed .messageTooBig)
  else if fin = false then (first :: rest, nothing)
  else if cfg.validateUTF8 ∧ msg.opcode = .text ∧ msg.compressed = false ∧
      m.validUTF8 msg.payload = false then ([], failed .invalidUTF8)
  else ([], delivered (.message msg) (answer (.message msg)))

/-- The fragmentation rules of RFC 6455: the state is the fragments of the open message. -/
def rfc (cfg : AssemblerConfig) (fragments : List Frame) (f : Frame) (answer : Event → Option ε) :
    List Frame × Accepted ε :=
  if f.opcode.isControl then
    (fragments, if f.rsv1 then failed (.protocol .rsv1OnControl)
      else delivered (.control f) (answer (.control f)))
  else
    match fragments with
    | [] =>
      if f.opcode = .continuation then ([], failed (.protocol .continuationOutside))
      else rfcData m cfg f [] f.fin answer
    | first :: rest =>
      if f.opcode ≠ .continuation then (fragments, failed (.protocol .dataInside))
      else if f.rsv1 then (fragments, failed (.protocol .rsv1OnContinuation))
      else rfcData m cfg first (rest ++ [f]) f.fin answer

end

section
variable {σ τ : Type}

/-- The callbacks that a sequence of frames leads to, and its first error. -/
def runFrames (step : σ → List Event → Frame → σ × Accepted ε) :
    σ → List Event → List Frame → List Event × Option (AcceptError ε)
  | _, seen, [] => (seen, none)
  | s, seen, f :: frames =>
    let (s', out) := step s seen f
    match out.err with
    | some e => (seen ++ out.event.toList, some e)
    | none => runFrames step s' (seen ++ out.event.toList) frames

theorem runFrames_simulates {first : σ → List Event → Frame → σ × Accepted ε}
    {second : τ → List Event → Frame → τ × Accepted ε} (R : σ → τ → Prop) {frames : List Frame}
    (step : ∀ s t seen, ∀ f ∈ frames, R s t → (first s seen f).2 = (second t seen f).2 ∧
      ((first s seen f).2.err = none → R (first s seen f).1 (second t seen f).1))
    {s : σ} {t : τ} (related : R s t) (seen : List Event) :
    runFrames first s seen frames = runFrames second t seen frames := by
  induction frames generalizing s t seen with
  | nil => rfl
  | cons f frames ih =>
    obtain ⟨same, after⟩ := step s t seen f List.mem_cons_self related
    simp only [runFrames]
    rw [same] at after ⊢
    cases err : (second t seen f).2.err with
    | some e => rfl
    | none =>
      exact ih (fun s t seen g member => step s t seen g (List.mem_cons_of_mem f member))
        (after err) _

end

inductive Stands (cfg : AssemblerConfig) : Assembler → List Frame → Prop where
  | idle {a : Assembler} (own : a.cfg = some cfg) (none : a.fragmented = false) : Stands cfg a []
  | inside {a : Assembler} {first : Frame} {rest : List Frame} (own : a.cfg = some cfg)
      (some : a.fragmented = true)
      (data : (⟨a.opcode, a.payload, a.compressed⟩ : Message) = joined first rest) :
      Stands cfg a (first :: rest)

theorem exceeds_bound {cfg : AssemblerConfig} (own : a.cfg = some cfg) (n : Nat)
    (compressed : Bool) :
    a.exceedsPayloadLimit n compressed = true ↔ bound cfg compressed < a.payload.length + n := by
  simp only [Assembler.exceedsPayloadLimit, own, bound, Bool.or_eq_true, decide_eq_true_eq]
  omega

theorem joined_append (rest : List Frame) (f : Frame) : joined first (rest ++ [f]) =
      ⟨(joined first rest).opcode, (joined first rest).payload ++ f.payload,
        (joined first rest).compressed⟩ := by
  simp [joined]

section
variable {m : Platform} {cfg : AssemblerConfig}

theorem emit_data {h : Handlers ε} {first : Frame} {rest : List Frame}
    (fits : ¬bound cfg first.rsv1 < (joined first rest).payload.length) :
    emitMessage m (some cfg) (joined first rest) h.acceptMessage =
      (rfcData m cfg first rest true h.answer).2 := by
  simp only [emitMessage, rfcData, fits, assemblerValidateUTF8, Handlers.answer, Bool.and_eq_true,
    decide_eq_true_eq, Bool.not_eq_true', and_assoc]
  split <;> simp_all

theorem rfcData_ends (rest : List Frame) (answer : Event → Option ε) :
    (rfcData m cfg first rest true answer).1 = [] := by
  simp only [rfcData]
  (repeat' split) <;> first | rfl | contradiction

theorem passControl_rfc {h : Handlers ε} (control : f.opcode.isControl = true) :
    passControl f h.callbacks.onControl = (rfc m cfg fragments f h.answer).2 := by
  simp only [rfc, control, if_true, passControl, Handlers.callbacks, Handlers.answer]

@[simp] theorem continuation_isControl : OpCode.continuation.isControl = false := rfl

theorem data_cases (data : f.opcode.isControl = false) :
    f.opcode = .continuation ∨ f.opcode = .text ∨ f.opcode = .binary := by
  cases op : f.opcode with
  | continuation => exact .inl rfl
  | text => exact .inr (.inl rfl)
  | binary => exact .inr (.inr rfl)
  | _ =>
    rw [op] at data
    cases data

theorem accept_first {h : Handlers ε}
    (stands : Stands cfg a fragments) (data : f.opcode.isControl = false)
    (begins : f.opcode ≠ .continuation) :
    (a.accept m f h.callbacks).2 = (rfc m cfg fragments f h.answer).2 ∧
      ((a.accept m f h.callbacks).2.err = none →
        Stands cfg (a.accept m f h.callbacks).1 (rfc m cfg fragments f h.answer).1) := by
  have shape : a.accept m f h.callbacks =
      if a.fragmented then (a, failed (.protocol .dataInside))
      else if a.exceedsPayloadLimit f.payload.length f.rsv1 then (a, failed .messageTooBig)
      else if f.fin then
        (a, emitMessage m a.cfg ⟨f.opcode, f.payload, f.rsv1⟩ h.acceptMessage)
      else (⟨a.cfg, true, f.opcode, f.rsv1, f.payload, nofun⟩, nothing) := by
    unfold Assembler.accept
    rw [if_neg (by rw [data]; nofun)]
    simp only [Handlers.callbacks]
    rcases data_cases data with op | op | op
    · exact absurd op begins
    · simp only [op]
    · simp only [op]
  have alone : joined f [] = ⟨f.opcode, f.payload, f.rsv1⟩ := by simp [joined]
  cases stands with
  | inside own inside _ =>
    rw [shape, if_pos inside]
    simp only [rfc, data, begins, if_true, ne_eq, not_false_eq_true]
    exact ⟨rfl, nofun⟩
  | idle own outside =>
    have empty := a.idle outside
    have limit := exceeds_bound own f.payload.length f.rsv1
    rw [empty, List.length_nil, Nat.zero_add] at limit
    rw [shape, outside]
    simp only [rfc, data, begins, if_false, Bool.false_eq_true]
    by_cases big : bound cfg f.rsv1 < f.payload.length
    · rw [if_pos (limit.mpr big)]
      simp only [rfcData, alone, big, if_true]
      exact ⟨trivial, nofun⟩
    · rw [if_neg (mt limit.mp big)]
      have fits : ¬bound cfg f.rsv1 < (joined f []).payload.length := by rwa [alone]
      cases fin : f.fin with
      | true =>
        have out := emit_data (m := m) (h := h) fits
        simp only [if_true, own, ← alone, out]
        refine ⟨trivial, fun _ => ?_⟩
        rw [rfcData_ends]
        exact .idle own outside
      | false =>
        simp only [rfcData, fits, if_false, if_true, Bool.false_eq_true]
        exact ⟨trivial, fun _ => .inside own rfl alone.symm⟩

theorem accept_continuation {h : Handlers ε}
    (stands : Stands cfg a fragments) (goes : f.opcode = .continuation) :
    (a.accept m f h.callbacks).2 = (rfc m cfg fragments f h.answer).2 ∧
      ((a.accept m f h.callbacks).2.err = none →
        Stands cfg (a.accept m f h.callbacks).1 (rfc m cfg fragments f h.answer).1) := by
  have data : f.opcode.isControl = false := by rw [goes]; rfl
  have shape : a.accept m f h.callbacks =
      if a.fragmented = false then (a, failed (.protocol .continuationOutside))
      else if f.rsv1 then (a, failed (.protocol .rsv1OnContinuation))
      else if a.exceedsPayloadLimit f.payload.length a.compressed then (a, failed .messageTooBig)
      else if f.fin = false then
        (⟨a.cfg, true, a.opcode, a.compressed, a.payload ++ f.payload, nofun⟩, nothing)
      else (.init a.cfg,
        emitMessage m a.cfg ⟨a.opcode, a.payload ++ f.payload, a.compressed⟩ h.acceptMessage) := by
    unfold Assembler.accept
    rw [if_neg (by rw [data]; nofun)]
    simp only [Handlers.callbacks, goes]
  cases stands with
  | idle own outside =>
    rw [shape, if_pos outside]
    simp only [rfc, goes, if_true]
    exact ⟨rfl, nofun⟩
  | @inside first rest own inside held =>
    have compressed : a.compressed = first.rsv1 := congrArg Message.compressed held
    have longer : (⟨a.opcode, a.payload ++ f.payload, a.compressed⟩ : Message) =
        joined first (rest ++ [f]) := by rw [joined_append, ← held]
    have length : (joined first (rest ++ [f])).payload.length = a.payload.length + f.payload.length := by
      rw [← longer, List.length_append]
    have limit := exceeds_bound own f.payload.length a.compressed
    rw [compressed, ← length] at limit
    rw [shape, inside, if_neg Bool.noConfusion, own]
    simp only [rfc, goes, compressed] at longer ⊢
    cases bits : f.rsv1 with
    | true =>
      simp only [if_true]
      exact ⟨rfl, nofun⟩
    | false =>
      by_cases big : bound cfg first.rsv1 < (joined first (rest ++ [f])).payload.length
      · simp only [limit.mpr big, rfcData, big, if_true]
        exact ⟨rfl, nofun⟩
      · have within := mt limit.mp big
        cases fin : f.fin with
        | false =>
          simp only [within, rfcData, big, if_false, if_true]
          exact ⟨rfl, fun _ => .inside rfl rfl longer⟩
        | true =>
          have out := emit_data (m := m) (h := h) big
          simp only [within, longer, out]
          refine ⟨rfl, fun _ => ?_⟩
          change Stands cfg (.init (some cfg)) (rfcData m cfg first (rest ++ [f]) true h.answer).1
          rw [rfcData_ends]
          exact .idle rfl rfl

theorem accept_rfc {h : Handlers ε} (f : Frame) (stands : Stands cfg a fragments) :
    (a.accept m f h.callbacks).2 = (rfc m cfg fragments f h.answer).2 ∧
      ((a.accept m f h.callbacks).2.err = none →
        Stands cfg (a.accept m f h.callbacks).1 (rfc m cfg fragments f h.answer).1) := by
  cases kind : f.opcode.isControl with
  | true =>
    have same : passControl f h.callbacks.onControl = (rfc m cfg fragments f h.answer).2 :=
      passControl_rfc kind
    simp only [Assembler.accept, kind, if_true, same]
    refine ⟨trivial, fun _ => ?_⟩
    simp only [rfc, kind, if_true]
    exact stands
  | false =>
    by_cases goes : f.opcode = .continuation
    · exact accept_continuation stands goes
    · exact accept_first stands kind goes

/-- The frames the shortcut is for: control frames and whole data frames. -/
def single (f : Frame) : Bool := f.opcode.isControl || (f.opcode ≠ .continuation && f.fin)

theorem acceptSingle_accept (whole : single f = true) (cfg : Option AssemblerConfig)
    (cb : Callbacks ε) : acceptSingle m f cfg cb = ((Assembler.init cfg).accept m f cb).2 := by
  unfold acceptSingle Assembler.accept
  cases kind : f.opcode.isControl with
  | true => rfl
  | false =>
    simp only [single, kind, Bool.false_or, Bool.and_eq_true, decide_eq_true_eq] at whole
    cases cb.onMessage with
    | none => rfl
    | some onMessage =>
      have config : (Assembler.init cfg).cfg = cfg := rfl
      have outside : (Assembler.init cfg).fragmented = false := rfl
      rcases data_cases kind with op | op | op
      · exact absurd op whole.1
      all_goals
        simp only [op, whole.2, config, outside, Bool.false_eq_true, if_false, if_true, ne_eq,
          not_true_eq_false, false_and, and_false, Bool.true_eq_false]
        split <;> rfl

theorem acceptSingle_rfc {h : Handlers ε} (whole : single f = true) :
    acceptSingle m f (some cfg) h.callbacks = (rfc m cfg [] f h.answer).2 :=
  (acceptSingle_accept whole (some cfg) h.callbacks).trans
    (accept_rfc f (.idle rfl rfl)).1

/-- The connection keeps an assembler exactly while a message is open. -/
def Keeps (cfg : AssemblerConfig) : Option Assembler → List Frame → Prop
  | none, fragments => fragments = []
  | some a, fragments => Stands cfg a fragments

theorem acceptFragment_rfc {h : Handlers ε} (f : Frame) (stands : Stands cfg a fragments) :
    (acceptFragment m h a f).2 = (rfc m cfg fragments f h.answer).2 ∧
      ((acceptFragment m h a f).2.err = none →
        Keeps cfg (acceptFragment m h a f).1 (rfc m cfg fragments f h.answer).1) := by
  obtain ⟨same, after⟩ := accept_rfc (m := m) (h := h) f stands
  refine ⟨same, fun fine => ?_⟩
  have fine : (a.accept m f h.callbacks).2.err = none := fine
  have next := after fine
  simp only [acceptFragment, fine, Option.isSome_none, Bool.false_or, Assembler.atMessageBoundary]
  generalize (rfc m cfg fragments f h.answer).1 = left at next ⊢
  cases next with
  | idle own outside =>
    rw [outside]
    rfl
  | inside own inside held =>
    simp only [inside]
    exact .inside own inside held

theorem plain_rfc {h : Handlers ε} (slice : f.payload.length ≤ maxInt)
    (fin : f.fin = true) (plain : f.rsv1 = false) (data : f.opcode = .binary ∨ f.opcode = .text) :
    (if cfg.maxMessage ≠ 0 ∧ cfg.maxMessage < f.payload.length then failed .messageTooBig
      else if f.opcode = .text && cfg.validateUTF8 && !m.validUTF8 f.payload then failed .invalidUTF8
      else delivered (.message ⟨f.opcode, f.payload, false⟩)
        (h.notifyMessage (messageType f.opcode) f.payload)) = (rfc m cfg [] f h.answer).2 := by
  have kind : f.opcode.isControl = false := by rcases data with op | op <;> rw [op] <;> rfl
  have begins : f.opcode ≠ .continuation := by rcases data with op | op <;> rw [op] <;> nofun
  have alone : joined f [] = ⟨f.opcode, f.payload, false⟩ := by simp [joined, plain]
  have limit : (cfg.maxMessage ≠ 0 ∧ cfg.maxMessage < f.payload.length) ↔
      bound cfg f.rsv1 < (joined f []).payload.length := by
    simp only [alone, bound, plain, assemblerMaxMessage, Bool.false_eq_true, if_false]
    split <;> omega
  simp only [rfc, kind, begins, fin, rfcData, limit, if_false, Bool.false_eq_true,
    Bool.true_eq_false, alone]
  split
  · rfl
  · simp only [Handlers.answer, Handlers.acceptMessage, Bool.and_eq_true, decide_eq_true_eq,
      Bool.not_eq_true', if_false, Bool.false_eq_true]
    by_cases bad : f.opcode = .text ∧ cfg.validateUTF8 = true ∧ m.validUTF8 f.payload = false
    · simp [bad]
    · rw [if_neg (by tauto), if_neg (by tauto)]

theorem acceptFrame_rfc {h : Handlers ε} {assembler : Option Assembler}
    (slice : f.payload.length ≤ maxInt) (keeps : Keeps cfg assembler fragments) :
    (acceptFrame m cfg false h assembler f).2 = (rfc m cfg fragments f h.answer).2 ∧
      ((acceptFrame m cfg false h assembler f).2.err = none →
        Keeps cfg (acceptFrame m cfg false h assembler f).1 (rfc m cfg fragments f h.answer).1) := by
  unfold acceptFrame
  rw [if_neg Bool.noConfusion]
  cases assembler with
  | some a => exact acceptFragment_rfc f keeps
  | none =>
    obtain rfl : fragments = [] := keeps
    -- a frame that is whole leaves no message open
    have settled : single f = true → (rfc m cfg [] f h.answer).1 = [] := by
      intro whole
      cases kind : f.opcode.isControl with
      | true => simp only [rfc, kind, if_true]
      | false =>
        simp only [single, kind, Bool.false_or, Bool.and_eq_true, decide_eq_true_eq] at whole
        simp only [rfc, kind, whole.1, whole.2, if_false, Bool.false_eq_true]
        exact rfcData_ends f [] h.answer
    simp only
    split
    · rename_i shortcut
      simp only [Bool.and_eq_true, Bool.not_eq_true', Bool.or_eq_true, decide_eq_true_eq] at shortcut
      obtain ⟨⟨fin, plain⟩, data⟩ := shortcut
      refine ⟨plain_rfc slice fin plain data, fun _ => settled ?_⟩
      rcases data with op | op <;> simp [single, op, fin]
    · split
      · rename_i whole
        have whole : single f = true := by
          rcases Bool.or_eq_true_iff.mp whole with control | data
          · simp [single, control]
          · simp only [Bool.and_eq_true, Bool.or_eq_true, decide_eq_true_eq] at data
            rcases data.1 with op | op <;> simp [single, op, data.2]
        exact ⟨acceptSingle_rfc whole, fun _ => settled whole⟩
      · exact acceptFragment_rfc f (.idle rfl rfl)

end

section
variable (m : Platform) (cfg : AssemblerConfig) (closed : List Event → Bool)
variable (h : List Event → Handlers ε)

/-- The three paths and the rules as steps over a sequence of frames. Whether the
connection was closed and what its handlers answer depends on the callbacks so far. -/
def connStep (assembler : Option Assembler) (seen : List Event) (f : Frame) :
    Option Assembler × Accepted ε := acceptFrame m cfg (closed seen) (h seen) assembler f

def assemblerStep (a : Assembler) (seen : List Event) (f : Frame) : Assembler × Accepted ε :=
  if closed seen then (a, failed .closed) else a.accept m f (h seen).callbacks

def rfcStep (fragments : List Frame) (seen : List Event) (f : Frame) : List Frame × Accepted ε :=
  if closed seen then (fragments, failed .closed) else rfc m cfg fragments f (h seen).answer

def continues (f : Frame) : Bool := !f.opcode.isControl

/-- A message in several frames with control frames in between, within the limits. -/
structure Fragmented (first : Frame) (body : List Frame) (last : Frame) : Prop where
  begins : first.opcode = .text ∨ first.opcode = .binary
  opens : first.fin = false
  between : ∀ f ∈ body, f.rsv1 = false ∧
    (f.opcode.isControl = true ∨ f.opcode = .continuation ∧ f.fin = false)
  ends : last.opcode = .continuation ∧ last.fin = true ∧ last.rsv1 = false
  fits : (joined first (body.filter continues ++ [last])).payload.length ≤ bound cfg first.rsv1
  utf8 : cfg.validateUTF8 = true → first.opcode = .text → first.rsv1 = false →
    m.validUTF8 (joined first (body.filter continues ++ [last])).payload = true

variable {m cfg closed h}

theorem joined_grows (rest more : List Frame) :
    (joined first rest).payload.length ≤ (joined first (rest ++ more)).payload.length := by
  simp only [joined, List.flatMap_cons, List.flatMap_append, List.length_append]
  omega

def Quiet (closed : List Event → Bool) (h : List Event → Handlers ε) : Prop :=
  ∀ seen, closed seen = false ∧ ∀ e, (h seen).answer e = none

theorem runFrames_body (quiet : Quiet closed h) (first : Frame) (rest body tail : List Frame)
    (between : ∀ f ∈ body, f.rsv1 = false ∧
      (f.opcode.isControl = true ∨ f.opcode = .continuation ∧ f.fin = false))
    (fits : (joined first (rest ++ body.filter continues)).payload.length ≤ bound cfg first.rsv1)
    (seen : List Event) : runFrames (rfcStep m cfg closed h) (first :: rest) seen (body ++ tail) =
      runFrames (rfcStep m cfg closed h) (first :: (rest ++ body.filter continues))
        (seen ++ (body.filter fun f => !continues f).map .control) tail := by
  induction body generalizing rest seen with
  | nil => simp
  | cons f body ih =>
    obtain ⟨running, answers⟩ := quiet seen
    obtain ⟨plain, kind⟩ := between f List.mem_cons_self
    have later := fun g member => between g (List.mem_cons_of_mem f member)
    rw [List.cons_append, runFrames]
    rcases kind with control | ⟨goes, more⟩
    · have kept : (f :: body).filter continues = body.filter continues := by simp [continues, control]
      rw [kept] at fits
      have step : rfcStep m cfg closed h (first :: rest) seen f =
          (first :: rest, ⟨some (.control f), none⟩) := by
        simp [rfcStep, running, rfc, control, plain, delivered, answers]
      simp only [step]
      rw [ih rest later fits]
      simp [continues, control]
    · have kind : f.opcode.isControl = false := by rw [goes]; rfl
      have kept : (f :: body).filter continues = f :: body.filter continues := by
        simp [continues, kind]
      rw [kept, List.append_cons] at fits
      have within := Nat.le_trans (joined_grows first (rest ++ [f]) (body.filter continues)) fits
      have step : rfcStep m cfg closed h (first :: rest) seen f =
          (first :: (rest ++ [f]), nothing) := by
        have small : ¬bound cfg first.rsv1 < (joined first (rest ++ [f])).payload.length := by omega
        simp [rfcStep, running, rfc, goes, plain, more, rfcData, small]
      simp only [step, nothing]
      rw [ih (rest ++ [f]) later fits]
      simp [continues, kind]

theorem runFrames_message (quiet : Quiet closed h) {first last : Frame} {body : List Frame}
    (legal : Fragmented m cfg first body last) (seen : List Event) :
    runFrames (rfcStep m cfg closed h) [] seen (first :: (body ++ [last])) =
      (seen ++ (body.filter fun f => !continues f).map .control ++
        [.message (joined first (body.filter continues ++ [last]))], none) := by
  have fits := legal.fits
  obtain ⟨running, -⟩ := quiet seen
  have kind : first.opcode.isControl = false ∧ first.opcode ≠ .continuation := by
    rcases legal.begins with op | op <;> rw [op] <;> exact ⟨rfl, nofun⟩
  have opened : rfcStep m cfg closed h [] seen first = ([first], nothing) := by
    have small : ¬bound cfg first.rsv1 < (joined first []).payload.length := by
      have grows := joined_grows first [] (body.filter continues ++ [last])
      rw [List.nil_append] at grows
      omega
    simp [rfcStep, running, rfc, kind.1, kind.2, legal.opens, rfcData, small]
  have within := joined_grows first (body.filter continues) [last]
  rw [runFrames, opened]
  simp only [nothing, Option.toList_none, List.append_nil]
  rw [runFrames_body quiet first [] body [last] legal.between (by rw [List.nil_append]; omega),
    List.nil_append, runFrames]
  generalize seen ++ (body.filter fun f => !continues f).map Event.control = before
  obtain ⟨goes, fin, plain⟩ := legal.ends
  obtain ⟨running, answers⟩ := quiet before
  have closing : rfcStep m cfg closed h (first :: body.filter continues) before last =
      ([], ⟨some (.message (joined first (body.filter continues ++ [last]))), none⟩) := by
    have small : ¬bound cfg first.rsv1 <
        (joined first (body.filter continues ++ [last])).payload.length := by omega
    have valid : ¬(cfg.validateUTF8 = true ∧ first.opcode = .text ∧ first.rsv1 = false ∧
        m.validUTF8 (joined first (body.filter continues ++ [last])).payload = false) := by
      rintro ⟨checks, text, uncompressed, bad⟩
      rw [legal.utf8 checks text uncompressed] at bad
      cases bad
    have type : (joined first (body.filter continues ++ [last])).opcode = first.opcode := rfl
    have bits : (joined first (body.filter continues ++ [last])).compressed = first.rsv1 := rfl
    simp only [rfcStep, running, rfc, goes, continuation_isControl, plain, fin, rfcData, small,
      type, bits, valid, if_false, Bool.false_eq_true, Bool.true_eq_false, ne_eq, not_true_eq_false,
      delivered, answers, Option.map_none]
  simp only [closing, Option.toList_some, runFrames]

theorem closed_simulates {σ : Type} {step : σ → List Event → Frame → σ × Accepted ε}
    {R : σ → List Frame → Prop} {s : σ} {seen : List Event}
    (shut : closed seen = true) (stops : step s seen f = (s, failed .closed)) :
    (step s seen f).2 = (rfcStep m cfg closed h fragments seen f).2 ∧
      ((step s seen f).2.err = none →
        R (step s seen f).1 (rfcStep m cfg closed h fragments seen f).1) := by
  rw [stops, rfcStep, if_pos shut]
  exact ⟨rfl, nofun⟩

/-- A frame of the wire: the length of its payload is an int. -/
abbrev WireFrame := { f : Frame // f.payload.length ≤ maxInt }

theorem connRun_rfc (frames : List WireFrame) (seen : List Event) :
    runFrames (connStep m cfg closed h) none seen (frames.map Subtype.val) =
      runFrames (rfcStep m cfg closed h) [] seen (frames.map Subtype.val) := by
  refine runFrames_simulates (Keeps cfg) ?_ (show Keeps cfg none [] from rfl) seen
  intro assembler fragments seen f member keeps
  obtain ⟨slice, -, rfl⟩ := List.mem_map.mp member
  cases shut : closed seen with
  | true =>
    refine closed_simulates shut ?_
    simp only [connStep, acceptFrame, shut, if_true]
  | false =>
    simp only [connStep, rfcStep, shut, if_false, Bool.false_eq_true]
    exact acceptFrame_rfc slice.property keeps

theorem assemblerRun_rfc (frames : List Frame) (seen : List Event) :
    runFrames (assemblerStep m closed h) (.init (some cfg)) seen frames =
      runFrames (rfcStep m cfg closed h) [] seen frames := by
  refine runFrames_simulates (Stands cfg) ?_ (.idle rfl rfl) seen
  intro a fragments seen f _ stands
  cases shut : closed seen with
  | true =>
    refine closed_simulates shut ?_
    rw [assemblerStep, if_pos shut]
  | false =>
    simp only [assemblerStep, rfcStep, shut, if_false, Bool.false_eq_true]
    exact accept_rfc f stands

/-- The connection, the assembler and its shortcut follow the rules on any frames, and a
message in several frames is what its fragments make, whatever control frames come
between them. -/
theorem assembly_follows_rfc (m : Platform) (cfg : AssemblerConfig) (closed : List Event → Bool)
    (h : List Event → Handlers ε) :
    (∀ frames : List WireFrame, runFrames (connStep m cfg closed h) none [] (frames.map Subtype.val) =
      runFrames (rfcStep m cfg closed h) [] [] (frames.map Subtype.val)) ∧
    (∀ frames, runFrames (assemblerStep m closed h) (.init (some cfg)) [] frames =
      runFrames (rfcStep m cfg closed h) [] [] frames) ∧
    (∀ seen f, single f = true → acceptSingle m f (some cfg) (h seen).callbacks =
      (rfc m cfg [] f (h seen).answer).2) ∧
    (Quiet closed h → ∀ first body last, Fragmented m cfg first body last → ∀ seen,
      runFrames (rfcStep m cfg closed h) [] seen (first :: (body ++ [last])) =
        (seen ++ (body.filter fun f => !continues f).map .control ++
          [.message (joined first (body.filter continues ++ [last]))], none)) :=
  ⟨fun frames => connRun_rfc frames [], fun frames => assemblerRun_rfc frames [],
    fun _ _ => acceptSingle_rfc, fun quiet _ _ _ legal seen => runFrames_message quiet legal seen⟩

def willing (_ : List Event) : Handlers Unit where
  acceptControl _ := none
  notifyMessage _ _ := none
  inflate _ := none

/-- Two fragments of a text with a ping between them. -/
theorem assembly_follows_rfc_ping :
    runFrames (connStep ⟨false, fun _ => true⟩ {} (fun _ => false) willing) none []
      [⟨⟨false, false, .text, true, [72]⟩, false⟩, ⟨⟨true, false, .ping, true, [7]⟩, false⟩,
        ⟨⟨true, false, .continuation, true, [105]⟩, false⟩] =
      ([.control ⟨⟨true, false, .ping, true, [7]⟩, false⟩, .message ⟨.text, [72, 105], false⟩], none) := by
  obtain ⟨conn, -, -, message⟩ := assembly_follows_rfc ⟨false, fun _ => true⟩ {}
    (fun _ => false) willing
  have run := conn [⟨⟨⟨false, false, .text, true, [72]⟩, false⟩, by decide⟩,
    ⟨⟨⟨true, false, .ping, true, [7]⟩, false⟩, by decide⟩,
    ⟨⟨⟨true, false, .continuation, true, [105]⟩, false⟩, by decide⟩]
  refine run.trans (message (fun seen => ⟨rfl, fun e => ?_⟩) _
    [⟨⟨true, false, .ping, true, [7]⟩, false⟩] _ ⟨.inl rfl, rfl, ?_, ⟨rfl, rfl, rfl⟩, ?_, ?_⟩ [])
  · cases e <;> simp [Handlers.answer, Handlers.acceptMessage, willing]
  · intro f member
    rw [List.mem_singleton.mp member]
    exact ⟨rfl, .inl rfl⟩
  · decide
  · exact fun _ _ _ => rfl

end

end UwsAssembly
