import Uio.Uws.Inflate

/-!
The two dictionaries of a permessage-deflate link stay in step. `appendDictionary`
keeps the end of the text that went by, whichever of its copies it takes. Following
the messages on the wire from the receiver's dictionary leads to the sender's, so each
compressed message meets the dictionary it was made with.
-/
namespace UwsTakeover
open Slices UwsDeflate
open UwsInflate (decodeLoop_spec)

theorem rtake_append_of_le {d p : Bytes} {n : Nat} (long : n ≤ p.length) :
    (d ++ p).rtake n = p.drop (p.length - n) := by
  have past : (d ++ p).length - n = d.length + (p.length - n) := by
    simp only [List.length_append]
    omega
  rw [List.rtake, past, List.drop_length_add_append]

theorem rtake_append_of_ge {d p : Bytes} {n : Nat} (short : p.length ≤ n) :
    (d ++ p).rtake n = d.drop (d.length - (n - p.length)) ++ p := by
  have before : (d ++ p).length - n = d.length - (n - p.length) := by
    simp only [List.length_append]
    omega
  rw [List.rtake, before, List.drop_append_of_le_length (Nat.sub_le _ _)]

theorem elems_appendDictionary (d : Slice UInt8) (p : Bytes) (limit : Int) (spare : Nat)
    (shorter : d.len ≤ windowLimit limit) :
    (appendDictionary d p limit spare).elems = (d.elems ++ p).rtake (windowLimit limit) := by
  unfold appendDictionary
  generalize windowLimit limit = window at shorter
  dsimp only
  by_cases long : window ≤ p.length
  · rw [if_pos long, rtake_append_of_le long]
    by_cases room : window ≤ d.cap
    · rw [if_pos room]
      apply Slice.elems_copy
      rw [Slice.len_upTo _ room, List.length_drop]
      omega
    · rw [if_neg room]
      simp
  · rw [if_neg long, rtake_append_of_ge (by omega), Slice.length_elems]
    by_cases fits : d.len + p.length ≤ window
    · rw [if_pos fits, Slice.elems_append, Nat.sub_eq_zero_of_le (by omega), List.drop_zero]
    · rw [if_neg fits]
      by_cases room : window ≤ d.cap
      · rw [if_pos room, Slice.elems_append]
        have length : (d.elems.drop (d.len - (window - p.length))).length = window - p.length := by
          rw [List.length_drop, Slice.length_elems]
          omega
        have front := Slice.elems_copy_take d
          (show (d.elems.drop (d.len - (window - p.length))).length ≤ d.len by omega)
        rw [length] at front
        rw [Slice.elems_upTo _ (by rw [Slice.len_copy]; omega), front]
      · rw [if_neg room]
        simp

theorem len_appendDictionary (d : Slice UInt8) (p : Bytes) (limit : Int) (spare : Nat)
    (shorter : d.len ≤ windowLimit limit) :
    (appendDictionary d p limit spare).len ≤ windowLimit limit := by
  rw [← Slice.length_elems, elems_appendDictionary d p limit spare shorter, List.rtake,
    List.length_drop]
  omega

variable {χ : Type} (codec : Codec χ)

theorem decodeBorrowed_eq (d : Decoder) (payload : Bytes) (maxSize : Int) (capacity : Nat)
    (pieces : Nat → Piece) (spare : Nat) :
    d.decodeBorrowed codec payload maxSize capacity pieces spare =
      (codec.inflate d.dictionary.elems payload).bind fun text =>
        if text.length ≤ decodeLimit maxSize then some (text, d.advance text spare) else none := by
  unfold Decoder.decodeBorrowed
  cases codec.inflate d.dictionary.elems payload with
  | none => rfl
  | some text =>
    have read := (decodeLoop_spec .eof pieces _ ⟨capacity, [], text⟩ (Nat.lt_succ_self _)
      ⟨Nat.zero_le _, Nat.zero_le (decodeLimit maxSize), Nat.le_max_left _ _⟩).1
    simp only [List.length_nil, Nat.zero_add, List.nil_append] at read
    simp only [read, Option.bind_some]
    by_cases fits : text.length ≤ decodeLimit maxSize
    · simp only [if_pos fits, if_neg (Nat.not_lt.mpr fits), Ending.verdict]
    · simp only [if_neg fits, if_pos (Nat.not_le.mp fits)]

section
variable (p : Params)

def window : Nat := windowLimit (newEncoderWithWindow p.noContext p.windowBits).windowBytes

def passed (d : Bytes) (m : Message) : Bytes :=
  if m.compressed && !p.noContext then (d ++ m.text).rtake (window p) else d

/-- At a receiver whose dictionary is `d`, the message reads as its text. -/
def Reads (d : Bytes) (m : Message) : Prop :=
  if m.compressed then m.context = d ∧ codec.inflate d m.payload = some m.text
  else m.payload = m.text

/-- The messages read one after the other from `d` on, and leave the dictionary `d'`. -/
def Leads (d' : Bytes) : Bytes → List Message → Prop
  | d, [] => d = d'
  | d, m :: ms => Reads codec d m ∧ Leads d' (passed p d m) ms

theorem leads_push {d' : Bytes} {m : Message} (reads : Reads codec d' m) (d : Bytes)
    (ms : List Message) (leads : Leads codec p d' d ms) :
    Leads codec p (passed p d' m) d (ms ++ [m]) := by
  induction ms generalizing d with
  | nil =>
    cases leads
    exact ⟨reads, rfl⟩
  | cons first ms ih => exact ⟨leads.1, ih _ leads.2⟩

/-- A dictionary of the negotiated window, kept across messages unless that was declined. -/
structure Keeps (noContext : Bool) (windowBytes : Int) (dictionary : Slice UInt8) : Prop where
  context : noContext = p.noContext
  bytes : windowLimit windowBytes = window p
  shorter : dictionary.len ≤ window p

variable {p}

theorem keeps_append {noContext : Bool} {windowBytes : Int} {d : Slice UInt8}
    (keeps : Keeps p noContext windowBytes d) (text : Bytes) (spare : Nat) :
    Keeps p noContext windowBytes (appendDictionary d text windowBytes spare) := by
  have shorter := len_appendDictionary d text windowBytes spare (keeps.bytes ▸ keeps.shorter)
  exact ⟨keeps.context, keeps.bytes, keeps.bytes ▸ shorter⟩

theorem elems_keeps {noContext : Bool} {windowBytes : Int} {d : Slice UInt8}
    (keeps : Keeps p noContext windowBytes d) (text : Bytes) (spare : Nat) :
    (appendDictionary d text windowBytes spare).elems = (d.elems ++ text).rtake (window p) := by
  rw [elems_appendDictionary d text windowBytes spare (keeps.bytes ▸ keeps.shorter), keeps.bytes]

theorem keeps_commit {e : Encoder} (keeps : Keeps p e.noContext e.windowBytes e.dictionary)
    (m : Message) (compressed : m.compressed = true) (spare : Nat) :
    Keeps p (e.commit m.text spare).noContext (e.commit m.text spare).windowBytes
        (e.commit m.text spare).dictionary ∧
      (e.commit m.text spare).dictionary.elems = passed p e.dictionary.elems m := by
  unfold Encoder.commit passed
  by_cases declined : e.noContext = true
  · simp only [← keeps.context, declined, Bool.not_true, Bool.and_false]
    exact ⟨declined ▸ keeps, rfl⟩
  · rw [if_neg declined, if_pos (by simp [compressed, ← keeps.context, declined])]
    exact ⟨keeps_append keeps m.text spare, elems_keeps keeps m.text spare⟩

theorem keeps_advance {d : Decoder} (keeps : Keeps p d.noContext d.windowBytes d.dictionary)
    (m : Message) (compressed : m.compressed = true) (spare : Nat) :
    Keeps p (d.advance m.text spare).noContext (d.advance m.text spare).windowBytes
        (d.advance m.text spare).dictionary ∧
      (d.advance m.text spare).dictionary.elems = passed p d.dictionary.elems m := by
  unfold Decoder.advance passed
  by_cases declined : d.noContext = true
  · simp only [← keeps.context, declined, Bool.not_true, Bool.and_false]
    exact ⟨declined ▸ keeps, rfl⟩
  · rw [if_neg declined, if_pos (by simp [compressed, ← keeps.context, declined])]
    exact ⟨keeps_append keeps m.text spare, elems_keeps keeps m.text spare⟩

variable (p)

structure InSync (s : Link) : Prop where
  encoder : Keeps p s.encoder.noContext s.encoder.windowBytes s.encoder.dictionary
  decoder : Keeps p s.decoder.noContext s.decoder.windowBytes s.decoder.dictionary
  leads : s.failed = false →
    Leads codec p s.encoder.dictionary.elems s.decoder.dictionary.elems s.wire
  carried : s.failed = false → s.received ++ s.wire.map Message.text = s.sent
  before : s.received <+: s.sent

theorem start_in_sync : InSync codec p (start p) where
  encoder := ⟨rfl, rfl, Nat.zero_le _⟩
  decoder := ⟨rfl, rfl, Nat.zero_le _⟩
  leads _ := rfl
  carried _ := rfl
  before := List.prefix_rfl

variable {p}

theorem queued_in_sync {s : Link} (held : InSync codec p s) (m : Message)
    (reads : Reads codec s.encoder.dictionary.elems m) (e : Encoder)
    (keeps : Keeps p e.noContext e.windowBytes e.dictionary)
    (follows : e.dictionary.elems = passed p s.encoder.dictionary.elems m) :
    InSync codec p
      { s with encoder := e, wire := s.wire ++ [m], sent := s.sent ++ [m.text] } where
  encoder := keeps
  decoder := held.decoder
  leads alive := by
    have leads := leads_push codec p reads _ _ (held.leads alive)
    exact follows ▸ leads
  carried alive := by
    have carried := held.carried alive
    simp only [List.map_append, List.map_cons, List.map_nil, ← carried, List.append_assoc]
  before := held.before.trans (List.prefix_append _ _)

theorem closing_in_sync {s : Link} (held : InSync codec p s) :
    InSync codec p { s with closing := true } :=
  ⟨held.encoder, held.decoder, held.leads, held.carried, held.before⟩

theorem sendMessageLocked_in_sync {s : Link} (held : InSync codec p s) (payload : Bytes)
    (outcome : Outcome) :
    InSync codec p (sendMessageLocked s ⟨false, payload, payload, []⟩ outcome) := by
  cases outcome with
  | taken => exact queued_in_sync codec held ⟨false, payload, payload, []⟩ rfl _ held.encoder rfl
  | refused => exact held
  | broken => exact closing_in_sync codec held

theorem sendCompressed_in_sync {s : Link} (held : InSync codec p s) (payload : Bytes) (how : χ)
    (outcome : Outcome) (spare : Nat) :
    InSync codec p (sendCompressed codec s payload how outcome spare) := by
  unfold sendCompressed
  cases made : codec.deflate how s.encoder.dictionary.elems payload with
  | none => exact held
  | some encoded =>
    dsimp only
    by_cases shorter : encoded.length < payload.length
    · rw [if_pos shorter]
      cases outcome with
      | taken =>
        let m : Message := ⟨true, encoded, payload, s.encoder.dictionary.elems⟩
        obtain ⟨keeps, follows⟩ := keeps_commit held.encoder m rfl spare
        have reads := codec.inflate_deflate how _ payload encoded made
        exact queued_in_sync codec held m ⟨rfl, reads⟩ _ keeps follows
      | refused => exact held
      | broken => exact closing_in_sync codec held
    · rw [if_neg shorter]
      exact sendMessageLocked_in_sync codec held payload outcome

theorem sendLocked_in_sync {s : Link} (held : InSync codec p s) (payload : Bytes) (how : χ)
    (outcome : Outcome) (spare : Nat) :
    InSync codec p (sendLocked codec p s payload how outcome spare) := by
  unfold sendLocked
  split_ifs
  · exact held
  · exact held
  · exact sendCompressed_in_sync codec held payload how outcome spare
  · exact sendMessageLocked_in_sync codec held payload outcome

theorem acceptMessage_eq {s : Link} {m : Message}
    (reads : Reads codec s.decoder.dictionary.elems m) (capacity : Nat) (pieces : Nat → Piece)
    (spare : Nat) (accepted : Bool) :
    acceptMessage codec p s m capacity pieces spare accepted =
      if exceedsPayloadLimit p m ∨ (m.compressed ∧ decodeLimit p.maxMessage < m.text.length) then
        { s with failed := true }
      else
        { s with
          decoder := if m.compressed then s.decoder.advance m.text spare else s.decoder
          received := s.received ++ [m.text]
          failed := !accepted } := by
  unfold acceptMessage
  by_cases exceeds : exceedsPayloadLimit p m = true
  · rw [if_pos exceeds, if_pos (.inl exceeds)]
  · rw [if_neg exceeds]
    unfold Reads at reads
    by_cases compressed : m.compressed = true
    · rw [if_pos compressed] at reads
      rw [if_pos compressed, decodeBorrowed_eq, reads.2, Option.bind_some]
      by_cases fits : m.text.length ≤ decodeLimit p.maxMessage
      · rw [if_pos fits, if_neg (by simp [exceeds, fits]), if_pos compressed]
      · rw [if_neg fits, if_pos (.inr ⟨compressed, Nat.lt_of_not_le fits⟩)]
    · rw [if_neg compressed] at reads
      rw [if_neg compressed, reads, if_neg (by simp [exceeds, compressed]), if_neg compressed]

theorem receive_in_sync {s : Link} (held : InSync codec p s) (alive : s.failed = false)
    {m : Message} {rest : List Message} (first : s.wire = m :: rest) (capacity : Nat)
    (pieces : Nat → Piece) (spare : Nat) (accepted : Bool) :
    InSync codec p
      (acceptMessage codec p { s with wire := rest } m capacity pieces spare accepted) := by
  have leads := held.leads alive
  have carried := held.carried alive
  rw [first] at leads carried
  have reads : Reads codec ({ s with wire := rest } : Link).decoder.dictionary.elems m := leads.1
  rw [acceptMessage_eq codec reads]
  by_cases refused :
      exceedsPayloadLimit p m ∨ (m.compressed ∧ decodeLimit p.maxMessage < m.text.length)
  · rw [if_pos refused]
    exact ⟨held.encoder, held.decoder, nofun, nofun, held.before⟩
  · rw [if_neg refused]
    have follows : Keeps p
          (if m.compressed then s.decoder.advance m.text spare else s.decoder).noContext
          (if m.compressed then s.decoder.advance m.text spare else s.decoder).windowBytes
          (if m.compressed then s.decoder.advance m.text spare else s.decoder).dictionary ∧
        (if m.compressed then s.decoder.advance m.text spare else s.decoder).dictionary.elems =
          passed p s.decoder.dictionary.elems m := by
      by_cases compressed : m.compressed = true
      · simp only [if_pos compressed]
        exact keeps_advance held.decoder m compressed spare
      · simp only [if_neg compressed]
        exact ⟨held.decoder, by simp [passed, compressed]⟩
    refine ⟨held.encoder, follows.1, fun _ => ?_, fun _ => ?_, ?_⟩
    · exact follows.2 ▸ leads.2
    · simpa using carried
    · exact ⟨rest.map Message.text, by simpa using carried⟩

theorem step_receive {s : Link} (alive : s.failed = false) {m : Message} {rest : List Message}
    (first : s.wire = m :: rest) (capacity : Nat) (pieces : Nat → Piece) (spare : Nat)
    (accepted : Bool) :
    step codec p s (.receive capacity pieces spare accepted) =
      acceptMessage codec p { s with wire := rest } m capacity pieces spare accepted := by
  simp only [step, alive, first, Bool.false_eq_true, if_false]

theorem step_in_sync {s : Link} (held : InSync codec p s) (event : Event χ) :
    InSync codec p (step codec p s event) := by
  cases event with
  | send payload how outcome spare =>
    exact sendLocked_in_sync codec held payload how outcome spare
  | receive capacity pieces spare accepted =>
    cases alive : s.failed with
    | true => simpa only [step, alive, if_true] using held
    | false =>
      cases first : s.wire with
      | nil => simpa only [step, alive, first, ite_self] using held
      | cons m rest =>
        rw [step_receive codec alive first]
        exact receive_in_sync codec held alive first capacity pieces spare accepted
  | close => exact closing_in_sync codec held

theorem run_in_sync (events : List (Event χ)) : InSync codec p (run codec p events) := by
  unfold run
  induction events using List.reverseRecOn with
  | nil => exact start_in_sync codec p
  | append_singleton events event ih =>
    rw [List.foldl_concat]
    exact step_in_sync codec ih event

/-- A compressed message at the head of the wire meets the dictionary it was made with,
and any message there is delivered as it was sent if the receiver's limits admit it. -/
theorem context_takeover_in_sync (p : Params) (events : List (Event χ)) :
    (∀ (d : Slice UInt8) (payload : Bytes) (limit : Int) (spare : Nat), d.len ≤ windowLimit limit →
        (appendDictionary d payload limit spare).elems =
          (d.elems ++ payload).rtake (windowLimit limit)) ∧
    (run codec p events).received <+: (run codec p events).sent ∧
    ∀ (m : Message) (rest : List Message),
      (run codec p events).failed = false → (run codec p events).wire = m :: rest →
        (m.compressed = true → (run codec p events).decoder.dictionary.elems = m.context) ∧
        ∀ (capacity : Nat) (pieces : Nat → Piece) (spare : Nat) (accepted : Bool),
          exceedsPayloadLimit p m = false → m.text.length ≤ decodeLimit p.maxMessage →
            (step codec p (run codec p events) (.receive capacity pieces spare accepted)).received =
              (run codec p events).received ++ [m.text] := by
  have held := run_in_sync codec (p := p) events
  refine ⟨elems_appendDictionary, held.before, fun m rest alive first => ?_⟩
  have leads := held.leads alive
  rw [first] at leads
  refine ⟨fun compressed => ?_, fun capacity pieces spare accepted inside fits => ?_⟩
  · have reads := leads.1
    rw [Reads, if_pos compressed] at reads
    exact reads.1.symm
  · have reads : Reads codec
        ({ run codec p events with wire := rest } : Link).decoder.dictionary.elems m := leads.1
    rw [step_receive codec alive first, acceptMessage_eq codec reads,
      if_neg (by simp [inside, fits])]

end

def runCodec : Codec Unit where
  deflate _ dictionary payload :=
    if payload = dictionary then some []
    else if payload = List.replicate payload.length 7 ∧ payload.length < 256 then
      some [0, UInt8.ofNat payload.length]
    else some (1 :: payload)
  inflate dictionary
    | [] => some dictionary
    | [0, n] => some (List.replicate n.toNat 7)
    | _ :: rest => some rest
  inflate_deflate how dictionary payload encoded made := by
    split_ifs at made with same run
    · cases made
      exact congrArg some same.symm
    · cases made
      have count : (UInt8.ofNat payload.length).toNat = payload.length := by
        simp only [UInt8.toNat_ofNat']
        omega
      exact congrArg some (count.symm ▸ run.1.symm)
    · cases made
      simp

def smallWindow : Params := ⟨false, 8, 100, 100, 100⟩

/-- A window of no bytes is taken for the largest one, and a text past the receiver's limit
fails it although its dictionary is the right one. -/
theorem empty_window_and_small_limit :
    ((Slice.empty : Slice UInt8).len ≤ 0 ∧
      (appendDictionary .empty [1] 0 0).elems ≠ ((Slice.empty : Slice UInt8).elems ++ [1]).rtake 0) ∧
    let p : Params := ⟨false, 8, 100, 2, 100⟩
    let s := run runCodec p [.send [7, 7, 7] () .taken 0]
    s.sent = [[7, 7, 7]] ∧ s.failed = false ∧
      (step runCodec p s (.receive 0 (fun _ => ⟨0, false⟩) 0 true)).failed = true ∧
      (step runCodec p s (.receive 0 (fun _ => ⟨0, false⟩) 0 true)).received = [] := by
  decide

/-- A compressed message, one sent as it is, a refused one and one made of the dictionary,
with the first two delivered. -/
def exchange : List (Event Unit) :=
  [.send [7, 7, 7] () .taken 0, .send [9] () .taken 0, .send [7, 7] () .refused 0,
    .send [7, 7, 7] () .taken 0, .receive 0 (fun _ => ⟨0, false⟩) 2 true,
    .receive 0 (fun _ => ⟨0, false⟩) 0 true]

theorem context_takeover_in_sync_exchange :
    (run runCodec smallWindow exchange).wire = [⟨true, [], [7, 7, 7], [7, 7, 7]⟩] ∧
      (run runCodec smallWindow exchange).decoder.dictionary.elems = [7, 7, 7] ∧
      (step runCodec smallWindow (run runCodec smallWindow exchange)
          (.receive 0 (fun _ => ⟨1, true⟩) 0 true)).received =
        (run runCodec smallWindow exchange).received ++ [[7, 7, 7]] ∧
      (appendDictionary .empty [1, 2] 1 0).elems = [2] := by
  obtain ⟨kept, _, meets⟩ := context_takeover_in_sync runCodec smallWindow exchange
  have first : (run runCodec smallWindow exchange).wire = [⟨true, [], [7, 7, 7], [7, 7, 7]⟩] := rfl
  obtain ⟨context, delivered⟩ := meets _ _ rfl first
  exact ⟨first, context rfl, delivered 0 _ 0 true (by decide) (by decide),
    kept .empty [1, 2] 1 0 (by decide)⟩

end UwsTakeover
