import Uio.Umux.Budget
import Uio.Umux.Order

/- The numbers a session narrows to 32 bits. Frame and metadata sizes are clamped
   when a configuration is resolved, but a window is not, so a window of 4 GiB or
   more announces and enforces another one. Under that size every field is exact. -/
namespace UmuxNarrow
open Interleaving UmuxFrame UmuxOutbox UmuxSettings UmuxSession UmuxMachine UmuxLifecycle UmuxTurn
open UmuxInbound UmuxWindow UmuxFootprint UmuxSuccessors UmuxSteps UmuxEdits UmuxOrder UmuxBudget
variable {cfg : Endpoint} {x : Rx}

/-- What the receiving side of a stream holds and has consumed, against its window. -/
structure Measured (cfg : Endpoint) (x : Rx) : Prop where
  size : x.win.size = cfg.windowSize
  counted : x.inbuf.length ≤ x.win.buffered
  within : x.inbuf.length ≤ cfg.windowSize
  tuned : x.win.threshold ≤ quarter cfg.windowSize
  kept : x.win.consumed < quarter cfg.windowSize

theorem quarter_mono {small large : Nat} (le : small ≤ large) : quarter small ≤ quarter large := by
  unfold quarter
  split <;> split <;> omega

theorem threshold_retune (w : RecvWindow) (peer : Nat) :
    (w.retune peer).threshold ≤ quarter w.size := by
  have tuned := retune_grant w peer
  have positive := quarter_positive (min peer w.size)
  have below := quarter_mono (Nat.min_le_right peer w.size)
  unfold RecvWindow.threshold
  split <;> omega

theorem measured_new (cfg : Endpoint) : Measured cfg ⟨[], newRecvWindow cfg.windowSize⟩ where
  size := rfl
  counted := Nat.le_refl 0
  within := Nat.zero_le _
  tuned := threshold_retune _ _
  kept := quarter_positive _

theorem measured_retune (peer : Nat) (measured : Measured cfg x) :
    Measured cfg { x with win := x.win.retune peer } where
  size := measured.size
  counted := measured.counted
  within := measured.within
  tuned := measured.size ▸ threshold_retune x.win peer
  kept := measured.kept

theorem measured_reset (measured : Measured cfg x) :
    Measured cfg { x with inbuf := [] } where
  size := measured.size
  counted := Nat.zero_le _
  within := Nat.zero_le _
  tuned := measured.tuned
  kept := measured.kept

theorem measured_overrun (n : Nat) (measured : Measured cfg x) :
    Measured cfg { x with win := (x.win.onData n).1 } where
  size := measured.size
  counted := Nat.le_trans measured.counted (Nat.le_add_right _ _)
  within := measured.within
  tuned := measured.tuned
  kept := measured.kept

theorem measured_fill {payload : List UInt8}
    (fits : x.win.buffered + payload.length ≤ x.win.size) (measured : Measured cfg x) :
    Measured cfg ⟨x.inbuf ++ payload, (x.win.onData payload.length).1⟩ where
  size := measured.size
  counted := by
    have counted := measured.counted
    simp only [List.length_append, RecvWindow.onData]
    omega
  within := by
    have counted := measured.counted
    have size := measured.size
    simp only [List.length_append]
    omega
  tuned := measured.tuned
  kept := measured.kept

theorem measured_consume {n : Nat} (covered : n ≤ x.inbuf.length)
    (measured : Measured cfg x) : Measured cfg (Rx.consume x n).1 := by
  obtain ⟨size, counted, within, tuned, kept⟩ := measured
  obtain ⟨same, grant⟩ := consume_settings x.win n
  obtain ⟨left, -⟩ := consume_balance (w := x.win) (n := n) (by omega)
  have threshold : (x.win.consume n).1.threshold = x.win.threshold := by
    simp only [RecvWindow.threshold, grant]
  refine ⟨same.trans size, ?_, ?_, threshold.trans_le tuned, ?_⟩
  · simp only [Rx.consume, List.length_drop]
    omega
  · simp only [Rx.consume, List.length_drop]
    omega
  · have positive := quarter_positive cfg.windowSize
    simp only [Rx.consume, RecvWindow.consume]
    split
    · exact kept
    · split
      · exact positive
      · simp only
        omega

theorem consume_bounded {n : Nat} (covered : n ≤ x.inbuf.length) (measured : Measured cfg x) :
    (Rx.consume x n).2 < cfg.windowSize + quarter cfg.windowSize := by
  have bound := consume_grant_le x.win n
  have within := measured.within
  have kept := measured.kept
  simp only [Rx.consume]
  omega

theorem measured_update {f : Ref → Rx} {q : Ref} (own : Measured cfg x)
    (others : ∀ r, Measured cfg (f r)) (r : Ref) : Measured cfg (Function.update f q x r) :=
  (Function.forall_update_iff f fun _ => Measured cfg).mpr ⟨own, fun r _ => others r⟩ r

theorem measured_filled {s : Session} {q : Ref} {payload : List UInt8}
    (fits : payload = [] ∨ (s.inbox.rx q).win.buffered + payload.length ≤ (s.inbox.rx q).win.size)
    (held : ∀ r, Measured cfg (s.inbox.rx r)) (r : Ref) :
    Measured cfg ((filled s q payload).inbox.rx r) := by
  unfold filled
  split
  · exact held r
  · rename_i brought
    rcases fits with none | fits
    · exact absurd (congrArg List.length none) brought
    · exact measured_update (measured_fill fits (held q)) held r

theorem measured_exec (cfg : Endpoint) (c : Oracle) (a : Section) {s : Session}
    (held : ∀ r, Measured cfg (s.inbox.rx r)) :
    ∀ r, Measured cfg ((exec cfg c a s).1.inbox.rx r) := by
  by_cases untouched : touches a .rx = false
  · rw [exec_rx cfg c s untouched]
    exact held
  · cases a
    case openStream metadata =>
      simp only [exec, openStream]
      split
      · exact held
      · split <;> exact measured_update (measured_new cfg) held
    case acceptVet id delta metadata =>
      have made := measured_update (q := s.reg.fresh) (measured_new cfg) held
      have tuned := measured_update (q := s.reg.fresh)
        (measured_retune (minWindow + delta) (made s.reg.fresh)) made
      simp only [exec, acceptVet]
      (repeat' split) <;> first | exact held | exact tuned
    case establish q w delta => exact measured_update (measured_retune _ (held q)) held
    case read q n =>
      simp only [exec, UmuxInbound.read]
      split
      · exact held
      · exact measured_update (measured_consume (Nat.min_le_right _ _) (held q)) held
    case discard q n =>
      exact measured_update (measured_consume (discardLength_le _ n) (held q)) held
    case resetStream q e =>
      simp only [exec, resetStream]
      split
      · exact held
      · exact measured_update (measured_reset (held q)) held
    case pushData q payload fin next =>
      have pushed := pushData_pushed s q payload fin next
      simp only [exec]
      generalize pushData s q payload fin next = step at pushed ⊢
      cases pushed with
      | late closed => exact held
      | overrun running brought past => exact measured_update (measured_overrun _ (held q)) held
      | taken running fits | ended running fits first => exact measured_filled fits held
    all_goals exact absurd rfl untouched

theorem grantOf_bounded {n id delta named : Nat}
    (covered : n ≤ x.inbuf.length) (measured : Measured cfg x)
    (member : .sendWindowUpdate id delta ∈ grantOf named (Rx.consume x n).2) :
    delta < cfg.windowSize + quarter cfg.windowSize := by
  unfold grantOf at member
  split at member
  · cases member
  · cases List.mem_singleton.mp member
    exact consume_bounded covered measured

theorem update_pushed (cfg : Endpoint) (c : Oracle) {a : Section} {s : Session} {id delta : Nat}
    (held : ∀ r, Measured cfg (s.inbox.rx r))
    (member : .sendWindowUpdate id delta ∈ (exec cfg c a s).2) :
    delta < cfg.windowSize + quarter cfg.windowSize := by
  have grouped := pushed_group cfg c member
  cases a
  case read q n =>
    simp only [exec, UmuxInbound.read] at member
    split at member
    · cases member
    · simp only [List.mem_append, List.mem_cons] at member
      rcases member with ((first | hears) | granted) | ends
      · cases first
      · split at hears <;> simp at hears
      · exact grantOf_bounded (Nat.min_le_right _ _) (held q) granted
      · split at ends <;> simp at ends
  case discard q n =>
    simp only [exec, UmuxInbound.discard, List.mem_append, List.mem_cons] at member
    rcases member with (first | granted) | ends
    · cases first
    · exact grantOf_bounded (discardLength_le _ n) (held q) granted
    · split at ends <;> simp at ends
  case readFrame =>
    have taken := readFrame_taken cfg c s
    simp only [exec] at member
    generalize readFrame cfg c s = step at taken member
    cases taken with
    | ended | failed e => simp at member
    | frame f arrived formed valid handled =>
      cases handled with
      | vetted delta metadata peer free => cases accept : cfg.accept <;> simp [accept] at member
      | _ => simp at member
  case pushData q payload fin next =>
    have after : .sendWindowUpdate id delta ∉ afterPush q next := by
      cases next <;> simp [afterPush]
    have pushed := pushData_pushed s q payload fin next
    simp only [exec] at member
    generalize pushData s q payload fin next = step at pushed member
    cases pushed with
    | late closed | taken running fits => simp [after] at member
    | overrun running brought past => simp at member
    | ended running fits first =>
      cases (s.life q).localFIN <;> simp [after] at member
  all_goals cases grouped

theorem updates_bounded {now : Nat} {p : Pool Session Section}
    (run : Reachable (program cfg) (newSession cfg now) p) {id delta : Nat}
    (member : .sendWindowUpdate id delta ∈ owed p) :
    delta < cfg.windowSize + quarter cfg.windowSize := by
  refine (owed_carries (fun s : Session => ∀ r, Measured cfg (s.inbox.rx r)) (fun _ a => ∀ id delta,
    a = .sendWindowUpdate id delta → delta < cfg.windowSize + quarter cfg.windowSize)
    (fun r => measured_new cfg) ?_ ?_ ?_ run).2 _ member id delta rfl
  · simp [owed, newSession]
  · rintro s a - entry id delta rfl
    cases entry
  · intro s a c ready _ held _
    refine ⟨measured_exec cfg c a held, fun b other => other, ?_⟩
    rintro b pushed id delta rfl
    exact update_pushed cfg c held pushed

/-- What is queued and what the wire carries are frames of the session. -/
structure Built (cfg : Endpoint) (o : Outward) : Prop where
  control : ∀ f ∈ o.q.control, Sends cfg f
  out : ∀ r, ∀ f ∈ (o.q.tx r).out, Sends cfg f
  wire : ∀ f ∈ o.conn.wire, Sends cfg f

theorem out_setTx {q : Queues} (held : ∀ r, ∀ f ∈ (q.tx r).out, Sends cfg f) (r : Ref) {x : Tx}
    (own : ∀ f ∈ x.out, Sends cfg f) : ∀ p, ∀ f ∈ ((q.setTx r x).tx p).out, Sends cfg f :=
  (Function.forall_update_iff q.tx fun _ x => ∀ f ∈ x.out, Sends cfg f).mpr
    ⟨own, fun p _ => held p⟩

theorem sends_append {l : List Frame} {f : Frame} (held : ∀ g ∈ l, Sends cfg g)
    (own : Sends cfg f) : ∀ g ∈ l ++ [f], Sends cfg g :=
  List.forall_mem_append.mpr ⟨held, List.forall_mem_singleton.mpr own⟩

theorem built_edit {o o' : Outward} (edit : Edit cfg o o') (held : Built cfg o) : Built cfg o' := by
  obtain ⟨control, out, wire⟩ := held
  have rest : ∀ r, ∀ f ∈ (o.q.tx r).out.tail, Sends cfg f :=
    fun r f member => out r f (List.mem_of_mem_tail member)
  cases edit with
  | shrunk | skipped => exact ⟨control, out, wire⟩
  | created | dropped => exact ⟨control, out_setTx out _ (by simp), wire⟩
  | aside q same pending tx handed => exact ⟨same ▸ control, tx ▸ out, wire⟩
  | spoke c same failed => exact ⟨control, out, same ▸ wire⟩
  | controlQueued f sends notData => exact ⟨sends_append control sends, out, wire⟩
  | controlSent f left c first working grown =>
    exact ⟨fun g member => control g (List.mem_of_mem_tail member), out,
      grown ▸ sends_append wire (control f (by simp [first]))⟩
  | cleared empty => exact ⟨by simp, out, wire⟩
  | unqueued id left r => exact ⟨control, out_setTx out r (out r), wire⟩
  | finSent id left r c first listed empty fin working grown =>
    exact ⟨control, out_setTx out r (out r), grown ▸ sends_append wire (.fin id)⟩
  | dataSent drainObs id left r f more c first listed queued working grown =>
    refine ⟨?_, fun p => ?_, grown ▸ sends_append wire (out r f (by simp [queued]))⟩
    · simp only [afterData]
      (repeat' split) <;> exact control
    · by_cases same : p = r
      · rw [same, (tx_afterData_same drainObs id _).1]
        exact rest r
      · rw [tx_afterData_other drainObs id _ same]
        exact out p
  | dataLost id left r f more c first listed queued same =>
    exact ⟨control, out_setTx out r (rest r), same ▸ wire⟩

theorem built_queueStream {o : Outward} (held : Built cfg o) (id : Nat) (r : Ref) {x : Tx}
    (own : ∀ f ∈ x.out, Sends cfg f) :
    Built cfg { o with q := queueStream id r (o.q.setTx r x) } := by
  have set := out_setTx held.out r own
  unfold queueStream
  split
  · exact ⟨held.control, set, held.wire⟩
  · refine ⟨held.control, out_setTx set r ?_, held.wire⟩
    exact set r

theorem built_exec (c : Oracle) (a : Section) {s : Session} (listed : Listed s.reg)
    (held : Built cfg (outward s)) : Built cfg (outward (exec cfg c a s).1) := by
  by_cases edits : queues a = false
  · exact Edits.preserve (fun _ _ => built_edit) (exec_edits cfg c listed edits) held
  cases a
  case frameData r p =>
    simp only [exec, UmuxOutbound.frameData]
    (repeat' split) <;> try exact held
    refine built_queueStream held _ r ?_
    exact sends_append (held.out r) (.data _ _ (List.length_take_le _ _))
  case enqueueFin r =>
    simp only [exec, UmuxOutbound.enqueueFin]
    split
    · refine built_queueStream held _ r ?_
      exact held.out r
    · exact held
  all_goals exact absurd rfl edits

theorem built_run {now : Nat} {p : Pool Session Section}
    (run : Reachable (program cfg) (newSession cfg now) p) : Built cfg (outward p.state) := by
  refine (owed_invariant (fun (s : Session) _ => Listed s.reg ∧ Built cfg (outward s))
    ⟨listed_new cfg now, ?_⟩ (fun _ _ _ _ held => held) (fun s _ a c _ _ held =>
      ⟨listed_exec cfg c a held.1, built_exec c a held.1 held.2⟩) run).2
  constructor <;> simp [outward, newSession]

def announced (f : Frame) : Nat :=
  match f.hdr.typ with
  | .synMetadata => uint32 f.payload
  | _ => f.hdr.length

/-- What the receiver of a frame may ask of its sender: a stream where one is named,
and no more metadata than the receiver takes. -/
structure Honest (receiver : Endpoint) (f : Frame) : Prop where
  stream : f.hdr.typ = .windowUpdate ∨ f.hdr.typ = .synMetadata → f.hdr.streamID ≠ 0
  metadata : f.hdr.typ = .synMetadata → f.payload.length ≤ 4 + receiver.maxMetadata

/-- Every number an endpoint narrows is what its 32-bit field or limit holds. -/
structure Exact (cfg : Endpoint) : Prop where
  dataLimit : wrap32 cfg.windowSize = cfg.windowSize
  metadataLimit : wrap32 cfg.maxMetadata = cfg.maxMetadata
  syn : ∀ id metadata, announced (synFrame cfg id metadata) = cfg.windowSize - minWindow
  ack : ∀ id, announced (ackFrame cfg id) = cfg.windowSize - minWindow
  lengths : ∀ f, Sends cfg f → f.payload ≠ [] → f.hdr.length = f.payload.length
  frames : ∀ now p, Reachable (program cfg) (newSession cfg now) p →
    ∀ f ∈ p.state.box.conn.wire, Sends cfg f
  updates : ∀ now p, Reachable (program cfg) (newSession cfg now) p → ∀ id delta,
    .sendWindowUpdate id delta ∈ owed p → (updateFrame id delta).hdr.length = delta

theorem windowDelta_exact (small : cfg.windowSize < 2 ^ 32) :
    windowDelta cfg = cfg.windowSize - minWindow := by
  apply wrap32_of_lt
  omega

theorem announced_syn (small : cfg.windowSize < 2 ^ 32) (id : Nat) (metadata : List UInt8) :
    announced (synFrame cfg id metadata) = cfg.windowSize - minWindow := by
  unfold synFrame
  split
  · exact windowDelta_exact small
  · have exact_ := windowDelta_exact small
    simp only [announced, synMetadataFrame, uint32_putUint32]
    rw [wrap32_of_lt (by omega), exact_]

theorem metadata_length (cfg : Endpoint) {metadata : List UInt8}
    (fits : metadata.length ≤ cfg.maxMetadata) :
    wrap32 (4 + metadata.length) = 4 + metadata.length := by
  have cap := cfg.metadata_cap
  apply wrap32_of_lt
  unfold maxMaxMetadata at cap
  omega

theorem chunk_length (cfg : Endpoint) {chunk : List UInt8} (fits : chunk.length ≤ cfg.maxFrame) :
    wrap32 chunk.length = chunk.length := by
  have cap := cfg.frame_cap
  apply wrap32_of_lt
  unfold maxMaxFrame at cap
  omega

theorem sends_length {f : Frame} (sends : Sends cfg f) (full : f.payload ≠ []) :
    f.hdr.length = f.payload.length := by
  cases sends with
  | data id chunk fits => exact chunk_length cfg fits
  | syn id metadata fits =>
    by_cases bare : metadata = []
    · simp [synFrame, bare, UmuxFrame.control] at full
    · simp only [synFrame, bare, if_false, synMetadataFrame, putUint32, List.length_append,
        List.length_cons, List.length_nil]
      exact metadata_length cfg fits
  | _ => exact absurd rfl full

theorem sends_valid {sender receiver : Endpoint} (exact_ : wrap32 receiver.windowSize = receiver.windowSize)
    {f : Frame} (sends : Sends sender f) (honest : Honest receiver f) :
    validateFrame f.hdr (wrap32 receiver.windowSize) (wrap32 receiver.maxMetadata) = none := by
  have limit : wrap32 receiver.maxMetadata = receiver.maxMetadata := by
    have cap := receiver.metadata_cap
    unfold maxMaxMetadata at cap
    exact wrap32_of_lt (by omega)
  rw [exact_, limit]
  cases sends with
  | data id chunk fits =>
    have cap := sender.frame_cap
    have floor := receiver.window_floor
    unfold maxMaxFrame at cap
    unfold minWindow at floor
    simp only [validateFrame, dataFrame, chunk_length sender fits]
    rw [if_neg (by omega)]
  | syn id metadata fits =>
    by_cases bare : metadata = []
    · have named : id ≠ 0 := by simpa [synFrame, bare, UmuxFrame.control] using honest.stream
      simp [validateFrame, synFrame, bare, UmuxFrame.control, named]
    · have named : id ≠ 0 := by simpa [synFrame, bare, synMetadataFrame] using honest.stream
      have within : metadata.length ≤ receiver.maxMetadata := by
        have taken := honest.metadata
        simp only [synFrame, bare, if_false, synMetadataFrame, putUint32, List.length_append,
          List.length_cons, List.length_nil, true_imp_iff] at taken
        omega
      simp only [validateFrame, synFrame, bare, if_false, synMetadataFrame,
        metadata_length sender fits]
      rw [if_neg (by simp [named]), if_neg (by omega)]
  | ping flags id seq => rfl
  | goAway => rfl
  | ack id | update id delta | fin id | rst id => exact if_neg (honest.stream (.inl rfl))

theorem exact_of_small (small : cfg.windowSize + quarter cfg.windowSize ≤ 2 ^ 32) : Exact cfg := by
  have positive := quarter_positive cfg.windowSize
  have window : cfg.windowSize < 2 ^ 32 := by omega
  constructor
  · exact wrap32_of_lt window
  · have cap := cfg.metadata_cap
    unfold maxMaxMetadata at cap
    exact wrap32_of_lt (by omega)
  · exact announced_syn window
  · exact fun id => windowDelta_exact window
  · exact fun f => sends_length
  · exact fun now p run => (built_run run).wire
  · intro now p run id delta member
    have bound := updates_bounded run member
    exact wrap32_of_lt (by omega)

theorem resolveWindow_value (value : Int) :
    resolveWindow value = minWindow ∨ (resolveWindow value : Int) = value := by
  unfold resolveWindow
  split <;> omega

theorem resolveWindow_small {value : Int} (small : value + value / 4 ≤ 2 ^ 32) :
    resolveWindow value + quarter (resolveWindow value) ≤ 2 ^ 32 := by
  have value := resolveWindow_value value
  unfold minWindow at value
  unfold quarter
  split <;> omega

theorem exact_bounds (config : Config) (client : Bool) (holds : Exact (endpoint config client)) :
    config.windowSize < 2 ^ 32 := by
  have limit : wrap32 (resolveWindow config.windowSize) = resolveWindow config.windowSize :=
    holds.dataLimit
  unfold wrap32 resolveWindow at limit
  split at limit <;> omega

/-- Above the size asked for only updates may fail to fit, up to the 4 GiB that every exact
configuration stays below. -/
theorem resolved_config_fits (config : Config) (client : Bool) :
    (config.windowSize + config.windowSize / 4 ≤ 2 ^ 32 → Exact (endpoint config client) ∧
      (∀ f, (∃ id metadata, f = synFrame (endpoint config client) id metadata) ∨
          (∃ id, f = ackFrame (endpoint config client) id) →
        ∀ other s r, (tuneWindows other r (announced f) s).win r =
          newSendWindow (min other.windowSize (endpoint config client).windowSize)) ∧
      ∀ sender f, Sends sender f → Honest (endpoint config client) f →
        validateFrame f.hdr (wrap32 (endpoint config client).windowSize)
          (wrap32 (endpoint config client).maxMetadata) = none) ∧
    (Exact (endpoint config client) → config.windowSize < 2 ^ 32) := by
  refine ⟨fun small => ?_, exact_bounds config client⟩
  have exact_ : Exact (endpoint config client) := exact_of_small (resolveWindow_small small)
  refine ⟨exact_, ?_, fun sender f => sends_valid exact_.dataLimit⟩
  intro f opening other s r
  have delta : announced f = (endpoint config client).windowSize - minWindow := by
    rcases opening with ⟨id, metadata, rfl⟩ | ⟨id, rfl⟩
    · exact exact_.syn id metadata
    · exact exact_.ack id
  have floor := (endpoint config client).window_floor
  have same : peerWindow other ((endpoint config client).windowSize - minWindow) =
      min other.windowSize (endpoint config client).windowSize := by
    simp only [peerWindow]
    split <;> omega
  simp only [tuneWindows, Function.update_self, delta, same]
  rfl

theorem resolved_config_fits_default :
    ((endpoint {} true).windowSize = 262144 ∧ Exact (endpoint {} true)) ∧
      validateFrame (dataFrame 1 [7]).hdr (wrap32 (endpoint {} true).windowSize)
        (wrap32 (endpoint {} true).maxMetadata) = none := by
  have fits := (resolved_config_fits {} true).1 (by decide)
  exact ⟨⟨rfl, fits.1⟩, fits.2.2 (endpoint {} false) _ (.data 1 [7] (by decide)) ⟨by decide, nofun⟩⟩

/-- A window of 4 GiB and the floor is announced as the floor alone, and one of 4 GiB
lets no data frame through. -/
theorem window_truncated :
    ((endpoint { windowSize := 2 ^ 32 + 262144 } true).windowSize = 2 ^ 32 + 262144 ∧
      ∀ s r, (tuneWindows (endpoint { windowSize := 2 ^ 32 + 262144 } false) r
        (announced (synFrame (endpoint { windowSize := 2 ^ 32 + 262144 } true) 1 [])) s).win r =
          newSendWindow 262144) ∧
      Sends (endpoint {} false) (dataFrame 1 [7]) ∧
      Honest (endpoint { windowSize := 2 ^ 32 } true) (dataFrame 1 [7]) ∧
      validateFrame (dataFrame 1 [7]).hdr (wrap32 (endpoint { windowSize := 2 ^ 32 } true).windowSize)
        (wrap32 (endpoint { windowSize := 2 ^ 32 } true).maxMetadata) = some .length := by
  refine ⟨⟨by decide, fun s r => ?_⟩, .data 1 [7] (by decide), ⟨by decide, nofun⟩, by decide⟩
  have delta : announced (synFrame (endpoint { windowSize := 2 ^ 32 + 262144 } true) 1 []) = 0 := by
    decide
  rw [delta]
  simp only [tuneWindows, Function.update_self, SendWindow.reset, newSendWindow]
  decide

end UmuxNarrow
