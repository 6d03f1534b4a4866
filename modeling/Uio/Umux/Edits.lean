import Uio.Umux.Footprint

/-!
How the stream table, the outbound queues and the wire can change. Every section
but the two that queue a stream's frames changes them by a chain of the small
edits below, so an invariant of theirs is checked once against each edit.
-/
namespace UmuxEdits
open UmuxFrame UmuxOutbox UmuxSession UmuxMachine UmuxLifecycle UmuxTimers UmuxTurn UmuxFootprint
open UmuxSteps
variable (reg : Registry) {cfg : Endpoint} (c : Oracle) (now : Nat) (s : Session) {r : Ref}
  (id : Nat)

structure Outward where
  reg : Registry
  q : Queues
  conn : Conn

def outward (s : Session) : Outward := ⟨s.reg, s.box.toQueues, s.box.conn⟩

def Registry.create (reg : Registry) (id : Nat) (openWait : Table) (nextID : Nat) : Registry :=
  { fresh := reg.fresh + 1
    idOf := Function.update reg.idOf reg.fresh id
    streams := reg.streams.insert id reg.fresh
    openWait := openWait
    nextID := nextID }

def Queues.create (q : Queues) (r : Ref) : Queues :=
  { q.setTx r {} with handed := Function.update q.handed r [] }

/-- The frames a session builds, with the sizes its configuration allows. -/
inductive Sends (cfg : Endpoint) : Frame → Prop where
  | data (id : Nat) (chunk : List UInt8) (fits : chunk.length ≤ cfg.maxFrame) :
      Sends cfg (dataFrame id chunk)
  | syn (id : Nat) (metadata : List UInt8) (fits : metadata.length ≤ cfg.maxMetadata) :
      Sends cfg (synFrame cfg id metadata)
  | ack (id : Nat) : Sends cfg (ackFrame cfg id)
  | update (id delta : Nat) : Sends cfg (updateFrame id delta)
  | fin (id : Nat) : Sends cfg (finFrame id)
  | rst (id : Nat) : Sends cfg (rstFrame id)
  | ping (flags : Flags) (id seq : Nat) : Sends cfg (control .ping flags id seq)
  | goAway : Sends cfg (control .goAway {} 0 goAwayNormal)

inductive Edit (cfg : Endpoint) (o : Outward) : Outward → Prop where
  | shrunk (streams openWait : Table)
      (fewer : ∀ id r, streams.lookup id = some r → o.reg.streams.lookup id = some r)
      (waits : ∀ id w, openWait.lookup id = some w → o.reg.openWait.lookup id = some w) :
      Edit cfg o { o with reg := { o.reg with streams := streams, openWait := openWait } }
  | created (id : Nat) (openWait : Table) (nextID : Nat)
      (waits : ∀ k w, openWait.lookup k = some w →
        (k = id ∧ w = o.reg.fresh) ∨ o.reg.openWait.lookup k = some w) :
      Edit cfg o { o with
        reg := Registry.create o.reg id openWait nextID, q := Queues.create o.q o.reg.fresh }
  | aside (q : Queues) (control : q.control = o.q.control) (pending : q.pending = o.q.pending)
      (tx : q.tx = o.q.tx) (handed : q.handed = o.q.handed) : Edit cfg o { o with q := q }
  | spoke (c : Conn) (wire : c.wire = o.conn.wire)
      (failed : o.conn.failed = true → c.failed = true) : Edit cfg o { o with conn := c }
  | controlQueued (f : Frame) (sends : Sends cfg f) (notData : f.hdr.typ ≠ .data) :
      Edit cfg o { o with q := { o.q with control := o.q.control ++ [f] } }
  | controlSent (f : Frame) (rest : List Frame) (c : Conn) (first : o.q.control = f :: rest)
      (working : o.conn.failed = false) (wire : c.wire = o.conn.wire ++ [f]) :
      Edit cfg o { o with q := o.q.popControl, conn := c }
  | dropped (r : Ref) (unlisted : ∀ id, o.reg.streams.lookup id ≠ some r) :
      Edit cfg o { o with q := dropOutLocked r o.q }
  | cleared (empty : o.reg.streams = ∅) :
      Edit cfg o { o with q := { o.q with control := [], pending := [] } }
  | skipped (id : Nat) (rest : List Nat) (first : o.q.pending = id :: rest)
      (gone : o.reg.streams.lookup id = none) : Edit cfg o { o with q := o.q.popPending }
  | unqueued (id : Nat) (rest : List Nat) (r : Ref) (first : o.q.pending = id :: rest)
      (listed : o.reg.streams.lookup id = some r) (empty : (o.q.tx r).out = [])
      (noFin : (o.q.tx r).finState ≠ .queued) : Edit cfg o { o with q := unqueue r o.q }
  | finSent (id : Nat) (rest : List Nat) (r : Ref) (c : Conn) (first : o.q.pending = id :: rest)
      (listed : o.reg.streams.lookup id = some r) (empty : (o.q.tx r).out = [])
      (fin : (o.q.tx r).finState = .queued) (working : o.conn.failed = false)
      (wire : c.wire = o.conn.wire ++ [finFrame id]) :
      Edit cfg o { o with q := afterFin r (o.q.hand r (finFrame id)), conn := c }
  | dataSent (drainObs : Bool) (id : Nat) (rest : List Nat) (r : Ref) (f : Frame)
      (more : List Frame) (c : Conn) (first : o.q.pending = id :: rest)
      (listed : o.reg.streams.lookup id = some r) (out : (o.q.tx r).out = f :: more)
      (working : o.conn.failed = false) (wire : c.wire = o.conn.wire ++ [f]) :
      Edit cfg o { o with q := afterData drainObs id r (o.q.hand r f), conn := c }
  | dataLost (id : Nat) (rest : List Nat) (r : Ref) (f : Frame) (more : List Frame) (c : Conn)
      (first : o.q.pending = id :: rest) (listed : o.reg.streams.lookup id = some r)
      (out : (o.q.tx r).out = f :: more) (wire : c.wire = o.conn.wire)
      (failed : c.failed = true) : Edit cfg o { o with q := popOut r o.q, conn := c }

abbrev Edits (cfg : Endpoint) : Outward → Outward → Prop := Relation.ReflTransGen (Edit cfg)

theorem Edits.preserve {I : Outward → Prop} (kept : ∀ o o', Edit cfg o o' → I o → I o')
    {o o' : Outward} (edits : Edits cfg o o') (held : I o) : I o' := by
  induction edits with
  | refl => exact held
  | tail before last ih => exact kept _ _ last ih

theorem markGoAway_edit (b : Queues) (c : Conn) : Edit cfg ⟨reg, b, c⟩ ⟨reg, markGoAway b, c⟩ := by
  unfold markGoAway
  split
  · exact .aside _ rfl rfl rfl rfl
  · exact .aside _ rfl rfl rfl rfl

theorem flushLoop_edits (drainObs : Bool) (reg : Registry) (budget : Nat) (answers : List Answer)
    (b : Queues) (c : Conn) : Edits cfg ⟨reg, b, c⟩
      ⟨reg, (flushLoop drainObs reg.streams budget answers b c).1.toQueues,
        (flushLoop drainObs reg.streams budget answers b c).1.conn⟩ := by
  induction budget generalizing answers b c with
  | zero => exact .refl
  | succ budget ih =>
    refine .head (markGoAway_edit reg b c) ?_
    have found := headOf_found reg.streams (markGoAway b)
    simp only [flushLoop]
    generalize markGoAway b = b at found ⊢
    cases head : headOf reg.streams b with
    | empty => exact .refl
    | gone =>
      rw [head] at found
      obtain ⟨-, id, rest, first, gone⟩ := found
      exact .head (.skipped id rest first gone) (ih _ _ _)
    | stale r =>
      rw [head] at found
      obtain ⟨-, id, rest, first, listed, empty, noFin⟩ := found
      exact .head (.unqueued id rest r first listed empty noFin) (ih _ _ _)
    | control f =>
      rw [head] at found
      obtain ⟨rest, first⟩ := found
      rcases done : c.write f (answerOf answers) with ⟨c', verdict⟩
      simp only [done]
      cases verdict with
      | accepted =>
        obtain ⟨working, -, wire⟩ := write_accepted done
        exact .head (.controlSent f rest c' first working wire) (ih _ _ _)
      | overflow =>
        rw [write_overflow done]
        exact .single (.spoke _ rfl id)
      | failed e =>
        rw [write_failed done]
        exact .single (.spoke _ rfl fun _ => rfl)
    | fin id r =>
      rw [head] at found
      obtain ⟨-, rest, first, listed, empty, fin⟩ := found
      rcases done : c.write (finFrame id) (answerOf answers) with ⟨c', verdict⟩
      simp only [done]
      cases verdict with
      | accepted =>
        obtain ⟨working, -, wire⟩ := write_accepted done
        exact .head (.finSent id rest r c' first listed empty fin working wire) (ih _ _ _)
      | overflow =>
        rw [write_overflow done]
        exact .single (.spoke _ rfl (fun h => h))
      | failed e =>
        rw [write_failed done]
        exact .single (.spoke _ rfl fun _ => rfl)
    | data id r f =>
      rw [head] at found
      obtain ⟨-, rest, more, first, listed, out⟩ := found
      rcases done : c.write f (answerOf answers) with ⟨c', verdict⟩
      simp only [done]
      cases verdict with
      | accepted =>
        obtain ⟨working, -, wire⟩ := write_accepted done
        exact .head (.dataSent drainObs id rest r f more c' first listed out working wire) (ih _ _ _)
      | overflow =>
        rw [write_overflow done]
        exact .single (.spoke _ rfl (fun h => h))
      | failed e =>
        rw [write_failed done]
        exact .single (.dataLost id rest r f more _ first listed out rfl rfl)

theorem pass_edits : Edits cfg (outward s) (outward (s.pass cfg c).1) := by
  simp only [Session.pass, flushLocked]
  split
  · exact .refl
  · exact flushLoop_edits cfg.drainObs s.reg maxFlushFrames c.answers s.box.toQueues s.box.conn

structure Listed (reg : Registry) : Prop where
  streams : ∀ id r, reg.streams.lookup id = some r → r < reg.fresh ∧ reg.idOf r = id
  waits : ∀ id w, reg.openWait.lookup id = some w → w < reg.fresh ∧ reg.idOf w = id

theorem lookup_apart {reg : Registry} {id k : Nat} {r q : Ref}
    (here : reg.streams.lookup id = some r) (there : reg.streams.lookup k = some q)
    (other : q ≠ r) : k ≠ id := by
  intro same
  subst k
  rw [here] at there
  cases there
  exact other rfl

theorem listed_sameId {reg : Registry} (listed : Listed reg) {id k : Nat}
    (here : reg.streams.lookup id = some r) (there : reg.streams.lookup k = some r) : k = id :=
  (listed.streams k r there).2.symm.trans (listed.streams id r here).2

theorem lookup_create (id k : Nat) (openWait : Table) (nextID : Nat) :
    (Registry.create reg id openWait nextID).streams.lookup k =
      if k = id then some reg.fresh else reg.streams.lookup k := by
  simp only [Registry.create]
  split
  · subst k
    exact AList.lookup_insert _
  · rename_i other
    exact AList.lookup_insert_ne other

theorem listed_create {reg : Registry} (listed : Listed reg) (id : Nat) (openWait : Table)
    (nextID : Nat) (waits : ∀ k w, openWait.lookup k = some w →
      (k = id ∧ w = reg.fresh) ∨ reg.openWait.lookup k = some w) :
    Listed (Registry.create reg id openWait nextID) := by
  have older : ∀ r k, r < reg.fresh ∧ reg.idOf r = k →
      r < reg.fresh + 1 ∧ Function.update reg.idOf reg.fresh id r = k := by
    intro r k ⟨bound, same⟩
    refine ⟨by omega, ?_⟩
    rw [Function.update_of_ne (Nat.ne_of_lt bound)]
    exact same
  have newest : reg.fresh < reg.fresh + 1 ∧
      Function.update reg.idOf reg.fresh id reg.fresh = id :=
    ⟨by omega, Function.update_self _ _ _⟩
  constructor
  · intro k r found
    rw [lookup_create] at found
    split at found
    · rename_i same
      subst k
      cases found
      exact newest
    · exact older r k (listed.streams k r found)
  · intro k w found
    rcases waits k w found with ⟨rfl, rfl⟩ | before
    · exact newest
    · exact older w k (listed.waits k w before)

theorem listed_edit {o o' : Outward} (edit : Edit cfg o o') (listed : Listed o.reg) :
    Listed o'.reg := by
  cases edit with
  | shrunk streams openWait fewer waits =>
    exact ⟨fun id r found => listed.streams id r (fewer id r found),
      fun id w found => listed.waits id w (waits id w found)⟩
  | created id openWait nextID waits => exact listed_create listed id openWait nextID waits
  | _ => exact listed

theorem listed_edits {o o' : Outward} (edits : Edits cfg o o') (listed : Listed o.reg) :
    Listed o'.reg :=
  Edits.preserve (fun _ _ => listed_edit) edits listed

theorem lookup_erase_some {t : Table} {id k : Nat}
    (found : (t.erase id).lookup k = some r) : k ≠ id ∧ t.lookup k = some r := by
  by_cases same : k = id
  · subst k
    rw [AList.lookup_erase] at found
    cases found
  · rw [AList.lookup_erase_ne same] at found
    exact ⟨same, found⟩

theorem live_iff {s : Session} :
    s.live r = true ↔ s.reg.streams.lookup (s.reg.idOf r) = some r := by
  simp [Session.live]

theorem unlist_edits {s : Session} (listed : Listed s.reg) (r : Ref) :
    Edits cfg (outward s) (outward ((s.unlist r).dropOut r)) := by
  have fewer : ∀ k q, (s.unlist r).reg.streams.lookup k = some q →
      s.reg.streams.lookup k = some q ∧ q ≠ r := by
    intro k q found
    simp only [Session.unlist] at found
    split at found
    · obtain ⟨other, before⟩ := lookup_erase_some found
      refine ⟨before, ?_⟩
      intro same
      subst q
      exact other (listed.streams k r before).2.symm
    · rename_i gone
      refine ⟨found, ?_⟩
      intro same
      subst q
      have own := (listed.streams k r found).2
      subst k
      exact gone (live_iff.mpr found)
  have unlisted : Edit cfg (outward s) (outward (s.unlist r)) :=
    .shrunk _ _ (fun k q found => (fewer k q found).1)
      (fun k w found => (lookup_erase_some found).2)
  exact .head unlisted (.single (.dropped r fun k found => (fewer k r found).2 rfl))

theorem delist_edits {s : Session} (listed : Listed s.reg) {id : Nat}
    (found : s.reg.streams.lookup id = some r) : Edits cfg (outward s) (outward (delist id r s)) := by
  have unlisted : Edit cfg (outward s) (outward
      { s with reg := { s.reg with streams := s.reg.streams.erase id } }) :=
    .shrunk _ _ (fun k q there => (lookup_erase_some there).2) (fun k w there => there)
  refine .head unlisted (.single (.dropped r ?_))
  intro k there
  obtain ⟨other, before⟩ := lookup_erase_some there
  exact other ((listed.streams k r before).2.symm.trans (listed.streams id r found).2)

theorem forgetWait_edit : Edit cfg (outward s) (outward (forgetWait id s)) :=
  .shrunk _ _ (fun _ _ found => found) (fun _ _ found => (lookup_erase_some found).2)

theorem sendControl_edits {f : Frame} (sends : Sends cfg f) (notData : f.hdr.typ ≠ .data) :
    Edits cfg (outward s) (outward (s.sendControl f)) := by
  simp only [Session.sendControl, sendControlLocked]
  split
  · exact .refl
  · exact .single (.controlQueued f sends notData)

theorem sayGoAway_edits : Edits cfg (outward s) (outward (sayGoAway s)) := by
  unfold sayGoAway
  split
  · exact .refl
  · have marked : Edit cfg (outward s)
        (outward (s.setQueues { s.box.toQueues with goAwaySent := true })) :=
      .aside _ rfl rfl rfl rfl
    exact .head marked (sendControl_edits _ .goAway (by decide))

variable (cfg)

theorem reply_edits {f : Frame} (sends : Sends cfg f)
    (notData : f.hdr.typ ≠ .data) : Edits cfg (outward s) (outward (reply cfg c f s)) :=
  (sendControl_edits s sends notData).trans (pass_edits c (s.sendControl f))

theorem synFrame_notData (metadata : List UInt8) : (synFrame cfg id metadata).hdr.typ ≠ .data := by
  unfold synFrame
  split
  · simp [UmuxFrame.control]
  · simp [synMetadataFrame]

theorem openStream_edits (metadata : List UInt8) :
    Edits cfg (outward s) (outward (openStream cfg c s metadata).1) := by
  unfold openStream
  split
  · exact .refl
  · rename_i admitted
    have fits := Nat.not_lt.mp fun long => admitted (.inl long)
    have created : Edit cfg (outward s)
        (outward (register s.reg.nextID s.reg.fresh (newStream cfg s s.reg.nextID true))) := by
      refine .created s.reg.nextID (s.reg.openWait.insert s.reg.nextID s.reg.fresh)
        (wrap32 (s.reg.nextID + 2)) ?_
      intro k w found
      by_cases same : k = s.reg.nextID
      · subst k
        rw [AList.lookup_insert] at found
        cases found
        exact .inl ⟨rfl, rfl⟩
      · rw [AList.lookup_insert_ne same] at found
        exact .inr found
    have queued : Edits cfg (outward s) (outward (Session.queueControl
        (register s.reg.nextID s.reg.fresh (newStream cfg s s.reg.nextID true))
        (synFrame cfg s.reg.nextID metadata))) :=
      .head created (.single (.controlQueued _ (.syn _ metadata fits) (synFrame_notData _ _ _)))
    have passed := queued.trans (pass_edits c _)
    simp only
    split
    · exact passed
    · exact passed

theorem readFrame_edits : Edits cfg (outward s) (outward (readFrame cfg c s).1) := by
  have taken := readFrame_taken cfg c s
  generalize readFrame cfg c s = step at taken ⊢
  cases taken with
  | ended => exact .refl
  | failed e => exact .refl
  | frame f arrived formed valid handled =>
    cases handled with
    | replied g kind =>
      refine reply_edits cfg c (receive f s) ?_ (replied_notData kind)
      rcases kind with ⟨id, rfl⟩ | ⟨id, v, rfl⟩
      · exact .rst id
      · exact .ping _ id v
    | acked r w here waiting | unawaited missing => exact .single (forgetWait_edit (receive f s) _)
    | _ => exact .refl

theorem acceptVet_edits (id delta : Nat) (metadata : List UInt8) :
    Edits cfg (outward s) (outward (acceptVet cfg c s id delta metadata).1) := by
  have refused := reply_edits cfg c s (f := rstFrame id) (.rst id) (by simp [rstFrame, UmuxFrame.control])
  unfold acceptVet
  split
  · exact refused
  · split
    · exact .refl
    · split
      · exact refused
      · have created : Edit cfg (outward s) (outward
            (publish id s.reg.fresh (tuneWindows cfg s.reg.fresh delta (newStream cfg s id false)))) :=
          .created id s.reg.openWait s.reg.nextID (fun _ _ found => .inr found)
        have replied := Relation.ReflTransGen.head created
          (reply_edits cfg c _ (f := ackFrame cfg id) (.ack id) (by simp [ackFrame, UmuxFrame.control]))
        simp only
        repeat' split
        all_goals exact replied

theorem visitStream_edits (round : Round) {id : Nat}
    (listed : Listed round.state.reg) (found : round.state.reg.streams.lookup id = some r) :
    Edits cfg (outward round.state) (outward (Round.visitStream cfg now round id r).state) := by
  have rst : (rstFrame id).hdr.typ ≠ .data := by simp [rstFrame, UmuxFrame.control]
  have delisted : ∀ s : Session, outward s = outward round.state →
      Edits cfg (outward round.state) (outward (delist id r s)) := by
    intro s same
    have reg : s.reg = round.state.reg := congrArg Outward.reg same
    rw [← same]
    exact delist_edits (by rw [reg]; exact listed) (by rw [reg]; exact found)
  have running : outward (fired now r round.state) = outward round.state := by
    rw [fired_time]
    rfl
  have visited := visitStream_visited cfg now round id r
  generalize Round.visitStream cfg now round id r = next at visited ⊢
  cases visited with
  | expired cause deadline =>
    refine (delisted round.state rfl).trans (.head (forgetWait_edit _ id) ?_)
    exact sendControl_edits _ (.rst id) rst
  | unanswered due opening late =>
    exact (delisted _ running).trans (.single (forgetWait_edit _ id))
  | halfClosed due half late => exact (delisted _ running).trans (sendControl_edits _ (.rst id) rst)
  | stays due still =>
    rw [running]

theorem visitId_edits (round : Round) (id : Nat) (listed : Listed round.state.reg) :
    Edits cfg (outward round.state) (outward (Round.visitId cfg now round id).state) := by
  unfold Round.visitId
  split
  · exact .refl
  · rename_i r found
    exact visitStream_edits cfg now round listed found

theorem visitIds_edits (ids : List Nat) (round : Round) (listed : Listed round.state.reg) :
    Edits cfg (outward round.state) (outward (ids.foldl (Round.visitId cfg now) round).state) := by
  induction ids generalizing round with
  | nil => exact .refl
  | cons id rest ih =>
    have visited := visitId_edits cfg now round id listed
    exact visited.trans (ih _ (listed_edits visited listed))

theorem keepAlive_edits : Edits cfg (outward s) (outward (keepAlive cfg now s).1) := by
  unfold keepAlive
  split
  · split
    · split
      · exact sendControl_edits _ (.ping ..) (by simp [UmuxFrame.control])
      · exact .refl
    · exact .refl
  · exact .refl

theorem timerRound_edits {s : Session} (listed : Listed s.reg)
    (now : Nat) : Edits cfg (outward s) (outward (timerRound cfg c s now).1) := by
  have visited := visitIds_edits cfg now (visit c.order s.reg.streams) ⟨s, [], [], [], []⟩ listed
  have passed := (visited.trans (keepAlive_edits cfg now _)).trans (pass_edits c _)
  unfold timerRound
  simp only
  split <;> exact passed

theorem dropAll_edits (empty : reg.streams = ∅) (conn : Conn) (refs : List Ref)
    (q : Queues) : Edits cfg ⟨reg, q, conn⟩ ⟨reg, refs.foldl (fun q r => dropOutLocked r q) q, conn⟩ := by
  induction refs generalizing q with
  | nil => exact .refl
  | cons r rest ih =>
    refine .head (.dropped r ?_) (ih _)
    intro id found
    rw [empty, AList.lookup_empty] at found
    cases found

theorem onTransportClose_edits (cause : Cause) :
    Edits cfg (outward s) (outward (onTransportClose c s cause).1) := by
  unfold onTransportClose
  split
  · exact .refl
  · simp only
    rw [finishDrain_status]
    have emptied : Edit cfg (outward s)
        ⟨{ s.reg with streams := ∅, openWait := ∅ }, s.box.toQueues, s.box.conn⟩ := by
      refine .shrunk ∅ ∅ ?_ ?_ <;>
      · intro id r found
        rw [AList.lookup_empty] at found
        cases found
    refine .head emptied ((dropAll_edits _ cfg rfl _
      ((visit c.order s.reg.streams).filterMap s.reg.streams.lookup) _).trans ?_)
    refine .head (.spoke { s.box.conn with flushReq := false } rfl fun failed => failed) ?_
    exact .head (.cleared rfl) (.single (.aside _ rfl rfl rfl rfl))

theorem abortStream_edits {s : Session} (listed : Listed s.reg)
    (r : Ref) (cause : Cause) : Edits cfg (outward s) (outward (abortStream cfg c s r cause).1) := by
  have gone : Edits cfg _ _ := unlist_edits listed r
  unfold abortStream
  simp only
  split
  · refine (gone.trans (sendControl_edits _ (.rst _) ?_)).trans (pass_edits c _)
    simp [rstFrame, UmuxFrame.control]
  · exact gone

theorem tryFinish_edits {s : Session} (listed : Listed s.reg) (r : Ref) :
    Edits cfg (outward s) (outward (tryFinish cfg s r).1) := by
  unfold tryFinish
  split
  · exact .refl
  · exact unlist_edits (s := Session.setWatch (s.setLife r _) r _) listed r

def queues : Section → Bool
  | .frameData _ _ | .enqueueFin _ => true
  | _ => false

theorem exec_edits {a : Section} {s : Session} (listed : Listed s.reg) (other : queues a = false) :
    Edits cfg (outward s) (outward (exec cfg c a s).1) := by
  by_cases untouched : touches a .reg = false ∧ touches a .queues = false ∧ touches a .conn = false
  · obtain ⟨reg, q, conn⟩ := untouched
    have same : outward (exec cfg c a s).1 = outward s := by
      simp only [outward, exec_reg cfg c s reg, exec_queues cfg c s q, exec_conn cfg c s conn]
    rw [same]
  · have spoke : ∀ conn : Conn, conn.wire = s.box.conn.wire → conn.failed = s.box.conn.failed →
        Edits cfg (outward s) (outward (s.setConn conn)) :=
      fun conn wire failed => .single (.spoke conn wire fun before => failed.trans before)
    cases a
    case turnRead | onRead | failTurn cause | connWake | closeConn cause => exact spoke _ rfl rfl
    case requestFlush =>
      simp only [exec, UmuxOutbound.requestFlush]
      split
      · exact .refl
      · exact spoke _ rfl rfl
    case transportSent n =>
      simp only [exec, UmuxOutbound.transportSent]
      split
      · exact .refl
      · exact spoke _ rfl rfl
    case openStream metadata => exact openStream_edits cfg c s metadata
    case abortStream r cause => exact abortStream_edits cfg c listed r cause
    case tryFinish r => exact tryFinish_edits cfg listed r
    case removeStream r reset | abortRemote r cause => exact unlist_edits listed r
    case readFrame => exact readFrame_edits cfg c s
    case acceptVet id delta metadata => exact acceptVet_edits cfg c s id delta metadata
    case timerRound now => exact timerRound_edits cfg c listed now
    case onTransportClose cause => exact onTransportClose_edits cfg c s cause
    case frameData | enqueueFin => cases other
    case flush => exact (pass_edits c s).trans (.single (.aside _ rfl rfl rfl rfl))
    case sendWindowUpdate id delta =>
      refine (sendControl_edits s (.update id delta) ?_).trans (pass_edits c _)
      simp [updateFrame, UmuxFrame.control]
    case emitDrained =>
      simp only [exec, UmuxOutbound.emitDrained]
      split
      · exact .single (.aside _ rfl rfl rfl rfl)
      · exact .refl
    case close cause =>
      simp only [exec, close]
      split
      · exact .refl
      · rw [finishDrain_status]
        exact (sayGoAway_edits { s with status := { s.status with goAway := true } }).trans
          (pass_edits c _)
    case shutdown =>
      simp only [exec, shutdown]
      split
      · exact .refl
      · split
        · exact .refl
        · exact (sayGoAway_edits
            { s with status := { s.status with draining := true, goAway := true } }).trans
            (pass_edits c _)
    all_goals exact absurd ⟨rfl, rfl, rfl⟩ untouched

theorem listed_exec (a : Section) {s : Session}
    (listed : Listed s.reg) : Listed (exec cfg c a s).1.reg := by
  by_cases edits : queues a = false
  · exact listed_edits (exec_edits cfg c listed edits) listed
  · have untouched : touches a .reg = false := by
      cases a <;> first | rfl | exact absurd rfl edits
    rw [exec_reg cfg c s untouched]
    exact listed

theorem listed_new : Listed (newSession cfg now).state.reg := by
  constructor
  · intro id r there
    simp only [newSession, AList.lookup_empty] at there
    cases there
  · intro id r there
    simp only [newSession, AList.lookup_empty] at there
    cases there

end UmuxEdits
