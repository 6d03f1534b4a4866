import Uio.Umux.Machine

/-!
The steps with many branches, by what they come to: a frame off the wire, data for a
stream, one stream's share of a timer round. Each relation lists the outcomes with
what is known in each, and what is proved of these steps is proved by its cases.
-/
namespace UmuxSteps
open UmuxFrame UmuxOutbox UmuxSession UmuxMachine UmuxLifecycle UmuxTimers UmuxTurn UmuxInbound
variable (cfg : Endpoint) (c : Oracle) (s : Session)

inductive Handled (cfg : Endpoint) (c : Oracle) (s : Session) (f : Frame) : Step → Prop where
  | broken : Handled cfg c s f ({ s with turnErr := some .protocol }, [.afterFrame])
  | ignored : Handled cfg c s f (s, [.afterFrame])
  | replied (g : Frame)
      (kind : (∃ id, g = rstFrame id) ∨ ∃ id v, g = control .ping { ack := true } id v) :
      Handled cfg c s f (reply cfg c g s, [.emitDrained, .afterFrame])
  | vetted (delta : Nat) (metadata : List UInt8) (peer : checkPeerStreamID cfg f.hdr.streamID = true)
      (free : s.reg.streams.lookup f.hdr.streamID = none) :
      Handled cfg c s f (s,
        (if cfg.accept then [Section.callback none] else []) ++ [Section.acceptVet f.hdr.streamID delta metadata])
  | charged (r : Ref) (next : AfterPush) (data : f.hdr.typ = .data)
      (here : s.reg.streams.lookup f.hdr.streamID = some r) (filled : f.payload ≠ []) :
      Handled cfg c s f (s, [.reserveInbound r f.payload f.hdr.flags.fin next])
  | bare (r : Ref) (fin : Bool) (next : AfterPush)
      (here : s.reg.streams.lookup f.hdr.streamID = some r) :
      Handled cfg c s f (s, [.pushData r [] fin next])
  | acked (r w : Ref) (here : s.reg.streams.lookup f.hdr.streamID = some r)
      (waiting : s.reg.openWait.lookup f.hdr.streamID = some w) :
      Handled cfg c s f (forgetWait f.hdr.streamID s, [.establish r w f.hdr.length])
  | unawaited (missing : s.reg.streams.lookup f.hdr.streamID = none ∨
        s.reg.openWait.lookup f.hdr.streamID = none) :
      Handled cfg c s f (forgetWait f.hdr.streamID s, [.afterFrame])
  | reset (r : Ref) (here : s.reg.streams.lookup f.hdr.streamID = some r) :
      Handled cfg c s f (s, [.abortRemote r .streamReset, .afterFrame])
  | granted (r : Ref) (here : s.reg.streams.lookup f.hdr.streamID = some r) :
      Handled cfg c s f (s, [.grantWindow r f.hdr.length, .afterFrame])
  | ponged (current : f.hdr.length = s.time.pingSeq) :
      Handled cfg c s f ({ s with time := { s.time with pingSent := none } }, [.afterFrame])
  | goneAway :
      Handled cfg c s f ({ s with status := { s.status with goAway := true } }, [.afterFrame])

theorem replied_notData {g : Frame}
    (kind : (∃ id, g = rstFrame id) ∨ ∃ id v, g = control .ping { ack := true } id v) :
    g.hdr.typ ≠ .data := by
  rcases kind with ⟨id, rfl⟩ | ⟨id, v, rfl⟩ <;> exact nofun

theorem handleData_handled {f : Frame}
    (data : f.hdr.typ = .data) : Handled cfg c s f (handleData cfg c s f.hdr f.payload) := by
  unfold handleData
  split
  · exact .broken
  · split
    · exact .replied _ (.inl ⟨_, rfl⟩)
    · rename_i r here
      simp only
      split
      · exact .bare r _ _ here
      · rename_i filled
        exact .charged r _ data here filled

theorem acceptStream_handled (f : Frame) (delta : Nat) (metadata : List UInt8) :
    Handled cfg c s f (acceptStream cfg c s f.hdr.streamID delta metadata) := by
  unfold acceptStream
  split
  · exact .broken
  · rename_i peer
    split
    · exact .ignored
    · split
      · exact .replied _ (.inl ⟨_, rfl⟩)
      · split
        · exact .replied _ (.inl ⟨_, rfl⟩)
        · split
          · exact .broken
          · rename_i free
            split
            · exact .replied _ (.inl ⟨_, rfl⟩)
            · exact .vetted delta metadata (by simpa using peer) (by simpa using free)

theorem handleWindowUpdate_handled (f : Frame) :
    Handled cfg c s f (handleWindowUpdate cfg c s f.hdr) := by
  unfold handleWindowUpdate
  split
  · exact acceptStream_handled cfg c s f _ _
  · split
    · unfold handleAck
      simp only
      cases here : s.reg.streams.lookup f.hdr.streamID with
      | none => exact .unawaited (.inl here)
      | some r =>
        cases waiting : s.reg.openWait.lookup f.hdr.streamID with
        | none => exact .unawaited (.inr waiting)
        | some w => exact .acked r w here waiting
    · split
      · exact .ignored
      · rename_i r here
        split
        · exact .reset r here
        · split
          · exact .bare r _ _ here
          · split
            · exact .ignored
            · exact .granted r here

theorem handleFrame_handled (f : Frame) : Handled cfg c s f (handleFrame cfg c s f) := by
  unfold handleFrame
  split
  · rename_i data
    exact handleData_handled cfg c s data
  · exact handleWindowUpdate_handled cfg c s f
  · unfold handlePing
    split
    · exact .replied _ (.inr ⟨_, _, rfl⟩)
    · split
      · rename_i current
        exact .ponged current.2
      · exact .ignored
  · unfold handleSynMetadata
    split
    · exact .broken
    · exact acceptStream_handled cfg c s f _ _
  · exact .goneAway

/-- The turn ends without a frame, fails, or handles the frame that arrived. -/
inductive Taken (cfg : Endpoint) (c : Oracle) (s : Session) : Step → Prop where
  | ended : Taken cfg c s (s, [.flush, .runWakes, .drainCloses, .turnEnd])
  | failed (e : Cause) : Taken cfg c s (s, [.failTurn e])
  | frame (f : Frame) (arrived : c.incoming = .frame f) (formed : wellFormed f = true)
      (valid : validateFrame f.hdr (wrap32 cfg.windowSize) (wrap32 cfg.maxMetadata) = none)
      {step : Step} (handled : Handled cfg c (receive f s) f step) : Taken cfg c s step

theorem readFrame_taken : Taken cfg c s (readFrame cfg c s) := by
  unfold readFrame
  split
  · exact .ended
  · exact .failed _
  · rename_i f arrived
    split
    · exact .ended
    · rename_i formed
      split
      · exact .failed _
      · rename_i valid
        exact .frame f arrived (by simpa using formed) valid (handleFrame_handled cfg c _ f)

def filled (s : Session) (r : Ref) (payload : List UInt8) : Session :=
  if payload.length = 0 then s
  else s.setRx r ⟨(s.inbox.rx r).inbuf ++ payload, ((s.inbox.rx r).win.onData payload.length).1⟩

/-- The stream is closed, its window is overrun, or it takes the data and perhaps
    the end of the peer's direction. -/
inductive Pushed (s : Session) (r : Ref) (payload : List UInt8) (fin : Bool) (next : AfterPush) :
    Step → Prop where
  | late (closed : (s.life r).closedLocal = true) : Pushed s r payload fin next
      (s, .releaseInbound payload.length :: afterPush r next ++ [Section.afterFrame])
  | overrun (running : (s.life r).closedLocal = false) (brought : payload ≠ [])
      (past : (s.inbox.rx r).win.size < (s.inbox.rx r).win.buffered + payload.length) :
      Pushed s r payload fin next
        ({ s.setRx r { s.inbox.rx r with win := ((s.inbox.rx r).win.onData payload.length).1 } with
            turnErr := some .windowExceeded },
          [.releaseInbound payload.length, .afterFrame])
  | taken (running : (s.life r).closedLocal = false)
      (fits : payload = [] ∨
        (s.inbox.rx r).win.buffered + payload.length ≤ (s.inbox.rx r).win.size) :
      Pushed s r payload fin next (filled s r payload, afterPush r next ++ [Section.afterFrame])
  | ended (running : (s.life r).closedLocal = false)
      (fits : payload = [] ∨
        (s.inbox.rx r).win.buffered + payload.length ≤ (s.inbox.rx r).win.size)
      (first : (s.life r).peerFIN = false) :
      Pushed s r payload fin next (peerEnds r (filled s r payload),
        (if (s.life r).localFIN then [] else [Section.rearmTimer]) ++ afterPush r next ++
          [Section.afterFrame])

theorem pushData_pushed (r : Ref) (payload : List UInt8) (fin : Bool)
    (next : AfterPush) : Pushed s r payload fin next (pushData s r payload fin next) := by
  simp only [pushData]
  split
  · rename_i closed
    exact .late closed
  · rename_i running
    have running : (s.life r).closedLocal = false := Bool.eq_false_iff.mpr running
    split
    · rename_i past
      have size := mt (UmuxWindow.onData_ok_iff _ _).mpr past.2
      exact .overrun running (fun none => past.1 (by rw [none]; rfl)) (Nat.not_le.mp size)
    · rename_i within
      have fits : payload = [] ∨
          (s.inbox.rx r).win.buffered + payload.length ≤ (s.inbox.rx r).win.size := by
        by_cases empty : payload = []
        · exact .inl empty
        · right
          rw [← UmuxWindow.onData_ok_iff]
          by_contra past
          exact within ⟨by simpa using empty, past⟩
      split
      · rename_i ends
        exact .ended running fits ends.2
      · exact .taken running fits

def fired (now : Nat) (r : Ref) (s : Session) : Session :=
  if passed now (s.time.watch r).wakeAt then
    s.setWatch r (fireWake now (s.time.watch r))
  else s

theorem fired_time (now : Nat) (r : Ref) (s : Session) :
    fired now r s = { s with time := (fired now r s).time } := by
  unfold fired
  split <;> rfl

/-- What a round makes of one stream of the table: past a deadline or with its Open
    timed out it is taken off with its waiter, half closed for too long it is taken
    off alone, and otherwise it stays. -/
inductive Visited (cfg : Endpoint) (now : Nat) (round : Round) (id : Nat) (r : Ref) : Round → Prop where
  | expired (cause : Cause)
      (deadline : (passed now (round.state.time.watch r).readDeadline ||
        passed now (round.state.time.watch r).writeDeadline) = true) :
      Visited cfg now round id r { round with
        state := (forgetWait id (delist id r round.state)).sendControl (rstFrame id)
        deadlineResets := round.deadlineResets ++
          answerAll (round.state.reg.openWait.lookup id) (some cause) ++ [.resetStream r cause] }
  | unanswered (due : List Ref) (opening : (round.state.life r).opening = true)
      (late : cfg.streamOpenTimeout < now - (round.state.time.watch r).openedAt) :
      Visited cfg now round id r { round with
        state := forgetWait id (delist id r (fired now r round.state))
        due := due
        openFails := round.openFails ++
          answerAll (round.state.reg.openWait.lookup id) (some .openTimeout)
        resets := round.resets ++ [.resetStream r .openTimeout] }
  | halfClosed (due : List Ref)
      (half : (round.state.life r).peerFIN ≠ (round.state.life r).localFIN)
      (late : ((round.state.time.watch r).halfSince.any
        fun h => cfg.streamCloseTimeout < now - h) = true) :
      Visited cfg now round id r { round with
        state := (delist id r (fired now r round.state)).sendControl (rstFrame id)
        due := due
        resets := round.resets ++ [.resetStream r .streamReset] }
  | stays (due : List Ref)
      (running : (passed now (round.state.time.watch r).readDeadline ||
        passed now (round.state.time.watch r).writeDeadline) = false) :
      Visited cfg now round id r { round with state := fired now r round.state, due := due }

theorem visitStream_visited (now : Nat) (round : Round) (id : Nat) (r : Ref) :
    Visited cfg now round id r (Round.visitStream cfg now round id r) := by
  unfold Round.visitStream
  simp only
  split
  · rename_i deadline
    exact .expired _ deadline
  · rename_i running
    split
    · rename_i late
      exact .unanswered _ late.1 late.2
    · split
      · rename_i late
        exact .halfClosed _ late.1 late.2
      · exact .stays _ (Bool.eq_false_iff.mpr running)

end UmuxSteps
