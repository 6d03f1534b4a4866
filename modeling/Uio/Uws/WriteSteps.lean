import Uio.Uws.Writes

/-!
Each section's ways to go on, one constructor each, with what it found where that matters
later. Sections that change no state come first.
-/
namespace UwsWriteSteps
open Interleaving UwsWrites

inductive Pure (tracked : Bool) (s : State) : Section → List Section → Prop where
  | call (job : Job) : Pure tracked s (.call job) [.lock job]
  | callEnds (job : Job) : Pure tracked s (.call job) []
  | roundEnds : Pure tracked s .endRound []
  | outbound : tracked = true → Pure tracked s .onOutbound [.sentDeferred, .tryClose]
  | failStream : Pure tracked s .failStream [.markClosing, .claimAbort]
  | timerLate : Pure tracked s .closeTimer []
  | timer : Pure tracked s .closeTimer [.claimAbort]
  | enterQuick (left : Nat) (begun fast : Bool) :
      Pure tracked s (.enter (.message left begun)) [.quickFlags fast left]
  | enterEnds (job : Job) : Pure tracked s (.enter job) [.unlockCheck .hand .ok false]
  | enterPing : tracked = true → s.closing = false →
      Pure tracked s (.enter .heartbeatPing) [.writeTracked .heartbeatPing]
  | enterQueue (job : Job) : Pure tracked s (.enter job) [.queue job]
  | quickOn (fast : Bool) (left : Nat) : tracked = false → s.closeFrameSent = false →
      s.closeFrameDeferred = false → (fast = false → s.batch = []) →
      Pure tracked s (.quickFlags fast left) [.quickClosing fast left]
  | quickOff (fast : Bool) (left : Nat) : Pure tracked s (.quickFlags fast left) [.sendChecks left]
  | quickClosed (fast : Bool) (left : Nat) :
      Pure tracked s (.quickClosing fast left) [.sendChecks left]
  | quickShort (left : Nat) : s.closing = false →
      Pure tracked s (.quickClosing false left) [.track (.short left)]
  | quickFull (left : Nat) : s.closing = false →
      Pure tracked s (.quickClosing true left) [.flushTake .append (.fast left)]
  | quickAppend (left : Nat) : s.closing = false →
      Pure tracked s (.quickClosing true left) [.append (.fast left)]
  | sendRefused (n : Nat) : Pure tracked s (.sendChecks n) [.unlockCheck .hand .closed false]
  | sendQueues (n : Nat) : Pure tracked s (.sendChecks n) [.queue (.message n false)]
  | queueClosed (job : Job) : s.closed = true ∨ job.isClose = false →
      Pure tracked s (.queue job) [.result job .closed]
  | queueFails (job : Job) : Pure tracked s (.queue job) [.result job .failed]
  | queueClose (job : Job) : job.isClose = true → Pure tracked s (.queue job) [.closeQueued job]
  | queueRoutes (job : Job) : job.isClose = false → s.closing = false →
      Pure tracked s (.queue job) [.route job]
  | closeAlready (job : Job) : s.closeFrameSent = true ∨ s.closeFrameDeferred = true →
      Pure tracked s (.closeQueued job) [.result job .ok]
  | closeTracked (job : Job) : s.closeFrameSent = false → s.closeFrameDeferred = false →
      tracked = true → Pure tracked s (.closeQueued job) [.writeTracked job]
  | closeRoutes (job : Job) : s.closeFrameSent = false → s.closeFrameDeferred = false →
      Pure tracked s (.closeQueued job) [.route job]
  | routeFails (job : Job) : Pure tracked s (.route job) [.result job .failed]
  | routeFull (job : Job) : Pure tracked s (.route job) [.flushTake .append job]
  | routeAppends (job : Job) : Pure tracked s (.route job) [.append job]
  | routeTracks (job : Job) : Pure tracked s (.route job) [.flushTake .track job]
  | flushNothing (next : Next) (job : Job) : s.batch = [] →
      Pure tracked s (.flushTake next job) [.flushed next job .ok]
  | flushOverflow (next : Next) (job : Job) (frames : List Frame) :
      Pure tracked s (.flushWrite next job frames) [.flushRollback next job (bytes frames) false]
  | flushAgain (next : Next) (job : Job) (frames : List Frame) :
      Pure tracked s (.flushWrite next job frames) [.flushWrite next job frames]
  | flushedAppend (job : Job) : Pure tracked s (.flushed .append job .ok) [.append job]
  | flushedTrack (job : Job) : Pure tracked s (.flushed .track job .ok) [.track job]
  | flushedTail (job : Job) (deferred : Bool) :
      Pure tracked s (.flushed (.tail deferred) job .ok) [.rawFlush job deferred]
  | flushedFails (next : Next) (job : Job) (r : Result) : r ≠ .ok →
      next = .append ∨ next = .track → Pure tracked s (.flushed next job r) [.result job r]
  | flushedTailed (job : Job) (r : Result) (deferred : Bool) : r ≠ .ok →
      job ≠ .heartbeatClose →
      Pure tracked s (.flushed (.tail deferred) job r) [.unlockCheck job r deferred]
  | flushedTailedMark (r : Result) (deferred : Bool) : r ≠ .ok →
      Pure tracked s (.flushed (.tail deferred) .heartbeatClose r)
        [.closingMark .heartbeatClose r deferred]
  | flushedUnlock (job : Job) (r was : Result) (deferred : Bool) :
      Pure tracked s (.flushed (.unlock r deferred) job was) [.unlock job r deferred]
  | writeOverflow (job : Job) (size : Nat) :
      Pure tracked s (.write job size) [.rollback job size .backpressure]
  | writeUnsupported (n size : Nat) :
      Pure tracked s (.write (.short n) size) [.rollback (.short n) size .unsupported]
  | writeAgain (job : Job) (size : Nat) : Pure tracked s (.write job size) [.write job size]
  | trackedFails (job : Job) : Pure tracked s (.writeTracked job) [.result job .failed]
  | trackedOverflow (job : Job) : Pure tracked s (.writeTracked job) [.result job .backpressure]
  | trackedAgain (job : Job) : Pure tracked s (.writeTracked job) [.writeTracked job]
  | resultFast (n : Nat) (r : Result) : Pure tracked s (.result (.fast n) r) [.unlockFast]
  | resultShort (n : Nat) : Pure tracked s (.result (.short n) .unsupported) [.sendChecks n]
  | resultNext (n : Nat) (begun : Bool) :
      Pure tracked s (.result (.message (n + 1) begun) .ok) [.queue (.message n true)]
  | resultCut (n : Nat) (r : Result) : Pure tracked s (.result (.message n true) r)
      [.markClosing, .claimAbort, .unlockCheck .hand r false]
  | resultEnds (job : Job) (r : Result) : job.isClose = false →
      Pure tracked s (.result job r) [.unlockCheck .hand r false]
  | resultTail (job : Job) : job ≠ .hand → (∀ closer, job ≠ .close closer) →
      Pure tracked s (.result job .ok) [.flushTake (.tail false) job]
  | resultPing (r : Result) : r ≠ .ok →
      Pure tracked s (.result .heartbeatPing r) [.unlockCheck .heartbeatPing r false]
  | resultMark (job : Job) (r : Result) : job.isClose = true →
      (job = .heartbeatClose → r ≠ .ok) → ((∃ closer, job = .close closer) → r ≠ .backpressure) →
      Pure tracked s (.result job r) [.closingMark job r false]
  | resultDefers (closer : Closer) : Pure tracked s (.result (.close closer) .backpressure)
      [.deferClose closer]
  | deferNot (closer : Closer) : s.closeFrameSent = true ∨ s.closeFrameDeferred = true ∨
      s.phase = .claimed →
      Pure tracked s (.deferClose closer) [.closingMark (.close closer) .ok false]
  | rawFlush (job : Job) (deferred : Bool) : job ≠ .heartbeatClose →
      Pure tracked s (.rawFlush job deferred) [.unlockCheck job .ok deferred]
  | rawFlushMark (deferred : Bool) : Pure tracked s (.rawFlush .heartbeatClose deferred)
      [.closingMark .heartbeatClose .ok deferred]
  | unlockEmpty (job : Job) (r : Result) (deferred : Bool) :
      Pure tracked s (.unlockCheck job r deferred) [.unlock job r deferred]
  | unlockFlush (job : Job) (r : Result) (deferred : Bool) : s.batch ≠ [] →
      Pure tracked s (.unlockCheck job r deferred) [.flushTake (.unlock r deferred) job]
  | postEnds (job : Job) (r : Result) (deferred : Bool) :
      Pure tracked s (.post job r deferred) []
  | postPing (r : Result) (deferred : Bool) :
      Pure tracked s (.post .heartbeatPing r deferred) [.heartbeatFailed]
  | postAbort (job : Job) (r : Result) (deferred : Bool) :
      Pure tracked s (.post job r deferred) [.claimAbort]
  | postDeferred (r : Result) (deferred : Bool) :
      Pure tracked s (.post (.close .app) r deferred) [.takeDeferred]
  | postClose (job : Job) (r : Result) (deferred : Bool) : job.isClose = true →
      r = .ok ∨ r = .closed →
      Pure tracked s (.post job r deferred) [.markClosing, .requestTransportClose job]
  | postRetryClose (job : Job) (r : Result) (deferred : Bool) : job.isClose = true →
      r = .ok ∨ r = .closed → Pure tracked s (.post job r deferred)
        [.takeDeferred, .markClosing, .requestTransportClose job]
  | postProtocol (r : Result) (deferred : Bool) :
      Pure tracked s (.post (.close .peer) r deferred) [.lock (.close .protocol)]
  | postRetryProtocol (r : Result) (deferred : Bool) :
      Pure tracked s (.post (.close .peer) r deferred) [.takeDeferred, .lock (.close .protocol)]
  | postFails (r : Result) (deferred : Bool) :
      Pure tracked s (.post (.close .protocol) r deferred) [.markClosing, .claimAbort]
  | postRetryFails (r : Result) (deferred : Bool) :
      Pure tracked s (.post (.close .protocol) r deferred)
        [.takeDeferred, .markClosing, .claimAbort]
  | abortLate : s.phase = .claimed → Pure tracked s .claimAbort []
  | heartbeatLate : Pure tracked s .heartbeatFailed []
  | heartbeatFailed : Pure tracked s .heartbeatFailed [.heartbeatClosing]
  | requestLate (job : Job) : s.phase = .claimed →
      Pure tracked s (.requestTransportClose job) []
  | closeFlush (job : Job) : Pure tracked s (.closeFlush job) [.tryClose, .tryClose]
  | tryNot : s.phase ≠ .pending → Pure tracked s .tryClose []
  | tryClose : Pure tracked s .tryClose [.claimLook]
  | claimNotYet : tracked = false ∨ s.closeFrameDeferred = true → Pure tracked s .claimLook []
  | claimLook : Pure tracked s .claimLook [.claim]
  | claimRefused : claimable tracked s = false → Pure tracked s .claim []
  | sentNothing : Pure tracked s .sentDeferred []
  | sentDeferred : Pure tracked s .sentDeferred [.takeDeferred]
  | takeNothing : Pure tracked s .takeDeferred []
  | retryTracked : tracked = true → Pure tracked s .retry [.retryTracked]
  | retryPlain : tracked = false → Pure tracked s .retry [.retryTrack]
  | retryOverflow (size : Nat) :
      Pure tracked s (.retryWrite size) [.retryRollback size .backpressure]
  | retryAgain (size : Nat) : Pure tracked s (.retryWrite size) [.retryWrite size]
  | retryTrackedOverflow : Pure tracked s .retryTracked [.retryRollback 0 .backpressure]
  | retryTrackedAgain : Pure tracked s .retryTracked [.retryTracked]
  | retryRoom : Pure tracked s .retryRoom [.takeDeferred]
  | retryNoRoom : Pure tracked s .retryRoom []

inductive Step (tracked : Bool) (s : State) : Section → State → List Section → Prop where
  | stays {a : Section} {more : List Section} : Pure tracked s a more → Step tracked s a s more
  | beginWriteBatch : Step tracked s .beginWriteBatch { s with batching := true } []
  | endRound : Step tracked s .endRound { s with batching := false } [.lock .hand]
  | onOutbound (n : Nat) : tracked = false → n ≤ s.acceptedBytes - s.reportedBytes →
      Step tracked s .onOutbound
        { s with pendingBytes := s.pendingBytes - n, reportedBytes := s.reportedBytes + n }
        [.sentDeferred, .tryClose]
  | onSent (r : SendReceipt) : s.receipt = some r → Step tracked s (.onSent r)
      { s with receipt := none, fired := r :: s.fired } [.storeDone, .tryClose]
  | onSentEarly (r : SendReceipt) : s.receipt ≠ some r → Step tracked s (.onSent r)
      { s with earlySend := some r, fired := r :: s.fired } []
  | rawCloses : Step tracked s .rawCloses { s with rawClosed := true } []
  | onClose : s.rawClosed = true → Step tracked s .onClose { s with closed := true } []
  | lock (job : Job) : s.mu = false → Step tracked s (.lock job) { s with mu := true } [.enter job]
  | append (job : Job) (size : Nat) : job.isClose = false → Step tracked s (.append job)
      { s with
        batch := s.batch ++ [⟨job.kind, size, s.accepted⟩]
        accepted := s.accepted + 1 } [.result job .ok]
  | appendClose (job : Job) (size : Nat) : job.isClose = true → Step tracked s (.append job)
      { s with
        batch := s.batch ++ [⟨.close, size, s.accepted⟩]
        accepted := s.accepted + 1 } [.markSent job]
  | flushTake (next : Next) (job : Job) : s.batch ≠ [] → Step tracked s (.flushTake next job)
      { s with batch := [] } [.flushCount next job s.batch]
  | flushCount (next : Next) (job : Job) (frames : List Frame) :
      Step tracked s (.flushCount next job frames)
        { s with pendingBytes := s.pendingBytes + counted tracked (bytes frames) }
        [.flushWrite next job frames]
  | flushWrite (next : Next) (job : Job) (frames : List Frame) :
      Step tracked s (.flushWrite next job frames)
        { s with
          handed := s.handed ++ frames
          acceptedBytes := s.acceptedBytes + bytes frames } [.flushed next job .ok]
  | flushFails (next : Next) (job : Job) (frames : List Frame) (n : Nat) (closed : Bool) :
      n ≤ bytes frames → Step tracked s (.flushWrite next job frames) (breaks n s)
        [.flushRollback next job (bytes frames - n) closed]
  | flushRollback (next : Next) (job : Job) (n : Nat) :
      Step tracked s (.flushRollback next job n true)
        { s with pendingBytes := s.pendingBytes - counted tracked n } [.flushed next job .closed]
  | flushBroken (next : Next) (job : Job) (n : Nat) :
      Step tracked s (.flushRollback next job n false)
        { s with pendingBytes := s.pendingBytes - counted tracked n }
        [.markClosing, .claimAbort, .flushed next job .failed]
  | track (job : Job) (size : Nat) : Step tracked s (.track job)
      { s with pendingBytes := s.pendingBytes + counted tracked size } [.write job size]
  | write (job : Job) (size : Nat) : job.isClose = false →
      Step tracked s (.write job size) (hand job.kind size s) [.result job .ok]
  | writeClose (job : Job) (size : Nat) : job.isClose = true →
      Step tracked s (.write job size) (hand .close size s) [.markSent job]
  | writeFails (job : Job) (size n : Nat) (closed : Bool) : n ≤ size →
      Step tracked s (.write job size) (breaks n s) [.rollback job (size - n) (failure closed)]
  | rollback (job : Job) (n : Nat) (r : Result) : Step tracked s (.rollback job n r)
      { s with pendingBytes := s.pendingBytes - counted tracked n } [.result job r]
  | writeTracked (job : Job) (size : Nat) (r : Option SendReceipt) : job.isClose = false →
      Step tracked s (.writeTracked job)
        { hand job.kind size s with receipts := s.receipts ++ r.toList } [.result job .ok]
  | writeTrackedClose (job : Job) (size : Nat) (r : Option SendReceipt) : job.isClose = true →
      Step tracked s (.writeTracked job)
        { hand .close size s with
          receipts := s.receipts ++ r.toList
          closeReceipts := r :: s.closeReceipts } [.setReceipt job r]
  | writeTrackedFails (job : Job) (n : Nat) (closed : Bool) :
      Step tracked s (.writeTracked job) (breaks n s) [.result job (failure closed)]
  | setReceiptEarly (job : Job) (r : SendReceipt) : s.earlySend = some r →
      Step tracked s (.setReceipt job (some r)) { s with earlySend := none } [.setDone job]
  | setReceiptZero (job : Job) :
      Step tracked s (.setReceipt job none) { s with receipt := none } [.setDone job]
  | setReceipt (job : Job) (r : SendReceipt) : s.earlySend ≠ some r →
      Step tracked s (.setReceipt job (some r)) { s with receipt := some r } [.markSent job]
  | setDone (job : Job) : Step tracked s (.setDone job) { s with done := true } [.markSent job]
  | markSent (job : Job) : Step tracked s (.markSent job)
      { s with payload := false, closeFrameSent := true, closeFrameDeferred := false }
      [.result job .ok]
  | deferClose (closer : Closer) : s.closeFrameSent = false → s.closeFrameDeferred = false →
      Step tracked s (.deferClose closer)
        { s with payload := true, closeFrameDeferred := true }
        [.closingMark (.close closer) .ok true]
  | closingMarkClose (closer : Closer) (deferred : Bool) :
      Step tracked s (.closingMark (.close closer) .ok deferred) { s with closing := true }
        [.flushTake (.tail deferred) (.close closer)]
  | closingMark (job : Job) (r : Result) (deferred : Bool) :
      ((∃ closer, job = .close closer) → r ≠ .ok) →
      Step tracked s (.closingMark job r deferred) { s with closing := true }
        [.unlockCheck job r deferred]
  | rawFlushFails (job : Job) (deferred closed : Bool) : job ≠ .heartbeatClose →
      Step tracked s (.rawFlush job deferred) (breaks 0 s)
        [.unlockCheck job (failure closed) deferred]
  | rawFlushFailsMark (deferred closed : Bool) :
      Step tracked s (.rawFlush .heartbeatClose deferred) (breaks 0 s)
        [.closingMark .heartbeatClose (failure closed) deferred]
  | unlock (job : Job) (r : Result) (deferred : Bool) : Step tracked s (.unlock job r deferred)
      { s with mu := false } [.tryClose, .post job r deferred]
  | unlockFast : Step tracked s .unlockFast { s with mu := false } []
  | markClosing : Step tracked s .markClosing { s with closing := true } []
  | claimAbort : s.phase ≠ .claimed → Step tracked s .claimAbort
      { s with
        payload := false
        closeFrameDeferred := false
        phase := .claimed
        claims := s.claims + 1 } [.rawClose]
  | rawClose : Step tracked s .rawClose { s with rawClosed := true } []
  | heartbeatClosing : Step tracked s .heartbeatClosing { s with closing := true } [.claimAbort]
  | requestTransportClose (job : Job) : s.phase ≠ .claimed →
      Step tracked s (.requestTransportClose job) { s with phase := .pending } [.closeFlush job]
  | closeFlushClosed (job : Job) : Step tracked s (.closeFlush job) (breaks 0 s)
      [.tryClose, .tryClose]
  | closeFlushFails (job : Job) : Step tracked s (.closeFlush job) (breaks 0 s) []
  | closeFlushAborts (job : Job) : Step tracked s (.closeFlush job) (breaks 0 s) [.claimAbort]
  | closeFlushProtocol (job : Job) : Step tracked s (.closeFlush job) (breaks 0 s)
      [.lock (.close .protocol)]
  | claim : claimable tracked s = true → Step tracked s .claim
      { s with phase := .claimed, claims := s.claims + 1 } [.rawClose]
  | storeDone : Step tracked s .storeDone { s with done := true } []
  | takeDeferred : s.payload = true → Step tracked s .takeDeferred
      { s with payload := false, taken := true } [.retry]
  | retryFails : Step tracked s .retry { s with taken := false } [.markClosing, .claimAbort]
  | retryTrack (size : Nat) : Step tracked s .retryTrack
      { s with pendingBytes := s.pendingBytes + size } [.retryWrite size]
  | retryWrite (size : Nat) : Step tracked s (.retryWrite size) (hand .close size s) [.retryMark]
  | retryWriteFails (size n : Nat) (closed : Bool) : n ≤ size →
      Step tracked s (.retryWrite size) (breaks n s)
        [.retryRollback (size - n) (failure closed)]
  | retryRefused (n : Nat) : Step tracked s (.retryRollback n .backpressure)
      { s with pendingBytes := s.pendingBytes - counted tracked n } [.restore]
  | retryClosed (n : Nat) : Step tracked s (.retryRollback n .closed)
      { s with pendingBytes := s.pendingBytes - counted tracked n, taken := false } []
  | retryBroken (n : Nat) (r : Result) : Step tracked s (.retryRollback n r)
      { s with pendingBytes := s.pendingBytes - counted tracked n, taken := false }
      [.markClosing, .claimAbort]
  | retryTracked (size : Nat) (r : Option SendReceipt) : Step tracked s .retryTracked
        { hand .close size s with
          receipts := s.receipts ++ r.toList
          closeReceipts := r :: s.closeReceipts } [.retryReceipt r]
  | retryTrackedFails (n : Nat) (closed : Bool) :
      Step tracked s .retryTracked (breaks n s) [.retryRollback 0 (failure closed)]
  | retryReceiptEarly (r : SendReceipt) : s.earlySend = some r →
      Step tracked s (.retryReceipt (some r)) { s with earlySend := none } [.retryDone]
  | retryReceiptZero : Step tracked s (.retryReceipt none) { s with receipt := none } [.retryDone]
  | retryReceipt (r : SendReceipt) : s.earlySend ≠ some r →
      Step tracked s (.retryReceipt (some r)) { s with receipt := some r } [.retryMark]
  | retryDone : Step tracked s .retryDone { s with done := true } [.retryMark]
  | retryMark : Step tracked s .retryMark
      { s with
        payload := false
        closeFrameSent := true
        closeFrameDeferred := false
        taken := false } [.tryClose]
  | restore : Step tracked s .restore
      { s with payload := s.payload || s.closeFrameDeferred, taken := false } [.retryRoom]

theorem kind_of_isClose {job : Job} (close : job.isClose = true) : job.kind = .close := by
  cases job <;> first | rfl | cases close

variable (tracked : Bool) (c : Choice) (s : State)

theorem pure_result (job : Job) (r : Result) : Pure tracked s (.result job r) (resultOf job r) := by
  cases job with
  | fast n => exact .resultFast n r
  | short n =>
    cases r
    case unsupported => exact .resultShort n
    all_goals exact .resultEnds _ _ (by rfl)
  | message n begun =>
    cases n <;> cases r <;> cases begun <;>
      first
      | exact .resultEnds _ _ (by rfl)
      | exact .resultNext _ _
      | exact .resultCut _ _
  | control pong =>
    cases r <;>
      first
      | exact .resultTail _ nofun (fun _ same => by cases same)
      | exact .resultEnds _ _ (by rfl)
  | heartbeatPing =>
    cases r <;>
      first
      | exact .resultTail _ nofun (fun _ same => by cases same)
      | exact .resultPing _ (by decide)
  | heartbeatClose =>
    cases r <;>
      first
      | exact .resultTail _ nofun (fun _ same => by cases same)
      | exact .resultMark _ _ (by rfl) (fun _ => by decide) (fun same => by
          obtain ⟨closer, same⟩ := same; cases same)
  | close closer =>
    cases r <;>
      first
      | exact .resultDefers closer
      | exact .resultMark _ _ (by rfl) nofun (fun _ => by decide)
  | hand => exact .resultEnds _ _ (by rfl)

theorem pure_post (job : Job) (r : Result) (deferred : Bool) :
    Pure tracked s (.post job r deferred) (postOf job r deferred) := by
  cases job with
  | heartbeatPing =>
    cases r <;> first | exact .postEnds _ _ _ | exact .postPing _ _
  | heartbeatClose =>
    cases r <;>
      first | exact .postClose _ _ _ (by rfl) (.inl rfl) | exact .postAbort _ _ _
  | close closer =>
    cases closer <;> cases r <;> cases deferred <;>
      first
      | exact .postEnds _ _ _
      | exact .postDeferred _ _
      | exact .postAbort _ _ _
      | exact .postClose _ _ _ (by rfl) (.inl rfl)
      | exact .postClose _ _ _ (by rfl) (.inr rfl)
      | exact .postRetryClose _ _ _ (by rfl) (.inl rfl)
      | exact .postRetryClose _ _ _ (by rfl) (.inr rfl)
      | exact .postProtocol _ _
      | exact .postRetryProtocol _ _
      | exact .postFails _ _
      | exact .postRetryFails _ _
  | _ => exact .postEnds _ _ _

theorem pure_flushed (next : Next) (job : Job) (r : Result) :
    Pure tracked s (.flushed next job r) (flushedTo next job r) := by
  cases next with
  | append => cases r <;> first
    | exact .flushedAppend _
    | exact .flushedFails _ _ _ (by decide) (.inl rfl)
  | track => cases r <;> first
    | exact .flushedTrack _
    | exact .flushedFails _ _ _ (by decide) (.inr rfl)
  | tail deferred =>
    cases r <;> cases job <;> first
      | exact .flushedTail _ _
      | exact .flushedTailedMark _ _ (by decide)
      | exact .flushedTailed _ _ _ (by decide) nofun
  | unlock was deferred => exact .flushedUnlock _ _ _ _

theorem pure_enter (job : Job) : Pure tracked s (.enter job) [entered tracked c s job] := by
  cases job with
  | message n begun => exact .enterQuick _ _ _
  | heartbeatPing =>
    simp only [entered]
    split_ifs with late plain
    · exact .enterEnds _
    · exact .enterPing plain (by simp_all)
    · exact .enterQueue _
  | heartbeatClose =>
    simp only [entered]
    split_ifs
    · exact .enterEnds _
    · exact .enterQueue _
  | close closer =>
    cases closer
    case app =>
      simp only [entered]
      split_ifs
      · exact .enterEnds _
      · exact .enterQueue _
    all_goals exact .enterQueue _
  | control pong => exact .enterQueue _
  | _ => exact .enterEnds _

theorem exec_step (a : Section) (allowed : ready a s = true) :
    Step tracked s a (exec tracked c a s).1 (exec tracked c a s).2 := by
  cases a with
  | call job =>
    simp only [exec]
    split_ifs
    · exact .stays (.call job)
    · exact .stays (.callEnds job)
  | endRound =>
    simp only [exec]
    split_ifs
    · exact .endRound
    · exact .stays Pure.roundEnds
  | onOutbound =>
    simp only [exec]
    split_ifs with plain
    · exact .stays (.outbound plain)
    · exact .onOutbound _ (Bool.eq_false_iff.mpr plain) (Nat.min_le_right _ _)
  | onSent r =>
    simp only [exec]
    split_ifs with same
    · exact .onSent r same
    · exact .onSentEarly r same
  | closeTimer =>
    simp only [exec]
    split_ifs
    · exact .stays Pure.timerLate
    · exact .stays Pure.timer
  | onClose => exact .onClose (by simpa [ready] using allowed)
  | lock job => exact .lock job (by simpa [ready] using allowed)
  | enter job => exact .stays (pure_enter tracked c s job)
  | quickFlags fast left =>
    simp only [exec]
    split_ifs with on
    · simp only [quick, Bool.and_eq_true, Bool.not_eq_true', Bool.or_eq_false_iff, Bool.or_eq_true,
        List.isEmpty_iff] at on
      obtain ⟨⟨⟨⟨⟨_, plain⟩, sent⟩, deferred⟩, _⟩, batch⟩ := on
      refine .stays (.quickOn fast left plain sent deferred ?_)
      intro short
      rw [short] at batch
      simpa using batch
    · exact .stays (.quickOff fast left)
  | quickClosing fast left =>
    simp only [exec]
    split_ifs with late short full
    · exact .stays (.quickClosed fast left)
    all_goals
      have opened : s.closing = false := by simp_all
    · rw [short]
      exact .stays (.quickShort left opened)
    all_goals rw [Bool.not_eq_false] at short; rw [short]
    · exact .stays (.quickFull left opened)
    · exact .stays (.quickAppend left opened)
  | sendChecks left =>
    simp only [exec]
    split_ifs
    · exact .stays (.sendRefused left)
    · exact .stays (.sendQueues left)
  | queue job =>
    simp only [exec]
    split_ifs with late fails close
    · refine .stays (.queueClosed job ?_)
      simp only [Bool.or_eq_true, Bool.and_eq_true, Bool.not_eq_true'] at late
      exact late.imp id And.right
    · exact .stays (.queueFails job)
    · exact .stays (.queueClose job close)
    · refine .stays (.queueRoutes job (Bool.eq_false_iff.mpr close) ?_)
      simp_all
  | closeQueued job =>
    simp only [exec]
    split_ifs with already plain
    · exact .stays (.closeAlready job (by simpa using already))
    all_goals simp only [Bool.or_eq_true, not_or, Bool.not_eq_true] at already
    · exact .stays (.closeTracked job already.1 already.2 plain)
    · exact .stays (.closeRoutes job already.1 already.2)
  | route job =>
    simp only [exec]
    split_ifs
    · exact .stays (.routeFails job)
    · exact .stays (.routeFull job)
    · exact .stays (.routeAppends job)
    · exact .stays (.routeTracks job)
  | append job =>
    simp only [exec]
    split_ifs with close
    · rw [kind_of_isClose close]
      exact .appendClose job _ close
    · exact .append job _ (Bool.eq_false_iff.mpr close)
  | flushTake next job =>
    simp only [exec]
    split_ifs with empty
    · exact .stays (.flushNothing next job empty)
    · exact .flushTake next job empty
  | flushWrite next job frames =>
    simp only [exec]
    cases answer c s with
    | accepts => exact .flushWrite next job frames
    | overflow => exact .stays (.flushOverflow next job frames)
    | unsupported => exact .stays (.flushAgain next job frames)
    | fails closed n => exact .flushFails next job frames _ closed (Nat.min_le_right _ _)
  | flushRollback next job n closed =>
    cases closed
    · exact .flushBroken next job n
    · exact .flushRollback next job n
  | flushed next job r => exact .stays (pure_flushed tracked s next job r)
  | write job size =>
    simp only [exec]
    cases answer c s with
    | accepts =>
      dsimp only
      split_ifs with close
      · rw [kind_of_isClose close]
        exact .writeClose job size close
      · exact .write job size (Bool.eq_false_iff.mpr close)
    | overflow => exact .stays (.writeOverflow job size)
    | unsupported =>
      cases job <;>
        first
        | exact .stays (.writeUnsupported _ size)
        | exact .stays (.writeAgain _ size)
    | fails closed n => exact .writeFails job size _ closed (Nat.min_le_right _ _)
  | writeTracked job =>
    simp only [exec]
    by_cases declines : c.declines = true
    · rw [if_pos declines]
      exact .stays (.trackedFails job)
    rw [if_neg declines]
    cases answer c s with
    | accepts =>
      dsimp only
      split_ifs with close
      · exact .writeTrackedClose job _ c.receipt close
      · exact .writeTracked job _ c.receipt (Bool.eq_false_iff.mpr close)
    | overflow => exact .stays (.trackedOverflow job)
    | unsupported => exact .stays (.trackedAgain job)
    | fails closed n => exact .writeTrackedFails job n closed
  | setReceipt job r =>
    cases r with
    | none => exact .setReceiptZero job
    | some r =>
      simp only [exec]
      split_ifs with early
      · exact .setReceiptEarly job r early
      · exact .setReceipt job r early
  | result job r => exact .stays (pure_result tracked s job r)
  | deferClose closer =>
    simp only [exec]
    split_ifs with already
    · refine .stays (.deferNot closer ?_)
      simpa [or_assoc] using already
    · simp only [Bool.or_eq_true, not_or, Bool.not_eq_true] at already
      exact .deferClose closer already.1.1 already.1.2
  | closingMark job r deferred =>
    cases job
    case close closer =>
      cases r
      case ok => exact .closingMarkClose closer deferred
      all_goals exact .closingMark _ _ _ (fun _ => by decide)
    all_goals exact .closingMark _ _ _ (fun same => by obtain ⟨_, same⟩ := same; cases same)
  | rawFlush job deferred =>
    simp only [exec]
    cases c.answer
    case fails closed n =>
      cases job
      case heartbeatClose => exact .rawFlushFailsMark deferred closed
      all_goals exact .rawFlushFails _ _ _ nofun
    all_goals
      cases job <;>
        first
        | exact .stays (.rawFlushMark deferred)
        | exact .stays (.rawFlush _ deferred nofun)
  | unlockCheck job r deferred =>
    simp only [exec]
    split_ifs with keeps
    · exact .stays (.unlockEmpty job r deferred)
    · exact .stays (.unlockFlush job r deferred (fun empty => keeps (.inl empty)))
  | post job r deferred => exact .stays (pure_post tracked s job r deferred)
  | claimAbort =>
    simp only [exec]
    split_ifs with late
    · exact .stays (.abortLate late)
    · exact .claimAbort late
  | heartbeatFailed =>
    simp only [exec]
    split_ifs
    · exact .stays Pure.heartbeatLate
    · exact .stays Pure.heartbeatFailed
  | requestTransportClose job =>
    simp only [exec]
    split_ifs with late
    · exact .stays (.requestLate job late)
    · exact .requestTransportClose job late
  | closeFlush job =>
    simp only [exec]
    cases c.answer
    case fails closed n =>
      cases closed
      · cases job
        case close closer =>
          cases closer
          · exact .closeFlushFails _
          · exact .closeFlushProtocol _
          · exact .closeFlushAborts _
        all_goals exact .closeFlushFails _
      · exact .closeFlushClosed job
    all_goals exact .stays (.closeFlush job)
  | tryClose =>
    simp only [exec]
    split_ifs with pending
    · exact .stays Pure.tryClose
    · exact .stays (.tryNot pending)
  | claimLook =>
    simp only [exec]
    split_ifs with waits
    · refine .stays (.claimNotYet ?_)
      simp only [Bool.or_eq_true, Bool.and_eq_true, Bool.not_eq_eq_eq_not, Bool.not_true] at waits
      exact waits.symm.imp And.left id
    · exact .stays Pure.claimLook
  | claim =>
    simp only [exec]
    split_ifs with granted
    · exact .claim granted
    · exact .stays (.claimRefused (Bool.of_not_eq_true granted))
  | sentDeferred =>
    simp only [exec]
    split_ifs
    · exact .stays Pure.sentDeferred
    · exact .stays Pure.sentNothing
  | takeDeferred =>
    simp only [exec]
    split_ifs with stored
    · exact .takeDeferred stored
    · exact .stays Pure.takeNothing
  | retry =>
    simp only [exec]
    split_ifs with declines plain
    · exact .retryFails
    · exact .stays (.retryTracked plain)
    · exact .stays (.retryPlain (Bool.eq_false_iff.mpr plain))
  | retryWrite size =>
    simp only [exec]
    cases answer c s with
    | accepts => exact .retryWrite size
    | overflow => exact .stays (.retryOverflow size)
    | unsupported => exact .stays (.retryAgain size)
    | fails closed n => exact .retryWriteFails size _ closed (Nat.min_le_right _ _)
  | retryRollback n r =>
    cases r
    case backpressure => exact .retryRefused n
    case closed => exact .retryClosed n
    all_goals exact .retryBroken n _
  | retryTracked =>
    simp only [exec]
    cases answer c s with
    | accepts => exact .retryTracked _ c.receipt
    | overflow => exact .stays Pure.retryTrackedOverflow
    | unsupported => exact .stays Pure.retryTrackedAgain
    | fails closed n => exact .retryTrackedFails n closed
  | retryReceipt r =>
    cases r with
    | none => exact .retryReceiptZero
    | some r =>
      simp only [exec]
      split_ifs with early
      · exact .retryReceiptEarly r early
      · exact .retryReceipt r early
  | retryRoom =>
    simp only [exec]
    split_ifs
    · exact .stays Pure.retryRoom
    · exact .stays Pure.retryNoRoom
  | failStream => exact .stays Pure.failStream
  | _ => constructor

end UwsWriteSteps
