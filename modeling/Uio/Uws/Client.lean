import Uio.Interleaving

/-!
The pull client's queue. The connection's callbacks come one at a time and
`OnClose` is the last; `held` is the message of an `OnMessage` past its first
check, and `received`, `taken` and `returned` are the messages brought by the
connection, taken by the queue and returned by `ReadMessage`. A select picks any
of its cases, and waits on when that one is not ready.
-/
namespace UwsClient
open Interleaving
variable {Message Event : Type}

def clientQueueMessages : Nat := 64

structure Client (Message Event : Type) where
  queue : List Message := []
  done : Bool := false
  stop : Bool := false
  ended : Bool := false
  event : Option Event := none
  held : Option Message := none
  last : Bool := false
  received : List Message := []
  taken : List Message := []
  returned : List Message := []
  closed : List (Option Event) := []

inductive Pick where
  | channel
  | done
  | stop
  | cancel
  | tick (closes : Bool)

/-- `finish` is also what `Client.Close` does before it closes the connection, and
    `release` what every close that this end starts does. -/
inductive Section (Message Event : Type) where
  | onMessage (m : Message)
  | offer
  | wait
  | onClose (e : Event)
  | finish
  | closeEnded
  | release
  | readMessage
  | look
  | loadEvent
  | awaitEnded

def send (s : Client Message Event) : Client Message Event :=
  { s with queue := s.queue ++ s.held.toList, taken := s.taken ++ s.held.toList, held := none }

def receive (s : Client Message Event) (empty : Section Message Event) :
    Client Message Event × List (Section Message Event) :=
  match s.queue with
  | [] => (s, [empty])
  | m :: rest => ({ s with queue := rest, returned := s.returned ++ [m] }, [])

def closeError (s : Client Message Event) : Client Message Event :=
  { s with closed := s.closed ++ [s.event] }

def entry : Section Message Event → Bool
  | .onMessage _ | .onClose _ | .finish | .release | .readMessage => true
  | _ => false

def ready (a : Section Message Event) (s : Client Message Event) : Bool :=
  match a with
  | .onMessage _ | .onClose _ => s.held.isNone && !s.last
  | _ => true

def exec (c : Pick) (a : Section Message Event) (s : Client Message Event) :
    Client Message Event × List (Section Message Event) :=
  match a with
  | .onMessage m =>
    if s.stop || s.done then ({ s with received := s.received ++ [m] }, [])
    else ({ s with received := s.received ++ [m], held := some m }, [.offer])
  | .offer => if s.queue.length < clientQueueMessages then (send s, []) else (s, [.wait])
  | .wait =>
    match c with
    | .channel => if s.queue.length < clientQueueMessages then (send s, []) else (s, [.wait])
    | .done => if s.done then ({ s with held := none }, []) else (s, [.wait])
    | .stop => if s.stop then ({ s with held := none }, []) else (s, [.wait])
    -- heartbeatTick, which may close the connection and so release this wait
    | .tick closes => ({ s with stop := s.stop || closes }, [.wait])
    | .cancel => (s, [.wait])
  | .onClose e => ({ s with last := true, event := some e }, [.finish, .closeEnded])
  | .finish => ({ s with done := true }, [])
  | .closeEnded => ({ s with ended := true }, [])
  | .release => ({ s with stop := true }, [])
  | .readMessage =>
    match c with
    | .channel => receive s .readMessage
    | .done => (s, if s.done then [.look] else [.readMessage])
    | .cancel => (s, [])
    | _ => (s, [.readMessage])
  | .look => receive s .loadEvent
  | .loadEvent => if s.event.isSome then (closeError s, []) else (s, [.awaitEnded])
  | .awaitEnded =>
    match c with
    | .channel => if s.ended then (closeError s, []) else (s, [.awaitEnded])
    | .cancel => (s, [])
    | _ => (s, [.awaitEnded])

def program : Program (Client Message Event) (Section Message Event) Pick := ⟨entry, ready, exec⟩

def start : Pool (Client Message Event) (Section Message Event) := ⟨{}, []⟩

variable {s : Client Message Event} {q : Pool (Client Message Event) (Section Message Event)}

structure Kept (s : Client Message Event) : Prop where
  order : s.returned ++ s.queue = s.taken
  gapless : s.taken ++ s.held.toList <+: s.received
  whole : s.stop = false → s.done = false → s.taken ++ s.held.toList = s.received

theorem kept_receive (kept : Kept s) (empty : Section Message Event) :
    Kept (receive s empty).1 := by
  simp only [receive]
  split
  · exact kept
  · rename_i m rest front
    exact ⟨by simpa [front] using kept.order, kept.gapless, kept.whole⟩

theorem kept_send (kept : Kept s) : Kept (send s) :=
  ⟨by simp [send, ← kept.order], by simpa [send] using kept.gapless,
    by simpa [send] using kept.whole⟩

theorem kept_give_up (kept : Kept s) (ending : s.stop = true ∨ s.done = true) :
    Kept { s with held := none } := by
  refine ⟨kept.order, ?_, ?_⟩
  · simpa using (List.prefix_append _ _).trans kept.gapless
  · grind -ring -linarith

theorem kept_exec (kept : Kept s) (c : Pick) (a : Section Message Event)
    (may : ready a s = true) : Kept (exec c a s).1 := by
  cases a with
  | onMessage m =>
    have free : s.held = none := by simp_all [ready]
    simp only [exec]
    have shorter : s.taken <+: s.received := by simpa [free] using kept.gapless
    split
    · refine ⟨kept.order, ?_, ?_⟩
      · simpa [free] using shorter.trans (List.prefix_append _ _)
      · grind -ring -linarith
    · have whole : s.taken = s.received := by simpa [free] using kept.whole (by simp_all) (by simp_all)
      exact ⟨kept.order, by simp [whole], by simp [whole]⟩
  | offer =>
    simp only [exec]
    split <;> first | exact kept_send kept | exact kept
  | wait =>
    simp only [exec]
    (repeat' split) <;> first
      | exact kept
      | exact kept_send kept
      | exact kept_give_up kept (.inr ‹_›)
      | exact kept_give_up kept (.inl ‹_›)
      | exact ⟨kept.order, kept.gapless, fun runs => kept.whole (by simp_all)⟩
  | readMessage =>
    simp only [exec]
    split <;> first | exact kept_receive kept _ | exact kept
  | look => exact kept_receive kept _
  | finish => exact ⟨kept.order, kept.gapless, fun _ => nofun⟩
  | release => exact ⟨kept.order, kept.gapless, nofun⟩
  | _ =>
    simp only [exec]
    (repeat' split) <;> exact ⟨kept.order, kept.gapless, kept.whole⟩

theorem kept_run (run : Reachable program start q) : Kept q.state := by
  refine owed_invariant (fun s _ => Kept s) ?_ (fun _ _ _ _ kept => kept) ?_ run
  · exact ⟨rfl, List.prefix_refl [], fun _ _ => rfl⟩
  · intro s others a c may _ kept
    exact kept_exec kept c a may

structure Drained (s : Client Message Event) : Prop where
  done : s.done = true
  free : s.held = none
  empty : s.queue = []

theorem drained_exec (drained : Drained s) (c : Pick) (a : Section Message Event) :
    Drained (exec c a s).1 := by
  obtain ⟨done, free, empty⟩ := drained
  cases a <;> simp only [exec, receive, send, closeError, done, free, empty, Bool.or_true, if_true]
  all_goals (repeat' split) <;> constructor <;> simp_all

theorem done_exec (done : s.done = true) (c : Pick) (a : Section Message Event) :
    (exec c a s).1.done = true := by
  cases a <;> simp only [exec, receive, send, closeError]
  all_goals (repeat' split) <;> exact done

def Seen (s : Client Message Event) : Section Message Event → Prop
  | .look => s.done = true
  | .loadEvent | .awaitEnded => Drained s
  | _ => True

/-- No `OnMessage` is past its check when a `ReadMessage` that found intake over finds
    the queue empty too. -/
def settled (_ : Pick) (a : Section Message Event) (s : Client Message Event) : Bool :=
  match a with
  | .look => !s.queue.isEmpty || s.held.isNone
  | _ => true

theorem seen_exec {b : Section Message Event} (seen : Seen s b) (c : Pick)
    (a : Section Message Event) : Seen (exec c a s).1 b := by
  cases b with
  | look => exact done_exec seen c a
  | loadEvent | awaitEnded => exact drained_exec seen c a
  | _ => trivial

theorem seen_pushed {c : Pick} {a b : Section Message Event} (calm : settled c a s = true)
    (seen : Seen s a) (pushed : b ∈ (exec c a s).2) : Seen s b := by
  cases a with
  | look =>
    simp only [exec, receive] at pushed
    split at pushed
    · rename_i empty
      rw [List.mem_singleton.mp pushed]
      exact ⟨seen, by simpa [settled, empty] using calm, empty⟩
    · cases pushed
  | onClose e =>
    rcases List.mem_pair.mp pushed with rfl | rfl <;> trivial
  | _ =>
    simp only [exec, receive] at pushed
    (repeat' split at pushed) <;> simp_all [Seen]

theorem drained_run (run : Run program (settled · · ·) start q) :
    q.state.closed ≠ [] → Drained q.state := by
  refine (owed_carries (fun s : Client Message Event => s.closed ≠ [] → Drained s) Seen
    (fun some => absurd rfl some) (by rintro _ ⟨⟩) ?_ ?_ run).1
  · intro s a _ entered
    cases a <;> trivial
  · intro s a c _ calm told seen
    refine ⟨?_, fun b seen => seen_exec seen c a, ?_⟩
    · intro some
      refine drained_exec ?_ c a
      cases a with
      | loadEvent | awaitEnded => exact seen
      | _ =>
        apply told
        intro none
        apply some
        simp only [program, exec, receive, send]
        (repeat' split) <;> exact none
    · intro b pushed
      exact seen_exec (seen_pushed calm seen pushed) c a

theorem queue_drains_before_close_error :
    (Reachable program start q → q.state.taken <+: q.state.received ∧
      q.state.returned ++ q.state.queue = q.state.taken) ∧
    (Run program (settled · · ·) start q → q.state.closed ≠ [] → q.state.returned = q.state.taken) := by
  constructor
  · intro run
    have kept := kept_run run
    exact ⟨(List.prefix_append _ _).trans kept.gapless, kept.order⟩
  · intro run some
    have order := (kept_run (run_reachable run)).order
    rwa [(drained_run run some).empty, List.append_nil] at order

theorem queue_drains_one_message :
    ∃ q : Pool (Client Nat Unit) (Section Nat Unit), Run program (settled · · ·) start q ∧
      q.state.taken = [7] ∧ q.state.closed = [some ()] ∧ q.state.returned = [7] := by
  obtain ⟨q, run, check⟩ := replay_meets (fun c a s (calm : settled c a s = true) => calm) (P := program) (p := start)
    (fun q => q.state.taken == [7] && q.state.closed == [some ()])
    (List.flatten [[.start (.onMessage 7)], runs 0 2 .channel, [.start .readMessage,
      .run 1 .channel, .start (.onClose ())], runs 2 3 .done, [.start .readMessage],
      runs 3 3 .done]) (by decide +kernel) (by decide +kernel)
  simp only [Bool.and_eq_true, beq_iff_eq] at check
  refine ⟨q, run, check.1, check.2, ?_⟩
  rw [queue_drains_before_close_error.2 run (by simp [check.2]), check.1]

/-- `Client.Close` ends intake while an `OnMessage` is past its check. -/
theorem close_error_before_taken_message :
    ∃ q : Pool (Client Nat Unit) (Section Nat Unit), Reachable program start q ∧
      (q.state.closed == [some ()] && q.state.taken == [7] && q.state.returned == []) = true :=
  replay_reaches (P := program) (p := start)
    (List.flatten [[.start (.onMessage 7), .run 0 .channel, .start .finish, .run 1 .done,
      .start .readMessage], runs 2 3 .done, [.run 0 .channel, .start (.onClose ())],
      runs 3 3 .done, [.run 2 .channel]]) _ (by decide +kernel)

end UwsClient
