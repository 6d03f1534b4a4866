import Uio.Layer.Close

/-!
The goodbyes of a closing layer stack. The connection's turn is one sequence of the
close's sections, run one after another, and the calls of any goroutine run beside
it. A walk's look at the phase and the layer's goodbye or flush that follows are two
steps of the turn, so that a cut can fall between them. Writers enter a layer by the
packed initiator of the close.
-/
namespace LayerGoodbyes
open Interleaving LayerClose

structure State where
  stack : Stack
  /-- what the running turn has left to do -/
  turn : List Section
  /-- the layer that began the close, plus one; a failed turn packs the number of layers plus one -/
  initiator : Nat
  /-- the layer that the walk is about to call, and the one that it is about to flush -/
  calling : Option Nat
  flushing : Option Nat
  /-- the call that began the close; the goodbyes and flushes so far, the last one first -/
  begun : Option Call
  said : List Nat
  flushed : List Nat

def State.fresh : State := ⟨Stack.fresh, [], 0, none, none, none, [], []⟩

structure Decision extends Choice where
  /-- the layer has not opened the layers above it, or its writing half ended -/
  gated : Bool := false

inductive Act where
  | beside (a : Section)
  | begin (a : Section)
  | advance
  | enter (layer : Nat)
  | enterAgain (layer : Nat)
  | inside (layer : Nat)
  deriving DecidableEq

def mayWriteDown (s : State) (index : Nat) : Bool :=
  match s.stack.phase with
  | .closing => decide (index + 1 < s.initiator)
  | .ending | .closed => false
  | .opening | .opened => true

def refuses (c : Decision) (s : State) (layer : Nat) : Bool := c.gated || !mayWriteDown s layer

/-- What the close's word and the record of who wrote it become; only the first close writes them. -/
def beginClosing (top : Nat) (s : State) (a : Section) : Nat × Option Call :=
  if s.stack.phase.over then (s.initiator, s.begun)
  else
    match a with
    | .endClaim x => (x.layer top + 1, some x)
    | .failClaim _ _ => (top + 2, none)
    | _ => (s.initiator, s.begun)

def perform (top : Nat) (c : Choice) (a : Section) (s : State) : State × List Section :=
  let r := LayerClose.exec top c a s.stack
  ({ s with
      stack := r.1
      initiator := (beginClosing top s a).1
      begun := (beginClosing top s a).2 }, r.2)

def calls (s : Stack) : Section → Option Nat
  | .walk layer _ _ => if s.phase.noLayerCalls then none else some layer
  | _ => none

def flushes (s : Stack) : Section → Option Nat
  | .walkFlush layer p flushSelf =>
    if flushSelf && p.graceful && !s.phase.noLayerCalls then some layer else none
  | _ => none

def stepped (top : Nat) (c : Choice) (a : Section) (rest : List Section) (s : State) : State :=
  { (perform top c a s).1 with
    turn := (perform top c a s).2.filter (· ≠ .user) ++ rest
    calling := calls s.stack a
    flushing := flushes s.stack a }

/-- One step of the turn. The closes that its callbacks ask for are calls beside it. -/
def advance (top : Nat) (c : Choice) (s : State) : State :=
  match s.calling, s.flushing, s.turn with
  | some layer, _, _ => { s with calling := none, said := layer :: s.said }
  | none, some layer, _ => { s with flushing := none, flushed := layer :: s.flushed }
  | none, none, [] => s
  | none, none, a :: rest => stepped top { c with call := none } a rest s

def entry : Act → Bool
  | .beside .markOpen | .beside (.call _) | .beside .request | .beside .socketFails
  | .beside .onClose | .begin .onOpen | .begin .turn | .advance | .enter _ => true
  | _ => false

def ready (a : Act) (s : State) : Bool :=
  match a with
  | .beside a => LayerClose.ready a s.stack && (a != .onClose || s.turn.isEmpty)
  | .begin a => LayerClose.ready a s.stack && s.turn.isEmpty
  | _ => true

def exec (top : Nat) (c : Decision) (a : Act) (s : State) : State × List Act :=
  match a with
  | .beside a => ((perform top c.toChoice a s).1, (perform top c.toChoice a s).2.map .beside)
  | .begin a => ({ s with turn := [a] }, [])
  | .advance => (advance top c.toChoice s, [])
  | .enter layer => if refuses c s layer then (s, []) else (s, [.enterAgain layer])
  | .enterAgain layer => if refuses c s layer then (s, []) else (s, [.inside layer])
  | .inside _ => (s, [])

def program (top : Nat) : Program State Act Decision := ⟨entry, ready, exec top⟩

def rank : Phase → Nat
  | .opening => 0
  | .opened => 1
  | .closing => 2
  | .ending => 3
  | .closed => 4

theorem rank_exec (top : Nat) (c : Choice) (a : Section) (s : Stack) :
    rank s.phase ≤ rank (LayerClose.exec top c a s).1.phase := by
  cases a
  all_goals dsimp only [LayerClose.exec, execCall, execRequest, execWalk, execTurn, execFail]
  all_goals repeat' split
  all_goals cases phase : s.phase <;> simp_all [rank, Phase.over, Phase.noLayerCalls]

theorem rank_step (top : Nat) (c : Decision) (a : Act) (s : State) :
    rank s.stack.phase ≤ rank (exec top c a s).1.stack.phase := by
  cases a with
  | beside a => exact rank_exec top _ a s.stack
  | advance =>
    dsimp only [exec]
    unfold advance
    split
    · exact le_rfl
    · exact le_rfl
    · exact le_rfl
    · exact rank_exec top _ _ s.stack
  | begin | inside => exact le_rfl
  | enter | enterAgain =>
    dsimp only [exec]
    split <;> exact le_rfl

variable {top : Nat} {c : Choice} {a : Section} {rest : List Section} {s t : State}
  {q : Pool State Act}

/-- The layer that the turn's walk has come to; a walk on its way to the socket is past all. -/
def level : List Section → Option Nat
  | .walk layer _ _ :: _ | .walkFlush layer _ _ :: _ | .walkDown layer _ :: _ => some layer
  | .endAtSocket _ :: _ => some 0
  | _ => none

/-- A walk from layer `n` down would repeat no goodbye, or no walk starts any more, or the one
    that runs stands at `n` or below. -/
def Ahead (s : State) (n : Nat) : Prop :=
  s.stack.phase.noLayerCalls = true ∨ (∀ j ∈ s.said, n < j) ∨ ∃ i ≤ n, level s.turn = some i

/-- The sections that a turn may put off; the calls beside it have the rest of the others. -/
def late : Section → Bool
  | .takePlan | .planLook _ | .walk _ _ _ | .walkFlush _ _ _ | .walkDown _ _ | .endAtSocket _
  | .failClaim _ _ | .failStore _ _ => false
  | .call _ | .endClaim _ | .endMark _ | .endStore _ | .endCut _ | .cutPlan | .markOpen
  | .onClose => false
  | _ => true

def Fits (top : Nat) (s : State) : List Section → Prop
  | .failClaim _ _ :: _ => s.said = []
  | .failStore _ _ :: _ => s.stack.phase.over = true ∧ s.said = []
  | .planLook p :: _ => s.stack.phase.over = true ∧
    (s.stack.phase.noLayerCalls = true ∨ ∀ j ∈ s.said, min p.start top < j)
  | .walk layer _ _ :: _ => s.stack.phase.over = true ∧ ∀ j ∈ s.said, layer < j
  | .walkFlush layer _ _ :: _ => s.stack.phase.over = true ∧
    if s.calling = some layer then ∀ j ∈ s.said, layer < j
    else layer ∈ s.said ∧ ∀ j ∈ s.said, layer ≤ j
  | .walkDown layer _ :: _ => s.stack.phase.over = true ∧ layer ∈ s.said ∧ ∀ j ∈ s.said, layer ≤ j
  | .takePlan :: _ | .endAtSocket _ :: _ | [] => True
  | a :: _ => late a = true

structure Walks (top : Nat) (s : State) : Prop where
  puts : ∀ a ∈ s.turn.tail, late a = true
  fits : Fits top s s.turn
  calls : ∀ i, s.calling = some i → ∃ p f rest, s.turn = .walkFlush i p f :: rest
  fresh : s.stack.phase.over = false →
    s.said = [] ∧ s.stack.plan = none ∧ ∀ j, s.stack.walked j = false
  marked : ∀ j, s.stack.walked j = true → s.stack.phase.noLayerCalls = true ∨
    j + 1 = s.initiator ∨ (∃ i ≤ j, level s.turn = some i) ∨ ∃ k ∈ s.said, k ≤ j
  planned : ∀ p, s.stack.plan = some p → Ahead s (min p.start top) ∧
    (min p.start top + 1 = s.initiator ∨ s.turn.head? = some .takePlan ∧ s.said = [])
  order : s.said.Pairwise (· < ·)

def Carries (top : Nat) (s : State) : Act → Prop
  | .beside a =>
    match a with
    | .endClaim x => x.layer top ≤ top
    | .endMark x | .endStore x => s.stack.phase.over = true ∧ x.layer top ≤ top ∧
      x.layer top + 1 = s.initiator ∧ Ahead s (x.layer top)
    | .markOpen | .call _ | .endCut _ | .cutPlan | .request | .requestClaim | .wake
    | .endAtSocket _ | .socketClose _ | .socketFails | .onClose => True
    | _ => False
  | .begin a => a = .onOpen ∨ a = .turn
  | _ => True

/-- What a call beside the turn leaves alone, and what it marks and plans. -/
structure Aside (top : Nat) (s t : State) : Prop where
  turn : t.turn = s.turn
  calling : t.calling = s.calling
  said : t.said = s.said
  later : rank s.stack.phase ≤ rank t.stack.phase
  word : s.stack.phase.over = true → t.initiator = s.initiator
  marks : ∀ j, t.stack.walked j = true → s.stack.walked j = true ∨
    s.stack.phase.over = true ∧ j + 1 = s.initiator
  plans : ∀ p, t.stack.plan = some p → s.stack.plan = some p ∨ s.stack.phase.over = true ∧
    Ahead s (min p.start top) ∧ min p.start top + 1 = s.initiator

def calm (turn : List Section) : Bool :=
  match turn with
  | [] => true
  | a :: _ => late a || a == .takePlan

def Kept (s t : Stack) : Prop := t.plan = s.plan ∧ ∀ j, t.walked j = s.walked j

/-- What a section of the turn does to the walk, the plan and the marks: the section, what the
    turn has left behind it, and the layer that is called. -/
inductive Goes (top : Nat) (s t : Stack) (rest : List Section) :
    Section → List Section → Option Nat → Prop
  | calm {a next} (far : level (a :: rest) = none ∨ t.phase.noLayerCalls = true)
      (kept : Kept s t) (taken : a = .takePlan → s.plan = none)
      (puts : ∀ b ∈ next.tail, late b = true) (quiet : calm next = true) :
      Goes top s t rest a next none
  | take {p} (plan : s.plan = some p) (taken : t.plan = none)
      (walked : ∀ j, t.walked j = s.walked j) :
      Goes top s t rest .takePlan (.planLook p :: rest) none
  | look {p f i} (live : s.phase.noLayerCalls = false) (start : i = min p.start top)
      (plan : t.plan = s.plan) (walked : ∀ j, t.walked j = true → s.walked j = true ∨ j = i) :
      Goes top s t rest (.planLook p) (.walk i p f :: rest) none
  | call {i p f} (kept : Kept s t) : Goes top s t rest (.walk i p f) (.walkFlush i p f :: rest) (some i)
  | flush {i p f} (kept : Kept s t) : Goes top s t rest (.walkFlush i p f) (.walkDown i p :: rest) none
  | cease {a g i} (here : level (a :: rest) = some i) (past : a ≠ .takePlan) (kept : Kept s t) :
      Goes top s t rest a (.endAtSocket g :: rest) none
  | stop {i p} (owned : s.walked i = true) (kept : Kept s t) : Goes top s t rest (.walkDown (i + 1) p) rest none
  | down {i p} (plan : t.plan = s.plan)
      (walked : ∀ j, t.walked j = true → s.walked j = true ∨ j = i) :
      Goes top s t rest (.walkDown (i + 1) p) (.walk i p true :: rest) none
  | fail {cause r} (free : s.phase.over = false) (kept : Kept s t) :
      Goes top s t rest (.failLook cause r) (.failClaim cause r :: rest) none
  | claim {cause r} (claimed : t.phase.over = true) (kept : Kept s t) :
      Goes top s t rest (.failClaim cause r) (.failStore cause r :: rest) none
  | store {cause r p} (plan : t.plan = some p) (start : min p.start top = top)
      (walked : ∀ j, t.walked j = s.walked j) :
      Goes top s t rest (.failStore cause r) (.takePlan :: .failReturn cause r :: rest) none

theorem plan_level {x : Call} (within : x.layer top ≤ top) :
    min (x.plan top).start top = x.layer top := by
  cases x <;> simp_all [Call.plan, Call.layer, Call.fromAbove]

theorem over_of_rank {p q : Phase} (later : rank p ≤ rank q) (already : p.over = true) :
    q.over = true := by
  cases p <;> cases q <;> simp_all [rank, Phase.over]

theorem noLayerCalls_of_rank {p q : Phase} (later : rank p ≤ rank q)
    (already : p.noLayerCalls = true) : q.noLayerCalls = true := by
  cases p <;> cases q <;> simp_all [rank, Phase.noLayerCalls]

theorem beginClosing_over (past : s.stack.phase.over = true) :
    beginClosing top s a = (s.initiator, s.begun) := if_pos past

theorem aside_beside (carries : Carries top s (.beside a)) : Aside top s (perform top c a s).1 := by
  refine ⟨rfl, rfl, rfl, rank_exec top c a s.stack, ?_, ?_, ?_⟩
  · intro past
    dsimp only [perform]
    rw [beginClosing_over past]
  · cases a
    all_goals dsimp only [Carries, perform, LayerClose.exec, execCall, execRequest, execWalk] at *
    all_goals first | exact carries.elim | grind -ring -linarith [Function.update]
  · cases a
    case endStore x =>
      rintro p ⟨⟩
      rw [plan_level carries.2.1]
      exact .inr ⟨carries.1, carries.2.2.2, carries.2.2.1⟩
    all_goals dsimp only [Carries, perform, LayerClose.exec, execCall, execRequest, execWalk] at *
    all_goals first | exact carries.elim | grind -ring -linarith

theorem Aside.ahead {n : Nat} (aside : Aside top s t) (ahead : Ahead s n) : Ahead t n := by
  rw [Ahead, aside.turn, aside.said]
  exact ahead.imp_left (noLayerCalls_of_rank aside.later)

theorem Aside.fits (aside : Aside top s t) {turn : List Section}
    (fits : Fits top s turn) : Fits top t turn := by
  have past := over_of_rank aside.later
  have ended := noLayerCalls_of_rank aside.later
  unfold Fits at fits ⊢
  rw [aside.said, aside.calling]
  split at fits <;> grind -ring -linarith

theorem Aside.walks (aside : Aside top s t) (held : Walks top s) : Walks top t := by
  have ahead : ∀ {n}, Ahead s n → Ahead t n := aside.ahead
  have fits := aside.fits held.fits
  obtain ⟨turn, calling, said, later, word, marks, plans⟩ := aside
  have past := over_of_rank later
  have ended := noLayerCalls_of_rank later
  obtain ⟨puts, _, calls, fresh, marked, planned, order⟩ := held
  constructor
  case puts => exact turn ▸ puts
  case fits => exact turn ▸ fits
  case order => exact said ▸ order
  case fresh => cases new : t.stack.plan <;> grind -ring -linarith
  all_goals grind -ring -linarith

theorem Aside.carries (aside : Aside top s t) {a : Act}
    (carries : Carries top s a) : Carries top t a := by
  have past := over_of_rank aside.later
  have ahead : ∀ {n}, Ahead s n → Ahead t n := aside.ahead
  have word := aside.word
  unfold Carries at carries ⊢
  split at carries <;> grind -ring -linarith

theorem beside_carries (carries : Carries top s (.beside a)) (held : Walks top s) :
    ∀ b ∈ (perform top c a s).2, Carries top (perform top c a s).1 (.beside b) := by
  have aside := aside_beside (c := c) carries
  have fresh := held.fresh
  cases a
  case endMark x => exact fun b member => List.mem_singleton.mp member ▸ aside.carries carries
  case endClaim x =>
    dsimp only [perform, LayerClose.exec, execCall, beginClosing]
    cases phase : s.stack.phase.over
    · intro b member
      obtain rfl := List.mem_singleton.mp member
      exact ⟨rfl, carries, rfl, .inr (.inl (by simp [fresh phase]))⟩
    · intro b member
      obtain rfl := List.mem_singleton.mp member
      trivial
  all_goals dsimp only [Carries, perform, LayerClose.exec, execCall, execRequest, execWalk] at *
  all_goals first | exact carries.elim | grind -ring -linarith

theorem calm_level {turn : List Section} (quiet : calm turn = true) : level turn = none := by
  unfold level
  split <;> simp_all [calm, late]

theorem calm_fits {turn : List Section} (quiet : calm turn = true) : Fits top s turn := by
  unfold Fits
  split <;> simp_all [calm, late]

theorem calm_of_puts {turn : List Section} (puts : ∀ a ∈ turn, late a = true) :
    calm turn = true := by
  cases turn with
  | nil => rfl
  | cons a rest => simp [calm, puts a List.mem_cons_self]

theorem exec_plain {s : Stack} (unasked : c.call = none)
    (other : late a = true) (running : ∀ e r, a ≠ .failLook e r) :
    (LayerClose.exec top c a s).1.phase = s.phase ∧ (LayerClose.exec top c a s).1.plan = s.plan ∧
      (LayerClose.exec top c a s).1.walked = s.walked ∧
      calm ((LayerClose.exec top c a s).2.filter (· ≠ .user)) = true ∧
      ∀ b ∈ ((LayerClose.exec top c a s).2.filter (· ≠ .user)).tail, late b = true := by
  cases a
  all_goals first
    | cases other; done
    | dsimp only [LayerClose.exec, execCall, execRequest, execWalk, execTurn, execFail]
      repeat' split
      all_goals simp_all [calm, late]

def Onward (s t : State) : Prop :=
  s.stack.phase.over = true → t.initiator = s.initiator ∧ t.stack.phase.over = true ∧
    ∀ n, n + 1 = s.initiator → Ahead s n → Ahead t n

theorem goodbye_walks {i : Nat} (held : Walks top s) (calling : s.calling = some i) :
    Walks top { s with calling := none, said := i :: s.said } ∧
      Onward s { s with calling := none, said := i :: s.said } := by
  obtain ⟨puts, fits, calls, fresh, marked, planned, order⟩ := held
  obtain ⟨p, f, rest, turn⟩ := calls i calling
  rw [turn] at fits
  obtain ⟨past, next⟩ := fits
  rw [if_pos calling] at next
  have here : level s.turn = some i := by rw [turn]; rfl
  have ahead : ∀ n, Ahead s n → Ahead { s with calling := none, said := i :: s.said } n := by
    intro n
    unfold Ahead
    grind -ring -linarith
  refine ⟨⟨puts, ?_, ?_, ?_, ?_, ?_, ?_⟩, fun _ => ⟨rfl, past, fun n _ => ahead n⟩⟩
  · rw [turn]
    exact ⟨past, by grind -ring -linarith⟩
  · exact fun _ none => nomatch none
  · grind -ring -linarith
  · grind -ring -linarith
  · grind -ring -linarith
  · exact List.pairwise_cons.mpr ⟨next, order⟩

theorem calm_append {next rest : List Section} (first : calm next = true)
    (then_ : calm rest = true) : calm (next ++ rest) = true := by
  cases next with
  | nil => exact then_
  | cons => exact first

theorem late_append {next rest : List Section} (first : ∀ b ∈ next.tail, late b = true)
    (then_ : ∀ b ∈ rest, late b = true) : ∀ b ∈ (next ++ rest).tail, late b = true := by
  intro b member
  cases next with
  | nil => exact then_ b (List.mem_of_mem_tail member)
  | cons => exact (List.mem_append.mp member).elim (first b) (then_ b)

theorem section_goes
    (unasked : c.call = none) (puts : ∀ b ∈ rest, late b = true) (fits : Fits top s (a :: rest)) :
    Goes top s.stack (stepped top c a rest s).stack rest a (stepped top c a rest s).turn
      (stepped top c a rest s).calling := by
  have kept : Kept s.stack s.stack := ⟨rfl, fun _ => rfl⟩
  have quiet := calm_of_puts puts
  have rests : ∀ b ∈ rest.tail, late b = true := fun b member => puts b (List.mem_of_mem_tail member)
  cases a
  case takePlan =>
    cases plan : s.stack.plan with
    | none =>
      simp only [stepped, perform, LayerClose.exec, execWalk, plan]
      exact .calm (.inl rfl) kept (fun _ => plan) rests quiet
    | some p =>
      simp only [stepped, perform, LayerClose.exec, execWalk, plan]
      exact .take plan rfl (fun _ => rfl)
  case planLook p =>
    simp only [stepped, perform, LayerClose.exec, execWalk]
    split
    · rename_i ended
      exact .calm (.inr ended) kept nofun rests quiet
    · rename_i live
      rw [Bool.not_eq_true] at live
      split
      · exact .look live (by omega) rfl (fun _ => .inl)
      · refine .look live (by omega) rfl ?_
        grind -ring -linarith [Function.update]
  case walk i p f =>
    simp only [stepped, perform, LayerClose.exec, execWalk, calls]
    split
    · rename_i ended
      exact .calm (.inr ended) kept nofun rests quiet
    · exact .call kept
  case walkFlush i p f =>
    simp only [stepped, perform, LayerClose.exec, execWalk, calls]
    repeat' split
    · exact .cease rfl nofun kept
    · exact .flush kept
    · exact .flush kept
  case walkDown i p =>
    cases i with
    | zero => exact .cease rfl nofun kept
    | succ i =>
      simp only [stepped, perform, LayerClose.exec, execWalk]
      split
      · rename_i owned
        exact .stop owned kept
      · refine .down rfl ?_
        grind -ring -linarith [Function.update]
  case endAtSocket =>
    refine .calm (.inr ?_) kept nofun puts rfl
    dsimp only [stepped, perform, LayerClose.exec, execWalk]
    split
    · assumption
    · rfl
  case failLook cause r =>
    simp only [stepped, perform, LayerClose.exec, execFail]
    split
    · refine .calm (.inl rfl) kept nofun ?_ rfl
      exact List.forall_mem_cons.mpr ⟨rfl, puts⟩
    · rename_i free
      exact .fail (Bool.eq_false_of_not_eq_true free) kept
  case failClaim cause r =>
    refine .claim ?_ kept
    dsimp only [stepped, perform, LayerClose.exec, execFail]
    split
    · assumption
    · rfl
  case failStore => exact .store rfl (Nat.min_eq_right (Nat.le_succ top)) (fun _ => rfl)
  all_goals
    obtain ⟨_, plan, walked, calm, tail⟩ := @exec_plain top c _ s.stack unasked fits nofun
    refine .calm (.inl rfl) ⟨plan, congrFun walked⟩ nofun ?_ ?_
    · exact late_append tail puts
    · exact calm_append calm quiet

theorem goes_walks (held : Walks top s) (turn : s.turn = a :: rest) (idle : s.calling = none)
    (goes : Goes top s.stack t.stack rest a t.turn t.calling)
    (said : t.said = s.said) (later : rank s.stack.phase ≤ rank t.stack.phase)
    (word : s.stack.phase.over = true → t.initiator = s.initiator) : Walks top t ∧ Onward s t := by
  obtain ⟨puts, fits, _, fresh, marked, planned, order⟩ := held
  have past := over_of_rank later
  have ended := noLayerCalls_of_rank later
  simp only [Ahead, turn, List.tail_cons, List.head?_cons, Option.some.injEq]
    at puts fits marked planned
  have quiet := calm_of_puts puts
  have resting := calm_level quiet
  generalize turned : t.turn = next, calling : t.calling = call at goes
  cases goes
  case calm far kept taken late quiet =>
    have near := calm_level quiet
    refine ⟨⟨turned ▸ late, turned ▸ calm_fits quiet, ?_, ?_, ?_, ?_, said ▸ order⟩, ?_⟩
    all_goals simp only [turned, calling, Onward, Ahead, near, said, turn]
    all_goals grind -ring -linarith [Kept]
  case stop =>
    refine ⟨⟨turned ▸ fun b member => puts b (List.mem_of_mem_tail member),
      turned ▸ calm_fits quiet, ?_, ?_, ?_, ?_, said ▸ order⟩, ?_⟩
    all_goals dsimp only [Fits, level] at fits marked planned
    all_goals simp only [turned, calling, Onward, Ahead, level, said, turn]
    all_goals grind -ring -linarith [Kept]
  case cease =>
    refine ⟨⟨?_, ?_, ?_, ?_, ?_, ?_, said ▸ order⟩, ?_⟩
    all_goals simp only [turned, calling, Onward, Ahead, Fits, level, said, turn, List.tail_cons, List.head?_cons, Option.some.injEq]
    all_goals grind -ring -linarith [Kept]
  all_goals dsimp only [Fits, level] at fits marked planned
  all_goals refine ⟨⟨?_, ?_, ?_, ?_, ?_, ?_, said ▸ order⟩, ?_⟩
  all_goals simp only [turned, calling, Onward, Ahead, Fits, level, said, turn, List.tail_cons, List.head?_cons, Option.some.injEq]
  all_goals grind -ring -linarith [late, Kept]

theorem advance_walks (held : Walks top s) :
    Walks top (advance top c s) ∧ Onward s (advance top c s) := by
  have same : Onward s s := fun past => ⟨rfl, past, fun _ _ ahead => ahead⟩
  unfold advance
  split
  · rename_i calling
    exact goodbye_walks held calling
  · obtain ⟨puts, fits, calls, fresh, marked, planned, order⟩ := held
    exact ⟨⟨puts, fits, calls, fresh, marked, planned, order⟩, same⟩
  · exact ⟨held, same⟩
  · rename_i a rest calling _ turn
    have puts := held.puts
    have fits := held.fits
    rw [turn] at puts fits
    refine goes_walks held turn calling (section_goes rfl puts fits) rfl (rank_exec top _ a s.stack) ?_
    intro past
    exact congrArg Prod.fst (beginClosing_over past)

theorem Onward.carries (onward : Onward s t) {a : Act}
    (carries : Carries top s a) : Carries top t a := by
  unfold Onward at onward
  unfold Carries at carries ⊢
  split at carries <;> grind -ring -linarith

theorem begin_walks (held : Walks top s)
    (own : a = .onOpen ∨ a = .turn) (idle : s.turn = []) :
    Walks top { s with turn := [a] } ∧ Onward s { s with turn := [a] } := by
  obtain ⟨_, _, calls, fresh, marked, planned, order⟩ := held
  simp only [idle, Ahead] at calls marked planned
  rcases own with rfl | rfl
  all_goals refine ⟨⟨nofun, rfl, ?_, fresh, ?_, ?_, order⟩, ?_⟩
  all_goals simp only [Onward, Ahead, idle]
  all_goals grind -ring -linarith [level]

theorem walks_run {ok : Decision → Act → State → Prop}
    (run : Run (program top) ok ⟨State.fresh, []⟩ q) :
    Walks top q.state ∧ ∀ a ∈ owed q, Carries top q.state a := by
  refine owed_carries (Walks top) (Carries top) ?_ (by rintro _ ⟨⟩) ?_ ?_ run
  · exact ⟨by simp [State.fresh], trivial, nofun, fun _ => ⟨rfl, rfl, fun _ => rfl⟩, nofun, nofun, .nil⟩
  · intro s a _ entry
    unfold program LayerGoodbyes.entry at entry
    unfold Carries
    grind -ring -linarith
  · intro s a c ready _ held carries
    cases a with
    | beside a =>
      have aside := aside_beside (c := c.toChoice) carries
      refine ⟨aside.walks held, fun b => aside.carries, ?_⟩
      intro b member
      obtain ⟨b, more, rfl⟩ := List.mem_map.mp member
      exact beside_carries carries held b more
    | begin a =>
      have idle : s.turn = [] := List.isEmpty_iff.mp (Bool.and_eq_true_iff.mp ready).2
      obtain ⟨walks, onward⟩ := begin_walks held carries idle
      exact ⟨walks, fun b => onward.carries, nofun⟩
    | advance =>
      obtain ⟨walks, onward⟩ := advance_walks (c := c.toChoice) held
      exact ⟨walks, fun b => onward.carries, nofun⟩
    | enter | enterAgain | inside =>
      dsimp only [program, exec]
      grind -ring -linarith [Carries]

theorem goodbyes_once_top_down (run : Reachable (program top) ⟨State.fresh, []⟩ q) :
    q.state.said.Pairwise (· < ·) ∧
      ∀ c a, rank q.state.stack.phase ≤ rank (exec top c a q.state).1.stack.phase :=
  ⟨(walks_run run).1.order, fun c a => rank_step top c a q.state⟩

def turns (first count : Nat) (c : Decision) : List (Move Act Decision) :=
  (List.range count).flatMap fun i => [.start .advance, .run (first + i) c]

/-- The stack opens; its Handler calls `CloseWith`, and the next turn walks. -/
def walkedClose (steps : Nat) : List (Move Act Decision) :=
  List.flatten [[.start (.begin .onOpen)], runs 0 1 {}, turns 1 8 {},
    [.start (.beside (.call (.closeWith .none)))], runs 9 7 {}, [.start (.begin .turn)], runs 10 1 {},
    turns 11 steps {}]

theorem goodbyes_once_top_down_two :
    ∃ q, Reachable (program 1) ⟨State.fresh, []⟩ q ∧ q.state.said = [0, 1] ∧
      q.state.said.Pairwise (· < ·) := by
  obtain ⟨q, run, said⟩ := replay_reaches (P := program 1) (p := ⟨State.fresh, []⟩) (walkedClose 20)
    (fun q => decide (q.state.said = [0, 1])) (by decide +kernel)
  exact ⟨q, run, of_decide_eq_true said, (goodbyes_once_top_down run).1⟩

/-- No close reaches the socket beside a turn that stands between its look at the phase and the
    layer's goodbye or flush. -/
def Uncut (_ : Decision) (a : Act) (s : State) : Prop :=
  ∀ g, a = .beside (.endAtSocket g) → s.calling = none ∧ s.flushing = none

def Live (s : State) : Prop :=
  s.calling ≠ none ∨ s.flushing ≠ none → s.stack.phase.noLayerCalls = false ∧ s.turn ≠ []

theorem exec_ends {s : Stack} (live : s.phase.noLayerCalls = false) :
    (LayerClose.exec top c a s).1.phase.noLayerCalls = false ∨ a = .onClose ∨
      ∃ g, a = .endAtSocket g := by
  cases a
  case onClose => exact .inr (.inl rfl)
  case endAtSocket g => exact .inr (.inr ⟨g, rfl⟩)
  all_goals
    dsimp only [LayerClose.exec, execCall, execRequest, execWalk, execTurn, execFail]
    grind -ring -linarith [Phase.noLayerCalls]

theorem stepped_live : Live (stepped top c a rest s) := by
  cases a
  case walk i p f =>
    dsimp only [Live, stepped, perform, LayerClose.exec, execWalk, calls, flushes]
    split <;> simp_all
  case walkFlush i p f =>
    dsimp only [Live, stepped, perform, LayerClose.exec, execWalk, calls, flushes]
    repeat' split
    all_goals simp_all
  all_goals exact fun some => absurd some (by simp [stepped, calls, flushes])

theorem live_run (run : Run (program top) Uncut ⟨State.fresh, []⟩ q) : Live q.state := by
  refine owed_invariant (fun s _ => Live s) ?_ (fun _ _ _ _ held => held) ?_ run
  · exact fun some => absurd some (by simp [State.fresh])
  · intro s others a c ready allowed held
    cases a with
    | beside a =>
      intro some
      obtain ⟨live, turn⟩ := held some
      refine ⟨?_, turn⟩
      rcases @exec_ends top c.toChoice a _ live with still | rfl | ⟨g, rfl⟩
      · exact still
      · simp [program, LayerGoodbyes.ready, turn] at ready
      · have quiet := allowed g rfl
        exact absurd some (by simp [program, exec, perform, quiet])
    | advance =>
      dsimp only [program, exec]
      unfold advance
      split
      · exact fun _ => held (.inl (by simp_all))
      · exact fun _ => held (.inr (by simp_all))
      · exact held
      · exact stepped_live
    | begin a => exact fun some => ⟨(held some).1, nofun⟩
    | enter | enterAgain | inside =>
      dsimp only [program, exec]
      grind -ring -linarith

/-- Once the phase says that the close reached the socket, no step starts a goodbye or a flush. -/
theorem no_goodbye_after_ending (run : Run (program top) Uncut ⟨State.fresh, []⟩ q)
    (ended : q.state.stack.phase.noLayerCalls = true) (c : Decision) (a : Act) :
    (exec top c a q.state).1.said = q.state.said ∧
      (exec top c a q.state).1.flushed = q.state.flushed := by
  have live : ¬(q.state.calling ≠ none ∨ q.state.flushing ≠ none) :=
    fun some => by simpa [ended] using live_run run some
  simp only [ne_eq, not_or, not_not] at live
  cases a with
  | advance =>
    dsimp only [exec]
    unfold advance
    split <;> simp_all [stepped, perform]
  | beside | begin | inside => exact ⟨rfl, rfl⟩
  | enter | enterAgain =>
    dsimp only [exec]
    split <;> exact ⟨rfl, rfl⟩

def uncut : Act → Bool
  | .beside (.endAtSocket _) => false
  | _ => true

theorem uncut_sound (c : Decision) (a : Act) (s : State) (test : uncut a = true) : Uncut c a s := by
  rintro g rfl
  cases test

theorem no_goodbye_after_ending_walked :
    ∃ q, Run (program 1) Uncut ⟨State.fresh, []⟩ q ∧ q.state.stack.phase.noLayerCalls = true ∧
      (exec 1 {} .advance q.state).1.said = q.state.said := by
  obtain ⟨q, run, ended⟩ := replay_runs (P := program 1) (p := ⟨State.fresh, []⟩) uncut_sound
    (fun q => q.state.stack.phase.noLayerCalls) (walkedClose 20) (by decide +kernel)
    (by decide +kernel)
  exact ⟨q, run, ended, (no_goodbye_after_ending run ended {} .advance).1⟩

/-- The walk has looked at the phase when an abort cuts the close short and goes to the socket;
    the layer's goodbye starts after that. -/
theorem goodbye_after_ending : ∃ q, Reachable (program 0) ⟨State.fresh, []⟩ q ∧
    q.state.stack.phase = .ending ∧ q.state.said = [] ∧
      (exec 0 {} .advance q.state).1.said = [0] := by
  obtain ⟨q, run, late⟩ := replay_reaches (P := program 0) (p := ⟨State.fresh, []⟩)
    (List.flatten [walkedClose 6, [.start (.beside (.call (.abort 0 (.other 0))))], runs 17 5 {}])
    (fun q => decide (q.state.stack.phase = .ending ∧ q.state.said = [] ∧
      (exec 0 {} .advance q.state).1.said = [0])) (by decide +kernel)
  exact ⟨q, run, of_decide_eq_true late⟩

def Unfailing (_ : Decision) (a : Act) (s : State) : Prop :=
  ∀ cause r rest, a = .advance → s.turn = .failClaim cause r :: rest → s.stack.phase.over = true

def Begun (top : Nat) (s : State) : Prop :=
  s.stack.phase = .closing →
    ∃ x, s.begun = some x ∧ s.initiator = x.layer top + 1 ∧ x.layer top ≤ top

theorem exec_claims {s : Stack} (closing : (LayerClose.exec top c a s).1.phase = .closing) :
    s.phase = .closing ∨ s.phase.over = false ∧
      ((∃ x, a = .endClaim x) ∨ ∃ cause r, a = .failClaim cause r) := by
  cases a
  all_goals
    dsimp only [LayerClose.exec, execCall, execRequest, execWalk, execTurn, execFail] at closing
    grind -ring -linarith

theorem perform_begun (claims : ∀ x, a = .endClaim x → x.layer top ≤ top)
    (fails : ∀ cause r, a = .failClaim cause r → s.stack.phase.over = true)
    (held : Begun top s) : Begun top (perform top c a s).1 := by
  intro closing
  rcases exec_claims closing with already | ⟨free, ⟨x, rfl⟩ | ⟨cause, r, rfl⟩⟩
  · have past : s.stack.phase.over = true := by rw [already]; rfl
    dsimp only [perform]
    rw [beginClosing_over past]
    exact held already
  · refine ⟨x, ?_, ?_, claims x rfl⟩ <;> simp [perform, beginClosing, free]
  · exact absurd (fails cause r rfl) (by simp [free])

theorem begun_run (run : Run (program top) Unfailing ⟨State.fresh, []⟩ q) : Begun top q.state := by
  refine owed_invariant_given
    (fun s owing => Walks top s ∧ ∀ a ∈ owing, Carries top s a) (fun s _ => Begun top s)
    (fun _ => walks_run) nofun (fun _ _ _ _ held => held) ?_ run
  intro s others a c ready allowed facts held
  cases a with
  | beside a =>
    have carries := facts.2 _ (Multiset.mem_cons_self _ _)
    exact perform_begun (fun x same => by subst same; exact carries)
      (fun cause r same => by subst same; exact carries.elim) held
  | advance =>
    dsimp only [program, exec]
    unfold advance
    split
    · exact held
    · exact held
    · exact held
    · rename_i a rest _ _ turn
      have fits := facts.1.fits
      rw [turn] at fits
      refine perform_begun (fun x same => ?_) (fun cause r same => ?_) held
      · subst same
        cases fits
      · subst same
        exact allowed cause r rest rfl turn
  | begin => exact held
  | enter | enterAgain | inside =>
    dsimp only [program, exec]
    grind -ring -linarith

/-- A closing stack admits only writes into layers below the one that the close began at. -/
theorem closing_refuses_writes (run : Run (program top) Unfailing ⟨State.fresh, []⟩ q)
    (closing : q.state.stack.phase.over = true) (c : Decision) :
    (exec top c (.enter top) q.state).2 = [] ∧ ∀ layer, (exec top c (.enter layer) q.state).2 ≠ [] →
        ∃ x, q.state.begun = some x ∧ layer < x.layer top := by
  have begun := begun_run run
  have admitted : ∀ layer, (exec top c (.enter layer) q.state).2 ≠ [] →
      ∃ x, q.state.begun = some x ∧ layer < x.layer top ∧ x.layer top ≤ top := by
    intro layer
    dsimp only [exec, refuses, mayWriteDown]
    grind -ring -linarith [Phase.over, Begun]
  refine ⟨?_, fun layer enters => ?_⟩
  · by_contra enters
    obtain ⟨x, _, below, within⟩ := admitted top enters
    omega
  · obtain ⟨x, began, below, _⟩ := admitted layer enters
    exact ⟨x, began, below⟩

def settled : Act → Bool
  | .advance => false
  | _ => true

theorem settled_sound (c : Decision) (a : Act) (s : State) (test : settled a = true) :
    Unfailing c a s := by
  rintro cause r rest rfl
  cases test

theorem closing_refuses_writes_closeWith :
    ∃ q, Run (program 0) Unfailing ⟨State.fresh, []⟩ q ∧ q.state.stack.phase.over = true ∧
      (exec 0 {} (.enter 0) q.state).2 = [] := by
  obtain ⟨q, run, closing⟩ := replay_runs (P := program 0) (p := ⟨State.fresh, []⟩) settled_sound
    (fun q => q.state.stack.phase.over)
    (.start (.beside (.call (.closeWith .none))) :: runs 0 7 {}) (by decide +kernel)
    (by decide +kernel)
  exact ⟨q, run, closing, (closing_refuses_writes run closing {}).1⟩

/-- A turn ends with `io.EOF` and publishes the close above the top layer, so that the layer still
    takes the Handler's write. -/
theorem failed_turn_admits_write : ∃ q, Reachable (program 0) ⟨State.fresh, []⟩ q ∧
    q.state.stack.phase = .closing ∧ (exec 0 {} (.enter 0) q.state).2 = [.enterAgain 0] ∧
      (exec 0 {} (.enterAgain 0) q.state).2 = [.inside 0] := by
  obtain ⟨q, run, enters⟩ := replay_reaches (P := program 0) (p := ⟨State.fresh, []⟩)
    (List.flatten [[.start (.begin .onOpen)], runs 0 1 {}, turns 1 8 {}, [.start (.begin .turn)],
      runs 9 1 {}, turns 10 7 { fault := some .eof }])
    (fun q => decide (q.state.stack.phase = .closing ∧
      (exec 0 {} (.enter 0) q.state).2 = [.enterAgain 0] ∧
      (exec 0 {} (.enterAgain 0) q.state).2 = [.inside 0])) (by decide +kernel)
  exact ⟨q, run, of_decide_eq_true enters⟩

end LayerGoodbyes
