import Uio.Interleaving

/-!
Room at the top of a stack. A Handler's write reserves its bytes and then reads what
waits below: the layers from the top down, and the socket. It is admitted if that and
what was reserved at its own addition fit the limit. Bytes move down only, and every
counter drops a byte after the next one has it, so a byte is never between two counts.
Once the socket's OnClose has run no layer is asked what it holds, which ends the bound.
The layers here pass on as many bytes as they are given and count what they hold.
-/
namespace LayerRoom
open Interleaving
open Function (update update_of_ne update_self)
open Multiset (mem_add mem_coe mem_cons_of_mem mem_cons_self)
open List (countP countP_append countP_le_length forall_mem_append forall_mem_singleton map_nil
  mem_of_mem_drop mem_of_mem_take mem_singleton sum_nil)

/-- The Handler's write a byte belongs to, in the order of their reservations; a layer's own
    bytes belong to none. -/
abbrev Owner := Option Nat

inductive After where
  | leave (n : Nat)
  | unhold (layer n : Nat)
  | stop
  deriving DecidableEq

structure Room where
  reserved : Int
  fresh : Nat
  /-- one past the latest write admitted -/
  last : Nat
  hold : Nat → List Owner
  /-- bytes handed down that the layer still counts -/
  heldLag : Nat → Nat
  /-- the socket's bytes not yet sent -/
  queue : List Owner
  /-- sent bytes that the socket still counts -/
  queueLag : Nat
  /-- the socket's OnClose ran -/
  closed : Bool

def Room.empty : Room :=
  { reserved := 0, fresh := 0, last := 0, hold := fun _ => [], heldLag := fun _ => 0, queue := [],
    queueLag := 0, closed := false }

inductive Act where
  | hold (layer n : Nat)
  | write (n direct : Nat)
  | done

structure Choice where
  act : Act := .done
  amount : Nat := 0

inductive Section where
  | write (n : Nat)
  /-- `looked` once the layer's guard found the stack not closed -/
  | check (id n : Nat) (reserved : Int) (layer acc : Nat) (looked : Bool)
  | refuse (n : Nat)
  | carry (level : Nat) (bytes : List Owner) (next : After)
  | leave (n : Nat)
  | unhold (layer n : Nat)
  | own (layer n : Nat)
  | flush (layer : Nat)
  | send
  | retire (n : Nat)
  | close
  deriving DecidableEq

def entry : Section → Bool
  | .write _ | .own _ _ | .flush _ | .send | .close => true
  | _ => false

/-- `limit` is MaxOutboundBuffered, zero for none; `layers` is the height of the stack. -/
def exec (limit layers : Nat) (c : Choice) (a : Section) (s : Room) : Room × List Section :=
  match a with
  | .write n =>
    if limit = 0 then
      ({ s with fresh := s.fresh + 1, last := s.fresh + 1 },
        [.carry layers (List.replicate n (some s.fresh)) .stop])
    else
      ({ s with reserved := s.reserved + n, fresh := s.fresh + 1 },
        [.check s.fresh n (s.reserved + n) layers 0 false])
  | .check id n reserved layer acc looked =>
    match layer with
    | layer + 1 =>
      (s, [if looked then
          .check id n reserved layer (acc + ((s.hold layer).length + s.heldLag layer)) false
        else if s.closed then .check id n reserved layer acc false
        else .check id n reserved (layer + 1) acc true])
    | 0 =>
      if ((acc + (s.queue.length + s.queueLag) : Nat) : Int) + reserved > limit then (s, [.refuse n])
      else
        ({ s with last := max s.last (id + 1) },
          [.carry layers (List.replicate n (some id)) (.leave n)])
  | .refuse n => ({ s with reserved := s.reserved - n }, [])
  | .carry level bytes next =>
    match c.act with
    | .hold layer n =>
      if layer < level ∧ layer < layers then
        ({ s with hold := Function.update s.hold layer (s.hold layer ++ bytes.take n) },
          [.carry level (bytes.drop n) next])
      else (s, [.carry level bytes next])
    | .write n direct =>
      let now := if s.queue = [] then min direct n else 0
      ({ s with queue := s.queue ++ (bytes.take n).drop now }, [.carry level (bytes.drop n) next])
    | .done =>
      match next with
      | .leave n => (s, [.leave n])
      | .unhold layer n => (s, [.unhold layer n])
      | .stop => (s, [])
  | .leave n => ({ s with reserved := s.reserved - n }, [])
  | .unhold layer n =>
    ({ s with heldLag := Function.update s.heldLag layer (s.heldLag layer - n) }, [])
  | .own layer n => (s, [.carry (min layer layers) (List.replicate n none) .stop])
  | .flush layer =>
    if layer < layers then
      let taken := (s.hold layer).take c.amount
      ({ s with
          hold := Function.update s.hold layer ((s.hold layer).drop c.amount)
          heldLag := Function.update s.heldLag layer (s.heldLag layer + taken.length) },
        [.carry layer taken (.unhold layer taken.length)])
    else (s, [])
  | .send =>
    ({ s with
        queue := s.queue.drop c.amount
        queueLag := s.queueLag + (s.queue.take c.amount).length },
      [.retire (s.queue.take c.amount).length])
  | .retire n => ({ s with queueLag := s.queueLag - n }, [])
  | .close => ({ s with closed := true }, [])

def program (limit layers : Nat) : Program Room Section Choice :=
  ⟨entry, fun _ _ => true, exec limit layers⟩

variable {limit layers : Nat} {s s' : Room} {a : Section} {more : List Section}
  {others owing : Multiset Section}

inductive Step (limit layers : Nat) (s : Room) : Section → Room → List Section → Prop where
  | reserve (n : Nat) :
    Step limit layers s (.write n) { s with reserved := s.reserved + n, fresh := s.fresh + 1 }
      [.check s.fresh n (s.reserved + n) layers 0 false]
  | look (id n : Nat) (reserved : Int) (layer acc : Nat) :
    Step limit layers s (.check id n reserved (layer + 1) acc false) s
      [.check id n reserved (layer + 1) acc true]
  | skip (id n : Nat) (reserved : Int) (layer acc : Nat) (closed : s.closed = true) :
    Step limit layers s (.check id n reserved (layer + 1) acc false) s
      [.check id n reserved layer acc false]
  | read (id n : Nat) (reserved : Int) (layer acc : Nat) :
    Step limit layers s (.check id n reserved (layer + 1) acc true) s
      [.check id n reserved layer (acc + ((s.hold layer).length + s.heldLag layer)) false]
  | deny (id n : Nat) (reserved : Int) (acc : Nat) (looked : Bool) :
    Step limit layers s (.check id n reserved 0 acc looked) s [.refuse n]
  | grant (id n : Nat) (reserved : Int) (acc : Nat) (looked : Bool)
      (fits : (acc : Int) + s.queue.length + reserved ≤ limit) :
    Step limit layers s (.check id n reserved 0 acc looked) { s with last := max s.last (id + 1) }
      [.carry layers (List.replicate n (some id)) (.leave n)]
  | refuse (n : Nat) :
    Step limit layers s (.refuse n) { s with reserved := s.reserved - n } []
  | hold (level : Nat) (bytes : List Owner) (next : After) (layer n : Nat) (below : layer < level) :
    Step limit layers s (.carry level bytes next)
      { s with hold := Function.update s.hold layer (s.hold layer ++ bytes.take n) }
      [.carry level (bytes.drop n) next]
  | idle (level : Nat) (bytes : List Owner) (next : After) :
    Step limit layers s (.carry level bytes next) s [.carry level bytes next]
  | write (level : Nat) (bytes : List Owner) (next : After) (n now : Nat) :
    Step limit layers s (.carry level bytes next)
      { s with queue := s.queue ++ (bytes.take n).drop now } [.carry level (bytes.drop n) next]
  | placed (level : Nat) (bytes : List Owner) (n : Nat) :
    Step limit layers s (.carry level bytes (.leave n)) s [.leave n]
  | passed (level : Nat) (bytes : List Owner) (layer n : Nat) :
    Step limit layers s (.carry level bytes (.unhold layer n)) s [.unhold layer n]
  | done (level : Nat) (bytes : List Owner) : Step limit layers s (.carry level bytes .stop) s []
  | leave (n : Nat) : Step limit layers s (.leave n) { s with reserved := s.reserved - n } []
  | unhold (layer n : Nat) :
    Step limit layers s (.unhold layer n)
      { s with heldLag := Function.update s.heldLag layer (s.heldLag layer - n) } []
  | own (layer n : Nat) :
    Step limit layers s (.own layer n) s
      [.carry (min layer layers) (List.replicate n none) .stop]
  | flush (layer n : Nat) (inside : layer < layers) :
    Step limit layers s (.flush layer)
      { s with
        hold := Function.update s.hold layer ((s.hold layer).drop n)
        heldLag := Function.update s.heldLag layer
          (s.heldLag layer + ((s.hold layer).take n).length) }
      [.carry layer ((s.hold layer).take n) (.unhold layer ((s.hold layer).take n).length)]
  | unflushed (layer : Nat) : Step limit layers s (.flush layer) s []
  | send (n lag : Nat) :
    Step limit layers s .send { s with queue := s.queue.drop n, queueLag := s.queueLag + lag }
      [.retire lag]
  | retire (n : Nat) :
    Step limit layers s (.retire n) { s with queueLag := s.queueLag - n } []
  | close : Step limit layers s .close { s with closed := true } []

theorem exec_step (limited : 0 < limit) (c : Choice) :
    Step limit layers s a (exec limit layers c a s).1 (exec limit layers c a s).2 := by
  cases a with
  | write n =>
    simp only [exec, if_neg (Nat.ne_of_gt limited)]
    exact .reserve n
  | check id n reserved layer acc looked =>
    cases layer with
    | succ layer =>
      cases looked with
      | true => exact .read id n reserved layer acc
      | false =>
        simp only [exec, Bool.false_eq_true, if_false]
        split
        · rename_i closed
          exact .skip id n reserved layer acc closed
        · exact .look id n reserved layer acc
    | zero =>
      simp only [exec]
      split
      · exact .deny id n reserved acc looked
      · exact .grant id n reserved acc looked (by omega)
  | carry level bytes next =>
    simp only [exec]
    cases c.act with
    | hold layer n =>
      dsimp only
      split
      · rename_i fits
        exact .hold level bytes next layer n fits.1
      · exact .idle level bytes next
    | write n direct => exact .write level bytes next n _
    | done =>
      cases next with
      | leave n => exact .placed level bytes n
      | unhold layer n => exact .passed level bytes layer n
      | stop => exact .done level bytes
  | flush layer =>
    simp only [exec]
    split
    · rename_i inside
      exact .flush layer c.amount inside
    · exact .unflushed layer
  | refuse n => exact .refuse n
  | leave n => exact .leave n
  | unhold layer n => exact .unhold layer n
  | own layer n => exact .own layer n
  | send => exact .send _ _
  | retire n => exact .retire n
  | close => exact .close

def early (id : Nat) : Owner → Bool
  | some o => o < id
  | none => false

def reserves : Section → Nat
  | .check _ n _ _ _ _ | .refuse n | .leave n => n
  | .carry _ _ (.leave n) => n
  | _ => 0

/-- What a section keeps the layer counting although it is handed down. -/
def lags (j : Nat) : Section → Nat
  | .unhold k n | .carry _ _ (.unhold k n) => if k = j then n else 0
  | _ => 0

/-- The bytes of writes before `id` that are on their way down from layer `i` or above, and the
    writes before `id` that still check. -/
def stray (id i : Nat) : Section → Nat
  | .carry _ bytes (.unhold j _) => if i ≤ j then bytes.countP (early id) else 0
  | .carry _ bytes _ => bytes.countP (early id)
  | .check o n _ _ _ _ => if o < id then n else 0
  | _ => 0

/-- Those, and the bytes that the layers from `i` on hold of writes before `id`. -/
def gap (layers id i : Nat) (s : Room) (owing : Multiset Section) : Nat :=
  weigh (stray id i) owing + ∑ j ∈ Finset.Ico i layers, (s.hold j).countP (early id)

theorem sum_update (f : List Owner → Nat) (hold : Nat → List Owner) (j : Nat) (x : List Owner)
    (layers : Finset Nat) :
    (∑ k ∈ layers, f (update hold j x k)) + (if j ∈ layers then f (hold j) else 0) =
      (∑ k ∈ layers, f (hold k)) + if j ∈ layers then f x else 0 := by
  induction layers using Finset.induction with
  | empty => rfl
  | insert k rest absent ih =>
    rw [Finset.sum_insert absent, Finset.sum_insert absent]
    by_cases same : j = k
    · subst j
      simp only [Finset.mem_insert_self, if_true, update_self, if_neg absent] at ih ⊢
      omega
    · rw [update_of_ne (Ne.symm same)]
      have member : j ∈ insert k rest ↔ j ∈ rest := by simp [same]
      simp only [member]
      omega

/-- Bytes go below the layer they left, and a section has reserved, or keeps counted, no less
    than it carries. -/
def Shape (layers : Nat) : Section → Prop
  | .carry _ bytes (.leave n) => bytes.length ≤ n
  | .carry level bytes (.unhold layer n) => level ≤ layer ∧ layer < layers ∧ bytes.length ≤ n
  | .carry _ bytes .stop => ∀ b ∈ bytes, b = none
  | _ => True

theorem shape_step (step : Step limit layers s a s' more) (shape : Shape layers a) :
    ∀ b ∈ more, Shape layers b := by
  cases step with
  | hold level bytes next layer n below | write level bytes next n now =>
    refine forall_mem_singleton.mpr ?_
    cases next with
    | leave n | unhold layer n =>
      simp only [Shape, List.length_drop] at shape ⊢
      omega
    | stop => exact fun b member => shape b (mem_of_mem_drop member)
  | idle level bytes next => exact forall_mem_singleton.mpr shape
  | flush layer n inside => exact forall_mem_singleton.mpr ⟨le_rfl, inside, le_rfl⟩
  | _ => simp [Shape]

theorem countP_take_drop (p : Owner → Bool) (bytes : List Owner) (n : Nat) :
    (bytes.take n).countP p + (bytes.drop n).countP p = bytes.countP p := by
  rw [← countP_append, List.take_append_drop]

theorem gap_step (others : Multiset Section) (step : Step limit layers s a s' more)
    (shape : Shape layers a) {id : Nat} (older : id ≤ s.fresh) (i : Nat) :
    gap layers id i s' (↑more + others) ≤ gap layers id i s (a ::ₘ others) := by
  unfold gap
  simp only [weigh_cons, weigh_add, weigh_coe]
  cases step with
  | hold level bytes next layer n below =>
    have moved := sum_update (countP (early id)) s.hold layer (s.hold layer ++ bytes.take n)
      (Finset.Ico i layers)
    have parts := countP_take_drop (early id) bytes n
    rw [countP_append] at moved
    simp only [Finset.mem_Ico, sum_map_cons, sum_map_nil] at moved ⊢
    cases next with
    | unhold j n =>
      have upper := shape.1
      simp only [stray]
      split at moved <;> split <;> omega
    | leave n | stop =>
      simp only [stray]
      split at moved <;> omega
  | flush layer n inside =>
    have moved := sum_update (countP (early id)) s.hold layer ((s.hold layer).drop n)
      (Finset.Ico i layers)
    have parts := countP_take_drop (early id) (s.hold layer) n
    simp only [Finset.mem_Ico, stray, sum_map_cons, sum_map_nil] at moved ⊢
    split at moved <;> split <;> omega
  | write level bytes next n now =>
    have parts := countP_take_drop (early id) bytes n
    simp only [sum_map_cons, sum_map_nil]
    cases next <;> simp only [stray]
    case unhold j n => split <;> omega
    all_goals omega
  | reserve n =>
    simp only [stray, sum_map_cons, sum_map_nil]
    rw [if_neg (by omega)]
  | grant o n reserved acc looked fits =>
    simp only [stray, sum_map_cons, sum_map_nil, List.countP_replicate, early, decide_eq_true_eq]
    omega
  | own layer n =>
    simp [stray, List.countP_replicate, early]
  | _ =>
    simp only [stray, sum_map_cons, sum_map_nil]
    omega

theorem total_step (others : Multiset Section) (step : Step limit layers s a s' more)
    (shape : Shape layers a) {id : Nat} (older : id ≤ s.fresh) :
    gap layers id 0 s' (↑more + others) + s'.queue.countP (early id) ≤
      gap layers id 0 s (a ::ₘ others) + s.queue.countP (early id) := by
  have moved := gap_step others step shape older 0
  cases step with
  | write level bytes next n now =>
    have parts := countP_take_drop (early id) bytes n
    have direct := countP_take_drop (early id) (bytes.take n) now
    simp only [gap, weigh_cons, weigh_add, weigh_coe, sum_map_cons, sum_map_nil, countP_append]
    cases next <;> simp only [stray, Nat.zero_le, if_true] <;> omega
  | send n lag =>
    have parts := countP_take_drop (early id) s.queue n
    simp only at moved ⊢
    omega
  | _ => exact Nat.add_le_add_right moved _

def Known (s : Room) (b : Owner) : Prop := ∀ o, b = some o → o < s.last

def carries : Section → List Owner
  | .carry _ bytes _ => bytes
  | _ => []

def checking (id : Nat) : Section → Nat
  | .check o _ _ _ _ _ => if o = id then 1 else 0
  | _ => 0

structure Accounts (layers : Nat) (s : Room) (owing : Multiset Section) : Prop where
  shape : ∀ a ∈ owing, Shape layers a
  reserved : s.reserved = (weigh reserves owing : Nat)
  lag : ∀ j, s.heldLag j = weigh (lags j) owing
  carried : ∀ a ∈ owing, ∀ b ∈ carries a, Known s b
  held : ∀ j, ∀ b ∈ s.hold j, Known s b
  queued : ∀ b ∈ s.queue, Known s b
  single : ∀ id, weigh (checking id) owing ≤ 1
  young : ∀ id n reserved i acc looked, .check id n reserved i acc looked ∈ owing → id < s.fresh
  upto : s.last ≤ s.fresh

theorem reserved_step (step : Step limit layers s a s' more) :
    s'.reserved + reserves a = s.reserved + ((more.map reserves).sum : Nat) := by
  cases step <;> simp only [reserves, sum_map_cons, sum_map_nil] <;>
    first | omega | (cases ‹After› <;> simp)

theorem lag_step (step : Step limit layers s a s' more) {j : Nat} (counted : lags j a ≤ s.heldLag j) :
    s'.heldLag j + lags j a = s.heldLag j + (more.map (lags j)).sum := by
  cases step with
  | unhold layer n =>
    by_cases same : layer = j
    · subst layer
      simp only [lags, if_true] at counted ⊢
      simp only [update_self, map_nil, sum_nil]
      omega
    · simp only [lags, if_neg same, update_of_ne (Ne.symm same), map_nil, sum_nil]
  | flush layer n inside =>
    by_cases same : layer = j
    · subst layer
      simp [lags]
    · simp [lags, same, update_of_ne (Ne.symm same)]
  | hold level bytes next layer n below | idle level bytes next | write level bytes next n now =>
    cases next <;> simp [lags]
  | _ => simp [lags]

theorem known_later {b : Owner} (later : s.last ≤ s'.last) (known : Known s b) : Known s' b :=
  fun o same => Nat.lt_of_lt_of_le (known o same) later

theorem last_step (step : Step limit layers s a s' more) : s.last ≤ s'.last := by
  cases step <;> first | exact Nat.le_refl _ | exact Nat.le_max_left _ _

theorem known_step (step : Step limit layers s a s' more) (carried : ∀ b ∈ carries a, Known s b)
    (held : ∀ j, ∀ b ∈ s.hold j, Known s b) (queued : ∀ b ∈ s.queue, Known s b) :
    (∀ p ∈ more, ∀ b ∈ carries p, Known s' b) ∧ (∀ j, ∀ b ∈ s'.hold j, Known s' b) ∧
      ∀ b ∈ s'.queue, Known s' b := by
  have changed : ∀ layer l, (∀ b ∈ l, Known s b) → ∀ j, ∀ b ∈ update s.hold layer l j, Known s b :=
    fun layer l own => (Function.forall_update_iff s.hold fun _ l => ∀ b ∈ l, Known s b).mpr
      ⟨own, fun j _ => held j⟩
  cases step with
  | hold level bytes next layer n below =>
    refine ⟨forall_mem_singleton.mpr fun b left => carried b (mem_of_mem_drop left),
      changed layer _ (forall_mem_append.mpr ⟨held layer, fun b new => ?_⟩), queued⟩
    exact carried b (mem_of_mem_take new)
  | write level bytes next n now =>
    refine ⟨forall_mem_singleton.mpr fun b left => carried b (mem_of_mem_drop left), held,
      forall_mem_append.mpr ⟨queued, fun b new => ?_⟩⟩
    exact carried b (mem_of_mem_take (mem_of_mem_drop new))
  | idle level bytes next =>
    exact ⟨by simpa [carries] using carried, held, queued⟩
  | grant id n reserved acc looked fits =>
    refine ⟨?_, ?_, ?_⟩
    · simp only [mem_singleton, forall_eq, carries]
      intro b member o same
      have whole := List.eq_of_mem_replicate member
      rw [whole, Option.some.injEq] at same
      simp only
      omega
    · exact fun j b member => known_later (Nat.le_max_left _ _) (held j b member)
    · exact fun b member => known_later (Nat.le_max_left _ _) (queued b member)
  | own layer n =>
    refine ⟨?_, held, queued⟩
    simp only [mem_singleton, forall_eq, carries]
    intro b member o same
    rw [List.eq_of_mem_replicate member] at same
    cases same
  | flush layer n inside =>
    exact ⟨forall_mem_singleton.mpr fun b taken => held layer b (mem_of_mem_take taken),
      changed layer _ fun b left => held layer b (mem_of_mem_drop left), queued⟩
  | send n lag =>
    exact ⟨by simp [carries], held, fun b member => queued b (mem_of_mem_drop member)⟩
  | _ => exact ⟨by simp [carries], held, queued⟩

theorem checking_eq_zero {id : Nat}
    (young : ∀ o n reserved i acc looked, .check o n reserved i acc looked ∈ owing → o < id) :
    weigh (checking id) owing = 0 := by
  rw [weigh_eq_zero_iff]
  intro a member
  cases a with
  | check o n reserved i acc looked =>
    have := young o n reserved i acc looked member
    exact if_neg (by omega)
  | _ => rfl

theorem check_step (step : Step limit layers s a s' more) :
    (∀ id, (more.map (checking id)).sum ≤ checking id a + if id = s.fresh then 1 else 0) ∧
      s.fresh ≤ s'.fresh ∧ ∀ id n reserved i acc looked, .check id n reserved i acc looked ∈ more →
        id < s'.fresh ∨ ∃ reserved i acc looked, a = .check id n reserved i acc looked := by
  cases step with
  | reserve n =>
    refine ⟨?_, Nat.le_succ _, ?_⟩
    · intro id
      simp [checking, eq_comm]
    · intro id n reserved i acc looked member
      simp only [mem_singleton, Section.check.injEq] at member
      exact .inl (by simp [member.1])
  | look id n reserved layer acc | skip id n reserved layer acc | read id n reserved layer acc =>
    refine ⟨?_, le_rfl, ?_⟩
    · intro o
      simp [checking]
    · intro o m reserved' i acc' looked member
      simp only [mem_singleton, Section.check.injEq] at member
      obtain ⟨rfl, rfl, _⟩ := member
      exact .inr ⟨_, _, _, _, rfl⟩
  | _ => simp [checking]

theorem accounts_step (step : Step limit layers s a s' more) (held : Accounts layers s (a ::ₘ others)) :
    Accounts layers s' (↑more + others) := by
  have here := mem_cons_self a others
  have known := known_step step (held.carried a here) held.held held.queued
  have later := last_step step
  have check := check_step step
  constructor
  · exact forall_pushed (shape_step step (held.shape a here)) fun b old =>
      held.shape b (mem_cons_of_mem old)
  · have balance := reserved_step step
    have before := held.reserved
    simp only [weigh_cons, weigh_add, weigh_coe] at before ⊢
    omega
  · intro j
    have before := held.lag j
    rw [weigh_cons] at before
    have balance := lag_step step (j := j) (by omega)
    rw [weigh_add, weigh_coe]
    omega
  · exact forall_pushed known.1 fun b old c inside =>
      known_later later (held.carried b (mem_cons_of_mem old) c inside)
  · exact known.2.1
  · exact known.2.2
  · intro id
    have moved := check.1 id
    have one := held.single id
    rw [weigh_cons] at one
    rw [weigh_add, weigh_coe]
    by_cases next : id = s.fresh
    · have none : weigh (checking id) (a ::ₘ others) = 0 := by
        rw [next]
        exact checking_eq_zero held.young
      rw [weigh_cons] at none
      rw [if_pos next] at moved
      omega
    · rw [if_neg next] at moved
      omega
  · intro id n reserved i acc looked member
    rw [mem_add, mem_coe] at member
    cases member with
    | inl pushed =>
      cases check.2.2 id n reserved i acc looked pushed with
      | inl new => exact new
      | inr same =>
        obtain ⟨reserved', i', acc', looked', rfl⟩ := same
        exact Nat.lt_of_lt_of_le (held.young _ _ _ _ _ _ here) check.2.1
    | inr old =>
      exact Nat.lt_of_lt_of_le (held.young _ _ _ _ _ _ (mem_cons_of_mem old)) check.2.1
  · have upto := held.upto
    cases step with
    | grant id n reserved acc looked fits =>
      have young := held.young _ _ _ _ _ _ here
      simp only
      omega
    | reserve n => exact Nat.le_succ_of_le upto
    | _ => exact upto

theorem gap_reserved (held : Accounts layers s owing) :
    (gap layers s.fresh layers s owing : Int) ≤ s.reserved := by
  have light : weigh (stray s.fresh layers) owing ≤ weigh reserves owing := by
    apply Multiset.sum_map_le_sum_map
    intro a member
    have shape := held.shape a member
    cases a with
    | carry level bytes next =>
      have count := countP_le_length (p := early s.fresh) (l := bytes)
      cases next with
      | leave n =>
        simp only [Shape] at shape
        simp only [stray, reserves]
        omega
      | unhold layer n =>
        simp only [Shape] at shape
        simp only [stray, reserves]
        rw [if_neg (by omega)]
      | stop =>
        simp only [stray, reserves, Nat.le_zero, List.countP_eq_zero]
        intro b inside
        rw [shape b inside]
        simp [early]
    | check id n reserved i acc looked =>
      simp only [stray, reserves]
      split <;> omega
    | _ => exact Nat.zero_le _
  rw [held.reserved]
  simp only [gap, Finset.Ico_self, Finset.sum_empty, Nat.add_zero]
  omega

theorem gap_read (held : Accounts layers s owing) (id i : Nat) : gap layers id i s owing ≤
      gap layers id (i + 1) s owing + ((s.hold i).length + s.heldLag i) := by
  have light : weigh (stray id i) owing ≤ weigh (stray id (i + 1)) owing + weigh (lags i) owing := by
    have both : ∀ a ∈ owing, stray id i a ≤ stray id (i + 1) a + lags i a := by
      intro a member
      have shape := held.shape a member
      cases a with
      | carry level bytes next =>
        have count := countP_le_length (p := early id) (l := bytes)
        cases next with
        | unhold layer n =>
          simp only [Shape] at shape
          simp only [stray, lags]
          split <;> split <;> split <;> omega
        | leave n | stop => simp [stray, lags]
      | _ => simp [stray, lags]
    have total := Multiset.sum_map_le_sum_map (stray id i) (fun a => stray id (i + 1) a + lags i a) both
    rw [Multiset.sum_map_add] at total
    exact total
  have layer : ∑ j ∈ Finset.Ico i layers, (s.hold j).countP (early id) ≤
      (s.hold i).length + ∑ j ∈ Finset.Ico (i + 1) layers, (s.hold j).countP (early id) := by
    have count := countP_le_length (p := early id) (l := s.hold i)
    by_cases inside : i < layers
    · rw [Finset.sum_eq_sum_Ico_succ_bot inside]
      omega
    · rw [Finset.Ico_eq_empty (by omega)]
      simp
  rw [gap, gap, held.lag i]
  omega

structure Admission (limit layers : Nat) (s : Room) (owing : Multiset Section) : Prop where
  checks : ∀ (id n : Nat) (reserved : Int) (i acc : Nat) (looked : Bool),
    .check id n reserved i acc looked ∈ owing → (gap layers id i s owing + n : Int) ≤ reserved + acc
  room : gap layers s.last 0 s owing + s.queue.countP (early s.last) ≤ limit

theorem countP_early {s : Room} {id : Nat} {bytes : List Owner} (later : s.last ≤ id)
    (known : ∀ b ∈ bytes, Known s b) : bytes.countP (early (id + 1)) = bytes.countP (early id) := by
  apply List.countP_congr
  intro b member
  cases b with
  | none => simp [early]
  | some o =>
    have := known (some o) member o rfl
    simp only [early, decide_eq_true_eq]
    omega

theorem gap_latest {id n acc : Nat} {reserved : Int} {looked : Bool}
    (held : Accounts layers s (.check id n reserved 0 acc looked ::ₘ others)) (later : s.last ≤ id) :
    gap layers (id + 1) 0 s others = gap layers id 0 s others := by
  have alone : weigh (checking id) others = 0 := by
    have single := held.single id
    rw [weigh_cons] at single
    simp only [checking, if_true] at single
    omega
  have same : weigh (stray (id + 1) 0) others = weigh (stray id 0) others := by
    unfold weigh
    congr 1
    apply Multiset.map_congr rfl
    intro a member
    have known := held.carried a (mem_cons_of_mem member)
    cases a with
    | carry level bytes next =>
      have count : bytes.countP (early (id + 1)) = bytes.countP (early id) :=
        countP_early later known
      cases next <;> simp only [stray, Nat.zero_le, if_true, count]
    | check o m r i acc' looked' =>
      have other := (weigh_eq_zero_iff _ _).mp alone _ member
      simp only [checking, ite_eq_right_iff, Nat.one_ne_zero, imp_false] at other
      simp only [stray]
      split <;> split <;> omega
    | _ => rfl
  unfold gap
  rw [same]
  congr 1
  apply Finset.sum_congr rfl
  intro j _
  exact countP_early later (held.held j)

theorem admitted_fits {id n acc : Nat} {reserved : Int} {looked : Bool}
    (accounts : Accounts layers s (.check id n reserved 0 acc looked ::ₘ others))
    (held : Admission limit layers s (.check id n reserved 0 acc looked ::ₘ others))
    (later : s.last ≤ id)
    (fits : (acc : Int) + s.queue.length + reserved ≤ limit) :
    gap layers (id + 1) 0 s others + n + s.queue.countP (early (id + 1)) ≤ limit := by
  have checked := held.checks _ _ _ _ _ _ (mem_cons_self _ _)
  have own : gap layers id 0 s (.check id n reserved 0 acc looked ::ₘ others) =
      gap layers id 0 s others := by
    simp [gap, stray]
  rw [own] at checked
  rw [gap_latest accounts later, countP_early later accounts.queued]
  have count := countP_le_length (p := early id) (l := s.queue)
  omega

theorem room_step (step : Step limit layers s a s' more) (accounts : Accounts layers s (a ::ₘ others))
    (held : Admission limit layers s (a ::ₘ others)) :
    gap layers s'.last 0 s' (↑more + others) + s'.queue.countP (early s'.last) ≤ limit := by
  have shape := accounts.shape a (mem_cons_self a others)
  have room := held.room
  have kept := total_step others step shape accounts.upto
  cases step with
  | grant id n reserved acc looked fits =>
    by_cases later : s.last ≤ id
    · have whole := admitted_fits accounts held later fits
      have last : max s.last (id + 1) = id + 1 := by omega
      have carried : (List.replicate n (some id)).countP (early (id + 1)) = n := by
        simp [List.countP_replicate, early]
      simp only [last]
      simp only [gap, weigh_add, weigh_coe, sum_map_cons, sum_map_nil, stray, carried] at whole ⊢
      omega
    · have last : max s.last (id + 1) = s.last := by omega
      simp only [last] at kept ⊢
      omega
  | _ => exact Nat.le_trans kept room

theorem closed_step (step : Step limit layers s a s' more) (still : s'.closed = false) :
    s.closed = false := by
  cases step <;> first | exact still | cases still

theorem admission_step (step : Step limit layers s a s' more) (opened : s.closed = false)
    (accounts : Accounts layers s (a ::ₘ others)) (held : Admission limit layers s (a ::ₘ others)) :
    Admission limit layers s' (↑more + others) := by
  have here := mem_cons_self a others
  have shape := accounts.shape a here
  refine ⟨?_, room_step step accounts held⟩
  intro id n reserved i acc looked member
  rw [mem_add, mem_coe] at member
  cases member with
  | inr old =>
    have young := accounts.young _ _ _ _ _ _ (mem_cons_of_mem old)
    have before := held.checks _ _ _ _ _ _ (mem_cons_of_mem old)
    have fewer := gap_step others step shape (Nat.le_of_lt young) i
    omega
  | inl pushed =>
    cases step with
    | reserve m =>
      simp only [mem_singleton, Section.check.injEq] at pushed
      obtain ⟨rfl, rfl, rfl, rfl, rfl, -⟩ := pushed
      have first := gap_reserved accounts
      have fewer := gap_step others (.reserve n : Step limit i s _ _ _) shape (Nat.le_refl s.fresh) i
      omega
    | look o m r layer acc' =>
      simp only [mem_singleton, Section.check.injEq] at pushed
      obtain ⟨rfl, rfl, rfl, rfl, rfl, rfl⟩ := pushed
      have before := held.checks _ _ _ _ _ _ here
      have fewer := gap_step others (.look id n reserved layer acc : Step limit layers s _ _ _) shape
        (Nat.le_of_lt (accounts.young _ _ _ _ _ _ here)) (layer + 1)
      omega
    | skip o m r layer acc' closed =>
      rw [opened] at closed
      cases closed
    | read o m r layer acc' =>
      simp only [mem_singleton, Section.check.injEq] at pushed
      obtain ⟨rfl, rfl, rfl, rfl, rfl, rfl⟩ := pushed
      have before := held.checks _ _ _ _ _ _ here
      have more := gap_read accounts id i
      have fewer := gap_step others (.read id n reserved i acc' : Step limit layers s _ _ _) shape
        (Nat.le_of_lt (accounts.young _ _ _ _ _ _ here)) i
      omega
    | _ => simp at pushed

theorem entry_plain (layers : Nat) (entry : entry a = true) : Shape layers a ∧ reserves a = 0 ∧
    (∀ j, lags j a = 0) ∧ carries a = [] ∧ (∀ id, checking id a = 0) ∧ ∀ id i, stray id i a = 0 := by
  cases a <;> first
    | exact ⟨trivial, rfl, fun _ => rfl, rfl, fun _ => rfl, fun _ _ => rfl⟩
    | cases entry

theorem accounts_spawned (entry : entry a = true) (held : Accounts layers s owing) :
    Accounts layers s (a ::ₘ owing) := by
  obtain ⟨shape, unreserved, unlagged, empty, unchecked, _⟩ := entry_plain layers entry
  constructor
  · exact Multiset.forall_mem_cons.mpr ⟨shape, held.shape⟩
  · rw [weigh_cons, unreserved, Nat.zero_add]
    exact held.reserved
  · intro j
    rw [weigh_cons, unlagged, Nat.zero_add]
    exact held.lag j
  · exact Multiset.forall_mem_cons.mpr ⟨by simp [empty], held.carried⟩
  · exact held.held
  · exact held.queued
  · intro id
    rw [weigh_cons, unchecked, Nat.zero_add]
    exact held.single id
  · intro id n reserved i acc looked member
    cases Multiset.mem_cons.mp member with
    | inl same =>
      subst a
      cases entry
    | inr old => exact held.young id n reserved i acc looked old
  · exact held.upto

theorem admission_spawned (entry : entry a = true) (held : Admission limit layers s owing) :
    Admission limit layers s (a ::ₘ owing) := by
  have plain := (entry_plain layers entry).2.2.2.2.2
  have same : ∀ id i, gap layers id i s (a ::ₘ owing) = gap layers id i s owing := by
    intro id i
    rw [gap, weigh_cons, plain, Nat.zero_add, gap]
  constructor
  · intro id n reserved i acc looked member
    cases Multiset.mem_cons.mp member with
    | inl first =>
      subst a
      cases entry
    | inr old =>
      rw [same]
      exact held.checks id n reserved i acc looked old
  · rw [same]
    exact held.room

section Runs
variable {q : Pool Room Section}

theorem accounts_run (limited : 0 < limit)
    (run : Reachable (program limit layers) ⟨Room.empty, []⟩ q) :
    Accounts layers q.state (owed q) := by
  refine owed_invariant (Accounts layers) ?_ ?_ ?_ run
  · constructor <;> simp [owed, Room.empty]
  · intro s others a entry held
    exact accounts_spawned entry held
  · intro s others a c _ _ held
    exact accounts_step (exec_step limited c) held

theorem admission_run (limited : 0 < limit)
    (run : Reachable (program limit layers) ⟨Room.empty, []⟩ q) :
    q.state.closed = false → Admission limit layers q.state (owed q) := by
  refine owed_invariant_given (Accounts layers)
    (fun s owing => s.closed = false → Admission limit layers s owing)
    (fun _ => accounts_run limited) ?_ ?_ ?_ run
  · intro _
    constructor <;> simp [owed, Room.empty, gap]
  · intro s others a entry held opened
    exact admission_spawned entry (held opened)
  · intro s others a c _ _ accounts held still
    have step : Step limit layers s a _ _ := exec_step limited c
    have opened := closed_step step still
    exact admission_step step opened accounts (held opened)

end Runs

def ofWrites (b : Owner) : Bool := b.isSome

/-- The bytes of admitted writes not yet sent: on their way down, held, or queued. -/
def unsent (layers : Nat) (q : Pool Room Section) : Nat :=
  weigh (fun a => (carries a).countP ofWrites) (owed q) +
    ∑ j ∈ Finset.range layers, (q.state.hold j).countP ofWrites + q.state.queue.countP ofWrites

theorem countP_ofWrites {bytes : List Owner} (known : ∀ b ∈ bytes, Known s b) :
    bytes.countP ofWrites = bytes.countP (early s.last) := by
  apply List.countP_congr
  intro b member
  cases b with
  | none => simp [ofWrites, early]
  | some o => simpa [ofWrites, early] using known (some o) member o rfl

/-- The reservation count is what the writes between their reservation and its end have
    reserved, so a refused write leaves none of it behind. -/
theorem outbound_limit_kept (limited : 0 < limit) {q : Pool Room Section}
    (run : Reachable (program limit layers) ⟨Room.empty, []⟩ q) :
    (q.state.closed = false → unsent layers q ≤ limit) ∧
      q.state.reserved = (weigh reserves (owed q) : Nat) := by
  have accounts := accounts_run limited run
  refine ⟨fun opened => ?_, accounts.reserved⟩
  have room := (admission_run limited run opened).room
  have carried : weigh (fun a => (carries a).countP ofWrites) (owed q) ≤
      weigh (stray q.state.last 0) (owed q) := by
    apply Multiset.sum_map_le_sum_map
    intro a member
    rw [countP_ofWrites (accounts.carried a member)]
    cases a with
    | carry level bytes next => cases next <;> simp [carries, stray]
    | _ => exact Nat.zero_le _
  have held : ∑ j ∈ Finset.range layers, (q.state.hold j).countP ofWrites =
      ∑ j ∈ Finset.Ico 0 layers, (q.state.hold j).countP (early q.state.last) := by
    rw [Finset.range_eq_Ico]
    apply Finset.sum_congr rfl
    intro j _
    exact countP_ofWrites (accounts.held j)
  have queued := countP_ofWrites accounts.queued
  rw [gap] at room
  rw [unsent, held, queued]
  omega

/-- A write of three bytes is admitted and queued; one of two bytes is then refused. -/
def secondRefused : List (Move Section Choice) :=
  List.flatten [[.start (.write 3)], runs 0 4 {}, [.run 0 { act := .write 3 0 }], runs 0 2 {},
    [.start (.write 2)], runs 1 5 {}]

theorem outbound_limit_kept_second_refused : ∃ q,
    (0 < 4 ∧ Reachable (program 4 1) ⟨Room.empty, []⟩ q ∧
      q.state.queue = [some 0, some 0, some 0] ∧ q.state.reserved = 0 ∧ q.state.fresh = 2 ∧
      q.state.closed = false) ∧
      unsent 1 q ≤ 4 ∧ q.state.reserved = (weigh reserves (owed q) : Nat) := by
  obtain ⟨q, run, checked⟩ := replay_reaches (P := program 4 1) (p := ⟨Room.empty, []⟩) secondRefused
    (fun q => decide (q.state.queue = [some 0, some 0, some 0] ∧ q.state.reserved = 0 ∧
      q.state.fresh = 2 ∧ q.state.closed = false)) (by decide +kernel)
  have found := of_decide_eq_true checked
  have kept := outbound_limit_kept (by decide) run
  exact ⟨q, ⟨by decide, run, found⟩, kept.1 found.2.2.2, kept.2⟩

/-- A layer holds an admitted write of three bytes; one of two bytes has reserved when the
    socket's OnClose runs, reads no hold and is admitted too. -/
def admittedClosed : List (Move Section Choice) :=
  List.flatten [[.start (.write 3)], runs 0 4 {}, [.run 0 { act := .hold 0 3 }], runs 0 2 {},
    [.start (.write 2)], runs 1 1 {}, [.start .close], runs 2 1 {}, runs 1 2 {}]

theorem closed_stack_admits : ∃ q, Reachable (program 4 1) ⟨Room.empty, []⟩ q ∧ unsent 1 q = 5 := by
  obtain ⟨q, run, checked⟩ := replay_reaches (P := program 4 1) (p := ⟨Room.empty, []⟩) admittedClosed
    (fun q => decide (unsent 1 q = 5)) (by decide +kernel)
  exact ⟨q, run, of_decide_eq_true checked⟩

end LayerRoom
