import Uio.Layer.Receipts

/-!
Receipts are not early. A write's bytes come from the write itself until it returns,
and afterwards only from a layer that still holds them, so a write that is over and
held nowhere has all its bytes in the socket's stream. A position is right if every
byte the socket took before it is counted; the queue's emptiness is right if every
byte it retired is reported. Both are conditions on the runs considered here.
-/
namespace LayerEarly
open Interleaving LayerReceipts
open Function (update_of_ne update_self)
open Multiset (coe_nil mem_add mem_coe mem_cons mem_cons_of_mem mem_cons_self)
open List (forall_mem_append forall_mem_singleton mem_append mem_of_mem_drop mem_singleton)

variable {holds : Nat → Bool} {s s' : Wire} {a : Section} {more : List Section}
  {others : Multiset Section}
variable {o : Owner} {w : Sweep} {r : Receipt}

def chain : Section → Option After
  | .through next | .socketWrite _ next | .count _ next => some next
  | .unhold layer taken => some (.unhold layer taken)
  | _ => none

def Carries (a : Section) (o : Owner) : Prop := ∃ next, chain a = some next ∧ o ∈ next.owners

def ownAfter (o : Owner) : After → Nat
  | .back p _ => if p = o then 1 else 0
  | .unhold _ _ => 0

def own (o : Owner) : Section → Nat
  | .through next | .socketWrite _ next | .count _ next => ownAfter o next
  | .readHeld p _ _ | .readQueued p _ => if p = o then 1 else 0
  | _ => 0

def flushesAfter (i : Nat) : After → Nat
  | .back _ _ => 0
  | .unhold j _ => if j = i then 1 else 0

def flushes (i : Nat) : Section → Nat
  | .through next | .socketWrite _ next | .count _ next => flushesAfter i next
  | .unhold j _ => if j = i then 1 else 0
  | _ => 0

@[mk_iff] structure Owned (s : Wire) (owing : Multiset Section) : Prop where
  single : ∀ o, weigh (own o) owing ≤ 1
  young : ∀ o, 0 < weigh (own o) owing → o.id < s.fresh
  past : ∀ o v, (o, v) ∈ s.noted → o.id < s.fresh ∧ weigh (own o) owing = 0

theorem owned_move (held : Owned s (a ::ₘ others)) (later : s.fresh ≤ s'.fresh)
    (same : s'.noted = s.noted) (moved : ∀ o, (more.map (own o)).sum ≤ own o a) :
    Owned s' (↑more + others) := by
  rw [owned_iff] at held ⊢
  simp only [weigh_cons, weigh_add, weigh_coe] at held ⊢
  obtain ⟨single, young, past⟩ := held
  refine ⟨?_, ?_, ?_⟩
  · intro o
    have := single o
    have := moved o
    omega
  · intro o some
    have := young o
    have := moved o
    omega
  · intro o v member
    rw [same] at member
    have := past o v member
    have := moved o
    omega

theorem owned_step (step : Step holds s a s' more) (held : Owned s (a ::ₘ others)) :
    Owned s' (↑more + others) := by
  cases step with
  | write layer tracked =>
    have unused : ∀ o : Owner, o.id = s.fresh → weigh (own o) others = 0 := by
      intro o same
      have young := held.young o
      rw [weigh_cons] at young
      omega
    rw [owned_iff] at held ⊢
    simp only [weigh_cons, own, Nat.zero_add] at held
    simp only [weigh_add, weigh_coe, own, ownAfter, sum_map_cons, sum_map_nil]
    grind -ring -linarith
  | unmarked o acc | marked o acc =>
    rw [owned_iff] at held ⊢
    simp only [weigh_cons, own] at held
    simp only [weigh_add, weigh_coe, own, sum_map_cons, sum_map_nil]
    grind -ring -linarith
  | _ =>
    refine owned_move held ?_ ?_ ?_
    · simp
    · rfl
    · intro o
      simp [own, ownAfter]

theorem past_not_own (held : Owned s (a ::ₘ others)) {v : Nat}
    (noted : (o, v) ∈ s.noted) : own o a = 0 := by
  have none := (held.past o v noted).2
  rw [weigh_cons] at none
  omega

structure Holding (holds : Nat → Bool) (s : Wire) (owing : Multiset Section) : Prop where
  placed : ∀ i o, o ∈ s.hold i → holds i = true ∧ i < o.layer
  locked : ∀ i, weigh (flushes i) owing = if s.flushing i then 1 else 0
  taken : ∀ a ∈ owing, ∀ i taken, chain a = some (.unhold i taken) → taken <+: s.hold i
  chosen : ∀ bytes next, Section.socketWrite bytes next ∈ owing → ∀ b ∈ bytes, b ∈ next.owners

structure Grows (a : Section) (s s' : Wire) : Prop where
  stream : ∃ added, s'.stream = s.stream ++ added ∧ ∀ b ∈ added, Carries a b
  hold : ∀ i o, o ∈ s'.hold i → o ∈ s.hold i ∨ Carries a o ∧ ∃ next, chain a = some next ∧ i < next.level
  wireSent : s.wireSent ≤ s'.wireSent
  noted : ∀ m ∈ s.noted, m ∈ s'.noted

def pending : Section → Nat
  | .count n _ => n
  | _ => 0

structure Counted (s : Wire) (owing : Multiset Section) : Prop where
  total : s.wireQueued + weigh pending owing = s.stream.length
  sole : ∀ a ∈ owing, 0 < pending a →
    pending a = weigh pending owing ∧ ∀ b ∈ s.stream.drop s.wireQueued, Carries a b

structure Basis (holds : Nat → Bool) (s : Wire) (owing : Multiset Section) : Prop where
  owned : Owned s owing
  holding : Holding holds s owing
  counted : Counted s owing

def Noted (holds : Nat → Bool) (s : Wire) : Prop :=
  ∀ o v, (o, v) ∈ s.noted → exact holds o = true → o ∉ s.stream.drop v

def Left (s : Wire) (o : Owner) : Prop := (∀ i, o ∉ s.hold i) ∧ o ∉ s.stream.drop s.wireSent

def Known (holds : Nat → Bool) (s : Wire) (r : Receipt) : Prop :=
  (r.owner, r.wire) ∈ s.noted ∧ r.inexact = !exact holds r.owner

def SweepKnown (holds : Nat → Bool) (s : Wire) (w : Sweep) : Prop :=
  w.sent ≤ s.wireSent ∧ (∀ r ∈ w.out, Known holds s r) ∧ ∀ r ∈ w.keep, Known holds s r

def Fits (holds : Nat → Bool) (s : Wire) : Section → Prop
  | .addReceipt r => Known holds s r
  | .loadSent out => ∀ r ∈ out, Known holds s r
  | .judge w => SweepKnown holds s w
  | .bufHeld w r i acc =>
    SweepKnown holds s w ∧ Known holds s r ∧ (acc = 0 → ∀ j, i ≤ j → r.owner ∉ s.hold j)
  | .bufSocket w r acc =>
    SweepKnown holds s w ∧ Known holds s r ∧ (acc = 0 → ∀ j, r.owner ∉ s.hold j)
  | .putBack keep => ∀ r ∈ keep, Known holds s r
  | _ => True

structure Told (holds : Nat → Bool) (s : Wire) (owing : Multiset Section) : Prop where
  noted : Noted holds s
  waiting : ∀ r ∈ s.receipts, Known holds s r
  fits : ∀ a ∈ owing, Fits holds s a
  told : ∀ r ∈ s.told, Known holds s r ∧ Left s r.owner

theorem flushes_of_chain {i : Nat} {taken : List Owner}
    (flushing : chain a = some (.unhold i taken)) : flushes i a = 1 := by
  cases a <;> simp_all [chain, flushes, flushesAfter]

theorem carries_source (held : Holding holds s (a ::ₘ others)) (carries : Carries a o) :
    own o a = 1 ∨ ∃ i, o ∈ s.hold i ∧ ∀ next, chain a = some next → next.level = i := by
  obtain ⟨next, found, member⟩ := carries
  cases next with
  | back p tracked =>
    simp only [After.owners, mem_singleton] at member
    subst o
    left
    cases a <;> simp_all [chain, own, ownAfter]
  | unhold i taken =>
    right
    refine ⟨i, ?_, ?_⟩
    · exact (held.taken a (mem_cons_self a others) i taken found).subset member
    · intro next same
      rw [found, Option.some.injEq] at same
      rw [← same]
      rfl

theorem step_grows (held : Holding holds s (a ::ₘ others)) (step : Step holds s a s' more) :
    Grows a s s' := by
  cases step with
  | hold i bytes next chosen below holder =>
    refine ⟨⟨[], by simp, by simp⟩, ?_, le_rfl, fun m member => member⟩
    intro j o member
    dsimp only at member
    by_cases same : j = i
    · subst j
      rw [update_self, mem_append] at member
      cases member with
      | inl old => exact .inl old
      | inr fresh => exact .inr ⟨⟨next, rfl, chosen o fresh⟩, next, rfl, below⟩
    · rw [update_of_ne same] at member
      exact .inl member
  | unhold layer taken =>
    refine ⟨⟨[], by simp, by simp⟩, ?_, le_rfl, fun m member => member⟩
    intro j o member
    dsimp only at member
    by_cases same : j = layer
    · subst j
      rw [update_self] at member
      exact .inl (mem_of_mem_drop member)
    · rw [update_of_ne same] at member
      exact .inl member
  | took bytes taken next part | tookDirect bytes taken n next part =>
    refine ⟨⟨taken, rfl, ?_⟩, fun i o member => .inl member, le_rfl, fun m member => member⟩
    intro b member
    exact ⟨next, rfl, held.chosen bytes next (mem_cons_self _ _) b (part.subset member)⟩
  | unmarked o acc | marked o acc =>
    exact ⟨⟨[], by simp, by simp⟩, fun i o member => .inl member, le_rfl,
      fun m member => List.mem_append_left _ member⟩
  | report n =>
    exact ⟨⟨[], by simp, by simp⟩, fun i o member => .inl member, Nat.le_add_right _ _,
      fun m member => member⟩
  | _ =>
    exact ⟨⟨[], by simp, by simp⟩, fun i o member => .inl member, le_rfl,
      fun m member => member⟩

theorem holding_move (held : Holding holds s (a ::ₘ others)) (kept : s'.hold = s.hold)
    (locks : s'.flushing = s.flushing) (moved : ∀ i, (more.map (flushes i)).sum = flushes i a)
    (chains : ∀ b ∈ more, ∀ i taken, chain b = some (.unhold i taken) →
      chain a = some (.unhold i taken))
    (chosen : ∀ bytes next, Section.socketWrite bytes next ∈ more → ∀ b ∈ bytes, b ∈ next.owners) :
    Holding holds s' (↑more + others) := by
  refine ⟨?_, ?_, ?_, ?_⟩
  · rw [kept]
    exact held.placed
  · intro i
    have locked := held.locked i
    rw [weigh_cons] at locked
    rw [weigh_add, weigh_coe, moved i, locks]
    exact locked
  · rw [kept]
    have own := held.taken a (mem_cons_self a others)
    exact forall_pushed (fun b pushed i taken flushing => own i taken (chains b pushed i taken flushing))
      fun b old => held.taken b (mem_cons_of_mem old)
  · intro bytes next member
    rw [mem_add, mem_coe] at member
    cases member with
    | inl pushed => exact chosen bytes next pushed
    | inr old => exact held.chosen bytes next (mem_cons_of_mem old)

theorem placed_below (held : Holding holds s (a ::ₘ others)) {next : After} {i : Nat}
    (found : chain a = some next) (member : o ∈ next.owners) (below : i < next.level) :
    i < o.layer := by
  cases next with
  | back p tracked =>
    simp only [After.owners, mem_singleton] at member
    subst o
    exact below
  | unhold j taken =>
    have part := held.taken a (mem_cons_self a others) j taken found
    exact Nat.lt_trans below (held.placed j o (part.subset member)).2

theorem holding_step (ready : ready a s = true) (step : Step holds s a s' more)
    (held : Holding holds s (a ::ₘ others)) : Holding holds s' (↑more + others) := by
  cases step with
  | hold i bytes next chosen below holder =>
    refine ⟨?_, ?_, ?_, ?_⟩
    · refine (Function.forall_update_iff s.hold fun j l => ∀ o ∈ l, holds j = true ∧ j < o.layer).mpr
        ⟨forall_mem_append.mpr ⟨held.placed i, ?_⟩, fun j _ => held.placed j⟩
      exact fun o fresh => ⟨holder, placed_below held rfl (chosen o fresh) below⟩
    · intro j
      simpa using held.locked j
    · intro b member j taken flushing
      have part := held.taken b (by simpa using member) j taken flushing
      dsimp only
      by_cases same : j = i
      · subst j
        rw [update_self]
        exact part.trans (List.prefix_append _ _)
      · rw [update_of_ne same]
        exact part
    · intro bytes' next' member
      exact held.chosen bytes' next' (by simpa using member)
  | flush layer taken part =>
    have free : s.flushing layer = false := by
      simpa [LayerReceipts.ready] using ready
    refine ⟨held.placed, ?_, ?_, ?_⟩
    · intro j
      have locked := held.locked j
      simp only [weigh_cons, weigh_add, weigh_coe, flushes, flushesAfter, sum_map_cons, sum_map_nil] at locked ⊢
      by_cases same : j = layer
      · subst j
        simp only [free, update_self] at locked ⊢
        simpa using locked
      · simp only [update_of_ne same, if_neg (Ne.symm same)]
        simpa using locked
    · refine forall_pushed (forall_mem_singleton.mpr fun j taken' flushing => ?_)
        fun b old => held.taken b (mem_cons_of_mem old)
      simp only [chain, Option.some.injEq, After.unhold.injEq] at flushing
      obtain ⟨rfl, rfl⟩ := flushing
      exact part
    · intro bytes next member
      exact held.chosen bytes next (by simpa using member)
  | unhold layer taken =>
    have alone : weigh (flushes layer) others = 0 := by
      have locked := held.locked layer
      rw [weigh_cons] at locked
      simp only [flushes, if_true] at locked
      split at locked <;> omega
    refine ⟨?_, ?_, ?_, ?_⟩
    · refine (Function.forall_update_iff s.hold fun j l => ∀ o ∈ l, holds j = true ∧ j < o.layer).mpr
        ⟨?_, fun j _ => held.placed j⟩
      exact fun o left => held.placed layer o (mem_of_mem_drop left)
    · intro j
      have locked := held.locked j
      simp only [weigh_cons, flushes] at locked
      simp only [coe_nil, Multiset.zero_add]
      by_cases same : j = layer
      · subst j
        simp [alone]
      · rw [if_neg (Ne.symm same), Nat.zero_add] at locked
        simp only [update_of_ne same]
        exact locked
    · intro b member j taken' flushing
      simp only [coe_nil, Multiset.zero_add] at member
      have other : j ≠ layer := by
        rintro rfl
        have zero := (weigh_eq_zero_iff _ _).mp alone b member
        rw [flushes_of_chain flushing] at zero
        cases zero
      dsimp only
      rw [update_of_ne other]
      exact held.taken b (mem_cons_of_mem member) j taken' flushing
    · intro bytes next member
      exact held.chosen bytes next (mem_cons_of_mem (by simpa using member))
  | emit bytes next chosen =>
    refine holding_move held rfl rfl ?_ ?_ ?_
    · intro i
      simp [flushes]
    · intro b member i taken found
      simp_all [chain]
    · intro bytes' next' member
      simp_all
  | _ =>
    refine holding_move held rfl rfl ?_ ?_ ?_
    · intro i
      simp [flushes, flushesAfter]
    · simp [chain]
    · simp

/-- Every byte the socket took is counted when it takes more, and every byte it retired is
    reported when a receipt looks at its queue. -/
def Orderly (_ : Choice) (a : Section) (s : Wire) : Prop :=
  match a with
  | .socketWrite _ _ => s.wireQueued = s.stream.length
  | .bufSocket _ _ _ => s.wireSent = s.retired
  | _ => True

theorem counted_move (held : Counted s (a ::ₘ others)) (stream : s'.stream = s.stream)
    (queued : s'.wireQueued = s.wireQueued) (idle : pending a = 0)
    (moved : ∀ b ∈ more, pending b = 0) : Counted s' (↑more + others) := by
  have none : (more.map pending).sum = 0 := by
    rw [List.sum_eq_zero_iff]
    intro n member
    obtain ⟨b, inside, rfl⟩ := List.mem_map.mp member
    exact moved b inside
  obtain ⟨total, sole⟩ := held
  rw [weigh_cons, idle, Nat.zero_add] at total sole
  refine ⟨?_, ?_⟩
  · rw [weigh_add, weigh_coe, none, stream, queued, Nat.zero_add]
    exact total
  · rw [weigh_add, weigh_coe, none, stream, queued, Nat.zero_add]
    refine forall_pushed (fun b pushed some => ?_) fun b old => sole b (mem_cons_of_mem old)
    have := moved b pushed
    omega

theorem counted_took {bytes taken : List Owner} {next : After}
    (held : Counted s (.socketWrite bytes next ::ₘ others)) (counted : s.wireQueued = s.stream.length)
    (chosen : ∀ b ∈ bytes, b ∈ next.owners) (part : taken <+: bytes)
    (stream : s'.stream = s.stream ++ taken) (queued : s'.wireQueued = s.wireQueued) :
    Counted s' (.count taken.length next ::ₘ others) := by
  have total := held.total
  simp only [weigh_cons, pending, Nat.zero_add] at total
  have idle : weigh pending others = 0 := by omega
  refine ⟨?_, ?_⟩
  · rw [weigh_cons, stream, queued, List.length_append, idle]
    simp only [pending]
    omega
  · refine Multiset.forall_mem_cons.mpr ⟨fun _ => ?_, fun b old some => ?_⟩
    · rw [weigh_cons, idle, stream, queued, counted, List.drop_left]
      exact ⟨rfl, fun b inside => ⟨next, rfl, chosen b (part.subset inside)⟩⟩
    · have := (weigh_eq_zero_iff _ _).mp idle b old
      omega

theorem counted_count {n : Nat} {next : After} (held : Counted s (.count n next ::ₘ others))
    (stream : s'.stream = s.stream) (queued : s'.wireQueued = s.wireQueued + n) :
    Counted s' (.through next ::ₘ others) := by
  obtain ⟨total, sole⟩ := held
  have own : pending (.count n next) = n := rfl
  rw [weigh_cons, own] at total sole
  refine ⟨?_, ?_⟩
  · rw [weigh_cons, stream, queued]
    simp only [pending]
    omega
  · refine Multiset.forall_mem_cons.mpr ⟨(by rintro ⟨⟩), fun b old some => ?_⟩
    have whole := sole b (mem_cons_of_mem old) some
    have zero : n = 0 := by
      have bound := weigh_of_mem pending old
      omega
    subst zero
    rw [weigh_cons, stream, queued]
    simpa [pending] using whole

theorem counted_idle (held : Counted s others) (idle : pending a = 0) : Counted s (a ::ₘ others)
    := by
  refine ⟨?_, ?_⟩
  · rw [weigh_cons, idle, Nat.zero_add]
    exact held.total
  · rw [weigh_cons, idle, Nat.zero_add]
    exact Multiset.forall_mem_cons.mpr ⟨fun some => absurd idle (Nat.ne_of_gt some), held.sole⟩

theorem counted_step {c : Choice} (allowed : Orderly c a s)
    (holding : Holding holds s (a ::ₘ others))
    (step : Step holds s a s' more) (held : Counted s (a ::ₘ others)) :
    Counted s' (↑more + others) := by
  cases step with
  | took bytes taken next part =>
    exact counted_took held allowed (holding.chosen bytes next (mem_cons_self _ _)) part
      rfl rfl
  | tookDirect bytes taken n next part =>
    rw [← Multiset.cons_coe, Multiset.cons_add]
    refine counted_idle ?_ rfl
    exact counted_took held allowed (holding.chosen bytes next (mem_cons_self _ _)) part
      rfl rfl
  | count n next => exact counted_count held rfl rfl
  | _ => exact counted_move held rfl rfl rfl (by simp [pending])

theorem exact_not_held (basis : Basis holds s others) (straight : exact holds o = true)
    (i : Nat) : o ∉ s.hold i := by
  intro member
  obtain ⟨holder, below⟩ := basis.holding.placed i o member
  have none := List.all_eq_true.mp straight i (List.mem_range.mpr below)
  simp [holder] at none

theorem past_carried (basis : Basis holds s (a ::ₘ others)) {v : Nat}
    (noted : (o, v) ∈ s.noted) (carries : Carries a o) :
    ∃ i, o ∈ s.hold i ∧ ∀ next, chain a = some next → next.level = i := by
  cases carries_source basis.holding carries with
  | inl mine =>
    have none := past_not_own basis.owned noted
    omega
  | inr flush => exact flush

theorem mem_drop_of_le {α : Type} {o : α} {l : List α} {m n : Nat} (fewer : m ≤ n)
    (member : o ∈ l.drop n) : o ∈ l.drop m := by
  rw [← Nat.add_sub_cancel' fewer, ← List.drop_drop] at member
  exact mem_of_mem_drop member

theorem mem_drop_append {α : Type} {o : α} {first added : List α} {n : Nat}
    (member : o ∈ (first ++ added).drop n) : o ∈ first.drop n ∨ o ∈ added := by
  rw [List.drop_append, mem_append] at member
  exact member.imp_right mem_of_mem_drop

theorem position_behind {acc : Nat} (basis : Basis holds s (.readQueued o acc ::ₘ others))
    (straight : exact holds o = true) : o ∉ s.stream.drop (acc + s.wireQueued) := by
  intro late
  have uncounted : o ∈ s.stream.drop s.wireQueued := mem_drop_of_le (Nat.le_add_left _ _) late
  have some : 0 < weigh pending (.readQueued o acc ::ₘ others) := by
    have total := basis.counted.total
    have length := List.length_pos_of_mem uncounted
    rw [List.length_drop] at length
    omega
  obtain ⟨a, member, counts⟩ : ∃ a ∈ others, 0 < pending a := by
    by_contra none
    push Not at none
    have zero : weigh pending others = 0 :=
      (weigh_eq_zero_iff _ _).mpr (fun a member => Nat.le_zero.mp (none a member))
    rw [weigh_cons, zero] at some
    cases some
  have carries := (basis.counted.sole a (mem_cons_of_mem member) counts).2 o uncounted
  obtain ⟨rest, rfl⟩ := Multiset.exists_cons_of_mem member
  have holding : Holding holds s (a ::ₘ .readQueued o acc ::ₘ rest) := by
    rw [Multiset.cons_swap]
    exact basis.holding
  cases carries_source holding carries with
  | inl mine =>
    have single := basis.owned.single o
    have reading : own o (.readQueued o acc) = 1 := if_pos rfl
    rw [weigh_cons, weigh_cons, mine, reading] at single
    omega
  | inr flush =>
    obtain ⟨i, inside, _⟩ := flush
    exact exact_not_held basis straight i inside

theorem noted_step (basis : Basis holds s (a ::ₘ others)) (step : Step holds s a s' more)
    (held : Noted holds s) : Noted holds s' := by
  have grows := step_grows basis.holding step
  obtain ⟨added, stream, carried⟩ := grows.stream
  have old : ∀ o v, (o, v) ∈ s.noted → exact holds o = true → o ∉ s'.stream.drop v := by
    intro o v noted straight late
    rw [stream] at late
    cases mem_drop_append late with
    | inl before => exact held o v noted straight before
    | inr new =>
      obtain ⟨i, inside, _⟩ := past_carried basis noted (carried o new)
      exact exact_not_held basis straight i inside
  cases step with
  | unmarked o acc | marked o acc =>
    intro p v noted straight
    simp only [mem_append, mem_singleton, Prod.mk.injEq] at noted
    cases noted with
    | inl before => exact old p v before straight
    | inr fresh =>
      obtain ⟨rfl, rfl⟩ := fresh
      exact position_behind basis straight
  | _ => exact old

theorem known_grows (grows : Grows a s s') (held : Known holds s r) : Known holds s' r :=
  ⟨grows.noted _ held.1, held.2⟩

theorem sweep_grows (grows : Grows a s s') (held : SweepKnown holds s w) : SweepKnown holds s' w :=
  ⟨Nat.le_trans held.1 grows.wireSent, fun r member => known_grows grows (held.2.1 r member),
    fun r member => known_grows grows (held.2.2 r member)⟩

theorem gone_grows (basis : Basis holds s (a ::ₘ others)) (grows : Grows a s s')
    {v i : Nat} (noted : (o, v) ∈ s.noted) (gone : ∀ j, i ≤ j → o ∉ s.hold j) :
    ∀ j, i ≤ j → o ∉ s'.hold j := by
  intro j above member
  cases grows.hold j o member with
  | inl old => exact gone j above old
  | inr moved =>
    obtain ⟨carries, next, found, below⟩ := moved
    obtain ⟨k, inside, level⟩ := past_carried basis noted carries
    have := level next found
    exact gone k (by omega) inside

theorem left_grows (basis : Basis holds s (a ::ₘ others)) (grows : Grows a s s')
    {v : Nat} (noted : (o, v) ∈ s.noted) (left : Left s o) : Left s' o := by
  refine ⟨?_, ?_⟩
  · intro j
    exact gone_grows basis grows noted (i := 0) (fun k _ => left.1 k) j (Nat.zero_le j)
  · intro late
    obtain ⟨added, stream, carried⟩ := grows.stream
    have behind : o ∈ s'.stream.drop s.wireSent := mem_drop_of_le grows.wireSent late
    rw [stream] at behind
    cases mem_drop_append behind with
    | inl before => exact left.2 before
    | inr new =>
      obtain ⟨i, inside, _⟩ := past_carried basis noted (carried o new)
      exact left.1 i inside

theorem fits_grows (basis : Basis holds s (a ::ₘ others)) (grows : Grows a s s') {b : Section}
    (held : Fits holds s b) : Fits holds s' b := by
  cases b with
  | addReceipt r => exact known_grows grows held
  | loadSent out | putBack keep => exact fun r member => known_grows grows (held r member)
  | judge w => exact sweep_grows grows held
  | bufHeld w r i acc =>
    exact ⟨sweep_grows grows held.1, known_grows grows held.2.1,
      fun zero => gone_grows basis grows held.2.1.1 (held.2.2 zero)⟩
  | bufSocket w r acc =>
    refine ⟨sweep_grows grows held.1, known_grows grows held.2.1, ?_⟩
    intro zero j
    exact gone_grows basis grows held.2.1.1 (fun k _ => held.2.2 zero k) j (Nat.zero_le j)
  | _ => trivial

theorem told_move (basis : Basis holds s (a ::ₘ others)) (step : Step holds s a s' more)
    (held : Told holds s (a ::ₘ others)) (waiting : ∀ r ∈ s'.receipts, Known holds s' r)
    (fits : ∀ b ∈ more, Fits holds s' b)
    (told : ∀ r ∈ s'.told, r ∈ s.told ∨ Known holds s' r ∧ Left s' r.owner) :
    Told holds s' (↑more + others) := by
  have grows := step_grows basis.holding step
  refine ⟨noted_step basis step held.noted, waiting, ?_, ?_⟩
  · exact forall_pushed fits fun b old =>
      fits_grows basis grows (held.fits b (mem_cons_of_mem old))
  · intro r member
    cases told r member with
    | inl old =>
      obtain ⟨known, left⟩ := held.told r old
      exact ⟨known_grows grows known, left_grows basis grows known.1 left⟩
    | inr new => exact new

theorem passed_left (basis : Basis holds s others) (noted : Noted holds s)
    (known : Known holds s r) (sent : w.sent ≤ s.wireSent) (done : r.done w.sent = true)
    (marked : r.wire ≠ 0) : Left s r.owner := by
  unfold Receipt.done at done
  split at done
  · cases done
  · rename_i straight
    have path : exact holds r.owner = true := by
      have := known.2
      simpa using this.symm.trans (Bool.eq_false_iff.mpr straight)
    refine ⟨exact_not_held basis path, ?_⟩
    intro late
    have reached : r.wire ≤ s.wireSent := by
      have : r.wire ≤ w.sent := by simpa [marked] using done
      omega
    exact noted r.owner r.wire known.1 path (mem_drop_of_le reached late)

theorem drained_left (here : Fits holds s (.bufSocket w r 0))
    (reported : s.wireSent = s.retired) (empty : s.stream.length ≤ s.retired) : Left s r.owner := by
  refine ⟨here.2.2 rfl, ?_⟩
  rw [List.drop_of_length_le (by omega)]
  exact List.not_mem_nil

theorem tail_known {rest : List Receipt} (first : w.out = r :: rest)
    (held : SweepKnown holds s w) : SweepKnown holds s { w with out := rest } ∧ Known holds s r := by
  obtain ⟨sent, out, keep⟩ := held
  rw [first] at out
  exact ⟨⟨sent, fun p inside => out p (List.mem_cons_of_mem r inside), keep⟩, out r List.mem_cons_self⟩

theorem told_step {c : Choice} (allowed : Orderly c a s) (basis : Basis holds s (a ::ₘ others))
    (step : Step holds s a s' more) (held : Told holds s (a ::ₘ others)) :
    Told holds s' (↑more + others) := by
  have here := held.fits a (mem_cons_self a others)
  have grows := step_grows basis.holding step
  have waiting : ∀ r ∈ s.receipts, Known holds s' r :=
    fun r member => known_grows grows (held.waiting r member)
  have same : ∀ r ∈ s.told, r ∈ s.told ∨ Known holds s' r ∧ Left s' r.owner :=
    fun r member => .inl member
  have whole := step
  cases step with
  | marked o acc =>
    refine told_move basis whole held waiting ?_ same
    simp [Fits, Known]
  | addReceipt r =>
    exact told_move basis whole held
      (forall_mem_append.mpr ⟨waiting, forall_mem_singleton.mpr here⟩) (by simp) same
  | settle =>
    refine told_move basis whole held (by simp) ?_ same
    simpa [Fits] using waiting
  | loadSent out =>
    refine told_move basis whole held waiting ?_ same
    simpa [Fits, SweepKnown] using here
  | judged w =>
    refine told_move basis whole held waiting ?_ same
    simpa [Fits] using here.2.2
  | dropped w r rest first =>
    refine told_move basis whole held waiting ?_ same
    simpa [Fits] using (tail_known first here).1
  | passedBy w r rest first marked done =>
    obtain ⟨known, fits⟩ := tail_known first here
    refine told_move basis whole held waiting ?_ ?_
    · simpa [Fits] using sweep_grows grows known
    · have left := passed_left basis held.noted fits here.1 done marked
      exact forall_mem_append.mpr
        ⟨same, forall_mem_singleton.mpr (.inr ⟨known_grows grows fits, left⟩)⟩
  | look w r rest first =>
    obtain ⟨known, fits⟩ := tail_known first here
    refine told_move basis whole held waiting ?_ same
    simp only [mem_singleton, forall_eq, Fits]
    refine ⟨known, fits, ?_⟩
    intro _ j above member
    have := (basis.holding.placed j r.owner member).2
    omega
  | bufHeld w r i acc =>
    refine told_move basis whole held waiting ?_ same
    simp only [mem_singleton, forall_eq, Fits]
    refine ⟨here.1, here.2.1, ?_⟩
    intro zero j above member
    by_cases same : j = i
    · subst j
      have holder := (basis.holding.placed i r.owner member).1
      rw [if_pos holder] at zero
      have := List.length_pos_of_mem member
      omega
    · have none : acc = 0 := by
        split at zero <;> omega
      exact here.2.2 none j (by omega) member
  | bufAll w r acc =>
    refine told_move basis whole held waiting ?_ same
    simp only [mem_singleton, forall_eq, Fits]
    exact ⟨here.1, here.2.1, fun zero j => here.2.2 zero j (Nat.zero_le j)⟩
  | drained w r empty =>
    refine told_move basis whole held waiting ?_ ?_
    · simpa [Fits] using sweep_grows grows here.1
    · have left := drained_left here allowed empty
      exact forall_mem_append.mpr
        ⟨same, forall_mem_singleton.mpr (.inr ⟨known_grows grows here.2.1, left⟩)⟩
  | kept w r acc =>
    refine told_move basis whole held waiting ?_ same
    simp only [mem_singleton, forall_eq, Fits]
    exact ⟨here.1.1, here.1.2.1,
      forall_mem_append.mpr ⟨here.1.2.2, forall_mem_singleton.mpr here.2.1⟩⟩
  | putBack keep =>
    exact told_move basis whole held (forall_mem_append.mpr ⟨here, waiting⟩) (by simp) same
  | _ =>
    refine told_move basis whole held waiting ?_ same
    simp [Fits]

section Runs
variable {q : Pool Wire Section}

theorem entry_plain (entry : entry a = true) :
    chain a = none ∧ (∀ o, own o a = 0) ∧ (∀ i, flushes i a = 0) ∧ pending a = 0 := by
  cases a <;> first | exact ⟨rfl, fun _ => rfl, fun _ => rfl, rfl⟩ | cases entry

theorem entry_fits (entry : entry a = true) : Fits holds s a := by
  cases a <;> trivial

theorem basis_spawned (entry : entry a = true) (held : Basis holds s others) :
    Basis holds s (a ::ₘ others) := by
  obtain ⟨silent, unowned, unlocked, idle⟩ := entry_plain entry
  refine ⟨?_, ⟨held.holding.placed, ?_, ?_, ?_⟩, counted_idle held.counted idle⟩
  · rw [owned_iff]
    simpa only [weigh_cons, unowned, Nat.zero_add, owned_iff] using held.owned
  · intro i
    rw [weigh_cons, unlocked, Nat.zero_add]
    exact held.holding.locked i
  · refine Multiset.forall_mem_cons.mpr ⟨fun i taken flushing => ?_, held.holding.taken⟩
    rw [silent] at flushing
    cases flushing
  · intro bytes next member
    rw [mem_cons] at member
    cases member with
    | inl first =>
      subst a
      cases silent
    | inr old => exact held.holding.chosen bytes next old

theorem basis_run (run : Run (program holds) Orderly ⟨Wire.start, []⟩ q) :
    Basis holds q.state (owed q) := by
  refine owed_invariant (Basis holds) ?_ ?_ ?_ run
  · exact ⟨⟨by simp [owed], by simp [owed], by simp [Wire.start]⟩,
      ⟨by simp [Wire.start], by simp [owed, Wire.start], by simp [owed], by simp [owed]⟩,
      ⟨by simp [owed, Wire.start], by simp [owed]⟩⟩
  · intro s others a entry held
    exact basis_spawned entry held
  · intro s others a c ready allowed held
    have step := exec_step holds c a s
    exact ⟨owned_step step held.owned, holding_step ready step held.holding,
      counted_step allowed held.holding step held.counted⟩

theorem told_run (run : Run (program holds) Orderly ⟨Wire.start, []⟩ q) :
    Told holds q.state (owed q) := by
  refine owed_invariant_given (Basis holds) (Told holds) (fun _ => basis_run) ?_ ?_ ?_ run
  · exact ⟨by simp [Noted, Wire.start], by simp [Wire.start], by simp [owed], by simp [Wire.start]⟩
  · intro s others a entry held
    exact ⟨held.noted, held.waiting, Multiset.forall_mem_cons.mpr ⟨entry_fits entry, held.fits⟩,
      held.told⟩
  · intro s others a c ready allowed basis held
    exact told_step allowed basis (exec_step holds c a s) held

end Runs

theorem receipts_not_early {q : Pool Wire Section}
    (run : Run (program holds) Orderly ⟨Wire.start, []⟩ q) :
    (∀ r ∈ q.state.told, Left q.state r.owner) ∧
      ∀ o position, (o, position) ∈ q.state.noted → exact holds o = true →
        position ≤ q.state.wireSent → Left q.state o := by
  have told := told_run run
  refine ⟨fun r member => (told.told r member).2, ?_⟩
  intro o position noted straight reached
  refine ⟨exact_not_held (basis_run run) straight, ?_⟩
  intro late
  exact told.noted o position noted straight (mem_drop_of_le reached late)

def orderly (_ : Choice) (a : Section) (s : Wire) : Bool :=
  match a with
  | .socketWrite _ _ => s.wireQueued = s.stream.length
  | .bufSocket _ _ _ => s.wireSent = s.retired
  | _ => true

theorem orderly_sound (c : Choice) (a : Section) (s : Wire) (checked : orderly c a s = true) :
    Orderly c a s := by
  cases a <;> simp_all [orderly, Orderly]

/-- A write into the socket, tracked or not, whose layer hands on one byte. -/
def oneByte (thread : Nat) (o : Owner) : List (Move Section Choice) :=
  [.run thread { act := .emit [o] }, .run thread { amount := 1 }]

def sendOne (thread : Nat) : List (Move Section Choice) :=
  [.start .send, .run thread { amount := 1 }, .run thread {}, .run thread {}]

def settleAll (thread : Nat) : List (Move Section Choice) :=
  [.start .settle, .run thread {}, .run thread {}, .run thread {}, .run thread {}, .run thread {}]

def trackedAlone : List (Move Section Choice) :=
  List.flatten [[.start (.write 1 true), .run 0 {}], oneByte 0 ⟨0, 1⟩, runs 0 6 {}, sendOne 1,
    settleAll 2]

theorem receipts_not_early_alone : ∃ q,
    Run (program fun _ => false) Orderly ⟨Wire.start, []⟩ q ∧ q.state.told = [⟨⟨0, 1⟩, 1, false⟩] ∧
      Left q.state ⟨0, 1⟩ := by
  obtain ⟨q, run, checked⟩ := replay_meets (P := program fun _ => false) (p := ⟨Wire.start, []⟩)
    orderly_sound (fun q => decide (q.state.told = [⟨⟨0, 1⟩, 1, false⟩])) trackedAlone
    (by decide +kernel) (by decide +kernel)
  have told := of_decide_eq_true checked
  exact ⟨q, run, told, (receipts_not_early run).1 ⟨⟨0, 1⟩, 1, false⟩ (by simp [told])⟩

/-- The socket takes the first writer's byte, then the tracked writer's, which is counted
    first: its position is 1, and the report of the first writer's byte reaches it. -/
def overtaken : List (Move Section Choice) :=
  List.flatten [[.start (.write 1 false), .run 0 {}], oneByte 0 ⟨0, 1⟩,
    [.start (.write 1 true), .run 1 {}], oneByte 1 ⟨1, 1⟩, runs 1 6 {}, sendOne 2, settleAll 3]

theorem receipt_early : ∃ q, Reachable (program fun _ => false) ⟨Wire.start, []⟩ q ∧
    q.state.told = [⟨⟨1, 1⟩, 1, false⟩] ∧ (⟨1, 1⟩, 1) ∈ q.state.noted ∧ 1 ≤ q.state.wireSent ∧
      ¬ Left q.state ⟨1, 1⟩ := by
  obtain ⟨q, run, checked⟩ := replay_reaches (P := program fun _ => false) (p := ⟨Wire.start, []⟩)
    overtaken (fun q => decide (q.state.told = [⟨⟨1, 1⟩, 1, false⟩] ∧
      (⟨1, 1⟩, 1) ∈ q.state.noted ∧ 1 ≤ q.state.wireSent ∧
      ⟨1, 1⟩ ∈ q.state.stream.drop q.state.wireSent)) (by decide +kernel)
  obtain ⟨told, noted, reached, waits⟩ := of_decide_eq_true checked
  exact ⟨q, run, told, noted, reached, fun left => left.2 waits⟩

end LayerEarly
