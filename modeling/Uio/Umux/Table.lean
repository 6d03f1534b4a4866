import Uio.Umux.Birth
import Uio.Umux.Spine

/- How many streams the table holds. Open checks the limit and inserts under one hold
   of the lock. A peer's stream is checked before its Accept callback and inserted
   after it, so between the two it is a stream the table does not count yet. -/
namespace UmuxTable
open Interleaving UmuxFrame UmuxOutbox UmuxSession UmuxSettings UmuxMachine UmuxLifecycle UmuxTurn
open UmuxFootprint UmuxEdits UmuxBirth UmuxSpine
variable (cfg : Endpoint) (c : Oracle) {s : Session}

theorem entries_le {t u : Table} (fewer : ∀ id r, t.lookup id = some r → u.lookup id = some r) :
    t.entries.length ≤ u.entries.length := by
  have keys : t.keys ⊆ u.keys := by
    intro id member
    obtain ⟨r, found⟩ := Option.isSome_iff_exists.mp (AList.lookup_isSome.mpr member)
    exact AList.lookup_isSome.mp (by rw [fewer id r found]; rfl)
  have le := (List.subperm_of_subset t.keys_nodup keys).length_le
  simpa only [AList.keys, List.keys, List.length_map] using le

theorem entries_insert (t : Table) (id : Nat) (r : Ref) :
    (t.insert id r).entries.length ≤ t.entries.length + 1 := by
  exact Nat.succ_le_succ (List.kerase_sublist id t.entries).length_le

theorem edits_fewer {o o' : Outward} (edits : Edits cfg o o') :
    o.reg.fresh ≤ o'.reg.fresh ∧ (o'.reg.fresh = o.reg.fresh → ∀ id r,
      o'.reg.streams.lookup id = some r → o.reg.streams.lookup id = some r) := by
  induction edits with
  | refl => exact ⟨le_rfl, fun _ _ _ found => found⟩
  | @tail before last _ edit ih =>
    obtain ⟨grows, kept⟩ := ih
    cases edit with
    | shrunk streams openWait fewer waits =>
      exact ⟨grows, fun same id r found => kept same id r (fewer id r found)⟩
    | created id openWait nextID waits =>
      refine ⟨Nat.le_succ_of_le grows, ?_⟩
      intro same
      exact absurd (same ▸ Nat.lt_succ_self before.reg.fresh) (Nat.not_lt.mpr grows)
    | _ => exact ⟨grows, kept⟩

theorem exec_fewer {a : Section} (listed : Listed s.reg)
    (other : creates a = false) (id : Nat) (r : Ref)
    (found : (exec cfg c a s).1.reg.streams.lookup id = some r) :
    s.reg.streams.lookup id = some r := by
  by_cases edits : queues a = false
  · exact (edits_fewer cfg (exec_edits cfg c listed edits)).2 (exec_names cfg c other).1 id r found
  · have untouched : touches a .reg = false := by
      cases a <;> first | rfl | exact absurd rfl edits
    rw [exec_reg cfg c s untouched] at found
    exact found

theorem openStream_entries (s : Session) (metadata : List UInt8) :
    (openStream cfg c s metadata).1.reg.streams.entries.length ≤ s.reg.streams.entries.length ∨
      s.reg.streams.entries.length < cfg.maxStreams ∧
        (openStream cfg c s metadata).1.reg.streams.entries.length ≤
          s.reg.streams.entries.length + 1 := by
  rcases openStream_made cfg c s metadata with same | ⟨reg, -⟩
  · rw [same]
    exact .inl le_rfl
  · by_cases refused : cfg.maxMetadata < metadata.length ∨ s.status.closed ∨ s.status.goAway
        ∨ cfg.maxStreams ≤ s.reg.streams.entries.length
    · left
      rw [openStream, if_pos refused]
    · right
      simp only [not_or, Nat.not_le] at refused
      refine ⟨refused.2.2.2, ?_⟩
      rw [reg]
      exact entries_insert s.reg.streams s.reg.nextID s.reg.fresh

theorem acceptVet_entries (s : Session) (id delta : Nat) (metadata : List UInt8) :
    (acceptVet cfg c s id delta metadata).1.reg.streams.entries.length ≤
      s.reg.streams.entries.length + 1 := by
  rcases acceptVet_made cfg c s id delta metadata with same | ⟨reg, -⟩
  · rw [same]
    exact Nat.le_succ _
  · rw [reg]
    exact entries_insert s.reg.streams id s.reg.fresh

def vetting : Section → Bool
  | .acceptVet _ _ _ => true
  | _ => false

theorem acceptStream_full (id delta : Nat)
    (metadata : List UInt8) (full : cfg.maxStreams ≤ s.reg.streams.entries.length) :
    (acceptStream cfg c s id delta metadata).2.all (!vetting ·) = true := by
  unfold acceptStream
  split
  · rfl
  · split
    · rfl
    · split
      · rfl
      · rfl

theorem handleFrame_full (f : Frame) (full : cfg.maxStreams ≤ s.reg.streams.entries.length) :
    (handleFrame cfg c s f).2.all (!vetting ·) = true := by
  unfold handleFrame
  split
  · unfold handleData
    (repeat' split) <;> rfl
  · unfold handleWindowUpdate
    split
    · exact acceptStream_full cfg c _ _ _ full
    · unfold handleAck
      (repeat' split) <;> rfl
  · unfold handlePing
    (repeat' split) <;> rfl
  · unfold handleSynMetadata
    split
    · rfl
    · exact acceptStream_full cfg c _ _ _ full
  · rfl

theorem readFrame_full (full : cfg.maxStreams ≤ s.reg.streams.entries.length) :
    (readFrame cfg c s).2.all (!vetting ·) = true := by
  unfold readFrame
  split
  · rfl
  · rfl
  · split
    · rfl
    · split
      · rfl
      · exact handleFrame_full cfg c _ full

theorem listed_run {cfg : Endpoint} {now : Nat} {ok : Oracle → Section → Session → Prop}
    {p : Pool Session Section} (run : Run (program cfg) ok (newSession cfg now) p) :
    Listed p.state.reg := by
  refine owed_invariant (fun s _ => Listed s.reg) (listed_new cfg now) ?_ ?_ run
  · intro s others a entry held
    exact held
  · intro s others a c ready _ held
    exact listed_exec cfg c a held

def vettings (owing : Multiset Section) : Nat := owing.countP (vetting · = true)

theorem vettings_cons (a : Section) (owing : Multiset Section) :
    vettings (a ::ₘ owing) = (vetting a).toNat + vettings owing := by
  unfold vettings
  rw [Multiset.countP_cons, Nat.add_comm]
  cases vetting a <;> rfl

theorem vettings_add (first second : Multiset Section) :
    vettings (first + second) = vettings first + vettings second :=
  Multiset.countP_add ..

theorem vettings_eq_zero {owing : Multiset Section} (plain : ∀ a ∈ owing, vetting a = false) :
    vettings owing = 0 :=
  Multiset.countP_eq_zero.mpr fun a member vets => Bool.false_ne_true ((plain a member).symm.trans vets)

theorem vettings_le_spines (owing : Multiset Section) : vettings owing ≤ spines owing := by
  refine Multiset.induction_on owing (Nat.le_refl 0) ?_
  intro a others le
  rw [vettings_cons, spines_cons]
  have one : (vetting a).toNat ≤ cond (isSpine a) 1 0 := by
    cases a <;> first | exact Nat.zero_le _ | exact Nat.le_refl 1
  omega

theorem vettings_pushed {a : Section}
    (other : a ≠ .readFrame) : vettings ↑(exec cfg c a s).2 = 0 := by
  apply vettings_eq_zero
  intro b member
  cases vets : vetting b with
  | false => rfl
  | true =>
    cases b <;> first | (cases vets; done) | skip
    have next := next_of_placed cfg c (Multiset.mem_coe.mp member) (by rfl)
    cases a <;> first | (cases next; done) | exact absurd rfl other

/-- Opens that leave room for the stream whose Accept callback may be running: none
    runs beside a turn unless two places are free. -/
def Leaves (cfg : Endpoint) (_ : Oracle) (a : Section) (s : Session) : Prop :=
  ∀ metadata, a = .openStream metadata →
    s.busy = false ∨ s.reg.streams.entries.length + 1 < cfg.maxStreams

/-- The streams of the table and those on their way into it are within the limit. -/
def Within (cfg : Endpoint) (s : Session) (owing : Multiset Section) : Prop :=
  s.reg.streams.entries.length + vettings owing ≤ cfg.maxStreams

theorem open_within {cfg : Endpoint} {c : Oracle} {others : Multiset Section}
    {metadata : List UInt8} (leaves : Leaves cfg c (.openStream metadata) s)
    (token : Token s (.openStream metadata ::ₘ others))
    (held : Within cfg s (.openStream metadata ::ₘ others)) :
    (openStream cfg c s metadata).1.reg.streams.entries.length + vettings others ≤
      cfg.maxStreams := by
  unfold Within at held
  unfold Token at token
  rw [vettings_cons] at held
  rw [spines_cons] at token
  rcases openStream_entries cfg c s metadata with fewer | ⟨room, one⟩
  · omega
  · have spine := vettings_le_spines others
    rcases leaves metadata rfl with idle | free
    · rw [idle, cond_false] at token
      omega
    · have busy : cond s.busy 1 0 ≤ 1 := by cases s.busy <;> decide
      omega

theorem readFrame_within {cfg : Endpoint} {others : Multiset Section}
    (listed : Listed s.reg) (token : Token s (.readFrame ::ₘ others))
    (held : Within cfg s (.readFrame ::ₘ others)) :
    (readFrame cfg c s).1.reg.streams.entries.length +
      (vettings ↑(readFrame cfg c s).2 + vettings others) ≤ cfg.maxStreams := by
  have fewer := entries_le (exec_fewer cfg c (a := .readFrame) listed rfl)
  simp only [exec] at fewer
  unfold Within at held
  rw [vettings_cons] at held
  rcases Nat.lt_or_ge s.reg.streams.entries.length cfg.maxStreams with room | full
  · have alone : vettings others = 0 := by
      have none := (token_alone rfl token).2
      have spine : spines others = 0 := Multiset.countP_eq_zero.mpr fun b member on =>
        Bool.false_ne_true ((none b member).symm.trans on)
      have le := vettings_le_spines others
      omega
    have one : vettings ↑(readFrame cfg c s).2 ≤ 1 := by
      refine Nat.le_trans (vettings_le_spines _) (Nat.le_of_eq ?_)
      unfold spines
      rw [Multiset.coe_countP]
      simpa using readFrame_spine cfg c s
    omega
  · have none : vettings ↑(readFrame cfg c s).2 = 0 := by
      apply vettings_eq_zero
      intro b member
      have plain := List.all_eq_true.mp (readFrame_full cfg c full) b (Multiset.mem_coe.mp member)
      simpa using plain
    omega

theorem within_exec {cfg : Endpoint} {c : Oracle} {a : Section}
    {others : Multiset Section} (leaves : Leaves cfg c a s) (listed : Listed s.reg)
    (token : Token s (a ::ₘ others)) (held : Within cfg s (a ::ₘ others)) :
    Within cfg (exec cfg c a s).1 (↑(exec cfg c a s).2 + others) := by
  unfold Within
  rw [vettings_add]
  by_cases reading : a = .readFrame
  · subst a
    exact readFrame_within c listed token held
  · rw [vettings_pushed cfg c reading, Nat.zero_add]
    cases made : creates a with
    | false =>
      have fewer := entries_le (exec_fewer cfg c listed made)
      unfold Within at held
      rw [vettings_cons] at held
      omega
    | true =>
      cases a
      case openStream metadata => exact open_within leaves token held
      case acceptVet id delta metadata =>
        have one := acceptVet_entries cfg c s id delta metadata
        unfold Within at held
        simp only [vettings_cons, vetting, Bool.toNat_true] at held
        simp only [exec]
        omega
      all_goals cases made

theorem within_run {cfg : Endpoint} {now : Nat} {p : Pool Session Section}
    (run : Run (program cfg) (Leaves cfg) (newSession cfg now) p) : Within cfg p.state (owed p) := by
  refine owed_invariant_given (fun s owing => Token s owing ∧ Listed s.reg) (Within cfg)
    (fun _ before => ⟨token_run before, listed_run before⟩) ?_ ?_ ?_ run
  · exact Nat.zero_le _
  · intro s others a entry held
    have plain : vetting a = false := by
      cases a <;> first | rfl | cases entry
    unfold Within
    rw [vettings_cons, plain, Bool.toNat_false, Nat.zero_add]
    exact held
  · intro s others a c ready leaves known held
    exact within_exec leaves known.2 known.1 held

theorem streams_within_limit (cfg : Endpoint) (now : Nat) (p : Pool Session Section)
    (run : Run (program cfg) (Leaves cfg) (newSession cfg now) p) :
    p.state.reg.streams.entries.length ≤ cfg.maxStreams :=
  Nat.le_trans (Nat.le_add_right _ _) (within_run run)

def single : Endpoint := endpoint { maxStreams := 1, accept := true } false

def synTaken : List (Move Section Oracle) :=
  List.flatten [runs 0 4 {}, [.start .turnRead],
    runs 1 4 { incoming := .frame (control .windowUpdate { syn := true } 1 0) }]

def leavesRoom (cfg : Endpoint) (_ : Oracle) (a : Section) (s : Session) : Bool :=
  match a with
  | .openStream _ => !s.busy || s.reg.streams.entries.length + 1 < cfg.maxStreams
  | _ => true

theorem leavesRoom_sound (a : Section) (s : Session)
    (leaves : leavesRoom cfg c a s = true) : Leaves cfg c a s := by
  intro metadata opens
  subst a
  simpa [leavesRoom] using leaves

/-- The peer's stream fills the table, and an Open after the turn is refused. -/
theorem streams_within_limit_full : ∃ p, (Run (program single) (Leaves single) (newSession single 0) p ∧
    p.state.reg.streams.lookup 1 = some 0 ∧ p.state.reg.fresh = 1) ∧
    p.state.reg.streams.entries.length ≤ 1 := by
  obtain ⟨p, run, checked⟩ := replay_meets (leavesRoom_sound single)
    (fun p => decide (p.state.reg.streams.lookup 1 = some 0 ∧ p.state.reg.fresh = 1))
    (List.flatten [synTaken, runs 1 13 {}, [.start (.openStream [])], runs 2 1 {}])
    (P := program single) (p := newSession single 0) (by decide +kernel) (by decide +kernel)
  obtain ⟨entered, one⟩ := of_decide_eq_true checked
  exact ⟨p, ⟨run, entered, one⟩, streams_within_limit single 0 p run⟩

/-- An Open during the Accept callback takes the place that the SYN was promised. -/
theorem limit_exceeded : ∃ p, Reachable (program single) (newSession single 0) p ∧
    single.maxStreams < p.state.reg.streams.entries.length := by
  obtain ⟨p, reached, checked⟩ := replay_reaches
    (List.flatten [synTaken, [.start (.openStream [])], runs 2 1 {}, runs 1 2 {}])
    (fun p => decide (single.maxStreams < p.state.reg.streams.entries.length))
    (P := program single) (p := newSession single 0) (by decide +kernel)
  exact ⟨p, reached, of_decide_eq_true checked⟩

end UmuxTable
