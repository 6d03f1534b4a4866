import Mathlib

/-!
Parsing a stream that arrives in pieces. The reference is a parser of one item at the
front of a list whose verdict no later element changes; `drain` folds it over a list.
A machine that is fed one piece after another does the same as `drain` on the whole
once each piece does, from any state that stands for the elements it keeps.
-/
namespace Streaming
variable {β φ ε σ : Type}

inductive Outcome (φ ε : Type) where
  | more
  | item (f : φ) (size : Nat)
  | fail (e : ε)

structure Front (β φ ε : Type) where
  parse : List β → Outcome φ ε
  sized : ∀ {xs f n}, parse xs = .item f n → 0 < n ∧ n ≤ xs.length
  item_append : ∀ {xs f n} ys, parse xs = .item f n → parse (xs ++ ys) = .item f n
  fail_append : ∀ {xs e} ys, parse xs = .fail e → parse (xs ++ ys) = .fail e

structure Drained (β φ ε : Type) where
  emitted : List φ
  rest : List β
  err : Option ε

section
variable (P : Front β φ ε) (sink : List φ → Option ε)

/-- Hand every item to the sink, which sees all items so far and may stop the parse. -/
def drain (seen : List φ) (xs : List β) : Drained β φ ε :=
  match _done : P.parse xs with
  | .more => ⟨seen, xs, none⟩
  | .fail e => ⟨seen, xs, some e⟩
  | .item f n =>
    match sink (seen ++ [f]) with
    | some e => ⟨seen ++ [f], xs.drop n, some e⟩
    | none => drain (seen ++ [f]) (xs.drop n)
termination_by xs.length
decreasing_by
  have sized := P.sized _done
  rw [List.length_drop]
  omega

variable {P sink} {seen : List φ} {xs : List β}

theorem drain_more (more : P.parse xs = .more) : drain P sink seen xs = ⟨seen, xs, none⟩ := by
  rw [drain]
  split <;> simp_all

theorem drain_fail {e : ε} (fail : P.parse xs = .fail e) :
    drain P sink seen xs = ⟨seen, xs, some e⟩ := by
  rw [drain]
  split <;> simp_all

theorem drain_stop {f : φ} {n : Nat} {e : ε} (item : P.parse xs = .item f n)
    (stop : sink (seen ++ [f]) = some e) :
    drain P sink seen xs = ⟨seen ++ [f], xs.drop n, some e⟩ := by
  rw [drain]
  split <;> simp_all

theorem drain_item {f : φ} {n : Nat} (item : P.parse xs = .item f n)
    (go : sink (seen ++ [f]) = none) :
    drain P sink seen xs = drain P sink (seen ++ [f]) (xs.drop n) := by
  rw [drain]
  split <;> simp_all

theorem drain_append (P : Front β φ ε) (sink : List φ → Option ε) (seen : List φ) (xs ys : List β) :
    (∀ e, (drain P sink seen xs).err = some e →
        (drain P sink seen (xs ++ ys)).emitted = (drain P sink seen xs).emitted ∧
          (drain P sink seen (xs ++ ys)).err = some e) ∧
      ((drain P sink seen xs).err = none → drain P sink seen (xs ++ ys) =
        drain P sink (drain P sink seen xs).emitted ((drain P sink seen xs).rest ++ ys)) := by
  induction seen, xs using drain.induct P sink with
  | case1 seen xs more =>
    rw [drain_more more]
    exact ⟨nofun, fun _ => rfl⟩
  | case2 seen xs e fail =>
    rw [drain_fail fail, drain_fail (P.fail_append ys fail)]
    exact ⟨fun e same => ⟨rfl, same⟩, nofun⟩
  | case3 seen xs f n item e stop =>
    rw [drain_stop item stop, drain_stop (P.item_append ys item) stop]
    exact ⟨fun e same => ⟨rfl, same⟩, nofun⟩
  | case4 seen xs f n item go ih =>
    have within := (P.sized item).2
    rw [drain_item item go, drain_item (P.item_append ys item) go,
      List.drop_append_of_le_length within]
    exact ih

theorem drain_rest (seen : List φ) (xs : List β) (fine : (drain P sink seen xs).err = none) :
    P.parse (drain P sink seen xs).rest = .more := by
  induction seen, xs using drain.induct P sink with
  | case1 seen xs more =>
    rw [drain_more more]
    exact more
  | case2 seen xs e fail =>
    rw [drain_fail fail] at fine
    cases fine
  | case3 seen xs f n item e stop =>
    rw [drain_stop item stop] at fine
    cases fine
  | case4 seen xs f n item go ih =>
    rw [drain_item item go] at fine ⊢
    exact ih fine

/-- Items taken off the front one after another, which the sink let through. -/
inductive Steps (P : Front β φ ε) (sink : List φ → Option ε) :
    List φ → List β → List φ → List β → Prop where
  | here (seen : List φ) (xs : List β) : Steps P sink seen xs seen xs
  | item {seen : List φ} {xs : List β} {f : φ} {n : Nat} {emitted : List φ} {rest : List β}
      (item : P.parse xs = .item f n) (go : sink (seen ++ [f]) = none)
      (more : Steps P sink (seen ++ [f]) (xs.drop n) emitted rest) : Steps P sink seen xs emitted rest

inductive Halts (P : Front β φ ε) (sink : List φ → Option ε) :
    List φ → List β → List φ → ε → Prop where
  | parser {seen : List φ} {xs : List β} {e : ε} (fail : P.parse xs = .fail e) :
      Halts P sink seen xs seen e
  | sink {seen : List φ} {xs : List β} {f : φ} {n : Nat} {e : ε} (item : P.parse xs = .item f n)
      (stop : sink (seen ++ [f]) = some e) : Halts P sink seen xs (seen ++ [f]) e

theorem Steps.append {emitted : List φ} {rest : List β} (steps : Steps P sink seen xs emitted rest)
    (ys : List β) : Steps P sink seen (xs ++ ys) emitted (rest ++ ys) := by
  induction steps with
  | here seen xs => exact .here seen (xs ++ ys)
  | item item go _ ih =>
    refine .item (P.item_append ys item) go ?_
    rw [List.drop_append_of_le_length (P.sized item).2]
    exact ih

theorem Steps.trans {middle emitted : List φ} {left rest : List β}
    (first : Steps P sink seen xs middle left) (second : Steps P sink middle left emitted rest) :
    Steps P sink seen xs emitted rest := by
  induction first with
  | here => exact second
  | item item go _ ih => exact .item item go (ih second)

theorem Steps.drain {emitted : List φ} {rest : List β} (steps : Steps P sink seen xs emitted rest) :
    Streaming.drain P sink seen xs = Streaming.drain P sink emitted rest := by
  induction steps with
  | here => rfl
  | item item go _ ih =>
    rw [drain_item item go]
    exact ih

theorem Halts.drain {emitted : List φ} {e : ε} (halts : Halts P sink seen xs emitted e) :
    (Streaming.drain P sink seen xs).emitted = emitted ∧
      (Streaming.drain P sink seen xs).err = some e := by
  cases halts with
  | parser fail =>
    rw [drain_fail fail]
    exact ⟨rfl, rfl⟩
  | sink item stop =>
    rw [drain_stop item stop]
    exact ⟨rfl, rfl⟩

end

structure Fed (σ φ ε : Type) where
  state : σ
  emitted : List φ
  err : Option ε

def feedAll (feed : σ → List φ → List β → Fed σ φ ε) (p : σ) (seen : List φ) :
    List (List β) → Fed σ φ ε
  | [] => ⟨p, seen, none⟩
  | piece :: pieces =>
    match (feed p seen piece).err with
    | some _ => feed p seen piece
    | none => feedAll feed (feed p seen piece).state (feed p seen piece).emitted pieces

def Shows {φ' ε' : Type} (view : φ → φ') (kind : ε → ε') (out : Fed σ φ ε)
    (d : Drained β φ' ε') : Prop :=
  out.emitted.map view = d.emitted ∧ out.err.map kind = d.err

/-- A machine that does on every piece what the reference does on what it keeps and the
    piece, does on all pieces what the reference does on the whole. -/
theorem feedAll_shows {φ' ε' : Type} {view : φ → φ'} {kind : ε → ε'} {P : Front β φ' ε'}
    {sink : List φ' → Option ε'} {feed : σ → List φ → List β → Fed σ φ ε}
    (Keeps : σ → List β → Prop) (step : ∀ p kept seen piece, Keeps p kept →
      Shows view kind (feed p seen piece) (drain P sink (seen.map view) (kept ++ piece)) ∧
        ((feed p seen piece).err = none →
          Keeps (feed p seen piece).state (drain P sink (seen.map view) (kept ++ piece)).rest))
    {p : σ} {kept : List β} (keeps : Keeps p kept) (settled : P.parse kept = .more) (seen : List φ)
    (pieces : List (List β)) : Shows view kind (feedAll feed p seen pieces)
      (drain P sink (seen.map view) (kept ++ pieces.flatten)) := by
  induction pieces generalizing p kept seen with
  | nil =>
    rw [List.flatten_nil, List.append_nil, drain_more settled]
    exact ⟨rfl, rfl⟩
  | cons piece pieces ih =>
    obtain ⟨⟨emitted, err⟩, after⟩ := step p kept seen piece keeps
    have joined := drain_append P sink (seen.map view) (kept ++ piece) pieces.flatten
    rw [List.flatten_cons, ← List.append_assoc]
    cases failed : (feed p seen piece).err with
    | some e =>
      rw [failed] at err
      obtain ⟨same, stays⟩ := joined.1 (kind e) err.symm
      simp only [feedAll, failed]
      refine ⟨emitted.trans same.symm, ?_⟩
      rw [failed, stays]
      rfl
    | none =>
      rw [failed] at err
      simp only [feedAll, failed]
      rw [joined.2 err.symm, ← emitted]
      exact ih (after failed) (drain_rest _ _ err.symm) _

end Streaming
