import Mathlib.Data.List.Basic
import CodeSurvey.Pattern.Match

/-!
# The readings of a pattern, in order

`Pattern.run` hands readings on until one is accepted. `Pattern.outcomes` lists them: a sequence of
shapes is a `flatMap`, a choice is an append, and a test keeps the reading or drops it. Matching is
then the search for the first accepted item of a list, and what can be read is membership in it.

* `Cursor.advance`: the cursor so many characters on.
* `outcomes`: the readings of a pattern from a given one, in the order in which they are tried.
* `run_eq_findSome?`: `run` takes the first accepted outcome.
* `readAt?_eq`: a match is the first outcome.
-/

namespace CodeSurvey

namespace Cursor

/-- The whole text of a cursor. -/
def whole (c : Cursor) : Text :=
  c.before.reverse ++ c.after

/-- The cursor `n` characters on, or at the end of the text. -/
def advance (c : Cursor) (n : Nat) : Cursor :=
  ⟨c.place + (c.after.take n).length, (c.after.take n).reverse ++ c.before, c.after.drop n, by
    simp [c.place_eq, Nat.add_comm]⟩

theorem eq_of_parts {c d : Cursor} (hb : c.before = d.before) (ha : c.after = d.after) : c = d := by
  obtain ⟨p, b, a, hp⟩ := c
  obtain ⟨q, b', a', hq⟩ := d
  obtain rfl : b = b' := hb
  obtain rfl : a = a' := ha
  obtain rfl : p = q := hp.trans hq.symm
  rfl

@[simp] theorem advance_after (c : Cursor) (n : Nat) : (c.advance n).after = c.after.drop n := rfl

@[simp] theorem advance_before (c : Cursor) (n : Nat) :
    (c.advance n).before = (c.after.take n).reverse ++ c.before := rfl

theorem advance_place (c : Cursor) {n : Nat} (h : n ≤ c.after.length) :
    (c.advance n).place = c.place + n := by
  simp [advance, List.length_take, Nat.min_eq_left h]

@[simp] theorem advance_zero (c : Cursor) : c.advance 0 = c :=
  eq_of_parts (by simp) (by simp)

theorem advance_advance (c : Cursor) (m n : Nat) : (c.advance m).advance n = c.advance (m + n) := by
  apply eq_of_parts
  · simp only [advance_before, advance_after, List.take_add, List.reverse_append,
      List.append_assoc]
  · simp [List.drop_drop]

@[simp] theorem advance_whole (c : Cursor) (n : Nat) : (c.advance n).whole = c.whole := by
  simp [whole, List.append_assoc]

@[simp] theorem ofPlace_after (t : Text) (n : Nat) : (ofPlace t n).after = t.drop n := rfl

@[simp] theorem ofPlace_before (t : Text) (n : Nat) :
    (ofPlace t n).before = (t.take n).reverse := rfl

theorem ofPlace_place {t : Text} {n : Nat} (h : n ≤ t.length) : (ofPlace t n).place = n := by
  show (t.take n).length = n
  rw [List.length_take]
  omega

/-- A cursor is told by its text and its place. -/
theorem eq_ofPlace (c : Cursor) : c = ofPlace c.whole c.place := by
  apply eq_of_parts
  · simp [whole, c.place_eq]
  · simp [whole, c.place_eq]

theorem place_le (c : Cursor) : c.place ≤ c.whole.length := by
  simp [whole, c.place_eq]

theorem ofPlace_whole (t : Text) (n : Nat) : (ofPlace t n).whole = t := by
  simp [whole]

/-! ## Single steps -/

theorem pass?_eq (accepts : Char → Bool) (c : Cursor) :
    c.pass? accepts = if c.nextIs accepts then some (c.advance 1) else none := by
  obtain ⟨p, b, a, hp⟩ := c
  cases a with
  | nil => rfl
  | cons x rest => rfl

theorem next?_eq (c : Cursor) :
    c.next? = if c.after = [] then none else some (c.advance 1) := by
  obtain ⟨p, b, a, hp⟩ := c
  cases a <;> rfl

theorem passText?_eq (chars : Text) : ∀ c : Cursor,
    c.passText? chars = if chars <+: c.after then some (c.advance chars.length) else none := by
  induction chars with
  | nil => intro c; simp [passText?]
  | cons x t ih =>
    rintro ⟨p, b, a, hp⟩
    cases a with
    | nil => simp [passText?]
    | cons y rest =>
      simp only [passText?, List.cons_prefix_cons, beq_iff_eq]
      by_cases hxy : x = y
      · rw [if_pos hxy, ih]
        simp only [hxy, true_and]
        split
        · congr 1
          apply eq_of_parts <;> simp [advance]
        · rfl
      · rw [if_neg hxy, if_neg fun h => hxy h.1]

/-- This cursor and those behind accepted characters, the farthest first. -/
def reaches (accepts : Char → Bool) (c : Cursor) : List Cursor :=
  (List.range ((c.after.takeWhile accepts).length + 1)).reverse.map c.advance

theorem reaches_cons {accepts : Char → Bool} {p : Nat} {b rest : Text} {x : Char}
    (hp : p = b.length) (hx : accepts x = true) (hp' : p + 1 = (x :: b).length) :
    reaches accepts ⟨p, b, x :: rest, hp⟩
      = reaches accepts ⟨p + 1, x :: b, rest, hp'⟩ ++ [⟨p, b, x :: rest, hp⟩] := by
  unfold reaches
  simp only [List.takeWhile_cons, hx, if_true, List.length_cons]
  rw [List.range_succ_eq_map (n := (rest.takeWhile accepts).length + 1), List.reverse_cons,
    List.map_append, ← List.map_reverse, List.map_map]
  congr 1
  · apply List.map_congr_left
    intro n _
    apply eq_of_parts <;> simp [advance]

theorem reaches_of_not {accepts : Char → Bool} {c : Cursor} (h : c.nextIs accepts = false) :
    reaches accepts c = [c] := by
  obtain ⟨p, b, a, hp⟩ := c
  cases a with
  | nil => simp [reaches]
  | cons x rest =>
    have hx : accepts x = false := h
    simp [reaches, hx]

theorem passMost_eq {α : Type} (accepts : Char → Bool) (accept : Cursor → Option α) (after : Text) :
    ∀ place before (h : place = before.length),
      passMost accepts accept place before after h
        = (reaches accepts ⟨place, before, after, h⟩).findSome? accept := by
  induction after with
  | nil =>
    intro place before h
    rw [reaches_of_not rfl]
    simp [passMost]
  | cons x rest ih =>
    intro place before h
    unfold passMost
    by_cases hx : accepts x = true
    · rw [if_pos hx, ih, reaches_cons h hx (by simp [h]), List.findSome?_append]
      cases List.findSome? accept _ <;> simp
    · rw [if_neg hx, reaches_of_not (by simpa [nextIs] using hx)]
      simp

/-- `farthest` takes the first accepted cursor among those that can be reached. -/
theorem farthest_eq {α : Type} (accepts : Char → Bool) (accept : Cursor → Option α) (c : Cursor) :
    c.farthest accepts accept = (c.reaches accepts).findSome? accept :=
  passMost_eq accepts accept c.after c.place c.before c.place_eq

end Cursor

namespace Pattern

/-- The readings of a step repeated at most so many times, in the given order. -/
def repeated (order : Order) (step : Reading → List Reading) : Nat → Reading → List Reading
  | 0, r => [r]
  | n + 1, r =>
    match order with
    | .longest => (step r).flatMap (repeated order step n) ++ [r]
    | .shortest => r :: (step r).flatMap (repeated order step n)

/-- The readings of a pattern from a given one, in the order in which they are tried. -/
def outcomes (limit : Nat) : Pattern → Reading → List Reading
  | .empty, r => [r]
  | .one accepts, r => ((r.cursor.pass? accepts).map fun c => ⟨c, r.captures⟩).toList
  | .text chars, r => ((r.cursor.passText? chars).map fun c => ⟨c, r.captures⟩).toList
  | .seq p q, r => (outcomes limit p r).flatMap (outcomes limit q)
  | .alt p q, r => outcomes limit p r ++ outcomes limit q r
  | .span accepts, r => (r.cursor.reaches accepts).map fun c => ⟨c, r.captures⟩
  | .many order p, r => repeated order (outcomes limit p) limit r
  | .group label p, r =>
    (outcomes limit p r).map fun s => ⟨s.cursor, ⟨label, r.cursor, s.cursor⟩ :: s.captures⟩
  | .again label, r =>
    match r.capture? label with
    | none => []
    | some capture => ((r.cursor.passText? capture.text).map fun c => ⟨c, r.captures⟩).toList
  | .ahead p, r => if (outcomes limit p r).isEmpty then [] else [r]
  | .notAhead p, r => if (outcomes limit p r).isEmpty then [r] else []
  | .behind accepts, r => if r.cursor.follows accepts.reverse then [r] else []
  | .notBehind accepts, r => if r.cursor.follows accepts.reverse then [] else [r]
  | .edge, r => if r.cursor.atEdge then [r] else []
  | .lineStart, r => if r.cursor.atLineStart then [r] else []
  | .lineEnd, r => if r.cursor.atLineEnd then [r] else []
  | .textEnd, r => if r.cursor.after.isEmpty then [r] else []

theorem outcomes_append (limit : Nat) (p q : Pattern) (r : Reading) :
    (p ++ q).outcomes limit r = (p.outcomes limit r).flatMap (q.outcomes limit) := rfl

theorem findSome?_flatMap {α β γ : Type} (f : β → Option γ) (g : α → List β) (l : List α) :
    (l.flatMap g).findSome? f = l.findSome? fun a => (g a).findSome? f := by
  induction l with
  | nil => rfl
  | cons a l ih =>
    rw [List.flatMap_cons, List.findSome?_append, List.findSome?_cons, ih]
    cases (g a).findSome? f <;> rfl

theorem findSome?_isSome {α : Type} (l : List α) :
    (l.findSome? fun _ => some ()).isSome = !l.isEmpty := by
  cases l <;> rfl

/-- `iterate` takes the first accepted reading of a repeated step. -/
theorem iterate_eq {α : Type} {order : Order}
    {step : (Reading → Option α) → Reading → Option α} {list : Reading → List Reading}
    (hstep : ∀ accept r, step accept r = (list r).findSome? accept) (accept : Reading → Option α) :
    ∀ n r, iterate order step accept n r = (repeated order list n r).findSome? accept := by
  intro n
  induction n with
  | zero => intro r; simp [iterate, repeated]
  | succ n ih =>
    intro r
    have hfun : iterate order step accept n
        = fun r => (repeated order list n r).findSome? accept := funext ih
    cases order with
    | longest =>
      simp only [iterate, repeated, hstep, List.findSome?_append, findSome?_flatMap, hfun]
      cases List.findSome? _ (list r) <;> simp
    | shortest =>
      simp only [iterate, repeated, hstep, List.findSome?_cons, findSome?_flatMap, hfun]
      cases accept r <;> rfl

/-- **`run` takes the first accepted outcome.** -/
theorem run_eq_findSome? (limit : Nat) (p : Pattern) :
    ∀ {α : Type} (accept : Reading → Option α) (r : Reading),
      p.run limit accept r = (p.outcomes limit r).findSome? accept := by
  induction p with
  | empty => intro α accept r; simp [run, outcomes]
  | one accepts =>
    intro α accept r
    simp only [run, outcomes]
    cases r.cursor.pass? accepts <;> simp
  | text chars =>
    intro α accept r
    simp only [run, outcomes]
    cases r.cursor.passText? chars <;> simp
  | seq p q ihp ihq =>
    intro α accept r
    simp only [run, outcomes, ihp, findSome?_flatMap]
    congr 1
    funext s
    exact ihq accept s
  | alt p q ihp ihq =>
    intro α accept r
    simp only [run, outcomes, ihp, ihq, List.findSome?_append]
    cases List.findSome? accept (p.outcomes limit r) <;> simp
  | span accepts =>
    intro α accept r
    simp only [run, outcomes, Cursor.farthest_eq, List.findSome?_map]
    rfl
  | many order p ih =>
    intro α accept r
    exact iterate_eq (fun accept r => ih accept r) accept limit r
  | group label p ih =>
    intro α accept r
    simp only [run, outcomes, ih, List.findSome?_map]
    rfl
  | again label =>
    intro α accept r
    simp only [run, outcomes]
    cases r.capture? label with
    | none => rfl
    | some capture => simp only; cases r.cursor.passText? capture.text <;> simp
  | ahead p ih =>
    intro α accept r
    simp only [run, outcomes, ih, findSome?_isSome]
    cases (p.outcomes limit r).isEmpty <;> simp
  | notAhead p ih =>
    intro α accept r
    simp only [run, outcomes, ih, findSome?_isSome]
    cases (p.outcomes limit r).isEmpty <;> simp
  | behind accepts => intro α accept r; simp only [run, outcomes]; split <;> simp
  | notBehind accepts => intro α accept r; simp only [run, outcomes]; split <;> simp
  | edge => intro α accept r; simp only [run, outcomes]; split <;> simp
  | lineStart => intro α accept r; simp only [run, outcomes]; split <;> simp
  | lineEnd => intro α accept r; simp only [run, outcomes]; split <;> simp
  | textEnd => intro α accept r; simp only [run, outcomes]; split <;> simp

/-- **A match is the first outcome.** -/
theorem readAt?_eq (limit : Nat) (p : Pattern) (c : Cursor) :
    p.readAt? limit c
      = (p.outcomes limit ⟨c, []⟩).head?.map fun r => ⟨c, r.cursor, r.captures⟩ := by
  unfold readAt?
  rw [run_eq_findSome?]
  cases p.outcomes limit ⟨c, []⟩ <;> simp

end Pattern

end CodeSurvey
