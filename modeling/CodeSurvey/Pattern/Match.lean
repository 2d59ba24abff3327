import CodeSurvey.Pattern.Basic

/-!
# Matching

Reading a pattern from a place in a text. A `Cursor` is a text cut in two; `Pattern.run` moves it
through the pattern, in the pattern's order of choices, and hands each reading on until one is
accepted. On top of it stand the searches:

* `Pattern.search?`: the leftmost place where the pattern can be read;
* `Pattern.findAll`: all readings from left to right, none overlapping the one before;
* `Pattern.coversAll`: whether some reading takes the whole text.
-/

namespace CodeSurvey

/-- A text cut in two: the characters passed, nearest first, and those still to come. -/
structure Cursor where
  place : Nat
  before : Text
  after : Text
  place_eq : place = before.length

namespace Cursor

/-- The cursor at a place of a text, or at its end if the place lies beyond. -/
def ofPlace (t : Text) (place : Nat) : Cursor :=
  ⟨(t.take place).length, (t.take place).reverse, t.drop place, by simp⟩

/-- The cursor one character on. -/
def next? (c : Cursor) : Option Cursor :=
  match c.after with
  | [] => none
  | x :: rest => some ⟨c.place + 1, x :: c.before, rest, by simp [c.place_eq]⟩

/-- The cursor past one accepted character. -/
def pass? (accepts : Char → Bool) (c : Cursor) : Option Cursor :=
  match c.after with
  | [] => none
  | x :: rest =>
    if accepts x then some ⟨c.place + 1, x :: c.before, rest, by simp [c.place_eq]⟩ else none

/-- The cursor past exactly these characters. -/
def passText? : Text → Cursor → Option Cursor
  | [], c => some c
  | x :: t, c =>
    match c.after with
    | [] => none
    | y :: rest =>
      if x == y then passText? t ⟨c.place + 1, y :: c.before, rest, by simp [c.place_eq]⟩ else none

/-- As `farthest`, for a cursor given by its parts. -/
def passMost {α : Type} (accepts : Char → Bool) (accept : Cursor → Option α) (place : Nat)
    (before after : Text) (h : place = before.length) : Option α :=
  match after with
  | [] => accept ⟨place, before, [], h⟩
  | x :: rest =>
    if accepts x then
      match passMost accepts accept (place + 1) (x :: before) rest (by simp [h]) with
      | some a => some a
      | none => accept ⟨place, before, x :: rest, h⟩
    else accept ⟨place, before, x :: rest, h⟩

/-- Hands on this cursor and those behind accepted characters, the farthest first, until one is
accepted. -/
def farthest {α : Type} (accepts : Char → Bool) (accept : Cursor → Option α) (c : Cursor) :
    Option α :=
  passMost accepts accept c.place c.before c.after c.place_eq

/-- Whether the characters in front are accepted one by one, nearest first. -/
def follows (accepts : List (Char → Bool)) (c : Cursor) : Bool :=
  go accepts c.before
where
  go : List (Char → Bool) → Text → Bool
    | [], _ => true
    | _ :: _, [] => false
    | f :: fs, x :: rest => f x && go fs rest

/-- Whether the nearest character in front satisfies `p`. -/
def lastIs (p : Char → Bool) (c : Cursor) : Bool :=
  match c.before with
  | [] => false
  | x :: _ => p x

/-- Whether the next character satisfies `p`. -/
def nextIs (p : Char → Bool) (c : Cursor) : Bool :=
  match c.after with
  | [] => false
  | x :: _ => p x

/-- A word begins or ends here. -/
def atEdge (c : Cursor) : Bool :=
  c.lastIs Text.isWord != c.nextIs Text.isWord

/-- A line starts here. -/
def atLineStart (c : Cursor) : Bool :=
  c.before.isEmpty || c.lastIs (· == '\n')

/-- A line ends here. -/
def atLineEnd (c : Cursor) : Bool :=
  c.after.isEmpty || c.nextIs (· == '\n')

end Cursor

/-- What a group has read: everything between two cursors of one text. -/
structure Capture where
  label : Label
  start : Cursor
  stop : Cursor

/-- The text a group has read. -/
def Capture.text (c : Capture) : Text :=
  c.start.after.take (c.stop.place - c.start.place)

/-- A cursor with the groups read so far, the latest first. -/
structure Reading where
  cursor : Cursor
  captures : List Capture

/-- The latest capture of a group. -/
def Reading.capture? (r : Reading) (l : Label) : Option Capture :=
  r.captures.find? (·.label = l)

namespace Pattern

/-- Repeats a step at most so many times, handing on the readings in the given order. -/
def iterate {α : Type} (order : Order) (step : (Reading → Option α) → Reading → Option α)
    (accept : Reading → Option α) : Nat → Reading → Option α
  | 0, r => accept r
  | n + 1, r =>
    match order with
    | .longest =>
      match step (iterate order step accept n) r with
      | some a => some a
      | none => accept r
    | .shortest =>
      match accept r with
      | some a => some a
      | none => step (iterate order step accept n) r

/-- Reads the pattern from a cursor and hands every reading to `accept`, in order, until one is
accepted. No repetition runs more often than `limit`, for which the length of the text is always
enough: a repetition that goes on reads at least one character each time. -/
def run (limit : Nat) : Pattern → {α : Type} → (Reading → Option α) → Reading → Option α
  | .empty, _, accept, r => accept r
  | .one accepts, _, accept, r =>
    match r.cursor.pass? accepts with
    | some c => accept ⟨c, r.captures⟩
    | none => none
  | .text chars, _, accept, r =>
    match r.cursor.passText? chars with
    | some c => accept ⟨c, r.captures⟩
    | none => none
  | .seq p q, _, accept, r => run limit p (run limit q accept) r
  | .alt p q, _, accept, r =>
    match run limit p accept r with
    | some a => some a
    | none => run limit q accept r
  | .span accepts, _, accept, r =>
    r.cursor.farthest accepts (fun c => accept ⟨c, r.captures⟩)
  | .many order p, _, accept, r => iterate order (run limit p) accept limit r
  | .group label p, _, accept, r =>
    run limit p (fun s => accept ⟨s.cursor, ⟨label, r.cursor, s.cursor⟩ :: s.captures⟩) r
  | .again label, _, accept, r =>
    match r.capture? label with
    | none => none
    | some capture =>
      match r.cursor.passText? capture.text with
      | some c => accept ⟨c, r.captures⟩
      | none => none
  | .ahead p, _, accept, r =>
    if (run limit p (fun _ => some ()) r).isSome then accept r else none
  | .notAhead p, _, accept, r =>
    if (run limit p (fun _ => some ()) r).isSome then none else accept r
  | .behind accepts, _, accept, r =>
    if r.cursor.follows accepts.reverse then accept r else none
  | .notBehind accepts, _, accept, r =>
    if r.cursor.follows accepts.reverse then none else accept r
  | .edge, _, accept, r => if r.cursor.atEdge then accept r else none
  | .lineStart, _, accept, r => if r.cursor.atLineStart then accept r else none
  | .lineEnd, _, accept, r => if r.cursor.atLineEnd then accept r else none
  | .textEnd, _, accept, r => if r.cursor.after.isEmpty then accept r else none

end Pattern

/-- A reading of a pattern: where it starts, where it stops, and what its groups read. -/
structure Match where
  start : Cursor
  stop : Cursor
  captures : List Capture

namespace Match

/-- The place of the first character. -/
def first (m : Match) : Nat :=
  m.start.place

/-- The place after the last character. -/
def last (m : Match) : Nat :=
  m.stop.place

/-- The text read. -/
def text (m : Match) : Text :=
  m.start.after.take (m.last - m.first)

/-- What the group of this role has read, whatever its variant. -/
def capture? (m : Match) (role : String) : Option Capture :=
  m.captures.find? (·.label.role = role)

/-- The text of the group of this role. -/
def group? (m : Match) (role : String) : Option Text :=
  (m.capture? role).map Capture.text

end Match

namespace Pattern

/-- The pattern read from exactly this cursor. -/
def readAt? (limit : Nat) (p : Pattern) (c : Cursor) : Option Match :=
  p.run limit (fun r => some ⟨c, r.cursor, r.captures⟩) ⟨c, []⟩

/-- The first reading that starts at this cursor or at one of the next `n` places. -/
def seek? (limit : Nat) (p : Pattern) : Nat → Cursor → Option Match
  | 0, c => p.readAt? limit c
  | n + 1, c =>
    match p.readAt? limit c with
    | some m => some m
    | none => c.next?.bind (seek? limit p n)

/-- At most `n` readings from left to right, each starting where the one before stops, or one place
on if that one is empty. -/
def readings (limit : Nat) (p : Pattern) : Nat → Cursor → List Match
  | 0, _ => []
  | n + 1, c =>
    match p.seek? limit limit c with
    | none => []
    | some m =>
      if m.first < m.last then m :: readings limit p n m.stop
      else
        match m.stop.next? with
        | none => [m]
        | some c' => m :: readings limit p n c'

/-- The leftmost reading that starts at a place or after it. What stands before the place is seen
by the tests that look behind. -/
def searchFrom? (p : Pattern) (t : Text) (place : Nat) : Option Match :=
  p.seek? t.length t.length (Cursor.ofPlace t place)

/-- The leftmost reading. -/
def search? (p : Pattern) (t : Text) : Option Match :=
  p.searchFrom? t 0

/-- Whether the pattern can be read somewhere. -/
def foundIn (p : Pattern) (t : Text) : Bool :=
  (p.search? t).isSome

/-- All readings from left to right, none overlapping the one before. -/
def findAll (p : Pattern) (t : Text) : List Match :=
  p.readings t.length (t.length + 1) (Cursor.ofPlace t 0)

/-- All readings between two places: the text ends at the second, and what stands before the first
is only looked back at. -/
def findWithin (p : Pattern) (t : Text) (first last : Nat) : List Match :=
  let cut := t.take last
  p.readings cut.length (cut.length + 1) (Cursor.ofPlace cut first)

/-- The number of readings. -/
def count (p : Pattern) (t : Text) : Nat :=
  (p.findAll t).length

/-- The pattern read from exactly this place. -/
def matchAt? (p : Pattern) (t : Text) (place : Nat) : Option Match :=
  p.readAt? t.length (Cursor.ofPlace t place)

/-- Whether the text starts with the pattern. -/
def opens (p : Pattern) (t : Text) : Bool :=
  (p.matchAt? t 0).isSome

/-- Whether some reading takes the whole text. -/
def coversAll (p : Pattern) (t : Text) : Bool :=
  (p ++ textEnd).opens t

end Pattern

end CodeSurvey
