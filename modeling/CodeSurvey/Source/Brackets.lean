import CodeSurvey.Text.Basic

/-!
# Bracket depth

Splitting and searching at the top level of bracketed text. Depth rises at every opening bracket,
the angle included, and falls at every closing one, but never below zero; the angle that ends an
arrow closes nothing.

* `Brackets.split`: the pieces between separators at depth zero;
* `Brackets.index?`: the first accepted place at depth zero.
-/

namespace CodeSurvey.Brackets

/-- An opening bracket. -/
def isOpener (c : Char) : Bool :=
  c == '(' || c == '[' || c == '{' || c == '<'

/-- A closing bracket, given the character in front of it: the angle of an arrow is none. -/
def isCloser (previous : Option Char) (c : Char) : Bool :=
  c == ')' || c == ']' || c == '}'
    || (c == '>' && !(previous == some '=' || previous == some '-'))

/-- The depth behind a character, given the character in front of it and the depth there. -/
def depthAfter (previous : Option Char) (depth : Nat) (c : Char) : Nat :=
  if isOpener c then depth + 1 else if isCloser previous c then depth - 1 else depth

/-- The depth at the end of a text, given the character and the depth in front of it. -/
def finalDepth (previous : Option Char) (depth : Nat) : Text → Nat
  | [] => depth
  | c :: rest => finalDepth (some c) (depthAfter previous depth c) rest

/-- The pieces between separators at depth zero, from a given depth on. -/
def splitFrom (separator : Char) (previous : Option Char) (depth : Nat) : Text → List Text
  | [] => [[]]
  | c :: rest =>
    let inner := depthAfter previous depth c
    match splitFrom separator (some c) inner rest with
    | [] => [[c]]
    | piece :: pieces =>
      if c == separator && inner == 0 then [] :: piece :: pieces else (c :: piece) :: pieces

/-- The pieces between separators at depth zero, untrimmed. -/
def split (separator : Char) (t : Text) : List Text :=
  splitFrom separator none 0 t

/-- As `split`, for a separator given as a text: one that is not a single character separates
nothing. -/
def splitText (separator t : Text) : List Text :=
  match separator with
  | [c] => split c t
  | _ => [t]

/-- A test of a place in a text: the character in front, the character, and the one behind. -/
abbrev PlaceTest := Option Char → Char → Option Char → Bool

/-- The first accepted place at depth zero, from a given place and depth on. Brackets themselves are
never accepted. -/
def indexFrom? (accepts : PlaceTest) (previous : Option Char) (depth place : Nat) :
    Text → Option Nat
  | [] => none
  | c :: rest =>
    if !isOpener c && !isCloser previous c && depth == 0 && accepts previous c rest.head? then
      some place
    else indexFrom? accepts (some c) (depthAfter previous depth c) (place + 1) rest

/-- The first accepted place at depth zero. -/
def index? (accepts : PlaceTest) (t : Text) : Option Nat :=
  indexFrom? accepts none 0 0 t

/-- An equals sign that assigns: not part of a comparison or an arrow. -/
def isAssignment : PlaceTest := fun previous c next =>
  c == '=' && !(next == some '=' || next == some '>')
    && !(previous == some '=' || previous == some '!' || previous == some '<'
      || previous == some '>')

/-- A colon. -/
def isColon : PlaceTest := fun _ c _ => c == ':'

end CodeSurvey.Brackets
