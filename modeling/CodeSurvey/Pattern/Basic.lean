import CodeSurvey.Text.Blank
import CodeSurvey.Text.Word

/-!
# Patterns

A small language for shapes of text. A pattern is read from left to right from a place in a text;
where it leaves a choice, the choices come in an order, and the first one that lets the rest of the
pattern succeed is taken. Groups remember what they read, look-around tests the surroundings
without reading them.
-/

namespace CodeSurvey

/-- The label of a group. Groups of one role in different alternatives are told apart by a
variant. -/
structure Label where
  role : String
  variant : String
deriving DecidableEq, Repr

/-- The label as it is shown: role and variant in one word. -/
def Label.shown (l : Label) : String :=
  l.role ++ l.variant

/-- Which number of repetitions is tried first: the greatest or the least. -/
inductive Order where
  | longest
  | shortest
deriving DecidableEq, Repr

/-- A shape of text. -/
inductive Pattern where
  /-- Reads nothing. -/
  | empty
  /-- One accepted character. -/
  | one (accepts : Char → Bool)
  /-- Exactly these characters. -/
  | text (chars : Text)
  /-- One shape, then another. -/
  | seq (first second : Pattern)
  /-- The first shape, or else the second. -/
  | alt (first second : Pattern)
  /-- Any number of accepted characters, the most first. -/
  | span (accepts : Char → Bool)
  /-- A shape any number of times. -/
  | many (order : Order) (body : Pattern)
  /-- A shape whose text is remembered. -/
  | group (label : Label) (body : Pattern)
  /-- The text a group remembers, once more. -/
  | again (label : Label)
  /-- The shape follows; nothing is read. -/
  | ahead (body : Pattern)
  /-- The shape does not follow; nothing is read. -/
  | notAhead (body : Pattern)
  /-- The characters in front are accepted one by one, the last one nearest. -/
  | behind (accepts : List (Char → Bool))
  /-- The characters in front are not accepted one by one. -/
  | notBehind (accepts : List (Char → Bool))
  /-- A word character on one side only. -/
  | edge
  /-- The start of the text or the place after a line end. -/
  | lineStart
  /-- The end of the text or the place before a line end. -/
  | lineEnd
  /-- The end of the text. -/
  | textEnd

namespace Pattern

instance : Append Pattern := ⟨seq⟩

instance : OrElse Pattern := ⟨fun p q => alt p (q ())⟩

/-- Exactly the characters of a string. -/
def lit (s : String) : Pattern :=
  text s.toList

/-- One of the characters of a string. -/
def oneOf (s : String) : Pattern :=
  one fun c => s.toList.contains c

/-- Any character but those of a string. -/
def noneOf (s : String) : Pattern :=
  one fun c => !s.toList.contains c

/-- Any character. -/
def any : Pattern :=
  one fun _ => true

/-- The first of the strings that lets the rest succeed. -/
def words : List String → Pattern
  | [] => empty
  | [s] => lit s
  | s :: rest => lit s <|> words rest

/-- Any number of times, the most first. -/
def star : Pattern → Pattern
  | one accepts => span accepts
  | p => many .longest p

/-- At least once, the most first. -/
def plus (p : Pattern) : Pattern :=
  p ++ star p

/-- Any number of times, the fewest first. -/
def starFew (p : Pattern) : Pattern :=
  many .shortest p

/-- At least once, the fewest first. -/
def plusFew (p : Pattern) : Pattern :=
  p ++ starFew p

/-- Once or not at all, once first. -/
def opt (p : Pattern) : Pattern :=
  p <|> empty

/-- At most `n` times, the most first. -/
def upTo : Nat → Pattern → Pattern
  | 0, _ => empty
  | n + 1, p => opt (p ++ upTo n p)

/-- At most `n` times, the fewest first. -/
def upToFew : Nat → Pattern → Pattern
  | 0, _ => empty
  | n + 1, p => empty <|> (p ++ upToFew n p)

/-- Any white space. -/
def blanks : Pattern :=
  star (one Text.isBlank)

/-- Some white space. -/
def someBlanks : Pattern :=
  plus (one Text.isBlank)

/-- A space or a tab. -/
def isGap (c : Char) : Bool :=
  c == ' ' || c == '\t'

/-- Any spaces and tabs. -/
def gap : Pattern :=
  star (one isGap)

/-- Some spaces and tabs. -/
def someGap : Pattern :=
  plus (one isGap)

/-- Any word characters. -/
def wordChars : Pattern :=
  star (one Text.isWord)

/-- Some word characters. -/
def someWordChars : Pattern :=
  plus (one Text.isWord)

/-- The rest of the line, the longest first. -/
def lineRest : Pattern :=
  star (noneOf "\n")

/-- A group known by its role alone. -/
def role (name : String) (p : Pattern) : Pattern :=
  group ⟨name, ""⟩ p

end Pattern

end CodeSurvey
