/-!
# Text

A text is the list of its characters, and a place in it is a number of characters. This module
holds the cuts and searches that every analysis shares:

* `Text.splitWhen`, `Text.lines`: pieces between separators;
* `Text.slice`, `Text.indexFrom?`: parts and places;
* `Text.lineNumber`, `Text.lineStart`, `Text.lineEnd`: from a place to its line.
-/

namespace CodeSurvey

/-- Source text, character by character. -/
abbrev Text := List Char

namespace Text

/-- Membership in a set given by the sorted code points where membership changes. -/
def inRunsFrom (inside : Bool) : List Nat → Nat → Bool
  | [], _ => inside
  | b :: bs, n => if n < b then inside else inRunsFrom (!inside) bs n

/-- Membership in a set that starts empty and changes at every bound. -/
def inRuns (bounds : List Nat) (n : Nat) : Bool :=
  inRunsFrom false bounds n

/-- The characters from place `first` up to, not including, place `last`. -/
def slice (t : Text) (first last : Nat) : Text :=
  (t.drop first).take (last - first)

/-- The first place at or after `start` whose character is accepted. -/
def indexFrom? (accepts : Char → Bool) (t : Text) (start : Nat) : Option Nat :=
  ((t.drop start).findIdx? accepts).map (start + ·)

/-- The pieces between the accepted characters, which are dropped. There is always at least one
piece. -/
def splitWhen (accepts : Char → Bool) : Text → List Text
  | [] => [[]]
  | c :: rest =>
    match splitWhen accepts rest with
    | [] => [[c]]
    | piece :: pieces => if accepts c then [] :: piece :: pieces else (c :: piece) :: pieces

/-- The lines of a text, without their line ends. -/
def lines (t : Text) : List Text :=
  splitWhen (· == '\n') t

/-- The pieces with the separator between neighbours. -/
def join (separator : Text) (pieces : List Text) : Text :=
  List.intercalate separator pieces

/-- Lines as one text. -/
def joinLines (pieces : List Text) : Text :=
  join ['\n'] pieces

/-- The 1-based number of the line that holds a place. -/
def lineNumber (t : Text) (place : Nat) : Nat :=
  (t.take place).count '\n' + 1

/-- The place where the line that holds `place` starts. -/
def lineStart (t : Text) (place : Nat) : Nat :=
  let before := t.take place
  before.length - (before.reverse.takeWhile (· != '\n')).length

/-- The place of the first line end at or after `place`, or the end of the text. -/
def lineEnd (t : Text) (place : Nat) : Nat :=
  (indexFrom? (· == '\n') t place).getD t.length

/-- Whether the needle stands somewhere in the text. -/
def occursIn (needle : Text) : Text → Bool
  | [] => needle.isEmpty
  | c :: rest => needle.isPrefixOf (c :: rest) || occursIn needle rest

/-- The number of spaces and tabs in front. -/
def indentWidth (line : Text) : Nat :=
  (line.takeWhile fun c => c == ' ' || c == '\t').length

/-- The decimal digits of a number. -/
def ofNat (n : Nat) : Text :=
  (toString n).toList

/-- A text with line feeds in the place of all other line ends. -/
def withLineFeeds : Text → Text
  | '\r' :: '\n' :: rest => '\n' :: withLineFeeds rest
  | '\r' :: rest => '\n' :: withLineFeeds rest
  | c :: rest => c :: withLineFeeds rest
  | [] => []

end Text

end CodeSurvey
