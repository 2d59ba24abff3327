import CodeSurvey.Text.Blank

/-!
# Duplicated blocks

Runs of two to five lines that occur more than once. Higher runs win over lower ones, and a run is
dropped where its first occurrence touches a reported one.
-/

namespace CodeSurvey

/-- A run of lines: its trimmed text and its first and last line. -/
structure Window where
  text : Text
  first : Nat
  last : Nat
deriving DecidableEq, Repr

/-- A run of lines that occurs more than once. -/
structure Duplicate where
  text : Text
  count : Nat
  first : Nat
  last : Nat
deriving DecidableEq, Repr

namespace Duplicate

/-- A line with something on it. -/
def hasContent (line : Text) : Bool :=
  !(Text.trim line).isEmpty

/-- The windows that start with the first of these lines, given its number, and hold two to five
lines, the last of them not blank. -/
def windowsAt (number : Nat) (lines : List Text) : List Window :=
  [2, 3, 4, 5].filterMap fun height =>
    let part := lines.take height
    if part.length == height && part.getLast?.any hasContent then
      some ⟨Text.trim (Text.joinLines part), number, number + height - 1⟩
    else none

/-- The windows of lines, by first line and then by height; the first line is not blank. -/
def windowsFrom (number : Nat) : List Text → List Window
  | [] => []
  | line :: rest =>
    (if hasContent line then windowsAt number (line :: rest) else [])
      ++ windowsFrom (number + 1) rest

/-- The windows of a text that are long enough. -/
def windows (minLength : Int) (t : Text) : List Window :=
  (windowsFrom 1 (Text.lines t)).filter fun w => minLength ≤ w.text.length

/-- The windows grouped by their text, in the order of the first of each. -/
def groups : List Window → List (List Window)
  | [] => []
  | w :: rest =>
    let others := (groups rest)
    match others.find? (fun g => g.head?.any (·.text == w.text)) with
    | none => [w] :: others
    | some g => (w :: g) :: others.filter (fun g => !g.head?.any (·.text == w.text))

/-- A group of windows of one text, led by the first. -/
structure Candidate where
  lead : Window
  others : List Window
deriving DecidableEq, Repr

/-- The groups with more than one window. -/
def candidates (l : List Window) : List Candidate :=
  (groups l).filterMap fun g =>
    match g with
    | lead :: second :: more => some ⟨lead, second :: more⟩
    | _ => none

/-- The number of lines beyond the first. -/
def Candidate.height (c : Candidate) : Nat :=
  c.lead.last - c.lead.first

/-- The order of choice: higher first, then by first line. -/
def Candidate.le (a b : Candidate) : Bool :=
  b.height < a.height || (a.height == b.height && a.lead.first ≤ b.lead.first)

/-- Whether two runs share a line. -/
def touches (v w : Window) : Bool :=
  v.first ≤ w.last && w.first ≤ v.last

/-- The candidates that are reported, one after the other; each covers all its windows. -/
def choose (covered : List Window) : List Candidate → List Duplicate
  | [] => []
  | c :: rest =>
    if covered.any fun w => touches w c.lead then choose covered rest
    else ⟨c.lead.text, c.others.length + 1, c.lead.first, c.lead.last⟩
      :: choose (covered ++ c.lead :: c.others) rest

/-- The duplicated blocks of a text, in the order of their first occurrences. -/
def ofText (minLength : Int) (t : Text) : List Duplicate :=
  (choose [] ((candidates (windows minLength t)).mergeSort Candidate.le)).mergeSort
    fun a b => a.first ≤ b.first

end Duplicate

end CodeSurvey
