import CodeSurvey.Grammar
import CodeSurvey.Metric.Nesting

/-!
# Cognitive complexity

How hard a text is to follow, line by line: a line that breaks the flow of control costs one and
its nesting; a further branch of a conditional costs one; each run of equal logical operators costs
one.
-/

namespace CodeSurvey.Cognitive

/-- A line that starts with a comment mark. -/
def isComment (content : Text) : Bool :=
  ["#", "//", "/*", "*"].any fun mark => mark.toList.isPrefixOf content

/-- Whether a line starts with a word, and a blank, a bracket, a colon or a brace behind it. -/
def startsWith (content : Text) (word : String) : Bool :=
  word.toList.isPrefixOf content
    && match content.drop word.length with
      | [] => false
      | c :: _ => Text.isBlank c || c == '(' || c == ':' || c == '{'

/-- The word that breaks the flow of control at the start of a line. -/
def keyword? (terms : DecisionTerms) (content : Text) : Option String :=
  terms.controlFlow.find? (startsWith content)

/-- The cost of the word a line starts with, at a nesting level below the function body. -/
def keywordCost (keyword : Option String) (content : Text) (nesting : Nat) : Nat :=
  if keyword == some "elif" || "else if".toList.isPrefixOf content then 1
  else if keyword.isNone then 0
  else 1 + nesting

/-- The number of maximal runs of equal values. -/
def runCount : List Bool → Nat
  | [] => 0
  | [_] => 1
  | a :: b :: rest => (if a == b then 0 else 1) + runCount (b :: rest)

/-- The logical operators of a line from left to right, each with its place; true for "and". -/
def operators (terms : DecisionTerms) (content : Text) : List (Nat × Bool) :=
  ((terms.conjunction.findAll content).map (fun m => (m.first, true))
    ++ (terms.disjunction.findAll content).map (fun m => (m.first, false))).mergeSort
      fun a b => a.1 < b.1 || (a.1 == b.1 && (a.2 || !b.2))

/-- The number of runs of equal logical operators. -/
def operatorRuns (terms : DecisionTerms) (content : Text) : Nat :=
  runCount ((operators terms content).map Prod.snd)

/-- The cost of a line's content at a level; the function body itself is at level one. -/
def lineCost (terms : DecisionTerms) (level : Nat) (content : Text) : Nat :=
  if content.isEmpty || isComment content then 0
  else keywordCost (keyword? terms content) content (level - 1) + operatorRuns terms content

/-- The closing braces a line starts with. -/
def leadingClosers (stripped : Text) : Nat :=
  (stripped.takeWhile (· == '}')).length

/-- A line without the closing braces, spaces and tabs it starts with. -/
def withoutClosers (stripped : Text) : Text :=
  stripped.dropWhile fun c => c == '}' || c == ' ' || c == '\t'

/-- The cost of lines where braces tell nesting, given the depth in front of them. The closers that
a line starts with lower its own level. -/
def bracedCost (terms : DecisionTerms) (depth : Nat) : List Text → Nat
  | [] => 0
  | line :: rest =>
    let stripped := Text.trim line
    lineCost terms (depth - leadingClosers stripped) (withoutClosers stripped)
      + bracedCost terms (Nesting.depthAfter depth line) rest

/-- The cost of lines where indentation tells nesting. -/
def indentedCost (terms : DecisionTerms) (base : Option Nat) : List Text → Nat
  | [] => 0
  | line :: rest =>
    lineCost terms (Nesting.indentLevel base line).1 (Text.trim line)
      + indentedCost terms (Nesting.indentLevel base line).2 rest

/-- The cognitive complexity of a text. -/
def complexity (language : Language) (t : Text) : Nat :=
  let terms := language.grammar.decisions
  if language.usesBraces then bracedCost terms 0 (Text.lines t)
  else indentedCost terms none (Text.lines t)

end CodeSurvey.Cognitive
