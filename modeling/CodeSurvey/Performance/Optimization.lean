import CodeSurvey.Performance.LoopBody
import CodeSurvey.Source.Element

/-!
# Optimizations

Changes that would likely help: components to memoize, and calls to move out of loops.
-/

namespace CodeSurvey

/-- A change that would likely help. -/
structure Optimization where
  type : String
  description : String
  suggestion : String
  line : Int
  target : Text
deriving DecidableEq, Repr

namespace Optimization

/-- An optimization as a document. -/
def toJson (o : Optimization) : Json :=
  .obj [("type", .str o.type), ("description", .str o.description),
    ("suggestion", .str o.suggestion), ("lineNumber", .int o.line), ("target", .text o.target)]

open Pattern

/-- A component with a destructured parameter object. -/
def componentWithProps : Pattern :=
  lit "function" ++ someBlanks ++ role "name" capitalName ++ blanks ++ lit "(" ++ blanks
    ++ lit "\x7b" ++ blanks ++ role "props" (star (noneOf "\x7d")) ++ blanks ++ lit "\x7d" ++ blanks
    ++ lit ")"

/-- The advice to memoize a component that has props and is not memoized. -/
def ofComponent? (t source : Text) (lineOffset : Int) (m : Match) : Option Optimization :=
  let name := (m.group? "name").getD []
  let shown := String.ofList name
  if (Element.propNames ((m.group? "props").getD [])).isEmpty || isMemoized name source then none
  else some
    { type := "component_memoization"
      description := s!"Component {shown} could benefit from memoization"
      suggestion := s!"Wrap {shown} with React.memo() to prevent unnecessary renders"
      line := Text.lineNumber t m.first + lineOffset
      target := name }

/-- The advice to keep the result of a call that a loop repeats. -/
def ofCall (t : Text) (lineOffset : Int) (c : Nat × Text) : Optimization where
  type := "calculation_caching"
  description := "Repeated calculation in loop body"
  suggestion := "Cache the result of the calculation before the loop"
  line := Text.lineNumber t c.1 + lineOffset
  target := c.2

/-- A list ordered by place with an entry added, unless there is one of the same place. -/
def insertByPlace (c : Nat × Text) : List (Nat × Text) → List (Nat × Text)
  | [] => [c]
  | d :: rest =>
    if c.1 < d.1 then c :: d :: rest
    else if c.1 = d.1 then d :: rest
    else d :: insertByPlace c rest

/-- The calls that some loop body repeats, ordered by place. -/
def repeatedInLoops (language : Language) (t : Text) : List (Nat × Text) :=
  ((LoopBody.ofText language t).flatMap fun s => LoopBody.repeatedCalls t s.1 s.2).foldl
    (fun l c => insertByPlace c l) []

/-- The optimizations of a text: components first, then calls. -/
def ofText (language : Language) (t source : Text) (lineOffset : Int) : List Optimization :=
  (if language.hasMarkup then
    (componentWithProps.findAll t).filterMap (ofComponent? t source lineOffset)
  else [])
  ++ (repeatedInLoops language t).map (ofCall t lineOffset)

end Optimization

end CodeSurvey
