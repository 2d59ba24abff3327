import CodeSurvey.Performance.Finding

/-!
# Loop bodies

The parts of a text that run again and again, and the calls that are repeated in them.
-/

namespace CodeSurvey.LoopBody

/-- A part of a text, from a place up to another. -/
abbrev Span := Nat × Nat

/-- The next brace of either kind at or after a place, or the end of the text. -/
def nextBrace (t : Text) (place : Nat) : Nat :=
  (Text.indexFrom? (fun c => c == '{' || c == '}') t place).getD t.length

/-- The bodies behind loop words, given the last brace found and the braces that have been used. A
brace that lies ahead of a word is kept; once there is none, no later word has one. -/
def bracedFrom (t : Text) (brace : Option Nat) (seen : List Nat) : List Match → List Span
  | [] => []
  | m :: rest =>
    let kept := brace.filter (m.last ≤ ·)
    match kept.orElse fun _ => Text.indexFrom? (· == '{') t m.last with
    | none => []
    | some i =>
      if seen.contains i then bracedFrom t (some i) seen rest
      else (i + 1, nextBrace t (i + 1)) :: bracedFrom t (some i) (i :: seen) rest

/-- The text between the opening brace of each loop and the next brace of either kind. -/
def braced (t : Text) : List Span :=
  bracedFrom t none [] (loopWords.findAll t)

/-- A loop header whose colon ends its line, but for blanks and a comment. -/
def indentedHeader : Pattern :=
  .lineStart ++ Pattern.gap ++ Pattern.words ["for", "while"] ++ .edge ++ Pattern.lineRest
    ++ Pattern.lit ":"
    ++ .ahead (Pattern.gap ++ Pattern.opt (Pattern.lit "#" ++ Pattern.lineRest) ++ .lineEnd)

/-- The indented block behind each loop header. -/
def indented (t : Text) : List Span :=
  ((indentedHeader.findAll t).map fun m => Block.indented t m.first m.last).filterMap fun b =>
    if b.bodyStart < b.bodyEnd then some (b.bodyStart, b.bodyEnd) else none

/-- The loop bodies of a text. -/
def ofText (language : Language) (t : Text) : List Span :=
  if language.usesBraces then braced t else indented t

/-- A call without calls among its arguments, on one line. -/
def call : Pattern :=
  .notBehind [fun c => Pattern.isScriptNameRest c || c == '.'] ++ Pattern.scriptName
    ++ Pattern.star (Pattern.lit "." ++ Pattern.scriptName)
    ++ Pattern.lit "(" ++ Pattern.star (Pattern.noneOf "()\n") ++ Pattern.lit ")"

/-- The first entry for each call text, in order. -/
def firstCalls : List (Nat × Text) → List (Nat × Text)
  | [] => []
  | c :: rest => c :: (firstCalls rest).filter (·.2 ≠ c.2)

/-- The calls made at least twice between two places, each with the place of the first. -/
def repeatedCalls (t : Text) (first last : Nat) : List (Nat × Text) :=
  let calls := (call.findWithin t first last).map fun m => (m.first, m.text)
  (firstCalls calls).filter fun c => 1 < (calls.countP (·.2 = c.2))

end CodeSurvey.LoopBody
