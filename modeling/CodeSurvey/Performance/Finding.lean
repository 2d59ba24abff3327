import CodeSurvey.Performance.Library
import CodeSurvey.Source.Routine

/-!
# Findings

What the rules and metrics find in a text. A rule that is not praise gives an issue for each
reading of its pattern; a rule that is praise counts once. Metrics look at the text as a whole and
have no line.
-/

namespace CodeSurvey

/-- Something that may be slow. -/
structure Issue where
  ruleId : String
  category : String
  type : String
  severity : Severity
  description : String
  suggestion : String
  line : Option Int
  context : Option Text
  matched : Text
deriving DecidableEq, Repr

/-- An issue as a document. -/
def Issue.toJson (i : Issue) : Json :=
  .obj [("ruleId", .str i.ruleId), ("category", .str i.category), ("type", .str i.type),
    ("severity", .str i.severity.name), ("description", .str i.description),
    ("suggestion", .str i.suggestion), ("lineNumber", .option .int i.line),
    ("context", .option .text i.context), ("matchedText", .text i.matched)]

/-- Something done well. -/
structure BestPractice where
  ruleId : String
  category : Category
  description : String
deriving DecidableEq, Repr

/-- Praise as a document. -/
def BestPractice.toJson (b : BestPractice) : Json :=
  .obj [("ruleId", .str b.ruleId), ("category", .str b.category.name),
    ("description", .str b.description)]

/-- A loop word of the brace languages. -/
def loopWords : Pattern :=
  Pattern.keywords ["for", "foreach", "while"]

namespace Issue

/-- The type of an issue, if what was matched tells it. -/
def classify? (matched : Text) : Option String :=
  let loops := loopWords.count matched
  let has := fun s : String => Text.occursIn s.toList matched
  if loops ≥ 1 && has "+=" then some "stringConcatenation"
  else if loops ≥ 2 then some "nestedLoops"
  else if has "document" && has "appendChild" then some "domOperations"
  else if loops ≥ 1 && has "await" then some "asyncAwait"
  else none

/-- The type of an issue, told by what was matched, or else by its category. -/
def classify (category : String) (matched : Text) : String :=
  (classify? matched).getD category

/-- The line around a place, trimmed and cut to a hundred characters. -/
def contextLine (t : Text) (place : Nat) : Text :=
  (Text.trim (Text.slice t (Text.lineStart t place) (Text.lineEnd t place))).take 100

/-- The issue that a reading of a rule's pattern stands for. -/
def ofMatch (t : Text) (lineOffset : Int) (r : Rule) (m : Match) : Issue where
  ruleId := r.id
  category := r.category.name
  type := classify r.category.name m.text
  severity := r.severity
  description := r.description
  suggestion := r.suggestion
  line := some (Text.lineNumber t m.first + lineOffset)
  context := some (contextLine t m.first)
  matched := m.text.take 200

/-- The issues of one rule; a rule that is praise has none. -/
def ofRule (t : Text) (lineOffset : Int) (r : Rule) : List Issue :=
  if r.severity = .positive then [] else (r.pattern.findAll t).map (ofMatch t lineOffset r)

/-- The issues of several rules, rule by rule. -/
def ofRules (t : Text) (lineOffset : Int) (rules : List Rule) : List Issue :=
  rules.flatMap (ofRule t lineOffset)

/-- An issue with the text as a whole. -/
def ofMetric (metric : String) (severity : Severity) (description suggestion : String) : Issue :=
  ⟨metric, "performanceMetric", metric, severity, description, suggestion, none, none, []⟩

end Issue

namespace BestPractice

/-- The praise that a rule gives to a text. -/
def ofRule? (t : Text) (r : Rule) : Option BestPractice :=
  if r.severity = .positive && r.pattern.foundIn t then some ⟨r.id, r.category, r.description⟩
  else none

/-- The praise of several rules, each at most once. -/
def ofRules (t : Text) (rules : List Rule) : List BestPractice :=
  rules.filterMap (ofRule? t)

end BestPractice

/-- The first bracketed span of a text, without its brackets, and what stands behind it. A span runs
from an opening bracket to the next closing one. -/
def firstSpan? (t : Text) : Option (Text × Text) :=
  match t.dropWhile (· != '[') with
  | [] => none
  | _ :: behind =>
    match behind.dropWhile (· != ']') with
    | [] => none
    | _ :: rest => some (behind.takeWhile (· != ']'), rest)

/-- What stands behind the first span is shorter than the text. -/
theorem length_lt_of_firstSpan? {t inside rest : Text} (h : firstSpan? t = some (inside, rest)) :
    rest.length < t.length := by
  unfold firstSpan? at h
  split at h
  · cases h
  · rename_i behind hopen
    split at h
    · cases h
    · rename_i rest' hclose
      obtain ⟨-, rfl⟩ : _ ∧ rest' = rest := by simpa using h
      have hbehind := (List.dropWhile_sublist (l := t) (· != '[')).length_le
      have hrest := (List.dropWhile_sublist (l := behind) (· != ']')).length_le
      rw [hopen, List.length_cons] at hbehind
      rw [hclose, List.length_cons] at hrest
      omega

/-- The number of bracketed spans with at least a thousand characters, from left to right; the next
span is looked for behind the one before. -/
def largeArrays (t : Text) : Nat :=
  match h : firstSpan? t with
  | none => 0
  | some (inside, rest) => (if 1000 ≤ inside.length then 1 else 0) + largeArrays rest
termination_by t.length
decreasing_by exact length_lt_of_firstSpan? h

/-- Whether a component is wrapped so that it is not rendered again without need. -/
def isMemoized (name source : Text) : Bool :=
  Text.occursIn ("memo(".toList ++ name) source

namespace Issue

/-- The number of signatures with at least fifty characters of parameters. -/
def longSignatures (language : Language) (t : Text) : Nat :=
  ((language.grammar.function.findAll t).filterMap Match.signature?).countP
    fun s => 50 ≤ s.params.length

/-- The names of the components declared in a text. -/
def componentNames (markup : MarkupGrammar) (t : Text) : List Text :=
  (markup.component.findAll t).filterMap fun m => (m.group? "name").filter (!·.isEmpty)

/-- The issue with more than two components that are not memoized. -/
def ofComponents (components : List Text) (source : Text) : List Issue :=
  let bare := components.filter fun n => !isMemoized n source
  if bare.length > 2 then
    [ofMetric "non_memoized" .medium
      s!"{bare.length} of {components.length} components are not memoized"
      "Use React.memo for components that render often with the same props"]
  else []

/-- The issues with a text as a whole. Memoization is looked for in the whole source. -/
def ofMetrics (language : Language) (t source : Text) : List Issue :=
  let arrays := largeArrays t
  let long := longSignatures language t
  (if arrays = 0 then [] else
    [ofMetric "large_arrays" .medium
      s!"Large array literals can impact load and parse time ({arrays} found)"
      "Consider loading large datasets dynamically or chunking"])
  ++ (if long = 0 then [] else
    [ofMetric "excessive_params" .low
      s!"Functions with many parameters can be inefficient ({long} found)"
      "Use object parameters instead of many individual parameters"])
  ++ (match language.grammar.markup with
    | none => []
    | some markup => ofComponents (componentNames markup t) source)

end Issue

end CodeSurvey
