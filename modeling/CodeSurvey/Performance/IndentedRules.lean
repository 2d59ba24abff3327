import CodeSurvey.Performance.IndentedLoop
import CodeSurvey.Performance.Rule

/-!
# Rules of the language told by indentation
-/

namespace CodeSurvey.Rules

open Pattern

/-- Rules of the language told by indentation. -/
def indented : List Rule := [
  { id := "py-triple-nested-loops"
    category := .algorithmicComplexity
    severity := .critical
    pattern := IndentedLoop.triple
    description := "O(n³) complexity detected - triple nested loops"
    suggestion := "This will perform poorly on large datasets. Consider algorithm redesign." },
  { id := "py-nested-loops"
    category := .algorithmicComplexity
    severity := .high
    pattern := IndentedLoop.double
    description := "O(n²) complexity detected - nested loops"
    suggestion := "Consider using dicts or sets for lookups instead of an inner loop" },
  { id := "py-string-concat-in-loop"
    category := .idioms
    severity := .medium
    pattern := IndentedLoop.containing (someWordChars ++ star (lit "." ++ someWordChars) ++ blanks
      ++ lit "+=" ++ blanks ++ ((upTo 2 (oneOf "rfbuRFBU") ++ oneOf "\"'") <|> lit "str("))
    description := "String concatenation in loop"
    suggestion := "Collect the parts in a list and use ''.join() after the loop" },
  { id := "py-insert-front-in-loop"
    category := .idioms
    severity := .medium
    pattern := IndentedLoop.containing (lineRest ++ lit ".insert(" ++ blanks ++ lit "0" ++ blanks
      ++ lit ",")
    description := "list.insert(0, ...) in loop is O(n²)"
    suggestion := "Use collections.deque or append and reverse" },
  { id := "py-append-in-loop"
    category := .idioms
    severity := .low
    pattern := lineStart ++ group IndentedLoop.outer gap ++ lit "for" ++ edge ++ lineRest
      ++ lit ":" ++ gap ++ lit "\n" ++ again IndentedLoop.outer
      ++ group IndentedLoop.inner someGap ++ someWordChars ++ lit ".append(" ++ lineRest ++ lit ")"
      ++ gap ++ lineEnd
      ++ notAhead (lit "\n" ++ again IndentedLoop.outer ++ again IndentedLoop.inner
        ++ one (!Text.isBlank ·))
    description := "List built with append() in a single-statement loop"
    suggestion := "Use a list comprehension" },
  { id := "py-readlines"
    category := .memoryManagement
    severity := .medium
    pattern := lit ".readlines(" ++ blanks ++ lit ")"
    description := "readlines() loads entire file into memory"
    suggestion := "Iterate over file object directly: for line in file:" },
  { id := "py-read-all"
    category := .memoryManagement
    severity := .medium
    pattern := edge ++ words ["f", "fh", "fp", "file", "handle", "stream"] ++ lit ".read("
      ++ blanks ++ lit ")"
    description := "Reading entire file into memory"
    suggestion := "Read in chunks or iterate line by line" },
  { id := "py-memoization"
    category := .idioms
    severity := .positive
    pattern := lineStart ++ gap ++ lit "@" ++ opt (lit "functools.") ++ words ["lru_cache", "cache"]
      ++ edge
    description := "Memoized function"
    suggestion := "Good use of functools caching for repeated calls" },
  { id := "py-string-join"
    category := .idioms
    severity := .positive
    pattern := opt (oneOf "rfbu") ++ oneOf "\"'" ++ star (noneOf "\"'\n") ++ oneOf "\"'"
      ++ lit ".join("
    description := "String assembly with join()"
    suggestion := "Good use of join() instead of repeated concatenation" },
  { id := "py-deque"
    category := .memoryManagement
    severity := .positive
    pattern := edge ++ lit "deque" ++ blanks ++ lit "("
    description := "collections.deque for queue operations"
    suggestion := "Good use of a deque for O(1) appends and pops at both ends" },
  { id := "py-set-lookup"
    category := .memoryManagement
    severity := .positive
    pattern := lit "=" ++ blanks ++ words ["set", "frozenset"] ++ blanks ++ lit "("
    description := "Set built for membership tests"
    suggestion := "Good use of hashed lookups" }]

end CodeSurvey.Rules
