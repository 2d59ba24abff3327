import CodeSurvey.Performance.Rule

/-!
# Rules of the brace languages

Loops are told by their words and braces, one lexical level at a time.
-/

namespace CodeSurvey.Rules

open Pattern

/-- The opening of a counting loop, up to its brace. -/
def forLoop : Pattern :=
  edge ++ lit "for" ++ opt (lit "each") ++ blanks ++ header ++ blanks ++ lit "\x7b"

/-- The opening of any loop with a header, up to its brace. -/
def headedLoop : Pattern :=
  edge ++ words ["for", "foreach", "while"] ++ blanks ++ header ++ blanks ++ lit "\x7b"

/-- Any text up to a closing brace. -/
def beforeClose : Pattern :=
  star (noneOf "\x7d")

/-- Any text without braces. -/
def unbraced : Pattern :=
  star (noneOf "\x7b\x7d")

/-- A bracketed list without brackets inside, up to its closing bracket. -/
def plainParams : Pattern :=
  lit "(" ++ star (noneOf ")") ++ lit ")"

/-- A quoted text. -/
def quotedText : Pattern :=
  oneOf "'\"" ++ star (noneOf "'\"") ++ oneOf "'\""

/-- Rules on nested loops. -/
def loops : List Rule := [
  { id := "triple-nested-loops"
    category := .algorithmicComplexity
    severity := .critical
    pattern := forLoop ++ beforeClose ++ forLoop ++ beforeClose ++ forLoop
    description := "O(n³) complexity detected - triple nested loops"
    suggestion := "This will perform poorly on large datasets. Consider algorithm redesign." },
  { id := "nested-loops"
    category := .algorithmicComplexity
    severity := .high
    pattern := forLoop ++ beforeClose ++ forLoop ++ beforeClose ++ lit "\x7d"
    description := "O(n²) complexity detected - nested loops"
    suggestion := "For large datasets, consider a more efficient algorithm or data structure." }]

/-- The array methods that build on a callback. -/
def arrayMethod : Pattern :=
  words ["map", "filter", "reduce", "forEach"] ++ lit "("

/-- An asynchronous function, up to the brace that opens its body. -/
def asyncFunction : Pattern :=
  lit "async" ++ someBlanks ++ lit "function" ++ blanks ++ wordChars ++ blanks ++ plainParams
    ++ blanks ++ lit "\x7b"

/-- A constant bound to a query of the document. -/
def documentQuery : Pattern :=
  lit "const" ++ someBlanks ++ someWordChars ++ blanks ++ lit "=" ++ blanks
    ++ lit "document.querySelector" ++ opt (lit "All") ++ blanks ++ lit "(" ++ blanks
    ++ quotedText ++ blanks ++ lit ")"

/-- Rules of the scripting dialects. -/
def script : List Rule := [
  { id := "array-preallocation"
    category := .memoryManagement
    severity := .medium
    pattern := lit "const" ++ someBlanks ++ role "arr" someWordChars ++ blanks ++ lit "=" ++ blanks
      ++ lit "[" ++ blanks ++ lit "];" ++ starFew any ++ edge ++ lit "for" ++ blanks ++ header
      ++ blanks ++ lit "\x7b" ++ beforeClose ++ edge ++ again ⟨"arr", ""⟩ ++ lit ".push("
    description := "Array pre-allocation opportunity"
    suggestion := "Pre-allocate array with known size to avoid reallocation: new Array(size)" },
  { id := "chained-array-methods"
    category := .memoryManagement
    severity := .medium
    pattern := arrayMethod ++ star (noneOf ")") ++ lit ")." ++ blanks ++ arrayMethod
    description := "Chained array methods creating intermediate arrays"
    suggestion := "Consider combining operations into a single pass with reduce()" },
  { id := "efficient-collections"
    category := .memoryManagement
    severity := .positive
    pattern := lit "new" ++ someBlanks ++ words ["Map", "Set", "WeakMap", "WeakSet"] ++ blanks
      ++ lit "(" ++ blanks ++ lit ")"
    description := "Using proper data structures"
    suggestion := "Good use of efficient data structures for lookups/unique values" },
  { id := "promise-all"
    category := .asyncPatterns
    severity := .positive
    pattern := lit "Promise.all(" ++ blanks ++ lit "[" ++ blanks ++ star (noneOf "]") ++ lit "]"
      ++ blanks ++ lit ")"
    description := "Efficient parallel async operations"
    suggestion := "Good use of Promise.all for parallel execution" },
  { id := "async-promise-all"
    category := .asyncPatterns
    severity := .positive
    pattern := asyncFunction ++ beforeClose ++ lit "await" ++ someBlanks ++ lit "Promise.all("
    description := "Optimal async/await with Promise.all"
    suggestion := "Excellent pattern for parallel async operations" },
  { id := "sequential-await-in-loop"
    category := .asyncPatterns
    severity := .high
    pattern := asyncFunction ++ unbraced ++ edge ++ lit "for" ++ blanks ++ header ++ blanks
      ++ lit "\x7b" ++ unbraced ++ lit "await" ++ someBlanks ++ star (noneOf ";") ++ lit ";"
      ++ unbraced ++ lit "\x7d"
    description := "Sequential await in loop"
    suggestion := "Create an array of promises and use Promise.all instead" },
  { id := "repeated-dom-queries"
    category := .resourceManagement
    severity := .medium
    pattern := documentQuery ++ star (noneOf ";") ++ lit ";" ++ upToFew 100 any ++ documentQuery
    description := "Multiple DOM queries"
    suggestion := "Cache DOM queries at the beginning of your function" },
  { id := "expensive-canvas-operations"
    category := .resourceManagement
    severity := .medium
    pattern := edge ++ words ["canvas", "ctx", "context"] ++ lit "."
      ++ words ["createLinearGradient", "createPattern", "createRadialGradient", "drawImage",
        "getImageData", "putImageData"] ++ edge
    description := "Expensive canvas operations"
    suggestion := "Consider caching results of canvas operations when possible" },
  { id := "web-worker"
    category := .resourceManagement
    severity := .positive
    pattern := lit "new" ++ someBlanks ++ lit "Worker" ++ blanks ++ lit "("
    description := "Web Worker usage"
    suggestion := "Good use of Web Workers for CPU-intensive tasks" },
  { id := "object-destructuring"
    category := .modernScript
    severity := .positive
    pattern := lit "const" ++ someBlanks ++ lit "\x7b" ++ beforeClose ++ lit "\x7d" ++ blanks
      ++ lit "=" ++ blanks ++ someWordChars
    description := "Object destructuring"
    suggestion := "Good use of modern JavaScript for cleaner code" },
  { id := "functional-array-methods"
    category := .modernScript
    severity := .positive
    pattern := someWordChars ++ lit "."
      ++ words ["map", "filter", "reduce", "some", "every", "find", "findIndex"] ++ edge
    description := "Functional array methods"
    suggestion := "Good use of declarative array methods" },
  { id := "global-regexp"
    category := .modernScript
    severity := .medium
    pattern := lit "new" ++ someBlanks ++ lit "RegExp" ++ blanks ++ lit "(" ++ blanks ++ quotedText
      ++ blanks ++ lit "," ++ blanks ++ oneOf "'\"" ++ lit "g" ++ oneOf "'\"" ++ blanks ++ lit ")"
    description := "RegExp with global flag"
    suggestion := "Be careful with global RegExp and reset lastIndex when reusing" }]

/-- Rules on type declarations. -/
def types : List Rule := [
  { id := "runtime-enum"
    category := .modernScript
    severity := .low
    pattern := notBehind ("const".toList.map (fun x c => c == x) ++ [Text.isBlank]) ++ edge
      ++ lit "enum" ++ someBlanks ++ someWordChars ++ blanks ++ lit "\x7b"
    description := "Regular enum emits a runtime lookup object"
    suggestion :=
      "Use a const enum or a union of string literals when reverse lookup is not needed" },
  { id := "readonly-data"
    category := .modernScript
    severity := .positive
    pattern := (edge ++ lit "readonly" ++ someBlanks ++ plus (one isScriptNameRest) ++ blanks
      ++ oneOf "?:") <|> (edge ++ lit "ReadonlyArray<")
    description := "Immutable data declared as readonly"
    suggestion :=
      "Readonly structures make accidental copies and mutations visible at compile time" }]

/-- An arrow function's parameters and arrow. -/
def arrowHead : Pattern :=
  plainParams ++ blanks ++ lit "=>"

/-- An effect without parameters, up to the brace that opens its body. -/
def effectHead : Pattern :=
  lit "useEffect" ++ blanks ++ lit "(" ++ blanks ++ lit "(" ++ blanks ++ lit ")" ++ blanks
    ++ lit "=>" ++ blanks ++ lit "\x7b"

/-- An empty list of dependencies, up to the bracket that ends the call. -/
def emptyDependencies : Pattern :=
  lit "\x7d," ++ blanks ++ lit "[" ++ blanks ++ lit "]" ++ blanks ++ lit ")"

/-- Rules on components and hooks. -/
def markup : List Rule := [
  { id := "memoized-component"
    category := .rendering
    severity := .positive
    pattern := lit "React.memo" ++ blanks ++ lit "(" ++ blanks
      ++ (lit "function"
        <|> (lit "const" ++ someBlanks ++ someWordChars ++ blanks ++ lit "=" ++ blanks
          ++ (lit "function" <|> arrowHead))
        <|> arrowHead)
    description := "Memoized component"
    suggestion := "Good use of memoization to prevent unnecessary renders" },
  { id := "use-memo"
    category := .rendering
    severity := .positive
    pattern := lit "const" ++ someBlanks ++ someWordChars ++ blanks ++ lit "=" ++ blanks
      ++ lit "useMemo" ++ blanks ++ lit "(" ++ blanks ++ lit "(" ++ blanks ++ lit ")" ++ blanks
      ++ lit "=>"
    description := "Computed value caching"
    suggestion := "Good use of useMemo to cache expensive calculations" },
  { id := "complex-state-object"
    category := .rendering
    severity := .medium
    pattern := lit "const" ++ someBlanks
      ++ (someWordChars <|> (lit "[" ++ star (noneOf "]") ++ lit "]")) ++ blanks ++ lit "="
      ++ blanks ++ lit "useState" ++ blanks ++ lit "(" ++ blanks ++ lit "\x7b" ++ beforeClose
      ++ lit "\x7d" ++ blanks ++ lit ")"
    description := "Complex state object"
    suggestion := "Consider splitting into multiple state variables for more targeted renders" },
  { id := "undebounced-handler"
    category := .rendering
    severity := .medium
    pattern := words ["onClick", "onMouseMove", "onScroll"] ++ lit "=\x7b" ++ beforeClose
      ++ lit "setTimeout("
    description := "Debouncing needed for event handler"
    suggestion := "Use a proper debounce function for better performance" },
  { id := "effect-without-deps"
    category := .hooks
    severity := .high
    pattern := effectHead ++ beforeClose ++ lit "\x7d" ++ blanks ++ lit ")"
    description := "useEffect without dependency array"
    suggestion := "Add dependency array to prevent infinite renders" },
  { id := "callback-empty-deps"
    category := .hooks
    severity := .medium
    pattern := lit "const" ++ someBlanks ++ someWordChars ++ blanks ++ lit "=" ++ blanks
      ++ lit "useCallback" ++ blanks ++ lit "(" ++ blanks ++ (lit "function" <|> arrowHead)
      ++ beforeClose ++ emptyDependencies
    description := "Empty dependency array in useCallback"
    suggestion := "Ensure all dependencies are properly listed to prevent stale closures" },
  { id := "mount-fetch"
    category := .hooks
    severity := .positive
    pattern := effectHead ++ beforeClose ++ lit "fetch" ++ blanks ++ plainParams ++ beforeClose
      ++ emptyDependencies
    description := "Data fetching in useEffect with empty dependency array"
    suggestion := "Good pattern for one-time data fetching on component mount" }]

/-- Rules of the languages that name types first. -/
def typed : List Rule := [
  { id := "string-concat-in-loop"
    category := .memoryManagement
    severity := .medium
    pattern := headedLoop ++ unbraced ++ edge ++ someWordChars ++ blanks ++ lit "+=" ++ blanks
      ++ ((opt (lit "$") ++ opt (lit "@") ++ lit "\"")
        <|> (someWordChars ++ blanks ++ lit "+" ++ blanks ++ lit "\""))
    description := "String concatenation in loop"
    suggestion := "Use a StringBuilder and convert once after the loop" },
  { id := "allocation-in-loop"
    category := .memoryManagement
    severity := .medium
    pattern := headedLoop ++ unbraced ++ edge ++ lit "new" ++ someBlanks ++ capitalName
    description := "Object allocation inside loop"
    suggestion := "Hoist reusable objects out of the loop or reuse a pooled instance" },
  { id := "string-builder"
    category := .memoryManagement
    severity := .positive
    pattern := edge ++ lit "new" ++ someBlanks ++ lit "StringBuilder" ++ blanks ++ lit "("
    description := "StringBuilder for incremental string assembly"
    suggestion := "Good use of a mutable buffer for repeated concatenation" },
  { id := "hashed-collections"
    category := .memoryManagement
    severity := .positive
    pattern := edge ++ lit "new" ++ someBlanks
      ++ words ["HashMap", "HashSet", "Dictionary", "ConcurrentHashMap"] ++ blanks ++ lit "<"
    description := "Hashed collections for lookups"
    suggestion := "Good use of constant-time lookup structures" },
  { id := "parallel-tasks"
    category := .asyncPatterns
    severity := .positive
    pattern := (edge ++ lit "await" ++ someBlanks ++ lit "Task.WhenAll" ++ blanks ++ lit "(")
      <|> (edge ++ lit "CompletableFuture.allOf" ++ blanks ++ lit "(")
    description := "Parallel asynchronous operations"
    suggestion := "Good use of combined awaits for independent work" }]

end CodeSurvey.Rules
