import CodeSurvey.Metric.Decision
import CodeSurvey.Source.Element

/-!
# Language features

Tags for the notable features a text uses, and an estimate of how complex it is as a whole.
-/

namespace CodeSurvey.Features

open Pattern

/-- Whether a string stands somewhere in a text. -/
def has (t : Text) (s : String) : Bool :=
  Text.occursIn s.toList t

/-- A tag, if its condition holds. -/
def tagIf (condition : Bool) (tag : String) : List String :=
  if condition then [tag] else []

/-- A text between backquotes. -/
def templateLiteral : Pattern :=
  lit "\x60" ++ star (noneOf "\x60") ++ lit "\x60"

/-- The tags for asynchronous code. -/
def asynchronous (t : Text) : List String :=
  tagIf (has t "async" && has t "await") "async/await"

/-- The tags of the scripting languages. -/
def script (t : Text) : List String :=
  asynchronous t ++ tagIf (has t "=>") "arrow functions" ++ tagIf (has t "...") "spread/rest"
    ++ tagIf (templateLiteral.foundIn t) "template literals"

/-- The tags of the markup dialects. -/
def markup (t : Text) : List String :=
  tagIf (has t "useState(") "hooks:state"
    ++ tagIf (has t "useEffect(") "hooks:effects"
    ++ tagIf (has t "useContext(") "hooks:context"
    ++ tagIf (has t "useRef(") "hooks:refs"
    ++ tagIf (has t "useCallback(") "hooks:callback"
    ++ tagIf (has t "useMemo(") "hooks:memo"
    ++ tagIf (has t "<" && has t "/>") "JSX"
    ++ tagIf (has t "props") "props"
    ++ tagIf (has t "Fragment" || has t "<>") "fragment"
    ++ tagIf (has t "memo(") "memoization"
    ++ tagIf (has t "styled") "styled-components"
    ++ tagIf (has t "StyleSheet") "react-native:stylesheet"
    ++ tagIf (has t "Animated.") "react-native:animated"
    ++ tagIf (has t "<View" || has t "<Text" || has t "<ScrollView") "react-native:components"

/-- Whether angle brackets of both directions stand in a text. -/
def hasAngles (t : Text) : Bool :=
  has t "<" && has t ">"

/-- The tags of the dialects with types. In markup, angle brackets alone do not tell type
arguments. -/
def types (language : Language) (t : Text) : List String :=
  tagIf (has t "interface ") "interfaces"
    ++ tagIf (hasAngles t && (!language.hasMarkup || has t "type ")) "generics"
    ++ tagIf (language.hasMarkup && has t "Props") "typescript:props"

/-- A block entered with a context manager. -/
def contextManager : Pattern :=
  lineStart ++ blanks ++ opt (lit "async" ++ someBlanks) ++ lit "with" ++ edge

/-- A loop inside brackets. -/
def comprehension : Pattern :=
  let inside := star (noneOf "]\x7d)")
  oneOf "[\x7b(" ++ inside ++ keyword "for" ++ inside ++ keyword "in"

/-- A decorator at the start of a line. -/
def decorator : Pattern :=
  lineStart ++ blanks ++ lit "@" ++ someWordChars

/-- The tags where indentation tells blocks. -/
def indented (t : Text) : List String :=
  tagIf (has t "async def" && has t "await") "async/await"
    ++ tagIf ((keyword "yield").foundIn t) "generators"
    ++ tagIf (contextManager.foundIn t) "context managers"
    ++ tagIf ((keyword "lambda").foundIn t) "lambda functions"
    ++ tagIf (comprehension.foundIn t) "comprehensions"
    ++ tagIf (decorator.foundIn t) "decorators"

/-- The tags of the first typed language. -/
def java (t : Text) : List String :=
  tagIf (has t "@Override") "annotations" ++ tagIf (has t "extends") "inheritance"
    ++ tagIf (has t "implements") "interfaces" ++ tagIf (hasAngles t) "generics"
    ++ tagIf (has t "try" && has t "catch") "exception handling"

/-- A query, by method or by keyword. -/
def query : Pattern :=
  (lit "." ++ words ["Where", "Select", "OrderBy", "GroupBy", "Any", "All"] ++ blanks ++ lit "(")
    <|> (edge ++ lit "from" ++ someBlanks ++ someWordChars ++ someBlanks ++ lit "in" ++ edge)

/-- The tags of the second typed language. -/
def csharp (t : Text) : List String :=
  asynchronous t ++ tagIf (query.foundIn t) "LINQ" ++ tagIf (has t "=>") "lambda expressions"
    ++ tagIf (hasAngles t) "generics" ++ tagIf ((keyword "yield").foundIn t) "iterators"

/-- The tags for the features a text uses. -/
def ofText (language : Language) (t : Text) : List String :=
  match language with
  | .python => indented t
  | .java => java t
  | .csharp => csharp t
  | _ =>
    (if language.hasMarkup then markup t else []) ++ script t
      ++ (if language.hasTypes then types language t else [])

/-- The weight of the elements every language has: a loop counts 1, a conditional 0.5, a function
0.3 and a class 0.7, summed in this order. -/
def commonWeight (s : Scan) : Float :=
  (s.count .loop).toFloat * 1.0 + (s.count .conditional).toFloat * 0.5
    + s.routines.length.toFloat * 0.3 + (s.count .classDecl).toFloat * 0.7

/-- The weight of the elements of markup: a component counts 0.8 and a hook 0.5. -/
def markupWeight (s : Scan) : Float :=
  (s.count .component).toFloat * 0.8 + (s.count .hook).toFloat * 0.5

/-- The level of a weight that exceeds one of two bounds. -/
def levelOf (weight moderate high : Float) : Level :=
  if high < weight then .high else if moderate < weight then .moderate else .low

/-- How complex a text is as a whole, told by the weight of its elements in binary64 arithmetic. -/
def level (s : Scan) : Level :=
  if s.language.hasMarkup then levelOf (commonWeight s + markupWeight s) 6.0 12.0
  else levelOf (commonWeight s) 5.0 10.0

end CodeSurvey.Features
