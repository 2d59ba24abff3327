import CodeSurvey.Language
import CodeSurvey.Json.Basic
import CodeSurvey.Source.Brackets

/-!
# Parameters

The parameters of a function, read from the text between the brackets of its signature.
-/

namespace CodeSurvey

/-- A declared parameter. -/
structure Param where
  name : Text
  type : Option Text
  defaultValue : Option Text
deriving DecidableEq, Repr

namespace Param

/-- A text, unless it is empty. -/
def nonEmpty? (t : Text) : Option Text :=
  if t.isEmpty then none else some t

/-- A declaration cut at its assignment sign: what stands in front, and the default value. -/
def cutDefault (part : Text) : Text × Option Text :=
  match Brackets.index? Brackets.isAssignment part with
  | some i => (part.take i, nonEmpty? (Text.trim (part.drop (i + 1))))
  | none => (part, none)

/-- A declaration cut at its colon: the name, and the type. -/
def cutType (head : Text) : Text × Option Text :=
  match Brackets.index? Brackets.isColon head with
  | some i => (Text.trim (head.take i), nonEmpty? (Text.trim (head.drop (i + 1))))
  | none => (Text.trim head, none)

/-- The words that may stand before a parameter's name where types are annotated. -/
def modifiers : List Text :=
  ["public ", "private ", "protected ", "readonly "].map String.toList

/-- A name without its modifiers and without the marks of an optional parameter. -/
def bareName (name : Text) : Text :=
  let name := modifiers.foldl
    (fun n m => if m.isPrefixOf n then Text.trim (n.drop m.length) else n) name
  (name.reverse.dropWhile (· == '?')).reverse

/-- A parameter written as a name, a type behind a colon, and a default value. The marks that only
divide a parameter list are no parameters. -/
def ofNameFirst? (language : Language) (part : Text) : Option Param :=
  let (head, defaultValue) := cutDefault part
  let (name, type) := cutType head
  let name := if language.hasTypes then bareName name else name
  if name.isEmpty || name == ['*'] || name == ['/'] then none
  else some ⟨name, type, defaultValue⟩

/-- A parameter written as a type, a name, and a default value. -/
def ofTypeFirst? (part : Text) : Option Param :=
  let (head, defaultValue) := cutDefault part
  match (Text.words head).reverse with
  | [] => none
  | name :: before => some ⟨name, nonEmpty? (Text.join [' '] before.reverse), defaultValue⟩

/-- The receivers of a method, which are not counted as parameters. -/
def isReceiver (language : Language) (name : Text) : Bool :=
  language == .python && (name == "self".toList || name == "cls".toList)

/-- The parameter that one piece of a parameter list declares. -/
def ofPart? (language : Language) (part : Text) : Option Param :=
  let part := Text.trim part
  if part.isEmpty then none
  else
    (if language.typeFirst then ofTypeFirst? part else ofNameFirst? language part).filter
      fun p => !isReceiver language p.name

/-- The parameters of a parameter list, in order. -/
def parseAll (language : Language) (t : Text) : List Param :=
  (Brackets.split ',' t).filterMap (ofPart? language)

/-- A parameter as a document. -/
def toJson (p : Param) : Json :=
  .obj [("name", .text p.name), ("type", .option .text p.type),
    ("defaultValue", .option .text p.defaultValue)]

end Param

end CodeSurvey
