import CodeSurvey.Documentation.NameWords
import CodeSurvey.Source.Routine

/-!
# Doc comment templates

The skeleton of a doc comment for a function, in the usual style of its language.
-/

namespace CodeSurvey.DocTemplate

/-- Whether a routine is a component: a capitalised function of a markup dialect. -/
def isComponent (language : Language) (r : Routine) : Bool :=
  language.hasMarkup && r.name.head?.any Char.isUpper

/-- The type of a parameter, unless it is empty. -/
def typeOf? (p : Param) : Option Text :=
  p.type.filter (!·.isEmpty)

/-- The lines with a leading line, or nothing if there are none. -/
def under (lead lines : List Text) : List Text :=
  if lines.isEmpty then [] else lead ++ lines

/-- A parameter in a docstring. -/
def docstringParam (p : Param) : Text :=
  let name := p.name.dropWhile (· == '*')
  match typeOf? p with
  | some type => "    ".toList ++ name ++ " (".toList ++ type ++ "): Description".toList
  | none => "    ".toList ++ name ++ ": Description".toList

/-- A docstring with sections for arguments and result. -/
def docstring (r : Routine) : List Text :=
  ["\"\"\"".toList ++ NameWords.describe r.name]
    ++ under [[], "Args:".toList] (r.params.map docstringParam)
    ++ [[], "Returns:".toList, "    Description".toList, "\"\"\"".toList]

/-- A tag for a parameter with a type in braces. -/
def typedTag (p : Param) : Text :=
  let type := (typeOf? p).getD ['*']
  let shown := match p.defaultValue with
    | some d => ['['] ++ p.name ++ ['='] ++ d ++ [']']
    | none => p.name
  " * @param \x7b".toList ++ type ++ "\x7d ".toList ++ shown ++ " - Description".toList

/-- A block comment with typed tags. -/
def typedTags (r : Routine) : List Text :=
  ["/**".toList, " * ".toList ++ NameWords.describe r.name]
    ++ under [" *".toList] (r.params.map typedTag)
    ++ [" * @returns \x7b*\x7d Description".toList, " */".toList]

/-- A block comment for a component. -/
def component (language : Language) (r : Routine) : List Text :=
  let type := if language.hasTypes then r.name ++ "Props".toList else "Object".toList
  ["/**".toList, " * ".toList ++ r.name ++ " Component".toList, " *".toList,
    " * @param \x7b".toList ++ type ++ "\x7d props - Component props".toList,
    " * @returns \x7bJSX.Element\x7d Rendered component".toList, " */".toList]

/-- A block comment with plain tags. -/
def plainTags (r : Routine) : List Text :=
  ["/**".toList, " * ".toList ++ NameWords.describe r.name]
    ++ under [" *".toList]
      (r.params.map fun p => " * @param ".toList ++ p.name ++ " Description".toList)
    ++ [" * @return Description".toList, " */".toList]

/-- Line comments with elements. -/
def elements (r : Routine) : List Text :=
  ["/// <summary>".toList, "/// ".toList ++ NameWords.describe r.name, "/// </summary>".toList]
    ++ r.params.map (fun p =>
      "/// <param name=\"".toList ++ p.name ++ "\">Description</param>".toList)
    ++ ["/// <returns>Description</returns>".toList]

/-- The skeleton of a doc comment, line by line. -/
def lines (language : Language) (r : Routine) : List Text :=
  match language with
  | .python => docstring r
  | .java => plainTags r
  | .csharp => elements r
  | _ => if isComponent language r then component language r else typedTags r

/-- The skeleton of a doc comment. -/
def ofRoutine (language : Language) (r : Routine) : Text :=
  Text.joinLines (lines language r)

end CodeSurvey.DocTemplate
