import CodeSurvey.Source.Routine

/-!
# Structural elements

What a text declares, kind by kind. `Scan.ofText` applies the patterns of the grammar one after the
other; the elements of one kind come in the order of the text.
-/

namespace CodeSurvey

/-- A kind of structural element. -/
inductive ElementKind where
  | function
  | classDecl
  | loop
  | conditional
  | variableDecl
  | interface
  | typeAlias
  | component
  | hook
  | markupElement
deriving DecidableEq, Repr

/-- The name under which elements of a kind are listed. -/
def ElementKind.listName : ElementKind → String
  | function => "functions"
  | classDecl => "classes"
  | loop => "loops"
  | conditional => "conditionals"
  | variableDecl => "variables"
  | interface => "interfaces"
  | typeAlias => "types"
  | component => "components"
  | hook => "hooks"
  | markupElement => "jsxElements"

/-- Something more that is known of an element. -/
inductive Detail where
  | params (l : List Param)
  | props (l : List Text)
  | bases (t : Text)
  | interfaces (t : Text)
deriving DecidableEq, Repr

/-- A detail as a field of a document. -/
def Detail.toField : Detail → String × Json
  | params l => ("params", .arr (l.map Param.toJson))
  | props l => ("props", .texts l)
  | bases t => ("extends", .text t)
  | interfaces t => ("implements", .text t)

/-- A declaration or construct found in a text. -/
structure Element where
  kind : ElementKind
  name : Option Text
  type : Option Text
  offset : Nat
  line : Nat
  details : List Detail
deriving DecidableEq, Repr

namespace Element

/-- An element as a document; what is not known is left out. -/
def toJson (e : Element) : Json :=
  .obj ([("line", .nat e.line)]
    ++ (e.name.map fun n => ("name", Json.text n)).toList
    ++ (e.type.map fun t => ("type", Json.text t)).toList
    ++ e.details.map Detail.toField)

/-- The element of a routine. -/
def ofRoutine (r : Routine) : Element :=
  ⟨.function, some r.name, none, r.offset, r.startLine, [.params r.params]⟩

/-- An element known by what it is, such as a loop. -/
def ofKind (t : Text) (kind : ElementKind) (m : Match) : Element :=
  ⟨kind, none, m.group? "kind", m.first, Text.lineNumber t m.first, []⟩

/-- The text of a group on one line, unless it is empty. -/
def detailText? (m : Match) (role : String) : Option Text :=
  ((m.group? role).filter (!·.isEmpty)).map Text.singleSpaced

/-- An element known by its name. -/
def ofNamed (t : Text) (kind : ElementKind) (m : Match) : Element :=
  ⟨kind, m.group? "name", m.group? "decl", m.first, Text.lineNumber t m.first, []⟩

/-- A class or an interface, with what it extends and implements. -/
def ofClass (t : Text) (kind : ElementKind) (m : Match) : Element :=
  { ofNamed t kind m with
    details := ((detailText? m "base").map Detail.bases).toList
      ++ ((detailText? m "interfaces").map Detail.interfaces).toList }

/-- A variable; none if its name or its type is a reserved word. Its place is that of its name. -/
def ofVariable? (t : Text) (m : Match) : Option Element :=
  match m.capture? "name" with
  | none => none
  | some capture =>
    let name := capture.text
    let declared := m.group? "kind"
    if reservedNames.contains name || reservedTypes.contains name then none
    else if declared.any reservedTypes.contains then none
    else
      let place := capture.start.place
      some ⟨.variableDecl, some name, some (declared.getD "assignment".toList), place,
        Text.lineNumber t place, []⟩

/-- The names in a destructured parameter object. -/
def propNames (t : Text) : List Text :=
  ((Brackets.split ',' t).map Text.trim).filter (!·.isEmpty)

/-- The props of a component: the first destructured object in its signature or, if that ends with
the opening bracket, the one that follows it. -/
def componentProps (props : Pattern) (t : Text) (m : Match) : List Text :=
  let inside := props.search? m.text
  let found := match inside with
    | some p => some p
    | none =>
      if Text.slice t (m.last - 1) m.last == ['('] then props.matchAt? t (m.last - 1) else none
  match found with
  | none => []
  | some p => propNames ((p.group? "props").getD [])

/-- A component. -/
def ofComponent (markup : MarkupGrammar) (t : Text) (m : Match) : Element :=
  ⟨.component, m.group? "name", none, m.first, Text.lineNumber t m.first,
    [.props (componentProps markup.props t m)]⟩

end Element

/-- Everything a text declares. -/
structure Scan where
  language : Language
  routines : List Routine
  elements : List Element

namespace Scan

/-- The kinds of elements a language has, in the order in which they are listed. -/
def kinds (language : Language) : List ElementKind :=
  [.function, .classDecl, .loop, .conditional, .variableDecl]
    ++ (if language.hasTypes then [.interface, .typeAlias] else [])
    ++ (if language.hasMarkup then [.component, .hook, .markupElement] else [])

/-- The elements that declare types. -/
def typeElements (g : TypeGrammar) (t : Text) : List Element :=
  (g.interface.findAll t).map (Element.ofClass t .interface)
    ++ (g.typeAlias.findAll t).map (Element.ofNamed t .typeAlias)

/-- Components, hooks and markup. -/
def markupElements (g : MarkupGrammar) (t : Text) : List Element :=
  (g.component.findAll t).map (Element.ofComponent g t)
    ++ (g.hook.findAll t).map (Element.ofNamed t .hook)
    ++ (g.element.findAll t).map (Element.ofNamed t .markupElement)

/-- Everything a text declares. -/
def ofText (language : Language) (t : Text) : Scan :=
  let g := language.grammar
  let routines := Routine.scan language t
  { language := language
    routines := routines
    elements := routines.map Element.ofRoutine
      ++ (g.classDecl.findAll t).map (Element.ofClass t .classDecl)
      ++ (g.loop.findAll t).map (Element.ofKind t .loop)
      ++ (g.conditional.findAll t).map (Element.ofKind t .conditional)
      ++ (g.variableDecl.findAll t).filterMap (Element.ofVariable? t)
      ++ (match g.types with
        | some types => typeElements types t
        | none => [])
      ++ (match g.markup with
        | some markup => markupElements markup t
        | none => []) }

/-- The elements of one kind. -/
def ofKind (s : Scan) (kind : ElementKind) : List Element :=
  s.elements.filter (·.kind = kind)

/-- The number of elements of one kind. -/
def count (s : Scan) (kind : ElementKind) : Nat :=
  (s.ofKind kind).length

/-- The first routine of a name. -/
def find? (s : Scan) (name : Text) : Option Routine :=
  s.routines.find? (·.name = name)

/-- The elements by kind, as a document. -/
def structureJson (s : Scan) : Json :=
  .obj ((kinds s.language).map fun kind =>
    (kind.listName,
      if kind = .function then .arr (s.routines.map Routine.toJson)
      else .arr ((s.ofKind kind).map Element.toJson)))

end Scan

end CodeSurvey
