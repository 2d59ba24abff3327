import CodeSurvey.Config.Loader
import CodeSurvey.Config.Setting

/-!
# Validation

Named settings are validated by declared fields. Every fault is reported: those of the fields in
their own order, and then the unknown names in the order in which they are given.
-/

namespace CodeSurvey

/-- A flaw with the name it belongs to, if it is not one of all settings together, and, inside a
list, the index. -/
structure Fault where
  name : Option Text
  index : Option Nat
  flaw : Flaw
deriving DecidableEq, Repr

/-- A fault as a document. -/
def Fault.toJson (f : Fault) : Json :=
  .obj [("type", .str f.flaw.code),
    ("loc", .arr ((f.name.map Json.text).toList ++ (f.index.map Json.nat).toList)),
    ("msg", .str f.flaw.message)]

namespace Setting

/-- Settings by their names. -/
abbrev Named := List (Text × Setting)

/-- Settings by their names, if all names have a form in bytes. -/
def named? : List (Symbols × Setting) → Option Named
  | [] => some []
  | (name, s) :: rest =>
    match name.toText?, named? rest with
    | some name, some rest => some ((name, s) :: rest)
    | _, _ => none

/-- The fault of a name that has no form in bytes, besides which no other counts. -/
def nameFault : Fault :=
  ⟨none, none, .notEncoded⟩

/-- The strings of a list, or the faults of all items that are none. -/
def stringsFrom (name : Text) (index : Nat) : List Setting → Except (List Fault) (List Symbols)
  | [] => .ok []
  | s :: rest =>
    match s.toSymbols, stringsFrom name (index + 1) rest with
    | .ok t, .ok l => .ok (t :: l)
    | .ok _, .error faults => .error faults
    | .error flaw, .ok _ => .error [⟨some name, some index, flaw⟩]
    | .error flaw, .error faults => .error (⟨some name, some index, flaw⟩ :: faults)

/-- The value that a setting gives to a field. -/
def valueFor (name : Text) (s : Setting) : (k : FieldKind) → Except (List Fault) k.Value
  | .number _ least =>
    match s.toIntFrom least with
    | .ok n => .ok n
    | .error flaw => .error [⟨some name, none, flaw⟩]
  | .strings =>
    match s with
    | .list items => stringsFrom name 0 items
    | _ => .error [⟨some name, none, .notList⟩]

/-- The value of a field, which is the standard one if no setting is given. -/
def valueOf (settings : Named) (f : Field) : Except (List Fault) f.kind.Value :=
  match settings.lookup f.name.toList with
  | none => .ok f.kind.standardValue
  | some s => s.valueFor f.name.toList f.kind

/-- The values of some fields, or all that is wrong with them. -/
def valuesOf (settings : Named) : (fields : List Field) → Except (List Fault) (Values fields)
  | [] => .ok ()
  | f :: rest =>
    match valueOf settings f, valuesOf settings rest with
    | .ok value, .ok values => .ok (value, values)
    | .ok _, .error faults => .error faults
    | .error faults, .ok _ => .error faults
    | .error faults, .error others => .error (faults ++ others)

/-- The faults of names that are none of a field. -/
def unknownNames (fields : List Field) (settings : Named) : List Fault :=
  (settings.filter fun s => !(fields.map (·.name.toList)).contains s.1).map fun s =>
    ⟨some s.1, none, .unknownName⟩

/-- What settings with faults are turned down with. -/
def rejection (faults : List Fault) : Rejection :=
  let count := faults.length
  let noun := if count = 1 then "error" else "errors"
  ⟨s!"{count} validation {noun} for AnalyzerConfig".toList, faults.map Fault.toJson⟩

/-- The values that settings give to declared fields. -/
def validate (fields : List Field) (entries : List (Symbols × Setting)) :
    Except Rejection (Values fields) :=
  match named? entries with
  | none => .error (rejection [nameFault])
  | some settings =>
    match valuesOf settings fields, unknownNames fields settings with
    | .ok values, [] => .ok values
    | .ok _, unknown => .error (rejection unknown)
    | .error faults, unknown => .error (rejection (faults ++ unknown))

end Setting

end CodeSurvey
