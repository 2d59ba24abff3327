import CodeSurvey.Number.Double
import CodeSurvey.Text.Basic

/-!
# Documents

Reports, tool arguments and log records are documents: nested lists and objects of plain values.
An object keeps its fields in order.
-/

namespace CodeSurvey

/-- A document. -/
inductive Json where
  | null
  | bool (b : Bool)
  | int (n : Int)
  | real (x : Double)
  | str (s : String)
  | arr (items : List Json)
  | obj (fields : List (String × Json))

namespace Json

/-- A text as a document. -/
def text (t : Text) : Json :=
  str (String.ofList t)

/-- A natural number as a document. -/
def nat (n : Nat) : Json :=
  int n

/-- A value, or null. -/
def option {α : Type} (f : α → Json) : Option α → Json
  | none => null
  | some a => f a

/-- A list of texts as a document. -/
def texts (l : List Text) : Json :=
  arr (l.map text)

/-- A list of strings as a document. -/
def strs (l : List String) : Json :=
  arr (l.map str)

/-- A field of an object. -/
def field? (key : String) : Json → Option Json
  | obj fields => fields.lookup key
  | _ => none

/-- A field of an object, null where there is none. -/
def field (j : Json) (key : String) : Json :=
  (j.field? key).getD null

/-- The fields with one more; a field of the same name keeps its place and takes the new value. -/
def insert (fields : List (String × Json)) (key : String) (value : Json) : List (String × Json) :=
  if (fields.lookup key).isSome then
    fields.map fun f => if f.1 == key then (key, value) else f
  else fields ++ [(key, value)]

/-- The kind of a document, as faults name it. -/
def kindName : Json → String
  | null => "NoneType"
  | bool _ => "bool"
  | int _ => "int"
  | real _ => "float"
  | str _ => "str"
  | arr _ => "list"
  | obj _ => "dict"

/-- Whether a document counts as present: not null, false, zero or empty. -/
def present : Json → Bool
  | null => false
  | bool b => b
  | int n => n != 0
  | real x => !x.isZero
  | str s => !s.isEmpty
  | arr items => !items.isEmpty
  | obj fields => !fields.isEmpty

end Json

end CodeSurvey
