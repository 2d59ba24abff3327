import CodeSurvey.Config

/-!
# Declared fields

A configuration is declared by its fields: their names, what they hold, and what is allowed there.
Whoever validates a configuration goes by the declaration, and gives one value for each field.
-/

namespace CodeSurvey

/-- What a field holds: a whole number, with the one that it has by default and the least that is
allowed, or a list of strings, which is empty by default. -/
inductive FieldKind where
  | number (standard least : Nat)
  | strings
deriving DecidableEq, Repr

/-- A declared field. -/
structure Field where
  name : String
  kind : FieldKind
deriving DecidableEq, Repr

namespace FieldKind

/-- The values of a field. -/
def Value : FieldKind → Type
  | number .. => Int
  | strings => List Symbols

/-- The value by default. -/
def standardValue : (k : FieldKind) → k.Value
  | number standard _ => (standard : Int)
  | strings => ([] : List Symbols)

/-- Whether a value is allowed. -/
def Allows : (k : FieldKind) → k.Value → Prop
  | number _ least, n => (least : Int) ≤ n
  | strings, _ => True

end FieldKind

/-- A value for each of some fields. -/
def Values : List Field → Type
  | [] => Unit
  | f :: rest => f.kind.Value × Values rest

/-- What holds of every field and its value. -/
def Values.All (p : (f : Field) → f.kind.Value → Prop) : (fields : List Field) →
    Values fields → Prop
  | [], _ => True
  | f :: rest, (value, values) => p f value ∧ All p rest values

/-- Whether one of some named entries gives a field its value. -/
def Field.IsGiven {ν : Type} (f : Field) (entries : List (Symbols × ν)) : Prop :=
  ∃ e ∈ entries, e.1 = Symbols.ofText f.name.toList

namespace Config

/-- The fields of a configuration. -/
def fields : List Field :=
  [⟨"cognitive_threshold", .number standard.cognitiveThreshold 0⟩,
    ⟨"nesting_threshold", .number standard.nestingThreshold 0⟩,
    ⟨"long_function_lines", .number standard.longFunctionLines 1⟩,
    ⟨"parameter_threshold", .number standard.parameterThreshold 0⟩,
    ⟨"duplicate_min_length", .number standard.duplicateMinLength 1⟩,
    ⟨"disabled_rules", .strings⟩]

/-- The configuration of the values of its fields. -/
def ofValues : Values fields → Config
  | (cognitive, nesting, lines, parameters, length, rules, ()) =>
    ⟨Int.toNat cognitive, Int.toNat nesting, Int.toNat lines, Int.toNat parameters,
      Int.toNat length, rules⟩

/-- The values of the fields of a configuration. -/
def toValues (c : Config) : Values fields :=
  ((c.cognitiveThreshold : Int), (c.nestingThreshold : Int), (c.longFunctionLines : Int),
    (c.parameterThreshold : Int), (c.duplicateMinLength : Int), c.disabledRules, ())

end Config

end CodeSurvey
