import CodeSurvey.Json.Sorted
import CodeSurvey.Tool.Argument

/-!
# Errors by name

An error can be asked for by the name of its kind, with arguments that may be too few, too many or
of the wrong kind. `SurveyError.ofArguments?` gives the error, or what is wrong with the arguments.
-/

namespace CodeSurvey

/-- What is wrong with the arguments of an error. -/
inductive ArgumentFault where
  /-- Arguments of these names are missing. -/
  | missing (kind : String) (names : List String)
  /-- More arguments are given than an error of the kind takes. -/
  | tooMany (kind : String) (least most given : Nat)
  /-- What has to hold texts holds nothing. -/
  | notCollection (kind : String)
  /-- What has to be a text is none. -/
  | notText (index : Nat) (kind : String)
  /-- Two values cannot be put in order. -/
  | operands (f : OperandFault)
deriving DecidableEq, Repr

namespace ArgumentFault

/-- Names in quotes, one after the other. -/
def enumerated (names : List String) : String :=
  " and ".intercalate (names.map fun name => s!"'{name}'")

/-- The class of a fault. -/
def className : ArgumentFault → String
  | operands f => f.className
  | _ => "TypeError"

/-- The message of a fault. The error itself counts as an argument. -/
def message : ArgumentFault → String
  | missing kind names =>
    let count := names.length
    let noun := if count = 1 then "argument" else "arguments"
    s!"{kind}.__init__() missing {count} required positional {noun}: {enumerated names}"
  | tooMany kind least most given =>
    let taken := if least = most then s!"{most + 1}" else s!"from {least + 1} to {most + 1}"
    s!"{kind}.__init__() takes {taken} positional arguments but {given + 1} were given"
  | notCollection kind => s!"'{kind}' object is not iterable"
  | notText index kind => s!"sequence item {index}: expected str instance, {kind} found"
  | operands f => f.message

end ArgumentFault

namespace Argument

/-- The texts in a list of documents. -/
def textsFrom (index : Nat) : List Json → Except ArgumentFault (List Text)
  | [] => .ok []
  | .str s :: rest => (textsFrom (index + 1) rest).map (s.toList :: ·)
  | j :: _ => .error (.notText index j.kindName)

/-- The texts that a document holds: those of a list, which are put in order before they are looked
at, the keys of an object, or the characters of a text. One that does not count as present holds
none. -/
def texts (j : Json) : Except ArgumentFault (List Text) :=
  if !j.present then .ok []
  else
    match j with
    | .str s => .ok (s.toList.map fun c => [c])
    | .obj fields => .ok (fields.map fun f => f.1.toList)
    | .arr items =>
      match Json.sorted items with
      | .error fault => .error (.operands fault)
      | .ok items => textsFrom 0 items
    | j => .error (.notCollection j.kindName)

end Argument

namespace SurveyError

/-- The error of a kind with some arguments, if there is such a kind. -/
def ofArguments? (kind : String) (args : List Json) :
    Option (Except ArgumentFault SurveyError) :=
  let given := args.length
  match kind, args with
  | "UnsupportedLanguageError", [] => some (.error (.missing kind ["language"]))
  | "UnsupportedLanguageError", [j] => some (.ok (.unsupportedLanguage j.shown []))
  | "UnsupportedLanguageError", [j, supported] =>
    some ((Argument.texts supported).map (.unsupportedLanguage j.shown))
  | "UnsupportedLanguageError", _ => some (.error (.tooMany kind 1 2 given))
  | "ConfigurationError", [] => some (.error (.missing kind ["config_path", "message"]))
  | "ConfigurationError", [_] => some (.error (.missing kind ["message"]))
  | "ConfigurationError", [path, reason] =>
    some (.ok (.invalidConfiguration path.shown reason.shown))
  | "ConfigurationError", _ => some (.error (.tooMany kind 2 2 given))
  | "FunctionNotFoundError", [] => some (.error (.missing kind ["name"]))
  | "FunctionNotFoundError", [j] => some (.ok (.functionNotFound j.shown))
  | "FunctionNotFoundError", _ => some (.error (.tooMany kind 1 1 given))
  | "InvalidIdentifierError", [] => some (.error (.missing kind ["name"]))
  | "InvalidIdentifierError", [j] => some (.ok (.invalidIdentifier j.quoted))
  | "InvalidIdentifierError", _ => some (.error (.tooMany kind 1 1 given))
  | _, _ => none

end SurveyError

end CodeSurvey
