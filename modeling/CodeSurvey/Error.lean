import CodeSurvey.Language

/-!
# Errors

What can be wrong with a request. Each cause carries what its message needs; the wording is in one
place.
-/

namespace CodeSurvey

/-- The causes for which a request is turned down. -/
inductive SurveyError where
  /-- The language, as it is shown, is none of the supported ones. -/
  | unsupportedLanguage (shown : Text) (supported : List Text)
  /-- The configuration file cannot be used. -/
  | invalidConfiguration (path reason : Text)
  /-- There is no function of this name, as it is shown. -/
  | functionNotFound (shown : Text)
  /-- The name, as it is quoted, is not an identifier. -/
  | invalidIdentifier (quoted : Text)
deriving DecidableEq, Repr

namespace SurveyError

/-- The name of the cause. -/
def kind : SurveyError → String
  | unsupportedLanguage .. => "UnsupportedLanguageError"
  | invalidConfiguration .. => "ConfigurationError"
  | functionNotFound .. => "FunctionNotFoundError"
  | invalidIdentifier .. => "InvalidIdentifierError"

/-- Whether a value of the request is wrong in itself, whatever the program supports. -/
def isValueError : SurveyError → Bool
  | invalidIdentifier .. => true
  | _ => false

/-- The order of texts by their characters. -/
def textLe (a b : Text) : Bool :=
  match a, b with
  | [], _ => true
  | _ :: _, [] => false
  | x :: a, y :: b => x < y || (x == y && textLe a b)

/-- The message. Supported languages are listed in alphabetical order. -/
def message : SurveyError → Text
  | unsupportedLanguage shown supported =>
    "Unsupported language '".toList ++ shown ++ ['\'']
      ++ (if supported.isEmpty then []
        else ". Supported: ".toList ++ Text.join [',', ' '] (supported.mergeSort textLe))
  | invalidConfiguration path reason =>
    "Invalid configuration at ".toList ++ path ++ [':', ' '] ++ reason
  | functionNotFound shown => "Function '".toList ++ shown ++ "' not found".toList
  | invalidIdentifier quoted => "Not a valid identifier: ".toList ++ quoted

end SurveyError

/-- The language of a spelling, or the error that lists the supported ones. -/
def Language.resolve (spelling : Text) : Except SurveyError Language :=
  match resolve? spelling with
  | some language => .ok language
  | none => .error (.unsupportedLanguage spelling (all.map (·.id.toList)))

end CodeSurvey
