import CodeSurvey.Json.Basic
import CodeSurvey.Number.Shortest
import CodeSurvey.Text.Quoted

/-!
# Writing documents

`Json.render` writes the standard notation on one line. `Json.shown` is the form in which a document
is quoted inside a message.
-/

namespace CodeSurvey.Json

/-- The text with a character of a string added: quotes, backslashes and controls are escaped. -/
def writeChar (out : String) (c : Char) : String :=
  if c == '"' then out ++ "\\\""
  else if c == '\\' then out ++ "\\\\"
  else if c == '\n' then out ++ "\\n"
  else if c == '\r' then out ++ "\\r"
  else if c == '\t' then out ++ "\\t"
  else if c.toNat < 0x20 then out ++ "\\u" ++ String.ofList (Text.hexDigits 4 c.toNat)
  else out.push c

/-- The text with a string between quotes added. -/
def writeString (out : String) (s : String) : String :=
  (s.toList.foldl writeChar (out.push '"')).push '"'

/-- A number of double precision in the notation. -/
def numeral : Double → String
  | .infinite negative => if negative then "-Infinity" else "Infinity"
  | .notNumber => "NaN"
  | x => String.ofList x.shown

mutual

/-- The text with a document added. -/
def write (out : String) : Json → String
  | null => out ++ "null"
  | bool b => out ++ (if b then "true" else "false")
  | int n => out ++ toString n
  | real x => out ++ numeral x
  | str s => writeString out s
  | arr [] => out ++ "[]"
  | arr (item :: items) => (writeItems (write (out.push '[') item) items).push ']'
  | obj [] => out ++ "\x7b\x7d"
  | obj (f :: fields) =>
    (writeFields (write ((writeString (out.push '{') f.1).push ':') f.2) fields).push '}'

/-- The text with further items of a list added. -/
def writeItems (out : String) : List Json → String
  | [] => out
  | item :: items => writeItems (write (out.push ',') item) items

/-- The text with further fields of an object added. -/
def writeFields (out : String) : List (String × Json) → String
  | [] => out
  | f :: fields =>
    writeFields (write ((writeString (out.push ',') f.1).push ':') f.2) fields

end

/-- A document in the standard notation. -/
def render (j : Json) : String :=
  write "" j

mutual

/-- A document as it is quoted inside a message: texts between quotes, and the plain values by
name. -/
def quoted : Json → Text
  | null => "None".toList
  | bool b => (if b then "True" else "False").toList
  | int n => (toString n).toList
  | real x => x.shown
  | str s => Text.quoted s.toList
  | arr [] => "[]".toList
  | arr (item :: items) => '[' :: quoted item ++ quotedItems items ++ [']']
  | obj [] => ['{', '}']
  | obj (f :: fields) =>
    '{' :: Text.quoted f.1.toList ++ [':', ' '] ++ quoted f.2 ++ quotedFields fields ++ ['}']

/-- Further items of a list. -/
def quotedItems : List Json → Text
  | [] => []
  | item :: items => [',', ' '] ++ quoted item ++ quotedItems items

/-- Further fields of an object. -/
def quotedFields : List (String × Json) → Text
  | [] => []
  | f :: fields =>
    [',', ' '] ++ Text.quoted f.1.toList ++ [':', ' '] ++ quoted f.2 ++ quotedFields fields

end

/-- A document inside a message: a text as it stands, anything else quoted. -/
def shown : Json → Text
  | str s => s.toList
  | j => quoted j

end CodeSurvey.Json
