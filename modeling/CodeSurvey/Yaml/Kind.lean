import CodeSurvey.Pattern.Match
import CodeSurvey.Text.Symbol

/-!
# Kinds of values

Every node of a file has a kind: the one that its tag names, or else the one that its form tells. A
text that looks like a truth value, a number, a date or nothing at all is taken for one. Signs of
truth are also `yes`, `no`, `on` and `off`; a leading zero makes a number octal, and colons make it
sexagesimal.
-/

namespace CodeSurvey.Yaml

/-- What a node is read as. -/
inductive Kind where
  | truth
  | decimal
  | integer
  | nothing
  | date
  | text
  | binary
  | sequence
  | mapping
  | set
  /-- A sequence of mappings with one entry each. -/
  | pairs
  /-- The key that merges another mapping into its own. -/
  | merge
  /-- The key of the default value of a mapping. -/
  | defaultValue
  | unknown
deriving DecidableEq, Repr

namespace Kind

/-- The part that the standard tags have in common. -/
def standardTag : Text :=
  "tag:yaml.org,2002:".toList

/-- The kind that a tag names. -/
def ofTag (tag : Text) : Kind :=
  let names := [("bool", truth), ("float", decimal), ("int", integer), ("null", nothing),
    ("timestamp", date), ("str", text), ("binary", binary), ("seq", sequence), ("map", mapping),
    ("set", set), ("omap", pairs), ("pairs", pairs), ("merge", merge), ("value", defaultValue)]
  if standardTag.isPrefixOf tag then
    (names.lookup (String.ofList (tag.drop standardTag.length))).getD unknown
  else unknown

open Pattern

/-- A decimal digit. -/
def digit : Pattern :=
  one Char.isDigit

/-- A digit or an underscore. -/
def digitOrLine : Pattern :=
  one fun c => c.isDigit || c == '_'

/-- A digit and further digits or underscores. -/
def digits : Pattern :=
  digit ++ star digitOrLine

/-- An optional sign. -/
def sign : Pattern :=
  opt (oneOf "-+")

/-- Groups of up to two digits below sixty, behind colons. -/
def sixtieths : Pattern :=
  plus (lit ":" ++ opt (oneOf "012345") ++ digit)

/-- A power of ten with its sign. -/
def exponent : Pattern :=
  opt (oneOf "eE" ++ oneOf "-+" ++ plus digit)

/-- Signs of truth. -/
def truthPattern : Pattern :=
  words ["yes", "Yes", "YES", "no", "No", "NO", "true", "True", "TRUE", "false", "False", "FALSE",
    "on", "On", "ON", "off", "Off", "OFF"]

/-- Numbers with a point. -/
def decimalPattern : Pattern :=
  (sign ++ digits ++ lit "." ++ star digitOrLine ++ exponent)
    <|> (lit "." ++ digits ++ exponent)
    <|> (sign ++ digits ++ sixtieths ++ lit "." ++ star digitOrLine)
    <|> (sign ++ words [".inf", ".Inf", ".INF"])
    <|> words [".nan", ".NaN", ".NAN"]

/-- Numbers without a point. -/
def integerPattern : Pattern :=
  (sign ++ lit "0b" ++ plus (oneOf "01_"))
    <|> (sign ++ lit "0" ++ plus (oneOf "01234567_"))
    <|> (sign ++ (lit "0" <|> (oneOf "123456789" ++ star digitOrLine)))
    <|> (sign ++ lit "0x" ++ plus (oneOf "0123456789abcdefABCDEF_"))
    <|> (sign ++ oneOf "123456789" ++ star digitOrLine ++ sixtieths)

/-- Words for nothing. -/
def nothingPattern : Pattern :=
  words ["~", "null", "Null", "NULL"]

/-- One or two digits. -/
def shortNumber : Pattern :=
  digit ++ opt digit

/-- Between a date and a time. -/
def timeLead : Pattern :=
  oneOf "Tt" <|> plus (one fun c => c == ' ' || c == '\t')

/-- A time of day with a fraction and an offset. -/
def time : Pattern :=
  timeLead ++ role "hour" shortNumber ++ lit ":" ++ role "minute" (digit ++ digit) ++ lit ":"
    ++ role "second" (digit ++ digit) ++ opt (lit "." ++ role "fraction" (star digit))
    ++ opt (star (one fun c => c == ' ' || c == '\t')
      ++ role "zone" (lit "Z" <|> (role "offsetSign" (oneOf "-+") ++ role "offsetHour" shortNumber
        ++ opt (lit ":" ++ role "offsetMinute" (digit ++ digit)))))

/-- A year of four digits. -/
def year : Pattern :=
  role "year" (digit ++ digit ++ digit ++ digit)

/-- A date of fixed width, or a date with a time. -/
def datePattern : Pattern :=
  (year ++ lit "-" ++ digit ++ digit ++ lit "-" ++ digit ++ digit)
    <|> (year ++ lit "-" ++ shortNumber ++ lit "-" ++ shortNumber ++ time)

/-- The end of a text, or the line feed that ends it. -/
def lastLineEnd : Pattern :=
  opt (lit "\n") ++ .textEnd

/-- A date with or without a time, part by part. -/
def dateParts : Pattern :=
  year ++ lit "-" ++ role "month" shortNumber ++ lit "-" ++ role "day" shortNumber ++ opt time
    ++ lastLineEnd

/-- Whether a text has a form, where a line feed at its end does not count. -/
def hasForm (t : Text) (p : Pattern) : Bool :=
  (p ++ lastLineEnd).opens t

/-- The kind that the form of a text tells. A sign of the format alone is of none. -/
def ofForm (t : Text) : Kind :=
  if t.isEmpty then nothing
  else if hasForm t truthPattern then truth
  else if hasForm t decimalPattern then decimal
  else if hasForm t integerPattern then integer
  else if hasForm t (lit "<<") then merge
  else if hasForm t nothingPattern then nothing
  else if hasForm t datePattern then date
  else if hasForm t (lit "=") then defaultValue
  else if hasForm t (oneOf "!&*") then unknown
  else text

/-- A tag that leaves the kind of a node open. -/
def openTag : Text := ['!']

/-- The kind of a text, by its tag or by its form; a text between quotes or in a block is a text
unless its tag leaves that open. -/
def ofText (tag : Option Text) (isPlain : Bool) (t : Symbols) : Kind :=
  let form := match t.toText? with
    | some t => ofForm t
    | none => text
  match tag with
  | none => if isPlain then form else text
  | some tag => if tag = openTag then form else ofTag tag

/-- The kind of a collection, by its tag or by its form. -/
def ofCollection (tag : Option Text) (form : Kind) : Kind :=
  match tag with
  | none => form
  | some tag => if tag = openTag then form else ofTag tag

end Kind

end CodeSurvey.Yaml
