import CodeSurvey.CommandLine.Flag
import CodeSurvey.Pattern.Match
import CodeSurvey.Text.Integer

/-!
# Arguments of the command line

Reading a command line takes two passes. The first tells flags from plain words, and accepts any
abbreviation of a flag that fits no other; the second gives flags their values, from left to right.
-/

namespace CodeSurvey

/-- The number that a flag sets. -/
inductive FlagNumber where
  | number (n : Int)
  /-- A divider stands in the place of the number. -/
  | divided
deriving DecidableEq, Repr

/-- The number of a flag as a document: a list of no numbers if there is none. -/
def FlagNumber.toJson : FlagNumber → Json
  | number n => .int n
  | divided => .arr []

/-- What a command line sets. -/
structure Arguments where
  config : Option Text
  logLevel : Option Text
  logFile : Option Text
  noCache : Bool
  cacheSize : Option FlagNumber
  cacheTtl : Option FlagNumber
deriving DecidableEq, Repr

/-- What a command line asks for. -/
inductive Invocation where
  | help
  | run (a : Arguments)
deriving DecidableEq, Repr

/-- A word of a command line. -/
inductive Word where
  | plain (t : Text)
  /-- Everything behind a divider is plain. -/
  | divider
  | flag (f : Flag)
  /-- A flag with its value in the same word. -/
  | flagWith (f : Flag) (value : Text)
  /-- The one-letter flag for help with more behind it. -/
  | shortHelp (tail : Text)
  /-- Something that looks like a flag and is none. -/
  | unknown (t : Text)
deriving DecidableEq, Repr

namespace Word

/-- A word that looks like a negative number. -/
def negativeNumber : Pattern :=
  let digit := Pattern.one Text.isDigit
  Pattern.lit "-"
    ++ (Pattern.plus digit <|> (Pattern.star digit ++ Pattern.lit "." ++ Pattern.plus digit))
    ++ Pattern.opt (Pattern.lit "\n") ++ .textEnd

/-- A word with a dash in front that is no flag. Negative numbers and words with a space in them
are plain. -/
def other (t : Text) : Word :=
  if negativeNumber.opens t || t.contains ' ' then plain t else unknown t

/-- A flag, with a value if there is something behind it, which starts with an equals sign. -/
def flagAnd (f : Flag) : Text → Word
  | [] => flag f
  | _ :: value => flagWith f value

/-- A word of a command line. -/
def ofText (t : Text) : Except UsageError Word :=
  let name := t.takeWhile (· != '=')
  let tail := t.drop name.length
  match t, Flag.ofSpelling? t, Flag.ofSpelling? name with
  | _, some f, _ => .ok (flag f)
  | '-' :: '-' :: _, none, some f => .ok (flagAnd f tail)
  | '-' :: '-' :: _, none, none =>
    match Flag.abbreviated name with
    | [] => .ok (other t)
    | [s] => .ok (flagAnd s.2 tail)
    | candidates => .error (.ambiguous t (candidates.map Prod.fst))
  | '-' :: 'h' :: '=' :: c :: rest, none, _ => .ok (shortHelp (c :: rest))
  | '-' :: 'h' :: ['='], none, _ => .ok (flagWith .help [])
  | '-' :: 'h' :: rest, none, _ => .ok (shortHelp rest)
  | '-' :: _ :: _, none, _ => .ok (other t)
  | _, none, _ => .ok (plain t)

/-- The words of a command line. -/
def ofTexts : List Text → Except UsageError (List Word)
  | [] => .ok []
  | t :: rest =>
    if t = ['-', '-'] then .ok (divider :: rest.map plain)
    else
      match ofText t with
      | .error e => .error e
      | .ok word => (ofTexts rest).map (word :: ·)

end Word

namespace Arguments

/-- What a command line without flags sets. -/
def standard : Arguments :=
  ⟨none, none, none, false, none, none⟩

/-- What is behind the one-letter flag for help: nothing but the letter, any number of times. -/
def checkHelpTail : Text → Except UsageError Invocation
  | [] => .ok .help
  | 'h' :: rest => checkHelpTail rest
  | tail => .error (.needlessValue .help tail)

/-- The integer of a flag. -/
def integer (f : Flag) (value : Text) : Except UsageError Int :=
  match Text.toInt? value with
  | some n => .ok n
  | none => .error (.badInteger f value)

/-- The arguments with a flag whose value is a divider, which stands for no value. A text that was
set before is not any more. -/
def withDivider (a : Arguments) : Flag → Arguments
  | .help => a
  | .noCache => a
  | .config => { a with config := none }
  | .logFile => { a with logFile := none }
  | .logLevel => { a with logLevel := none }
  | .cacheSize => { a with cacheSize := some .divided }
  | .cacheTtl => { a with cacheTtl := some .divided }

/-- The arguments with the value of a flag; flags without a value stay as they are. -/
def withText (a : Arguments) (f : Flag) (value : Text) : Except UsageError Arguments :=
  match f with
  | .help => .ok a
  | .noCache => .ok a
  | .config => .ok { a with config := some value }
  | .logFile => .ok { a with logFile := some value }
  | .logLevel =>
    if LogLevel.all.any fun l => l.choice.toList = value then
      .ok { a with logLevel := some value }
    else .error (.badLevel value)
  | .cacheSize => (integer f value).map fun n => { a with cacheSize := some (.number n) }
  | .cacheTtl => (integer f value).map fun n => { a with cacheTtl := some (.number n) }

/-- The arguments with what stands where the value of a flag belongs. -/
def withValue (a : Arguments) (f : Flag) (value : Text) : Except UsageError Arguments :=
  if value = ['-', '-'] then .ok (a.withDivider f) else a.withText f value

/-- Goes through the words from left to right. What belongs to no flag is kept, and is an error in
the end; asking for help ends the reading. -/
def ofWords (a : Arguments) (extras : List Text) : List Word → Except UsageError Invocation
  | [] => if extras.isEmpty then .ok (.run a) else .error (.unrecognized extras)
  | .plain t :: rest => ofWords a (extras ++ [t]) rest
  | .unknown t :: rest => ofWords a (extras ++ [t]) rest
  | .divider :: rest => ofWords a (extras ++ [['-', '-']]) rest
  | .shortHelp tail :: _ => checkHelpTail tail
  | .flagWith f value :: rest =>
    if f.valueName?.isNone then .error (.needlessValue f value)
    else
      match a.withValue f value with
      | .error e => .error e
      | .ok b => ofWords b extras rest
  | .flag .help :: _ => .ok .help
  | .flag .noCache :: rest => ofWords { a with noCache := true } extras rest
  | .flag f :: .plain value :: rest =>
    match a.withValue f value with
    | .error e => .error e
    | .ok b => ofWords b extras rest
  | .flag f :: _ => .error (.missingValue f)

/-- What a command line asks for. -/
def parse (texts : List Text) : Except UsageError Invocation :=
  match Word.ofTexts texts with
  | .error e => .error e
  | .ok words => ofWords standard [] words

end Arguments

end CodeSurvey
