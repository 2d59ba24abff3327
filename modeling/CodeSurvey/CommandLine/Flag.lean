import CodeSurvey.Log
import CodeSurvey.Text.Quoted

/-!
# Flags

The flags of the command line, their spellings, and what can be wrong with a command line.
-/

namespace CodeSurvey

/-- A flag of the command line. -/
inductive Flag where
  | help
  | config
  | logLevel
  | logFile
  | noCache
  | cacheSize
  | cacheTtl
deriving DecidableEq, Repr

namespace Flag

/-- Every flag, in the order in which they are shown. -/
def all : List Flag :=
  [help, config, logLevel, logFile, noCache, cacheSize, cacheTtl]

/-- The spellings of a flag. -/
def spellings : Flag → List String
  | help => ["-h", "--help"]
  | config => ["--config"]
  | logLevel => ["--log-level"]
  | logFile => ["--log-file"]
  | noCache => ["--no-cache"]
  | cacheSize => ["--cache-size"]
  | cacheTtl => ["--cache-ttl"]

/-- What stands for the value of a flag that takes one. -/
def valueName? : Flag → Option String
  | help => none
  | config => some "PATH"
  | logLevel => some "LEVEL"
  | logFile => some "PATH"
  | noCache => none
  | cacheSize => some "N"
  | cacheTtl => some "SECONDS"

/-- All spellings in one word. -/
def shown (f : Flag) : Text :=
  Text.join ['/'] (f.spellings.map String.toList)

/-- Every spelling with its flag. -/
def table : List (Text × Flag) :=
  all.flatMap fun f => f.spellings.map fun s => (s.toList, f)

/-- The flag of a spelling. -/
def ofSpelling? (t : Text) : Option Flag :=
  table.lookup t

/-- The spellings that an abbreviation may stand for. -/
def abbreviated (t : Text) : List (Text × Flag) :=
  table.filter fun s => t.isPrefixOf s.1

end Flag

/-- What is wrong with a command line. -/
inductive UsageError where
  | ambiguous (argument : Text) (candidates : List Text)
  | missingValue (flag : Flag)
  | needlessValue (flag : Flag) (value : Text)
  | badInteger (flag : Flag) (value : Text)
  | badLevel (value : Text)
  | unrecognized (arguments : List Text)
deriving DecidableEq, Repr

namespace UsageError

/-- A message about a flag. -/
def aboutFlag (f : Flag) (message : Text) : Text :=
  "argument ".toList ++ f.shown ++ [':', ' '] ++ message

/-- The message. -/
def message : UsageError → Text
  | ambiguous argument candidates =>
    "ambiguous option: ".toList ++ argument ++ " could match ".toList
      ++ Text.join [',', ' '] candidates
  | missingValue f => aboutFlag f "expected one argument".toList
  | needlessValue f value => aboutFlag f ("ignored explicit argument ".toList ++ Text.quoted value)
  | badInteger f value => aboutFlag f ("invalid int value: ".toList ++ Text.quoted value)
  | badLevel value =>
    aboutFlag .logLevel ("invalid choice: ".toList ++ Text.quoted value ++ " (choose from ".toList
      ++ Text.join [',', ' '] (LogLevel.all.map fun l => Text.quoted l.choice.toList) ++ [')'])
  | unrecognized arguments => "unrecognized arguments: ".toList ++ Text.join [' '] arguments

end UsageError

end CodeSurvey
