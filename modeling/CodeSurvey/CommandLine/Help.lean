import CodeSurvey.CommandLine.Flag

/-!
# Help

The help text: the usage line, wrapped to the width of a terminal, and what each flag does. The
usage is shown as well when a command line is wrong.
-/

namespace CodeSurvey.Help

/-- The number of columns that are used. -/
def width : Nat := 78

/-- What the usage line starts with. -/
def usageLead : Text := "usage: ".toList

/-- A flag in the usage line, by its first spelling. -/
def usagePart (f : Flag) : Text :=
  let spelling := (f.spellings.head?.getD "").toList
  let value := match f.valueName? with
    | some name => ' ' :: name.toList
    | none => []
  ['['] ++ spelling ++ value ++ [']']

/-- The flags in the usage line. -/
def usageParts : List Text :=
  Flag.all.map usagePart

/-- Parts put on lines of at most the width, given the parts on the current line and its length. -/
def wrapFrom (indent : Nat) (line : List Text) (length : Nat) : List Text → List (List Text)
  | [] => if line.isEmpty then [] else [line]
  | part :: rest =>
    if width < length + 1 + part.length && !line.isEmpty then
      line :: wrapFrom indent [part] (indent + part.length) rest
    else wrapFrom indent (line ++ [part]) (length + part.length + 1) rest

/-- A line of parts behind an indentation. -/
def indented (indent : Nat) (parts : List Text) : Text :=
  List.replicate indent ' ' ++ Text.join [' '] parts

/-- The lines of the usage of a program. A short name is followed by flags, a long one has a line of
its own. -/
def usageLines (program : Text) : List Text :=
  let lead := usageLead.length
  if 4 * (lead + program.length) ≤ 3 * width then
    let indent := lead + program.length + 1
    match wrapFrom indent [] (lead - 1) (program :: usageParts) with
    | [] => []
    | first :: rest => Text.join [' '] first :: rest.map (indented indent)
  else program :: (wrapFrom lead [] (lead - 1) usageParts).map (indented lead)

/-- A text with at most one empty line between others. -/
def withoutGaps : Text → Text
  | '\n' :: '\n' :: '\n' :: rest => withoutGaps ('\n' :: '\n' :: rest)
  | c :: rest => c :: withoutGaps rest
  | [] => []

/-- The usage of a program. It is never short enough to stay on one line. -/
def usage (program : Text) : Text :=
  withoutGaps (usageLead ++ Text.joinLines (usageLines program))

/-- The name under which a program was started: its path's last part, or the way to run the script
itself. -/
def programName (path : Text) : Text :=
  if "main.py".toList.isSuffixOf path then "python main.py".toList
  else (path.reverse.takeWhile (· != '/')).reverse

/-- What the program is. -/
def description : String :=
  "code-pulse MCP Server - "
    ++ "Structure, complexity, dependency and performance analysis of source text"

/-- What each flag does. -/
def flagLines : List String :=
  ["options:",
    "  -h, --help           show this help message and exit",
    "  --config PATH        Path to YAML config file with analyzer thresholds and",
    "                       disabled rules",
    "  --log-level LEVEL    Logging level (DEBUG, INFO, WARNING, ERROR). Can also",
    "                       be set via LOG_LEVEL env var. Default: INFO",
    "  --log-file PATH      Path to log file (logs to stderr by default). Can also",
    "                       be set via LOG_FILE env var.",
    "  --no-cache           Disable report caching. Can also be set via",
    "                       CACHE_DISABLED=1 env var.",
    "  --cache-size N       Maximum cached reports (default: 100). Also settable",
    "                       via CACHE_SIZE env var.",
    "  --cache-ttl SECONDS  Cache TTL in seconds (default: 300). Also settable via",
    "                       CACHE_TTL env var."]

/-- What each environment variable does. -/
def environmentLines : List String :=
  ["environment variables:",
    "  CODE_PULSE_CONFIG  Path to YAML config file (overridden by --config flag)",
    "  LOG_LEVEL          Logging level: DEBUG, INFO, WARNING, ERROR (default: INFO)",
    "  LOG_FILE           Path to log file (logs to stderr by default)",
    "  CACHE_DISABLED     Disable report caching when set",
    "  CACHE_SIZE         Maximum cached reports",
    "  CACHE_TTL          Cache TTL in seconds",
    "  SENTRY_DSN         Enables Sentry error tracking when set",
    "        "]

/-- The help text of a program. -/
def text (program : Text) : Text :=
  Text.joinLines ([usage program, [], description.toList, []] ++ flagLines.map String.toList ++ [[]]
    ++ environmentLines.map String.toList) ++ ['\n']

/-- What a program says to a command line that is wrong. -/
def misuse (program : Text) (e : UsageError) : Text :=
  Text.joinLines [usage program, program ++ ": error: ".toList ++ e.message] ++ ['\n']

end CodeSurvey.Help
