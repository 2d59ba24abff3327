import CodeSurvey.CommandLine.Help
import CodeSurvey.Json.Printer
import CodeSurvey.Server.FileTree
import CodeSurvey.Server.Launch

/-!
# Running a server

A whole run of a server over a tree of files: it is launched, answers calls one after the other, and
leaves records behind, on the error output or at the end of a file.
-/

namespace CodeSurvey

/-- What a server is started with. -/
structure ServerInput where
  path : Text
  arguments : List Text
  environment : Environment
  files : FileTree
  calls : List ToolCall

/-- How far a run got. -/
inductive Ending where
  /-- All calls were answered. -/
  | served (answers : List (Except ToolFault Json))
  /-- Help was asked for. -/
  | helped (text : Text)
  /-- The command line is wrong. -/
  | misused (e : UsageError)
  /-- The configuration file cannot be used. -/
  | misconfigured
  /-- The log file cannot be opened. -/
  | unopened (path : Text) (fault : OpenFault)
  /-- An exception escapes from the reading of the configuration. -/
  | escaped (e : Raised)

/-- What is left of a run. -/
structure ServerRun where
  ending : Ending
  configPath : Option Text
  cacheSettings : CacheSettings
  session : Session
  /-- The records on the error output. -/
  records : List LogRecord
  files : FileTree

namespace ServerRun

/-- A run that ended before anything was set up. -/
def early (ending : Ending) (files : FileTree) : ServerRun :=
  ⟨ending, none, .standard, .initial, [], files⟩

/-- Makes calls one after the other. -/
def callAll (s : Session) : List ToolCall → List (Except ToolFault Json) × List LogRecord × Session
  | [] => ([], [], s)
  | c :: rest =>
    let outcome := s.call c
    let (answers, records, last) := callAll outcome.session rest
    (outcome.answer :: answers, outcome.records ++ records, last)

/-- Where records go: to a file, or to the error output. -/
abbrev Sink := Option Location

/-- A record as a line of a file. -/
def recordLine (r : LogRecord) : Text :=
  r.toJson.render.toList ++ ['\n']

/-- A run with its records delivered. -/
def deliver (sink : Sink) (level : LogLevel) (records : List LogRecord) (run : ServerRun) :
    ServerRun :=
  let kept := LogRecord.atLeast level records
  match sink with
  | none => { run with records := kept }
  | some l => { run with files := run.files.append l (kept.flatMap recordLine) }

/-- How a run ends whose configuration cannot be loaded. -/
def failedEnding : LoadFailure → Ending
  | .rejected .. => .misconfigured
  | .escaped e => .escaped e

/-- The run behind the log: configuration, cache, and calls. -/
def afterLog (loader : Loader) (a : Arguments) (input : ServerInput) (files : FileTree) :
    ServerRun × List LogRecord :=
  let start := Startup.ofArguments loader a input.environment files.state
  match start.session with
  | .error failure =>
    (⟨failedEnding failure, start.configPath, start.cacheSettings, .initial, [], files⟩,
      start.records)
  | .ok s =>
    let (answers, records, last) := callAll s input.calls
    (⟨.served answers, start.configPath, start.cacheSettings, last, [], files⟩,
      start.records ++ records)

/-- The run for arguments that have been read. -/
def ofArguments (loader : Loader) (a : Arguments) (input : ServerInput) : ServerRun :=
  let level := Launch.logLevel a input.environment
  match Launch.logFile a input.environment with
  | none =>
    let (run, records) := afterLog loader a input input.files
    run.deliver none level records
  | some path =>
    match input.files.openToAppend path with
    | .error fault => early (.unopened path fault) input.files
    | .ok (l, files) =>
      let (run, records) := afterLog loader a input files
      run.deliver (some l) level records

/-- The run of a server. -/
def ofInput (loader : Loader) (input : ServerInput) : ServerRun :=
  match Arguments.parse input.arguments with
  | .error e => early (.misused e) input.files
  | .ok .help => early (.helped (Help.text (Help.programName input.path))) input.files
  | .ok (.run a) => ofArguments loader a input

/-- The exit code, if the run ended by itself. -/
def exitCode (r : ServerRun) : Option Nat :=
  match r.ending with
  | .helped _ => some 0
  | .misused _ => some 2
  | .misconfigured => some 1
  | _ => none

end ServerRun

end CodeSurvey
