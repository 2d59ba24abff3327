import CodeSurvey.CommandLine.Help
import CodeSurvey.Config.Running
import CodeSurvey.Json.Parser
import CodeSurvey.Json.Printer
import CodeSurvey.Server.Launch

/-!
# The server program

Sets a server up from the command line, the environment and the configuration file, and then
answers calls on the standard input, one document a line: the `name` of a tool and its `args`.
Records go to the error output or to the end of a log file.
-/

namespace CodeSurvey.Program

/-- Where records are written. -/
structure Sink where
  level : LogLevel
  stream : IO.FS.Stream

/-- Writes the records that are grave enough. -/
def Sink.write (sink : Sink) (records : List LogRecord) : IO Unit := do
  for r in LogRecord.atLeast sink.level records do
    sink.stream.putStrLn r.toJson.render
  sink.stream.flush

/-- The environment variable of a name. -/
def variableOf (name : String) : IO (Option Text) := do
  return (← IO.getEnv name).map String.toList

/-- The environment that the program runs in. -/
def environment : IO Environment := do
  return {
    configPath := ← variableOf "CODE_PULSE_CONFIG"
    logLevel := ← variableOf "LOG_LEVEL"
    logFile := ← variableOf "LOG_FILE"
    cacheDisabled := ← variableOf "CACHE_DISABLED"
    cacheSize := ← variableOf "CACHE_SIZE"
    cacheTtl := ← variableOf "CACHE_TTL" }

/-- The file of some bytes. Bytes that are no text fail before any of it is read. -/
def streamOf (bytes : ByteArray) : Stream :=
  match String.fromUTF8? bytes with
  | some s => ⟨s.toList, none⟩
  | none => ⟨[], some (.encoding "the file is not encoded in UTF-8".toList)⟩

/-- What stands at a path. -/
def stateOf (path : Text) : IO FileState := do
  try
    return .file (streamOf (← IO.FS.readBinFile (String.ofList path)))
  catch
    | .noFileOrDirectory .. => return .missing
    | .inappropriateType .. => return .directory
    | e => return .closed e.toString.toList

/-- The loader of the program, and how deep it reads into a document. -/
def loader : Loader :=
  .running 1000

/-- The stream that records go to. -/
def logStream : Option Text → IO IO.FS.Stream
  | none => IO.getStderr
  | some path => do
    return IO.FS.Stream.ofHandle (← IO.FS.Handle.mk (String.ofList path) .append)

/-- The answer to a call that failed. -/
def failureJson (className : String) (message : Text) : Json :=
  .obj [("error", .str className), ("message", .text message)]

/-- The call on a line. -/
def callOf? (line : String) : Option ToolCall := do
  let j ← Json.parse? line.toList
  match j.field "name" with
  | .str name => return ToolCall.ofArguments (← Tool.ofName? name) (j.field "args")
  | _ => none

/-- Answers calls until the input ends. The clock of the session counts seconds. -/
partial def serve (sink : Sink) (stdin stdout : IO.FS.Stream) (s : Session) : IO Unit := do
  let line ← stdin.getLine
  if line.isEmpty then return ()
  match callOf? line with
  | none =>
    stdout.putStrLn (failureJson "UnknownTool" "not a call of a tool".toList).render
    stdout.flush
    serve sink stdin stdout s
  | some call =>
    let now : Int := (← IO.monoMsNow) / 1000
    let outcome := { s with clock := .int now }.call call
    sink.write outcome.records
    let answer := match outcome.answer with
      | .ok j => j
      | .error fault => failureJson fault.className fault.message.toList
    stdout.putStrLn answer.render
    stdout.flush
    serve sink stdin stdout outcome.session

/-- Runs a server with arguments that have been read; the result is the exit code. -/
def run (a : Arguments) : IO UInt32 := do
  let env ← environment
  let sink : Sink := ⟨Launch.logLevel a env, ← logStream (Launch.logFile a env)⟩
  let state ← match Launch.configPath a env with
    | none => pure .missing
    | some path => stateOf path
  let start := Startup.ofArguments loader a env fun _ => state
  sink.write start.records
  match start.session with
  | .ok s =>
    serve sink (← IO.getStdin) (← IO.getStdout) s
    return 0
  | .error (.rejected ..) => return 1
  | .error (.escaped e) =>
    IO.eprintln (e.className ++ ": " ++ String.ofList e.message)
    return 1

end CodeSurvey.Program

open CodeSurvey in
/-- The server program. -/
def main (arguments : List String) : IO UInt32 := do
  let program := Help.programName (← IO.appPath).toString.toList
  match Arguments.parse (arguments.map String.toList) with
  | .error e =>
    IO.eprint (String.ofList (Help.misuse program e))
    return 2
  | .ok .help =>
    IO.print (String.ofList (Help.text program))
    return 0
  | .ok (.run a) => Program.run a
