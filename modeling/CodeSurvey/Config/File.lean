import CodeSurvey.Config.Loader
import CodeSurvey.Error

/-!
# Configuration files

A configuration is kept in a file as a dictionary of settings. `Config.load` finds it at a path,
with a loader that reads and validates it.
-/

namespace CodeSurvey

/-- What stands at a path. -/
inductive FileState where
  | missing
  | directory
  | device
  /-- A file that cannot be opened. -/
  | closed (message : Text)
  | file (stream : Stream)
deriving DecidableEq, Repr

/-- Why a file is no configuration. -/
inductive ConfigFault where
  | missing
  | notFile
  | malformed (message : Text)
  | unreadable (message : Text)
  | empty
  | notDictionary
  | keyNotText
  | invalid (r : Rejection)

namespace ConfigFault

/-- The reason that is given. -/
def reason : ConfigFault → Text
  | missing => "File does not exist".toList
  | notFile => "Path is not a file".toList
  | malformed message => "YAML parsing failed: ".toList ++ message
  | unreadable message => "Failed to read file: ".toList ++ message
  | empty => "Config file is empty".toList
  | notDictionary => "Config must be a YAML dictionary".toList
  | keyNotText => "Validation failed: keywords must be strings".toList
  | invalid r => "Validation failed: ".toList ++ r.message

/-- The error for the file at a path. -/
def toError (path : Text) (f : ConfigFault) : SurveyError :=
  .invalidConfiguration path f.reason

/-- What the settings are turned down with, where they are the reason. -/
def rejection? : ConfigFault → Option Rejection
  | invalid r => some r
  | _ => none

end ConfigFault

/-- Why a configuration could not be loaded: the file at a path is rejected, or another exception
escapes. -/
inductive LoadFailure where
  | rejected (path : Text) (fault : ConfigFault)
  | escaped (e : Raised)

namespace Config

/-- The entries of a dictionary by their names, if every key is a text. -/
def namedEntries? {ν : Type} : List (Key × ν) → Option (List (Symbols × ν))
  | [] => some []
  | (.text name, value) :: rest => (namedEntries? rest).map ((name, value) :: ·)
  | (.other, _) :: _ => none

/-- The configuration of named entries. -/
def ofEntries (loader : Loader) (entries : List (Symbols × loader.Value)) :
    Except Rejection Config :=
  match loader.validate fields entries with
  | .ok values => .ok (ofValues values)
  | .error r => .error r

/-- The configuration that a document describes. -/
def ofLoaded (loader : Loader) : Loaded loader.Value → Except ConfigFault Config
  | .nothing => .error .empty
  | .other => .error .notDictionary
  | .dictionary entries =>
    match namedEntries? entries with
    | none => .error .keyNotText
    | some entries =>
      match ofEntries loader entries with
      | .ok config => .ok config
      | .error r => .error (.invalid r)

/-- The configuration in the file at a path. -/
def load (loader : Loader) (stateOf : Text → FileState) (path : Text) :
    Except LoadFailure Config :=
  match stateOf path with
  | .missing => .error (.rejected path .missing)
  | .directory | .device => .error (.rejected path .notFile)
  | .closed message => .error (.rejected path (.unreadable message))
  | .file stream =>
    match loader.read stream.withLineFeeds with
    | .error (.malformed message) => .error (.rejected path (.malformed message))
    | .error (.system message) => .error (.rejected path (.unreadable message))
    | .error (.other e) => .error (.escaped e)
    | .ok loaded =>
      match ofLoaded loader loaded with
      | .ok config => .ok config
      | .error fault => .error (.rejected path fault)

end Config

end CodeSurvey
