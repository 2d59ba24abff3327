import CodeSurvey.CommandLine.Arguments
import CodeSurvey.Config.File
import CodeSurvey.Session

/-!
# Launching

What a server is started with: the command line first, then the environment, then what is standard.
-/

namespace CodeSurvey

/-- The environment variables that count. -/
structure Environment where
  configPath : Option Text
  logLevel : Option Text
  logFile : Option Text
  cacheDisabled : Option Text
  cacheSize : Option Text
  cacheTtl : Option Text
deriving DecidableEq, Repr

/-- How the cache is set up. -/
structure CacheSettings where
  enabled : Bool
  size : FlagNumber
  timeToLive : FlagNumber
deriving DecidableEq, Repr

/-- The cache in the absence of any setting. -/
def CacheSettings.standard : CacheSettings :=
  ⟨true, .number 100, .number 300⟩

namespace Launch

/-- A text, unless it is empty. -/
def given (t : Option Text) : Option Text :=
  t.filter (!·.isEmpty)

/-- The level of the log. -/
def logLevel (a : Arguments) (env : Environment) : LogLevel :=
  match given a.logLevel with
  | some name => LogLevel.ofName name
  | none => (env.logLevel.map LogLevel.ofName).getD .info

/-- The file of the log; without one, records go to the error output. -/
def logFile (a : Arguments) (env : Environment) : Option Text :=
  (given a.logFile).orElse fun _ => given env.logFile

/-- The path of the configuration file. -/
def configPath (a : Arguments) (env : Environment) : Option Text :=
  (given a.config).orElse fun _ => given env.configPath

/-- A number of the cache: the flag, the variable if it can be read, or the standard. A variable
that cannot be read is reported. -/
def cacheNumber (flag : Option FlagNumber) (setting : Option Text) (event : String)
    (standard : FlagNumber) : FlagNumber × List LogRecord :=
  match flag, given setting with
  | some n, _ => (n, [])
  | none, none => (standard, [])
  | none, some raw =>
    match Text.toInt? raw with
    | some n => (.number n, [])
    | none => (standard,
        [⟨.warning, event, [("value", .text raw), ("using_default", standard.toJson)]⟩])

/-- How the cache is set up, and what is logged of it. -/
def cacheSettings (a : Arguments) (env : Environment) : CacheSettings × List LogRecord :=
  let enabled := !(a.noCache || (given env.cacheDisabled).isSome)
  let (size, sizeRecords) := cacheNumber a.cacheSize env.cacheSize "invalid_cache_size_env"
    CacheSettings.standard.size
  let (ttl, ttlRecords) := cacheNumber a.cacheTtl env.cacheTtl "invalid_cache_ttl_env"
    CacheSettings.standard.timeToLive
  (⟨enabled, size, ttl⟩,
    sizeRecords ++ ttlRecords
      ++ [⟨.info, "cache_config", [("cache_enabled", .bool enabled), ("cache_size", size.toJson),
        ("cache_ttl", ttl.toJson)]⟩])

/-- The record of a configuration file that cannot be used. -/
def configRecord (path : Text) (fault : ConfigFault) : LogRecord :=
  ⟨.error, "config_validation_failed",
    [("config_path", .text path), ("error", .text (fault.toError path).message)]⟩

/-- The session of a server at its start. -/
def session (config : Config) (settings : CacheSettings) : Session :=
  let s : Session := ⟨config, none, settings.enabled, .int 0⟩
  if settings.enabled then s.initCache settings.size.toJson settings.timeToLive.toJson else s

end Launch

/-- A server that has been set up, as far as it got. -/
structure Startup where
  configPath : Option Text
  cacheSettings : CacheSettings
  session : Except LoadFailure Session
  records : List LogRecord

namespace Startup

/-- The configuration, given what stands at a path. Without a path it is the standard one. -/
def config (loader : Loader) (stateOf : Text → FileState) :
    Option Text → Except LoadFailure Config
  | none => .ok .standard
  | some path => Config.load loader stateOf path

/-- What is logged of a configuration that cannot be loaded. -/
def failureRecords : LoadFailure → List LogRecord
  | .rejected path fault => [Launch.configRecord path fault]
  | .escaped _ => []

/-- Sets a server up: the configuration first, then the cache. -/
def ofArguments (loader : Loader) (a : Arguments) (env : Environment)
    (stateOf : Text → FileState) : Startup :=
  let path := Launch.configPath a env
  match config loader stateOf path with
  | .error failure => ⟨path, .standard, .error failure, failureRecords failure⟩
  | .ok c =>
    let (settings, records) := Launch.cacheSettings a env
    ⟨path, settings, .ok (Launch.session c settings), records⟩

end Startup

end CodeSurvey
