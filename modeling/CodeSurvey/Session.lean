import CodeSurvey.Cache.Basic
import CodeSurvey.Cache.Key
import CodeSurvey.Tool.Result

/-!
# Sessions

A session answers tool calls one after the other. Between calls it keeps the active configuration,
a clock, and a cache of full reports that can be switched off. `Session.call` gives the outcome of a
call, what is logged, and the session after it.
-/

namespace CodeSurvey

/-- The key of a request, whose parts have to be texts. The language is looked at first. -/
def CacheKey.ofDocuments (tool language source : Json) : Except ToolFault Text :=
  match language, tool, source with
  | .str language, .str tool, .str source =>
    .ok (CacheKey.ofRequest tool.toList language.toList source.toList)
  | .str _, .str _, source => .error (.keyPart 2 source.kindName)
  | .str _, tool, _ => .error (.keyPart 0 tool.kindName)
  | language, _, _ => .error (.keyLanguage language.kindName)

/-- The cache of a session: answers under the keys of their requests. -/
abbrev ReportCache := Cache Text Json

/-- The state between calls. -/
structure Session where
  config : Config
  cache : Option ReportCache
  cacheEnabled : Bool
  clock : Json

/-- What comes of a call. -/
structure CallOutcome where
  answer : Except ToolFault Json
  records : List LogRecord
  session : Session

namespace Session

/-- A session at its start. -/
def initial : Session :=
  ⟨.standard, none, true, .int 0⟩

/-- The cache, unless it is switched off. -/
def activeCache (s : Session) : Option ReportCache :=
  if s.cacheEnabled then s.cache else none

/-- The session with a new cache. -/
def initCache (s : Session) (maxSize timeToLive : Json) : Session :=
  { s with cache := some (.empty maxSize timeToLive) }

/-- The tool that a record is about. -/
def toolField (tool : Tool) : String × Json :=
  ("tool", .str tool.name)

/-- The record of a call. -/
def invokedRecord (c : ToolCall) : LogRecord :=
  ⟨.info, "tool_invoked", [toolField c.tool, ("language", c.language)]
    ++ match c.tool with
      | .traceVariable => [("variable_name", c.variableName)]
      | .performance =>
        [("code_length", .option .nat (Argument.length? c.code)),
          ("function_name", c.functionName)]
      | _ => [("code_length", .option .nat (Argument.length? c.code))]⟩

/-- The record of a result. -/
def completedRecord (tool : Tool) (r : ToolResult) : LogRecord :=
  ⟨.info, "tool_completed", toolField tool :: r.facts ++ [("status", .str "success")]⟩

/-- The record of a rejection, with the start of its message. -/
def rejectedRecord (tool : Tool) (e : SurveyError) : LogRecord :=
  ⟨.warning, "tool_rejected", [toolField tool, ("error", .text (e.message.take 200))]⟩

/-- The record of a failure, with the start of its message. -/
def failedRecord (tool : Tool) (f : ToolFault) : LogRecord :=
  ⟨.error, "tool_failed", [toolField tool, ("error", .text (f.message.toList.take 200)),
    ("status", .str "failed")]⟩

/-- A record about the cache. -/
def cacheRecord (event : String) (fields : List (String × Json)) : LogRecord :=
  ⟨.info, event, fields⟩

/-- The outcome of a call without a result. -/
def refuse (s : Session) (tool : Tool) (records : List LogRecord) : Refusal → CallOutcome
  | .rejected e => ⟨.ok e.toJson, records ++ [rejectedRecord tool e], s⟩
  | .failed f => ⟨.error f, records ++ [failedRecord tool f], s⟩

/-- The outcome of a call that does not go through the cache. -/
def callDirectly (s : Session) (c : ToolCall) (records : List LogRecord) : CallOutcome :=
  match c.result s.config with
  | .error r => s.refuse c.tool records r
  | .ok r => ⟨.ok r.answer, records ++ r.trail ++ [completedRecord c.tool r], s⟩

/-- The key of a call, whose language and code have to be texts. -/
def keyOf (c : ToolCall) : Except ToolFault Text :=
  CacheKey.ofDocuments (.str c.tool.name) c.language c.code

/-- The outcome of a call whose key the cache does not hold: the result is stored. -/
def callAndStore (s : Session) (c : ToolCall) (cache : ReportCache) (key : Text)
    (records : List LogRecord) : CallOutcome :=
  match c.result s.config with
  | .error r => s.refuse c.tool records r
  | .ok r =>
    match cache.put s.clock key r.answer with
    | .error f => s.refuse c.tool (records ++ r.trail) (.failed (.cache f))
    | .ok stored =>
      ⟨.ok r.answer,
        records ++ r.trail
          ++ [cacheRecord "analyze_code_cache_stored" [("cache_size", .nat stored.size)],
            completedRecord c.tool r],
        { s with cache := some stored }⟩

/-- The outcome of a call that goes through the cache. -/
def callCached (s : Session) (c : ToolCall) (cache : ReportCache) (records : List LogRecord) :
    CallOutcome :=
  match keyOf c with
  | .error f => s.refuse c.tool records (.failed f)
  | .ok key =>
    match cache.get s.clock key with
    | .error f => s.refuse c.tool records (.failed (.cache f))
    | .ok (some answer, after) =>
      ⟨.ok answer,
        records ++ [cacheRecord "analyze_code_cache_hit" [("cache_size", .nat after.size)]],
        { s with cache := some after }⟩
    | .ok (none, after) =>
      { s with cache := some after }.callAndStore c after key
        (records ++ [cacheRecord "analyze_code_cache_miss" []])

/-- The outcome of a call. All tools but the tracing one need code with a length; only full reports
go through the cache. -/
def call (s : Session) (c : ToolCall) : CallOutcome :=
  let records := [invokedRecord c]
  match c.tool with
  | .listLanguages => ⟨.ok ToolResult.languages.answer, [], s⟩
  | .traceVariable => s.callDirectly c records
  | .analyzeCode =>
    if (Argument.length? c.code).isNone then
      ⟨.error (.noLength c.code.kindName), [], s⟩
    else
      match s.activeCache with
      | some cache => s.callCached c cache records
      | none => s.callDirectly c records
  | _ =>
    if (Argument.length? c.code).isNone then
      ⟨.error (.noLength c.code.kindName), [], s⟩
    else s.callDirectly c records

/-- A step of a session. -/
inductive Step where
  | call (c : ToolCall)
  | setConfig (c : Config)
  | initCache (maxSize timeToLive : Json)
  | enableCache (on : Bool)
  | setClock (now : Json)

/-- The session after a step. -/
def after (s : Session) : Step → Session
  | .call c => (s.call c).session
  | .setConfig c => { s with config := c }
  | .initCache maxSize timeToLive => s.initCache maxSize timeToLive
  | .enableCache on => { s with cacheEnabled := on }
  | .setClock now => { s with clock := now }

end Session

end CodeSurvey
