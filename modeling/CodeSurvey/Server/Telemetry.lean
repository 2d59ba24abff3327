import CodeSurvey.Tool.Argument

/-!
# Error telemetry

How errors are reported to an outside service, if one is configured, and how each event is tagged.
-/

namespace CodeSurvey

/-- The reporting of errors to an outside service. -/
structure Telemetry where
  address : Text
  environment : Text
  service : Json

namespace Telemetry

/-- The telemetry of a service, which needs an address that is not empty. -/
def start? (service : Json) (address environment : Option Text) : Option Telemetry :=
  match address with
  | some (c :: rest) =>
    some ⟨c :: rest, environment.getD "development".toList, service⟩
  | _ => none

/-- Whether the program runs where it is developed. -/
def inDevelopment (t : Telemetry) : Bool :=
  t.environment = "development".toList

/-- The part of the traces that is sent: all where the program is developed, elsewhere one in
ten. -/
def sampleRate (t : Telemetry) : Decimal :=
  if t.inDevelopment then ⟨false, 1, 0⟩ else ⟨false, 1, -1⟩

/-- The settings of the client. What the sources hold is never sent. -/
def settings (t : Telemetry) : List (String × Json) :=
  [("dsn", .text t.address), ("environment", .text t.environment),
    ("traces_sample_rate", .real (.ofDecimal t.sampleRate)),
    ("send_default_pii", .bool false), ("attach_stacktrace", .bool true),
    ("max_breadcrumbs", .int 50), ("debug", .bool t.inDevelopment)]

/-- The tags of every event. -/
def tags (t : Telemetry) : List (String × Json) :=
  [("service", t.service), ("component", .str "mcp-server")]

/-- Why an event cannot be tagged. -/
inductive TagFault where
  /-- The event has no fields. -/
  | notEvent (found : Json)
  /-- What stands where the tags belong cannot hold any. -/
  | notTags (found : Json)

namespace TagFault

/-- The class of a fault. -/
def className : TagFault → String
  | notEvent _ => "AttributeError"
  | notTags _ => "TypeError"

/-- The message of a fault. -/
def message : TagFault → Text
  | notEvent found => s!"'{found.kindName}' object has no attribute 'setdefault'".toList
  | notTags (.arr _) => "list indices must be integers or slices, not str".toList
  | notTags found =>
    s!"'{found.kindName}' object does not support item assignment".toList

end TagFault

/-- Fields with the tags, which take the place of fields of the same names. -/
def withTags (t : Telemetry) (fields : List (String × Json)) : List (String × Json) :=
  t.tags.foldl (fun l tag => Json.insert l tag.1 tag.2) fields

/-- An event with its tags. -/
def tagged (t : Telemetry) : Json → Except TagFault Json
  | .obj event =>
    match event.lookup "tags" with
    | none => .ok (.obj (Json.insert event "tags" (.obj (t.withTags []))))
    | some (.obj fields) => .ok (.obj (Json.insert event "tags" (.obj (t.withTags fields))))
    | some found => .error (.notTags found)
  | found => .error (.notEvent found)

end Telemetry

end CodeSurvey
