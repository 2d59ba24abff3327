import CodeSurvey.Config.Validation
import CodeSurvey.Yaml.Document

/-!
# The loader that runs

The documents of `Yaml` with the validation of settings, as one loader. It is one of many: what is
proved of configuration files holds of every loader that is as expected.
-/

namespace CodeSurvey

namespace Setting

/-- A value that stands on its own, as a setting. -/
def ofValue : Yaml.Value → Setting
  | .truth b => flag b
  | .integer n => number n
  | .decimal x => decimal x
  | .noNumber _ => decimal .notNumber
  | .text t => text t
  | .bytes l => bytes l
  | .nothing | .moment _ | .pair | .collection _ => other

/-- A value of a document as a setting. -/
def ofDocument (d : Yaml.Document) (v : Yaml.Value) : Setting :=
  match d.collection? v with
  | some (.list items) => list (items.map ofValue)
  | some (.set items) => list (items.map ofValue)
  | some (.dictionary _) => other
  | none => ofValue v

end Setting

namespace Loader

/-- A value as the key of an entry. -/
def keyOf : Yaml.Value → Key
  | .text name => .text name
  | _ => .other

/-- A document, as far as it matters what it is. -/
def ofDocument (d : Yaml.Document) : Loaded Setting :=
  match d.root, d.collection? d.root with
  | .nothing, _ => .nothing
  | _, some (.dictionary entries) =>
    .dictionary (entries.map fun e => (keyOf e.1, Setting.ofDocument d e.2))
  | _, _ => .other

/-- What a flaw of a document is raised as. -/
def readFault : Yaml.Flaw → ReadFault
  | .malformed => .malformed []
  | .misread m => .other ⟨m.className, m.message⟩

/-- Reads a document in which at most so many collections stand inside each other. A file that
cannot be read to its end fails before anything else is found. -/
def readYaml (depth : Nat) (s : Stream) : Except ReadFault (Loaded Setting) :=
  match s.fault with
  | some fault => .error fault.toReadFault
  | none =>
    match Yaml.load depth s.content with
    | .error flaw => .error (readFault flaw)
    | .ok d => .ok (ofDocument d)

/-- The loader that runs, with a limit on the depth of documents. -/
def running (depth : Nat) : Loader :=
  ⟨Setting, readYaml depth, Setting.validate⟩

end Loader

end CodeSurvey
