import CodeSurvey.Text.Base64
import CodeSurvey.Yaml.Graph
import CodeSurvey.Yaml.Moment
import CodeSurvey.Yaml.Scheme

/-!
# Values

What the nodes of a document stand for. A collection is told by the number of its node, because it
can be used in several places and inside itself.
-/

namespace CodeSurvey.Yaml

/-- A value. -/
inductive Value where
  | nothing
  | truth (b : Bool)
  | integer (n : Int)
  | decimal (x : Double)
  /-- No number: the one that has a sign of its own, or the one of a node. -/
  | noNumber (id : Option NodeId)
  | text (t : Symbols)
  | moment (m : Moment)
  | bytes (l : List UInt8)
  /-- Two values that belong together. -/
  | pair
  | collection (id : NodeId)
deriving DecidableEq, Repr

namespace Value

/-- Whether a value can be a key. -/
def isKey : Value → Bool
  | collection _ => false
  | _ => true

/-- The number of a value, where truth counts as one and its opposite as zero. -/
def integer? : Value → Option Int
  | truth b => some (if b then 1 else 0)
  | integer n => some n
  | decimal x => x.toInt?
  | _ => none

/-- Whether two values are the same key. Numbers are the same if they are equal, in whatever form
they are given. -/
def sameKey (v w : Value) : Bool :=
  match v, w with
  | decimal x, decimal y => x.same y
  | _, _ => v = w || (v.integer?.isSome && v.integer? = w.integer?)

end Value

namespace Graph

/-- The text of a node. A mapping stands for its default value, which may be given by a mapping
again, at most so often. -/
def textOf (g : Graph) : Nat → NodeId → Result Symbols
  | 0, _ => misread .endlessDefault
  | fuel + 1, id =>
    match (g.node id).content with
    | .scalar t => .ok t
    | .sequence _ => .error .malformed
    | .mapping entries =>
      match entries.find? fun e => g.kind e.1 = .defaultValue with
      | some e => g.textOf fuel e.2
      | none => .error .malformed

/-- The text of a node. -/
def text (g : Graph) (id : NodeId) : Result Symbols :=
  g.textOf (g.size + 1) id

/-- The number with a point of a node. -/
def decimal (g : Graph) (id : NodeId) : Result Value := do
  match ← readQuantity (← g.text id) with
  | .noNumberSign => return .noNumber none
  | .number .notNumber => return .noNumber (some id)
  | .number x => return .decimal x

/-- The moment of a node. A default value is looked for, but it does not count. -/
def moment (g : Graph) (id : NodeId) : Result Value := do
  let _ ← g.text id
  match (g.node id).content with
  | .scalar t => return .moment (← Moment.ofText t.legible)
  | _ => misread .dateOfCollection

/-- The bytes of a node, written in characters of the basic set. -/
def bytes (g : Graph) (id : NodeId) : Result Value := do
  let t ← g.text id
  let plain := t.legible.all fun c => c.toNat < 128
  match if plain then Text.bytes? t.legible else none with
  | some l => return .bytes l
  | none => .error .malformed

/-- The value of a node. The values in a collection are looked at later. -/
def value (g : Graph) (id : NodeId) : Result Value :=
  match g.kind id with
  | .truth => do return .truth (← readTruth (← g.text id))
  | .decimal => g.decimal id
  | .integer => do return .integer (← readInteger (← g.text id))
  | .nothing => (g.text id).map fun _ => .nothing
  | .date => g.moment id
  | .text => (g.text id).map .text
  | .binary => g.bytes id
  | .sequence | .mapping | .set | .pairs => .ok (.collection id)
  | .merge | .defaultValue | .unknown => .error .malformed

end Graph

end CodeSurvey.Yaml
