import CodeSurvey.Yaml.Merge
import CodeSurvey.Yaml.Reading
import CodeSurvey.Yaml.Value

/-!
# Documents

A document is a value with the collections that it refers to. The collections are filled one after
the other in the order in which they are met, so that what is wrong near the root is found first.
-/

namespace CodeSurvey.Yaml

/-- A collection of values. -/
inductive Collection where
  | list (items : List Value)
  | set (items : List Value)
  | dictionary (entries : List (Value × Value))
deriving DecidableEq, Repr

namespace Collection

/-- The entries of a dictionary with one more; an entry of the same key keeps its place and takes
the new value. -/
def insert (entries : List (Value × Value)) (key value : Value) : List (Value × Value) :=
  if entries.any fun e => e.1.sameKey key then
    entries.map fun e => if e.1.sameKey key then (e.1, value) else e
  else entries ++ [(key, value)]

end Collection

/-- A document that is being filled: the graph, the collections that are filled, and those that are
still to be filled. -/
structure Filling where
  graph : Graph
  filled : List (NodeId × Collection)
  waiting : List NodeId
  /-- The nodes whose values are known. -/
  values : List (NodeId × Value)

namespace Filling

/-- The value of a node, looked at once only. A collection that is met for the first time has to
wait. -/
def value (f : Filling) (id : NodeId) : Result (Value × Filling) :=
  match f.values.lookup id with
  | some v => .ok (v, f)
  | none => do
    let v ← f.graph.value id
    let f := { f with values := (id, v) :: f.values }
    return (v, if v.isKey then f else { f with waiting := f.waiting ++ [id] })

/-- The values of some nodes. -/
def items (f : Filling) : List NodeId → Result (List Value × Filling)
  | [] => .ok ([], f)
  | id :: rest => do
    let (v, f) ← f.value id
    let (values, f) ← f.items rest
    return (v :: values, f)

/-- The entries of a mapping behind some others. A collection cannot be a key. -/
def entries (f : Filling) (found : List (Value × Value)) : List (NodeId × NodeId) →
    Result (List (Value × Value) × Filling)
  | [] => .ok (found, f)
  | e :: rest => do
    let (key, f) ← f.value e.1
    if !key.isKey then .error .malformed
    else
      let (value, f) ← f.value e.2
      f.entries (Collection.insert found key value) rest

/-- The entries of a mapping, with those that it takes over. -/
def dictionary (f : Filling) (id : NodeId) : Result (List (Value × Value) × Filling) := do
  match (f.graph.node id).content with
  | .mapping _ =>
    let graph ← f.graph.merged id
    entries { f with graph := graph } [] ((graph.entries? id).getD [])
  | _ => .error .malformed

/-- The values of the one entry of each of some mappings. -/
def pairs (f : Filling) : List NodeId → Result (List Value × Filling)
  | [] => .ok ([], f)
  | id :: rest => do
    match f.graph.entries? id with
    | some [(key, value)] =>
      let (_, f) ← f.value key
      let (_, f) ← f.value value
      let (values, f) ← f.pairs rest
      return (.pair :: values, f)
    | _ => .error .malformed

/-- The collection of a node. -/
def collection (f : Filling) (id : NodeId) : Result (Collection × Filling) := do
  match f.graph.kind id, f.graph.items? id with
  | .sequence, some l =>
    let (values, f) ← f.items l
    return (.list values, f)
  | .pairs, some l =>
    let (values, f) ← f.pairs l
    return (.list values, f)
  | .mapping, _ =>
    let (entries, f) ← f.dictionary id
    return (.dictionary entries, f)
  | .set, _ =>
    let (entries, f) ← f.dictionary id
    return (.set (entries.map Prod.fst), f)
  | _, _ => .error .malformed

/-- Fills the collections that are waiting, at most so many. -/
def run : Nat → Filling → Result Filling
  | 0, f => .ok f
  | fuel + 1, f =>
    match f.waiting with
    | [] => .ok f
    | id :: rest => do
      let (c, f) ← { f with waiting := rest }.collection id
      run fuel { f with filled := (id, c) :: f.filled }

end Filling

/-- A value with the collections that it refers to. -/
structure Document where
  root : Value
  collections : List (NodeId × Collection)

namespace Document

/-- The document of a root in a graph. Every node waits at most once. -/
def ofGraph (g : Graph) (root : NodeId) : Result Document := do
  let (v, f) ← Filling.value ⟨g, [], [], []⟩ root
  let f ← f.run (g.size + 1)
  return ⟨v, f.filled⟩

/-- The collection of a value. -/
def collection? (d : Document) : Value → Option Collection
  | .collection id => d.collections.lookup id
  | _ => none

end Document

/-- The document that a text describes; it is nothing if there is none. At most so many collections
stand inside each other. -/
def load (depth : Nat) (t : Text) : Result Document := do
  match ← Reading.document depth (tokens t) with
  | none => return ⟨.nothing, []⟩
  | some (graph, root) => Document.ofGraph graph root

end CodeSurvey.Yaml
