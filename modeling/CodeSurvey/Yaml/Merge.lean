import CodeSurvey.Yaml.Graph

/-!
# Merged mappings

An entry whose key is the merge sign takes the entries of other mappings over into its own mapping:
those of the mapping that is its value, or those of all mappings of a sequence, the last one first.
They go in front of the own entries, so that the own ones win. `Graph.merged` is the graph in which
a mapping has no merge sign left. Mappings may take each other over; every call takes one sign away
before it looks into another mapping.
-/

namespace CodeSurvey.Yaml

namespace Graph

/-- The number of merge signs and other entries in all mappings. -/
def entryCount (g : Graph) : Nat :=
  (g.nodes.toList.map fun n => match n.content with
    | .mapping entries => entries.length
    | _ => 0).foldl (· + ·) 0

/-- The graph without the entry at a place of a mapping. -/
def dropEntry (g : Graph) (id : NodeId) (index : Nat) : Graph :=
  match g.entries? id with
  | some entries => g.setContent id (.mapping (entries.eraseIdx index))
  | none => g

/-- The graph with further entries in front of those of a mapping. -/
def putInFront (g : Graph) (id : NodeId) (taken : List (NodeId × NodeId)) : Graph :=
  match g.entries? id with
  | some entries => g.setContent id (.mapping (taken ++ entries))
  | none => g

mutual

/-- The graph with the merge signs of a mapping worked off. -/
def mergedTo : Nat → Graph → NodeId → Result Graph
  | 0, _, _ => .error .malformed
  | fuel + 1, g, id => do
    let count := ((g.entries? id).getD []).length
    let (g, taken) ← mergeEntries fuel count 0 g id
    return if taken.isEmpty then g else g.putInFront id taken
termination_by fuel => (fuel, 0, 0)

/-- Works through so many entries of a mapping, from a place on. Gives the entries that are taken
over; a key for default values becomes a text like any other. -/
def mergeEntries (fuel : Nat) : Nat → Nat → Graph → NodeId →
    Result (Graph × List (NodeId × NodeId))
  | 0, _, g, _ => .ok (g, [])
  | count + 1, index, g, id =>
    match ((g.entries? id).getD [])[index]? with
    | none => .ok (g, [])
    | some (key, value) =>
      match g.kind key with
      | .merge => do
        let (g, taken) ← takenFrom fuel (g.dropEntry id index) value
        let (g, more) ← mergeEntries fuel count index g id
        return (g, taken ++ more)
      | .defaultValue => mergeEntries fuel count (index + 1) (g.setKind key .text) id
      | _ => mergeEntries fuel count (index + 1) g id
termination_by count => (fuel, 3, count)

/-- The entries that the value of a merge sign gives. -/
def takenFrom (fuel : Nat) (g : Graph) (value : NodeId) : Result (Graph × List (NodeId × NodeId)) :=
  match (g.node value).content with
  | .mapping _ => do
    let g ← mergedTo fuel g value
    return (g, (g.entries? value).getD [])
  | .sequence items => takenFromItems fuel g items
  | .scalar _ => .error .malformed
termination_by (fuel, 2, 0)

/-- The entries of several mappings, the last one first. -/
def takenFromItems (fuel : Nat) (g : Graph) : List NodeId →
    Result (Graph × List (NodeId × NodeId))
  | [] => .ok (g, [])
  | item :: rest =>
    match (g.node item).content with
    | .mapping _ => do
      let g ← mergedTo fuel g item
      let taken := (g.entries? item).getD []
      let (g, more) ← takenFromItems fuel g rest
      return (g, more ++ taken)
    | _ => .error .malformed
termination_by items => (fuel, 1, items.length)

end

/-- The graph with the merge signs of a mapping worked off. -/
def merged (g : Graph) (id : NodeId) : Result Graph :=
  g.mergedTo (g.entryCount + 1) id

end Graph

end CodeSurvey.Yaml
