import CodeSurvey.Yaml.Flaw
import CodeSurvey.Yaml.Kind

/-!
# Graphs of nodes

A file describes nodes: texts, sequences and mappings. A node can be used in several places, and
even inside itself, so the nodes are numbered and refer to each other by their numbers.
-/

namespace CodeSurvey.Yaml

/-- The number of a node. -/
abbrev NodeId := Nat

/-- What a node holds. -/
inductive Content where
  | scalar (t : Symbols)
  | sequence (items : List NodeId)
  | mapping (entries : List (NodeId × NodeId))
deriving DecidableEq, Repr

/-- A node. -/
structure Node where
  kind : Kind
  content : Content
deriving DecidableEq, Repr

namespace Node

/-- A value that is left out. -/
def empty : Node :=
  ⟨.nothing, .scalar []⟩

end Node

/-- Some nodes, numbered from zero. -/
structure Graph where
  nodes : Array Node
deriving DecidableEq, Repr

namespace Graph

/-- No nodes. -/
def empty : Graph :=
  ⟨#[]⟩

/-- The number of nodes. -/
def size (g : Graph) : Nat :=
  g.nodes.size

/-- The node of a number. -/
def node (g : Graph) (id : NodeId) : Node :=
  g.nodes.getD id .empty

/-- The kind of a node. -/
def kind (g : Graph) (id : NodeId) : Kind :=
  (g.node id).kind

/-- The graph with one more node, whose number is the old size. -/
def add (g : Graph) (n : Node) : Graph :=
  ⟨g.nodes.push n⟩

/-- The graph with other content in a node. -/
def setContent (g : Graph) (id : NodeId) (c : Content) : Graph :=
  ⟨g.nodes.setIfInBounds id { g.node id with content := c }⟩

/-- The graph with another kind of a node. -/
def setKind (g : Graph) (id : NodeId) (k : Kind) : Graph :=
  ⟨g.nodes.setIfInBounds id { g.node id with kind := k }⟩

/-- The entries of a node that is a mapping. -/
def entries? (g : Graph) (id : NodeId) : Option (List (NodeId × NodeId)) :=
  match (g.node id).content with
  | .mapping entries => some entries
  | _ => none

/-- The items of a node that is a sequence. -/
def items? (g : Graph) (id : NodeId) : Option (List NodeId) :=
  match (g.node id).content with
  | .sequence items => some items
  | _ => none

end Graph

end CodeSurvey.Yaml
