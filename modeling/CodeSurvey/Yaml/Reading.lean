import CodeSurvey.Yaml.Graph
import CodeSurvey.Yaml.Lexer

/-!
# From tokens to nodes

A document is one node, with all nodes that it is made of. An alias stands for the node of its
anchor, which may be a node around it. `Reading.document` reads the tokens one by one, and so finds
what is wrong with a document in front of the place where its tokens break off.
-/

namespace CodeSurvey.Yaml

/-- A document that is being read: the nodes and anchors so far, the number of collections that may
still be opened inside each other, and the tokens ahead. -/
structure Reading where
  graph : Graph
  anchors : List (Text × NodeId)
  room : Nat
  rest : List Token

/-- The handles for tags. -/
abbrev Handles := List (Text × Text)

/-- The handles every document has. -/
def standardHandles : Handles :=
  [(['!'], ['!']), (['!', '!'], Kind.standardTag)]

/-- A tag in full. -/
def fullTag (handles : Handles) (handle : Option Text) (suffix : Text) : Result Text :=
  match handle with
  | none => .ok suffix
  | some h =>
    match handles.lookup h with
    | some expansion => .ok (expansion ++ suffix)
    | none => .error .malformed

/-- A tag in full, if there is one. -/
def resolveTag (handles : Handles) : Option (Option Text × Text) → Result (Option Text)
  | none => .ok none
  | some (handle, suffix) => (fullTag handles handle suffix).map some

/-- What stands in front of a node: an anchor and a tag, in either order. -/
structure Properties where
  anchor : Option Text
  tag : Option (Option Text × Text)
deriving DecidableEq, Repr

/-- The properties in front of some tokens. -/
def splitProperties : List Token → Result (Properties × List Token)
  | .anchor _ :: .broken e :: _ => .error e
  | .anchor a :: .tag h s :: rest => .ok (⟨some a, some (h, s)⟩, rest)
  | .anchor a :: rest => .ok (⟨some a, none⟩, rest)
  | .tag _ _ :: .broken e :: _ => .error e
  | .tag h s :: .anchor a :: rest => .ok (⟨some a, some (h, s)⟩, rest)
  | .tag h s :: rest => .ok (⟨none, some (h, s)⟩, rest)
  | rest => .ok (⟨none, none⟩, rest)

/-- Where a node stands: inside brackets, in a block, or as a value in a block, where a sequence may
go without further indentation. -/
inductive Position where
  | flow
  | block
  | blockValue
deriving DecidableEq, Repr

/-- Whether a key or value in a block is left out. -/
def noBlockContent : List Token → Bool
  | .key :: _ | .value :: _ | .blockEnd :: _ => true
  | _ => false

/-- Whether an item in a block is left out. -/
def noItem : List Token → Bool
  | .blockEntry :: _ | .blockEnd :: _ => true
  | _ => false

/-- Whether an item of a sequence without further indentation is left out. -/
def noIndentlessItem (l : List Token) : Bool :=
  noItem l || noBlockContent l

/-- Whether a bracketed sequence or one of its items ends. -/
def sequenceEnds : List Token → Bool
  | .flowEntry :: _ | .flowSequenceEnd :: _ => true
  | _ => false

/-- Whether a bracketed mapping or one of its entries ends. -/
def mappingEnds : List Token → Bool
  | .flowEntry :: _ | .flowMappingEnd :: _ => true
  | _ => false

/-- Whether a value follows. -/
def valueFollows : List Token → Bool
  | .value :: _ => true
  | _ => false

namespace Reading

/-- The reading with other tokens ahead. -/
def withRest (r : Reading) (rest : List Token) : Reading :=
  { r with rest := rest }

/-- One more node without an anchor, in front of the same tokens. -/
def addNode (r : Reading) (n : Node) : NodeId × Reading :=
  (r.graph.size, { r with graph := r.graph.add n })

/-- One more node, whose anchor may not be taken. -/
def openNode (r : Reading) (anchor : Option Text) (n : Node) : Result (NodeId × Reading) :=
  match anchor with
  | none => .ok (r.addNode n)
  | some a =>
    if (r.anchors.lookup a).isSome then .error .malformed
    else .ok (r.graph.size,
      { r with graph := r.graph.add n, anchors := (a, r.graph.size) :: r.anchors })

/-- One more collection, unless too many are open. -/
def openCollection (r : Reading) (anchor : Option Text) (n : Node) :
    Result (NodeId × Reading) :=
  match r.room with
  | 0 => misread .tooDeep
  | room + 1 => { r with room := room }.openNode anchor n

/-- The reading with the content of a collection that has been opened. -/
def close (r : Reading) (id : NodeId) (c : Content) : Reading :=
  { r with graph := r.graph.setContent id c, room := r.room + 1 }

/-- A text, with its tokens read. -/
def scalar (r : Reading) (anchor tag : Option Text) (isPlain : Bool) (t : Symbols) :
    Result (NodeId × Reading) :=
  r.openNode anchor ⟨.ofText tag isPlain t, .scalar t⟩

/-- A sequence that starts here. -/
def openSequence (r : Reading) (anchor tag : Option Text) : Result (NodeId × Reading) :=
  r.openCollection anchor ⟨.ofCollection tag .sequence, .sequence []⟩

/-- A mapping that starts here. -/
def openMapping (r : Reading) (anchor tag : Option Text) : Result (NodeId × Reading) :=
  r.openCollection anchor ⟨.ofCollection tag .mapping, .mapping []⟩

mutual

/-- The node in front of the tokens. -/
def node (handles : Handles) : Nat → Position → Reading → Result (NodeId × Reading)
  | 0, _, _ => .error .malformed
  | fuel + 1, position, r =>
    match r.rest with
    | .broken e :: _ => .error e
    | .alias a :: rest =>
      match r.anchors.lookup a with
      | some id => .ok (id, r.withRest rest)
      | none => .error .malformed
    | tokens => do
      let (properties, rest) ← splitProperties tokens
      let tag ← resolveTag handles properties.tag
      content handles fuel position properties.anchor tag (r.withRest rest)

/-- The node behind its properties; it may be left out if there are some. -/
def content (handles : Handles) : Nat → Position → Option Text → Option Text → Reading →
    Result (NodeId × Reading)
  | 0, _, _, _, _ => .error .malformed
  | fuel + 1, position, anchor, tag, r =>
    match position, r.rest with
    | _, .broken e :: _ => .error e
    | .blockValue, .blockEntry :: _ => do
      let (id, r) ← r.openSequence anchor tag
      let (items, r) ← indentless handles fuel r
      return (id, r.close id (.sequence items))
    | _, .scalar t isPlain :: rest => (r.withRest rest).scalar anchor tag isPlain t
    | _, .flowSequenceStart :: rest => do
      let (id, r) ← (r.withRest rest).openSequence anchor tag
      let (items, r) ← flowSequence handles fuel true r
      return (id, r.close id (.sequence items))
    | _, .flowMappingStart :: rest => do
      let (id, r) ← (r.withRest rest).openMapping anchor tag
      let (entries, r) ← flowMapping handles fuel true r
      return (id, r.close id (.mapping entries))
    | .block, .blockSequenceStart :: rest | .blockValue, .blockSequenceStart :: rest => do
      let (id, r) ← (r.withRest rest).openSequence anchor tag
      let (items, r) ← blockSequence handles fuel r
      return (id, r.close id (.sequence items))
    | .block, .blockMappingStart :: rest | .blockValue, .blockMappingStart :: rest => do
      let (id, r) ← (r.withRest rest).openMapping anchor tag
      let (entries, r) ← blockMapping handles fuel r
      return (id, r.close id (.mapping entries))
    | _, _ =>
      if anchor.isSome || tag.isSome then r.scalar anchor tag true [] else .error .malformed

/-- A node, or an empty one if it is left out. -/
def nodeUnless (handles : Handles) : Nat → (List Token → Bool) → Position → Reading →
    Result (NodeId × Reading)
  | 0, _, _, _ => .error .malformed
  | fuel + 1, absent, position, r =>
    if absent r.rest then .ok (r.addNode .empty) else node handles fuel position r

/-- The items of a sequence in a block. -/
def blockSequence (handles : Handles) : Nat → Reading → Result (List NodeId × Reading)
  | 0, _ => .error .malformed
  | fuel + 1, r =>
    match r.rest with
    | .broken e :: _ => .error e
    | .blockEntry :: rest => do
      let (item, r) ← nodeUnless handles fuel noItem .block (r.withRest rest)
      let (items, r) ← blockSequence handles fuel r
      return (item :: items, r)
    | .blockEnd :: rest => .ok ([], r.withRest rest)
    | _ => .error .malformed

/-- The items of a sequence without further indentation. -/
def indentless (handles : Handles) : Nat → Reading → Result (List NodeId × Reading)
  | 0, _ => .error .malformed
  | fuel + 1, r =>
    match r.rest with
    | .broken e :: _ => .error e
    | .blockEntry :: rest => do
      let (item, r) ← nodeUnless handles fuel noIndentlessItem .block (r.withRest rest)
      let (items, r) ← indentless handles fuel r
      return (item :: items, r)
    | _ => .ok ([], r)

/-- The value of an entry, which may be left out. -/
def entryValue (handles : Handles) : Nat → (List Token → Bool) → Position → Reading →
    Result (NodeId × Reading)
  | 0, _, _, _ => .error .malformed
  | fuel + 1, absent, position, r =>
    match r.rest with
    | .broken e :: _ => .error e
    | .value :: rest => nodeUnless handles fuel absent position (r.withRest rest)
    | _ => .ok (r.addNode .empty)

/-- The entries of a mapping in a block. -/
def blockMapping (handles : Handles) : Nat → Reading → Result (List (NodeId × NodeId) × Reading)
  | 0, _ => .error .malformed
  | fuel + 1, r =>
    match r.rest with
    | .broken e :: _ => .error e
    | .key :: rest => do
      let (key, r) ← nodeUnless handles fuel noBlockContent .blockValue (r.withRest rest)
      let (value, r) ← entryValue handles fuel noBlockContent .blockValue r
      let (entries, r) ← blockMapping handles fuel r
      return ((key, value) :: entries, r)
    | .blockEnd :: rest => .ok ([], r.withRest rest)
    | _ => .error .malformed

/-- The items of a bracketed sequence. All but the first stand behind a comma. -/
def flowSequence (handles : Handles) : Nat → Bool → Reading → Result (List NodeId × Reading)
  | 0, _, _ => .error .malformed
  | fuel + 1, isFirst, r =>
    match isFirst, r.rest with
    | _, .broken e :: _ => .error e
    | _, .flowSequenceEnd :: rest => .ok ([], r.withRest rest)
    | true, _ => flowItem handles fuel r
    | false, .flowEntry :: rest => flowItem handles fuel (r.withRest rest)
    | false, _ => .error .malformed

/-- An item of a bracketed sequence and those behind it. An item with a key is a mapping of one
entry. -/
def flowItem (handles : Handles) : Nat → Reading → Result (List NodeId × Reading)
  | 0, _ => .error .malformed
  | fuel + 1, r =>
    match r.rest with
    | .broken e :: _ => .error e
    | .flowSequenceEnd :: rest => .ok ([], r.withRest rest)
    | .key :: rest => do
      let (id, r) ← (r.withRest rest).openCollection none ⟨.mapping, .mapping []⟩
      let (key, r) ← nodeUnless handles fuel (fun l => valueFollows l || sequenceEnds l) .flow r
      let (value, r) ← entryValue handles fuel sequenceEnds .flow r
      let (items, r) ← flowSequence handles fuel false (r.close id (.mapping [(key, value)]))
      return (id :: items, r)
    | _ => do
      let (item, r) ← node handles fuel .flow r
      let (items, r) ← flowSequence handles fuel false r
      return (item :: items, r)

/-- The entries of a bracketed mapping. All but the first stand behind a comma. -/
def flowMapping (handles : Handles) : Nat → Bool → Reading →
    Result (List (NodeId × NodeId) × Reading)
  | 0, _, _ => .error .malformed
  | fuel + 1, isFirst, r =>
    match isFirst, r.rest with
    | _, .broken e :: _ => .error e
    | _, .flowMappingEnd :: rest => .ok ([], r.withRest rest)
    | true, _ => flowField handles fuel r
    | false, .flowEntry :: rest => flowField handles fuel (r.withRest rest)
    | false, _ => .error .malformed

/-- An entry of a bracketed mapping and those behind it; one without a key sign has no value. -/
def flowField (handles : Handles) : Nat → Reading → Result (List (NodeId × NodeId) × Reading)
  | 0, _ => .error .malformed
  | fuel + 1, r =>
    match r.rest with
    | .broken e :: _ => .error e
    | .flowMappingEnd :: rest => .ok ([], r.withRest rest)
    | .key :: rest => do
      let (key, r) ← nodeUnless handles fuel (fun l => valueFollows l || mappingEnds l) .flow
        (r.withRest rest)
      let (value, r) ← entryValue handles fuel mappingEnds .flow r
      let (entries, r) ← flowMapping handles fuel false r
      return ((key, value) :: entries, r)
    | _ => do
      let (key, r) ← node handles fuel .flow r
      let (value, r) := r.addNode .empty
      let (entries, r) ← flowMapping handles fuel false r
      return ((key, value) :: entries, r)

end

/-- The directives in front of a document: at most one version, of the first edition, and no handle
twice. -/
def directives (hasVersion : Bool) (handles : Handles) : List Token →
    Result (Handles × List Token)
  | .broken e :: _ => .error e
  | .directive (.version major) :: rest =>
    if hasVersion || major ≠ 1 then .error .malformed else directives true handles rest
  | .directive (.tagHandle handle expansion) :: rest =>
    if (handles.lookup handle).isSome then .error .malformed
    else directives hasVersion ((handle, expansion) :: handles) rest
  | .directive .other :: rest => directives hasVersion handles rest
  | rest => .ok (handles, rest)

/-- Checks that nothing but ends of documents is left. What else there is has to start like a
document, and is one too many. -/
def checkEnd : List Token → Result Unit
  | [] => .ok ()
  | .documentEnd :: rest => checkEnd rest
  | rest =>
    match directives false [] rest with
    | .error e => .error e
    | .ok (_, .broken e :: _) => .error e
    | .ok _ => .error .malformed

/-- Whether a document that has been started explicitly is empty. -/
def isEmptyDocument : List Token → Bool
  | [] | .directive _ :: _ | .documentStart :: _ | .documentEnd :: _ => true
  | _ => false

/-- The graph and the root of a document, behind which there is nothing more. -/
def root (depth : Nat) (handles : Handles) (tokens : List Token) : Result (Graph × NodeId) := do
  let (id, r) ← node handles (8 * tokens.length + 8) .block ⟨.empty, [], depth, tokens⟩
  checkEnd r.rest
  return (r.graph, id)

/-- A document behind its directives and its start sign. -/
def explicitDocument (depth : Nat) (tokens : List Token) : Result (Graph × NodeId) := do
  match ← directives false [] tokens with
  | (handles, .documentStart :: rest) =>
    if isEmptyDocument rest then
      checkEnd rest
      return (Graph.empty.add .empty, 0)
    else root depth (handles ++ standardHandles) rest
  | (_, .broken e :: _) => .error e
  | _ => .error .malformed

/-- The one document of some tokens; there is none if there are no tokens. At most so many
collections stand inside each other. -/
def document (depth : Nat) (tokens : List Token) : Result (Option (Graph × NodeId)) :=
  match tokens with
  | [] => .ok none
  | .broken e :: _ => .error e
  | .directive _ :: _ | .documentStart :: _ => (explicitDocument depth tokens).map some
  | _ => (root depth standardHandles tokens).map some

end Reading

end CodeSurvey.Yaml
