import CodeSurvey.Metric.Decision
import CodeSurvey.Source.Routine

/-!
# Call graph

Which function of a text calls which. A call is a name with an opening bracket behind it; a name
declared twice is one node, of its first declaration. Pairs of functions are looked at one after the
other; a call that is found goes into the links and into the lists of both its ends.
-/

namespace CodeSurvey

/-- A call of a function of this name. -/
def callPattern (name : Text) : Pattern :=
  .notBehind [Pattern.isScriptNameRest] ++ .text name ++ Pattern.blanks ++ Pattern.lit "("

/-- The first routine of each name, in order. -/
def Routine.firsts : List Routine → List Routine
  | [] => []
  | r :: rest => r :: (firsts rest).filter (·.name ≠ r.name)

/-- A function and how complex its body is. -/
structure CallNode where
  name : Text
  complexity : Nat
deriving DecidableEq, Repr

/-- A function that calls another one. -/
structure CallLink where
  caller : Text
  callee : Text
  distinct : caller ≠ callee

/-- A link from a name to itself, which is not allowed. -/
structure SelfLink where
  name : Text
deriving DecidableEq, Repr

/-- The message for a link from a name to itself. -/
def SelfLink.message (e : SelfLink) : Text :=
  "Self edge not allowed: ".toList ++ e.name

namespace CallLink

/-- The link between two names, which have to be different. -/
def of (caller callee : Text) : Except SelfLink CallLink :=
  if h : caller = callee then .error ⟨caller⟩ else .ok ⟨caller, callee, h⟩

/-- A link as a document. -/
def toJson (l : CallLink) : Json :=
  .obj [("source", .text l.caller), ("target", .text l.callee)]

end CallLink

/-- What a function calls, and what calls it. -/
structure CallLists where
  calls : List Text
  calledBy : List Text
deriving DecidableEq, Repr

/-- A call graph: its nodes, its links, and the lists of each node. -/
structure CallGraph where
  nodes : List CallNode
  links : List CallLink
  dependencies : List (Text × CallLists)

namespace CallGraph

/-- Some nodes without any link. -/
def ofNodes (nodes : List CallNode) : CallGraph :=
  ⟨nodes, [], nodes.map fun n => (n.name, ⟨[], []⟩)⟩

/-- The lists of all nodes, with those of one name changed. -/
def adjust (name : Text) (change : CallLists → CallLists) (lists : List (Text × CallLists)) :
    List (Text × CallLists) :=
  lists.map fun d => if d.1 = name then (d.1, change d.2) else d

/-- The graph with one more link, which both its ends take note of. -/
def withLink (g : CallGraph) (l : CallLink) : CallGraph :=
  let calling := adjust l.caller (fun d => { d with calls := d.calls ++ [l.callee] }) g.dependencies
  { g with
    links := g.links ++ [l]
    dependencies :=
      adjust l.callee (fun d => { d with calledBy := d.calledBy ++ [l.caller] }) calling }

/-- The graph after a look for calls of a routine in the body of another one. A routine of the same
name is passed over. -/
def visit (t : Text) (g : CallGraph) (caller callee : Routine) : Except SelfLink CallGraph :=
  if caller.name = callee.name then .ok g
  else if (callPattern callee.name).foundIn (caller.body t) then
    (CallLink.of caller.name callee.name).map g.withLink
  else .ok g

/-- The graph after a look at some pairs of routines. -/
def visitAll (t : Text) (g : CallGraph) : List (Routine × Routine) → Except SelfLink CallGraph
  | [] => .ok g
  | pair :: rest =>
    match g.visit t pair.1 pair.2 with
    | .error e => .error e
    | .ok g => g.visitAll t rest

/-- The call graph of a text, or the error of a link from a name to itself. -/
def build (language : Language) (t : Text) : Except SelfLink CallGraph :=
  let routines := Routine.firsts (Routine.scan language t)
  (ofNodes (routines.map fun r => ⟨r.name, language.cyclomatic (r.body t)⟩)).visitAll t
    (routines.flatMap fun caller => routines.map (caller, ·))

/-- **What a look at two routines can do**: it leaves the graph as it is, or finds a call between
two names and adds their link. A link from a name to itself is never asked for. -/
theorem visit_cases (t : Text) (g : CallGraph) (caller callee : Routine) :
    let found := (callPattern callee.name).foundIn (caller.body t)
    ((caller.name = callee.name ∨ found = false) ∧ g.visit t caller callee = .ok g) ∨
      ∃ distinct : caller.name ≠ callee.name, found = true ∧
        g.visit t caller callee = .ok (g.withLink ⟨caller.name, callee.name, distinct⟩) := by
  intro found
  unfold visit CallLink.of
  by_cases hname : caller.name = callee.name
  · exact .inl ⟨.inl hname, if_pos hname⟩
  · rw [if_neg hname, dif_neg hname]
    by_cases hfound : found = true
    · exact .inr ⟨hname, hfound, if_pos hfound⟩
    · exact .inl ⟨.inr (Bool.not_eq_true _ ▸ hfound), if_neg hfound⟩

/-- A look at some pairs gives a graph with the same nodes. -/
theorem visitAll_nodes (t : Text) (g : CallGraph) (pairs : List (Routine × Routine)) :
    ∃ g', g.visitAll t pairs = .ok g' ∧ g'.nodes = g.nodes := by
  induction pairs generalizing g with
  | nil => exact ⟨g, rfl, rfl⟩
  | cons pair rest ih =>
    rw [visitAll]
    rcases visit_cases t g pair.1 pair.2 with ⟨-, hvisit⟩ | ⟨distinct, -, hvisit⟩
    · rw [hvisit]
      exact ih g
    · rw [hvisit]
      exact ih (g.withLink ⟨pair.1.name, pair.2.name, distinct⟩)

/-- **Every text has a call graph**: the error of a link is never reached. -/
theorem build_isOk (language : Language) (t : Text) : ∃ g, build language t = .ok g := by
  obtain ⟨g, hg, -⟩ := visitAll_nodes t _ _
  exact ⟨g, hg⟩

/-- The call graph of a text. -/
def ofText (language : Language) (t : Text) : CallGraph :=
  match h : build language t with
  | .ok g => g
  | .error e => absurd (build_isOk language t) (by simp [h])

theorem build_eq (language : Language) (t : Text) :
    build language t = .ok (ofText language t) := by
  unfold ofText
  split
  · assumption
  · rename_i e h
    obtain ⟨g, hg⟩ := build_isOk language t
    rw [h] at hg
    cases hg

theorem nodes_ofText (language : Language) (t : Text) :
    (ofText language t).nodes = (Routine.firsts (Routine.scan language t)).map
      fun r => ⟨r.name, language.cyclomatic (r.body t)⟩ := by
  obtain ⟨g, hg, hnodes⟩ := visitAll_nodes t _ _
  have hsame := hg.symm.trans (build_eq language t)
  rw [← Except.ok.inj hsame, hnodes]
  rfl

/-- The call graph as a document. -/
def toJson (g : CallGraph) : Json :=
  .obj [("nodes", .arr (g.nodes.map fun n =>
      .obj [("id", .text n.name), ("complexity", .nat n.complexity)])),
    ("links", .arr (g.links.map CallLink.toJson)),
    ("dependencies", .obj (g.dependencies.map fun d =>
      (String.ofList d.1, .obj [("calls", .texts d.2.calls), ("calledBy", .texts d.2.calledBy)])))]

end CallGraph

end CodeSurvey
