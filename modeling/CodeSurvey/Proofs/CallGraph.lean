import Mathlib.Data.List.ProdSigma
import Mathlib.Data.List.Nodup
import CodeSurvey.Proofs.Pattern.Stops
import CodeSurvey.Proofs.Session.Agreement
import CodeSurvey.Proofs.Text.NameChars

/-!
# The call graph is the call relation

A call graph shows the same relation three times: as links, as the list of what each function calls, and
as the list of what calls it. The relation itself can be told without the graph: a name stands somewhere
in the body of a function, as a word of its own, with an opening bracket behind it.

* `CallSite`: a text calls a function of a name. `callPattern_foundIn`: the pattern finds just these.
* `Routine.mem_firsts_iff`: the routines of the graph are the first ones of their names.
* `CallGraph.IsView`: the lists of the nodes are views of the links. `IsView.withLink`: one more link keeps
  it so. `CallGraph.visitAll_spec`: so does a look at all pairs.
* `CallGraph.pairs`, `CallGraph.mem_pairs_iff`, `CallGraph.pairs_sublist`: the links as pairs of names, in
  the order of all pairs of nodes.
* `CallGraph.callees_sublist`, `CallGraph.callers_sublist`: the two lists of a node are in node order.
* `Session.dependencyGraph_shows_calls`: what the tool answers, for every text.
-/

namespace CodeSurvey

/-! ## Calls in a text -/

/-- **A call of a function**: its name, which does not go on to the left, then blanks and an opening
bracket. -/
def CallSite (name t : Text) : Prop :=
  ∃ before blanks after, t = before ++ name ++ blanks ++ '(' :: after ∧
    (∀ c ∈ before.getLast?, Text.isWord c = false ∧ c ≠ '$') ∧ ∀ c ∈ blanks, Text.isBlank c = true

/-- Where the pattern of a call has an outcome: the name does not go on to the left, and blanks and the
bracket are behind it. -/
theorem exists_outcome_callPattern_iff (limit : Nat) (name : Text) (r : Reading) :
    (∃ s, s ∈ (callPattern name).outcomes limit r) ↔
      r.cursor.follows [Pattern.isScriptNameRest] = false ∧
        ∃ blanks after, r.cursor.after = name ++ blanks ++ '(' :: after ∧
          ∀ c ∈ blanks, Text.isBlank c = true := by
  unfold callPattern
  constructor
  · rintro ⟨s, hs⟩
    -- the test comes first, and lets through what it is given
    have htest : r.cursor.follows [Pattern.isScriptNameRest] = false := by
      by_contra hfollows
      rw [Bool.not_eq_false] at hfollows
      simp only [Pattern.outcomes_append, Pattern.outcomes, List.reverse_singleton, hfollows,
        if_true, List.flatMap_nil, List.not_mem_nil] at hs
    obtain ⟨x, hx, hafter⟩ := Pattern.exists_spelled _ r s hs
    obtain ⟨_, _, ⟨_, blanks, ⟨_, _, rfl, rfl, rfl⟩, hblanks, rfl⟩, rfl, rfl⟩ := hx
    refine ⟨htest, blanks, s.cursor.after, ?_, hblanks⟩
    rw [hafter]
    simp
  · rintro ⟨htest, blanks, after, hafter, hblanks⟩
    have hstart : Pattern.First limit (.notBehind [Pattern.isScriptNameRest]) r r := by
      unfold Pattern.First
      rw [Pattern.outcomes, List.reverse_singleton, htest]
      rfl
    have hname : r.cursor.after = name ++ (blanks ++ '(' :: after) := by
      rw [hafter, List.append_assoc]
    have hspan : Pattern.First limit Pattern.blanks (r.past name) ((r.past name).past blanks) := by
      refine Pattern.First.span limit (Reading.past_after hname) hblanks ?_
      rintro c ⟨⟩
      decide
    have hrest := Reading.past_after (Reading.past_after hname)
    have hbracket : Pattern.First limit (Pattern.lit "(") ((r.past name).past blanks)
        (((r.past name).past blanks).past ['(']) :=
      Pattern.First.lit limit (show _ = ['('] ++ after from hrest) rfl
    have hall := ((hstart.seq (Pattern.First.text limit hname)).seq hspan).seq hbracket
    exact ⟨_, List.mem_of_mem_head? hall⟩

/-- **The pattern finds the calls.** -/
theorem callPattern_foundIn (name t : Text) :
    (callPattern name).foundIn t = true ↔ CallSite name t := by
  rw [Pattern.foundIn_iff]
  simp only [exists_outcome_callPattern_iff, Cursor.follows_singleton, Pattern.not_isScriptNameRest_iff,
    Cursor.ofPlace_before, Cursor.ofPlace_after, List.head?_reverse]
  constructor
  · rintro ⟨k, -, hbefore, blanks, after, hafter, hblanks⟩
    refine ⟨t.take k, blanks, after, ?_, hbefore, hblanks⟩
    rw [List.append_assoc, List.append_assoc, ← List.append_assoc name, ← hafter,
      List.take_append_drop]
  · rintro ⟨before, blanks, after, rfl, hbefore, hblanks⟩
    refine ⟨before.length, by simp only [List.length_append]; omega, ?_, blanks, after, ?_, hblanks⟩
    · rw [List.append_assoc, List.append_assoc, List.take_left]
      exact hbefore
    · rw [List.append_assoc, List.append_assoc, List.drop_left, ← List.append_assoc name]

/-! ## Routines -/

/-- **The routines of the graph are the first ones of their names.** -/
theorem Routine.mem_firsts_iff (l : List Routine) (r : Routine) :
    r ∈ firsts l ↔ l.find? (·.name = r.name) = some r := by
  induction l with
  | nil => simp [firsts]
  | cons x rest ih =>
    rw [firsts, List.mem_cons, List.mem_filter, ih, List.find?_cons]
    by_cases hname : x.name = r.name
    · simp [hname, eq_comm]
    · have hne : r ≠ x := by
        rintro rfl
        exact hname rfl
      simp [hname, hne, Ne.symm hname]

theorem Routine.nodup_names_firsts (l : List Routine) : ((firsts l).map (·.name)).Nodup := by
  induction l with
  | nil => exact List.nodup_nil
  | cons r rest ih =>
    rw [firsts, List.map_cons, List.nodup_cons]
    refine ⟨?_, (ih.sublist (List.filter_sublist.map _))⟩
    intro hmem
    obtain ⟨x, hx, hname⟩ := List.mem_map.1 hmem
    exact absurd hname (by simpa using (List.mem_filter.1 hx).2)

/-! ## Pairs of a product -/

section Product

variable {α : Type} [DecidableEq α]

/-- The second parts of the pairs with a given first part, in order. -/
theorem map_snd_filter_product (l m : List α) (hl : l.Nodup) (a : α) :
    (((l ×ˢ m).filter (·.1 = a)).map Prod.snd).Sublist m := by
  induction l with
  | nil => exact List.nil_sublist m
  | cons x l ih =>
    obtain ⟨hx, hl⟩ := List.nodup_cons.1 hl
    rw [List.product_cons, List.filter_append, List.map_append]
    by_cases hxa : x = a
    · -- only the row of `a` is left
      have hrow : ((m.map (x, ·)).filter (·.1 = a)).map Prod.snd = m := by
        simp [List.filter_map, Function.comp_def, hxa]
      have hrest : (l ×ˢ m).filter (·.1 = a) = [] := by
        rw [List.filter_eq_nil_iff]
        intro p hp
        have hfst := (List.mem_product.1 hp).1
        simpa using fun h : p.1 = a => hx (hxa ▸ h ▸ hfst)
      rw [hrow, hrest, List.map_nil, List.append_nil]
    · have hrow : (m.map (x, ·)).filter (·.1 = a) = [] := by
        simp [List.filter_eq_nil_iff, hxa]
      rw [hrow, List.map_nil, List.nil_append]
      exact ih hl

/-- The first parts of the pairs with a given second part, in order. -/
theorem map_fst_filter_product (l m : List α) (hm : m.Nodup) (b : α) :
    (((l ×ˢ m).filter (·.2 = b)).map Prod.fst).Sublist l := by
  induction l with
  | nil => exact List.Sublist.refl []
  | cons x l ih =>
    rw [List.product_cons, List.filter_append, List.map_append]
    -- a row has at most one pair with this second part
    have hrow : ((m.map (x, ·)).filter (·.2 = b)).map Prod.fst = List.replicate (m.count b) x := by
      simp only [List.filter_map, Function.comp_def, List.filter_eq,
        List.map_replicate]
    rw [hrow]
    have hone : (List.replicate (m.count b) x).Sublist [x] :=
      (List.replicate_sublist_replicate x).2 (List.nodup_iff_count_le_one.1 hm b)
    exact hone.append ih

end Product

/-! ## Graphs -/

namespace CallGraph

/-- The links as pairs of names. -/
def pairs (g : CallGraph) : List (Text × Text) :=
  g.links.map fun l => (l.caller, l.callee)

/-- The names of the nodes. -/
def names (g : CallGraph) : List Text :=
  g.nodes.map (·.name)

/-- What the links from a name lead to. -/
def callees (g : CallGraph) (name : Text) : List Text :=
  (g.pairs.filter (·.1 = name)).map Prod.snd

/-- Where the links to a name come from. -/
def callers (g : CallGraph) (name : Text) : List Text :=
  (g.pairs.filter (·.2 = name)).map Prod.fst

theorem mem_callees_iff (g : CallGraph) (a b : Text) : b ∈ g.callees a ↔ (a, b) ∈ g.pairs := by
  unfold callees
  simp

theorem mem_callers_iff (g : CallGraph) (a b : Text) : a ∈ g.callers b ↔ (a, b) ∈ g.pairs := by
  unfold callers
  simp

/-- **The lists of the nodes are views of the links**: what a node calls and what calls it, in the order
of the links. -/
def IsView (g : CallGraph) : Prop :=
  g.dependencies = g.names.map fun a => (a, ⟨g.callees a, g.callers a⟩)

theorem IsView.ofNodes (nodes : List CallNode) : (ofNodes nodes).IsView := by
  unfold IsView names CallGraph.ofNodes
  rw [List.map_map]
  rfl

section Link

variable {g : CallGraph} {l : CallLink}

theorem pairs_withLink : (g.withLink l).pairs = g.pairs ++ [(l.caller, l.callee)] := by
  unfold pairs withLink
  rw [List.map_append]
  rfl

theorem callees_withLink (a : Text) :
    (g.withLink l).callees a = g.callees a ++ if a = l.caller then [l.callee] else [] := by
  unfold callees
  rw [pairs_withLink, List.filter_append, List.map_append]
  by_cases ha : a = l.caller
  · simp [ha]
  · simp [ha, Ne.symm ha]

theorem callers_withLink (a : Text) :
    (g.withLink l).callers a = g.callers a ++ if a = l.callee then [l.caller] else [] := by
  unfold callers
  rw [pairs_withLink, List.filter_append, List.map_append]
  by_cases ha : a = l.callee
  · simp [ha]
  · simp [ha, Ne.symm ha]

/-- One more link goes into the lists of both its ends. -/
theorem IsView.withLink (h : g.IsView) : (g.withLink l).IsView := by
  have hlists : (g.withLink l).dependencies = g.dependencies.map fun d =>
      (d.1, ⟨d.2.calls ++ if d.1 = l.caller then [l.callee] else [],
        d.2.calledBy ++ if d.1 = l.callee then [l.caller] else []⟩) := by
    simp only [CallGraph.withLink, adjust, List.map_map]
    refine List.map_congr_left fun d _ => ?_
    by_cases hcaller : d.1 = l.caller <;> by_cases hcallee : d.1 = l.callee <;>
      simp [hcaller, hcallee, l.distinct, l.distinct.symm]
  unfold IsView
  rw [hlists, h, List.map_map]
  refine List.map_congr_left fun a _ => ?_
  rw [callees_withLink, callers_withLink]
  rfl

end Link

/-- Whether the first routine has a call of the second one. -/
def linked (t : Text) (caller callee : Routine) : Bool :=
  caller.name ≠ callee.name && (callPattern callee.name).foundIn (caller.body t)

/-- **A look at some pairs** adds the links of those that are linked, in order, and the lists stay views
of the links. -/
theorem visitAll_spec {t : Text} {g g' : CallGraph} {looked : List (Routine × Routine)}
    (h : g.visitAll t looked = .ok g') (hview : g.IsView) :
    g'.IsView ∧ g'.pairs = g.pairs ++ (looked.filter fun p => linked t p.1 p.2).map
      fun p => (p.1.name, p.2.name) := by
  induction looked generalizing g with
  | nil =>
    obtain rfl := Except.ok.inj h
    exact ⟨hview, (List.append_nil _).symm⟩
  | cons pair rest ih =>
    rw [visitAll] at h
    rcases visit_cases t g pair.1 pair.2 with ⟨hnone, hvisit⟩ | ⟨distinct, hfound, hvisit⟩
    · have hlinked : linked t pair.1 pair.2 = false := by
        unfold linked
        rcases hnone with hname | hfound
        · simp [hname]
        · simp [hfound]
      rw [hvisit] at h
      rw [List.filter_cons, if_neg (by simp [hlinked])]
      exact ih h hview
    · have hlinked : linked t pair.1 pair.2 = true := by
        unfold linked
        simp [distinct, hfound]
      rw [hvisit] at h
      obtain ⟨hview', hpairs⟩ := ih h hview.withLink
      refine ⟨hview', ?_⟩
      rw [hpairs, pairs_withLink, List.filter_cons, if_pos hlinked, List.map_cons, List.append_assoc]
      rfl

variable {language : Language} {t : Text}

/-- **The links are the pairs of nodes that are linked**, in the order of all pairs, and the lists of the
nodes are views of them. -/
theorem ofText_spec (language : Language) (t : Text) :
    let routines := Routine.firsts (Routine.scan language t)
    (ofText language t).IsView ∧
      (ofText language t).pairs = ((routines ×ˢ routines).filter fun p => linked t p.1 p.2).map
        fun p => (p.1.name, p.2.name) :=
  visitAll_spec (build_eq language t) (IsView.ofNodes _)

theorem names_ofText (language : Language) (t : Text) :
    (ofText language t).names = (Routine.firsts (Routine.scan language t)).map (·.name) := by
  unfold names
  rw [nodes_ofText, List.map_map]
  rfl

theorem nodup_names : (ofText language t).names.Nodup := by
  rw [names_ofText]
  exact Routine.nodup_names_firsts _

/-- **There is a link if and only if the body of the first function of a name has a call of the other
one.** -/
theorem mem_pairs_iff (a b : Text) : (a, b) ∈ (ofText language t).pairs ↔
    a ∈ (ofText language t).names ∧ b ∈ (ofText language t).names ∧ a ≠ b ∧
      ∃ r, (Routine.scan language t).find? (·.name = a) = some r ∧ CallSite b (r.body t) := by
  rw [(ofText_spec language t).2, names_ofText]
  simp only [List.mem_map, List.mem_filter, Prod.exists, Prod.mk.injEq, List.mem_product, linked,
    Bool.and_eq_true, decide_eq_true_eq, callPattern_foundIn]
  constructor
  · rintro ⟨r, q, ⟨⟨hr, hq⟩, hne, hcall⟩, rfl, rfl⟩
    exact ⟨⟨r, hr, rfl⟩, ⟨q, hq, rfl⟩, hne, r, (Routine.mem_firsts_iff _ r).1 hr, hcall⟩
  · rintro ⟨-, ⟨q, hq, rfl⟩, hne, r, hr, hcall⟩
    obtain rfl : r.name = a := by simpa using List.find?_some hr
    exact ⟨r, q, ⟨⟨(Routine.mem_firsts_iff _ r).2 hr, hq⟩, hne, hcall⟩, rfl, rfl⟩

/-- The links stand in the order of all pairs of nodes. -/
theorem pairs_sublist : (ofText language t).pairs.Sublist
    ((ofText language t).names ×ˢ (ofText language t).names) := by
  have hmap : ∀ l m : List Routine, (l ×ˢ m).map (fun p => (p.1.name, p.2.name))
      = l.map (·.name) ×ˢ m.map (·.name) := by
    intro l m
    induction l with
    | nil => rfl
    | cons r l ih =>
      rw [List.product_cons, List.map_append, ih, List.map_cons, List.product_cons, List.map_map,
        List.map_map]
      rfl
  rw [(ofText_spec language t).2, names_ofText, ← hmap]
  exact List.filter_sublist.map _

theorem nodup_pairs : (ofText language t).pairs.Nodup :=
  (nodup_names.product nodup_names).sublist pairs_sublist

/-- What a function calls stands in the order of the nodes. -/
theorem callees_sublist (a : Text) :
    ((ofText language t).callees a).Sublist (ofText language t).names :=
  ((pairs_sublist.filter _).map _).trans (map_snd_filter_product _ _ nodup_names a)

/-- So does what calls it. -/
theorem callers_sublist (b : Text) :
    ((ofText language t).callers b).Sublist (ofText language t).names :=
  ((pairs_sublist.filter _).map _).trans (map_fst_filter_product _ _ nodup_names b)

end CallGraph

/-! ## Documents -/

/-- **A call graph as a document** shows its nodes, its links, and for each node what it calls and what
calls it. -/
structure Json.ShowsGraph (j : Json) (names : List Text) (pairs : List (Text × Text))
    (calls calledBy : Text → List Text) : Prop where
  nodes : j.HasNodes names
  links : ∃ items, j.field "links" = .arr items ∧
    items.map (fun l => (l.field "source", l.field "target"))
      = pairs.map fun p => (.text p.1, .text p.2)
  dependencies : j.field "dependencies" = .obj (names.map fun a =>
    (String.ofList a, .obj [("calls", .texts (calls a)), ("calledBy", .texts (calledBy a))]))

theorem CallGraph.IsView.showsGraph {g : CallGraph} (h : g.IsView) :
    g.toJson.ShowsGraph g.names g.pairs g.callees g.callers := by
  have hlists : g.toJson.field "dependencies" = .obj (g.dependencies.map fun d =>
      (String.ofList d.1, .obj [("calls", .texts d.2.calls), ("calledBy", .texts d.2.calledBy)])) := rfl
  refine ⟨⟨_, rfl, ?_⟩, ⟨_, rfl, ?_⟩, ?_⟩
  · rw [names, List.map_map, List.map_map]
    rfl
  · rw [pairs, List.map_map, List.map_map]
    rfl
  · rw [hlists, h, List.map_map]
    rfl

namespace Session

variable {language : Language} {spelling : String}

/-- The graph does not go through the cache. -/
theorem answerOn_dependencyGraph (s : Session) (code : String)
    (hl : Language.resolve? spelling.toList = some language) :
    s.answerOn code spelling .dependencyGraph
      = .ok (CallGraph.ofText language code.toList).toJson := by
  have hresult : ToolCall.result s.config ⟨.dependencyGraph, .str code, .str spelling, .null, .null⟩
      = .ok (.ofGraph language (CallGraph.ofText language code.toList)) := by
    simp only [ToolCall.result, ToolCall.resolvedLanguage, Argument.language, Language.resolve, hl,
      Except.mapError, ToolCall.checked, Argument.text]
    rfl
  unfold answerOn call
  simp only [Argument.length?, callDirectly, hresult]
  rfl

/-- **The dependency graph is exactly the call relation, and its three views agree.** For every text and
every spelling of a language the tool answers with a graph. Its nodes are the names of the functions, each
once and in the order in which they come up. There is a link between two different names exactly if the
body of the first function of the one name has a call of the other, and no link stands twice. What a
function calls and what calls it are the links seen from either end, in the order of the nodes. -/
theorem dependencyGraph_shows_calls (s : Session) (code : String)
    (hl : Language.resolve? spelling.toList = some language) :
    let routines := Routine.scan language code.toList
    let names := (routines.map (·.name)).eraseDups
    ∃ j pairs calls calledBy, s.answerOn code spelling .dependencyGraph = .ok j ∧
      j.ShowsGraph names pairs calls calledBy ∧ names.Nodup ∧ pairs.Nodup ∧
      (∀ a b, (a, b) ∈ pairs ↔ a ∈ names ∧ b ∈ names ∧ a ≠ b ∧
        ∃ r, routines.find? (·.name = a) = some r ∧ CallSite b (r.body code.toList)) ∧
      ∀ a, (calls a).Sublist names ∧ (calledBy a).Sublist names ∧
        ∀ b, (b ∈ calls a ↔ (a, b) ∈ pairs) ∧ (b ∈ calledBy a ↔ (b, a) ∈ pairs) := by
  intro routines names
  have hnames : (CallGraph.ofText language code.toList).names = names := by
    rw [CallGraph.names_ofText, Routine.map_name_firsts]
  refine ⟨_, _, _, _, s.answerOn_dependencyGraph code hl,
    hnames ▸ (CallGraph.ofText_spec language code.toList).1.showsGraph, hnames ▸ CallGraph.nodup_names,
    CallGraph.nodup_pairs, hnames ▸ CallGraph.mem_pairs_iff, fun a => ⟨?_, ?_, fun b => ⟨?_, ?_⟩⟩⟩
  · exact hnames ▸ CallGraph.callees_sublist a
  · exact hnames ▸ CallGraph.callers_sublist a
  · exact CallGraph.mem_callees_iff _ a b
  · exact CallGraph.mem_callers_iff _ b a

/-- A name is called with a blank behind it, and not as the end of a longer name. -/
theorem dependencyGraph_shows_calls_apart :
    let code := "function f() { g (1); }\nfunction g() { $f(); }\n"
    ∃ j pairs calls calledBy, initial.answerOn code "js" .dependencyGraph = .ok j ∧
      j.ShowsGraph ["f".toList, "g".toList] pairs calls calledBy ∧
      ("f".toList, "g".toList) ∈ pairs ∧ "f".toList ∈ calledBy "g".toList ∧
      ("g".toList, "f".toList) ∉ pairs := by
  intro code
  have hl : Language.resolve? "js".toList = some .javascript := by decide +kernel
  obtain ⟨j, pairs, calls, calledBy, hanswer, hshows, -, -, hpairs, hlists⟩ :=
    dependencyGraph_shows_calls initial code hl
  have hnames : ((Routine.scan .javascript code.toList).map (·.name)).eraseDups
      = ["f".toList, "g".toList] := by decide +kernel
  have hbody : ∀ f ∈ [("f", " g (1); "), ("g", " $f(); ")],
      ((Routine.scan .javascript code.toList).find? (·.name = f.1.toList)).map (·.body code.toList)
        = some f.2.toList := by decide +kernel
  rw [hnames] at hshows hpairs
  have hlink : ("f".toList, "g".toList) ∈ pairs := by
    obtain ⟨r, hr, hr'⟩ := Option.map_eq_some_iff.1 (hbody ("f", " g (1); ") (by simp))
    refine (hpairs _ _).2 ⟨by simp, by simp, by decide, r, hr, ?_⟩
    rw [hr', ← callPattern_foundIn]
    decide +kernel
  refine ⟨j, pairs, calls, calledBy, hanswer, hshows, hlink, (((hlists _).2.2 _).2).2 hlink, ?_⟩
  intro hmem
  obtain ⟨-, -, -, r, hr, hcall⟩ := (hpairs _ _).1 hmem
  obtain ⟨r', hr₁, hr₂⟩ := Option.map_eq_some_iff.1 (hbody ("g", " $f(); ") (by simp))
  obtain rfl : r' = r := Option.some.inj (hr₁.symm.trans hr)
  rw [hr₂, ← callPattern_foundIn] at hcall
  have hnone : (callPattern "f".toList).foundIn " $f(); ".toList = false := by decide +kernel
  rw [hnone] at hcall
  cases hcall

end Session

end CodeSurvey
