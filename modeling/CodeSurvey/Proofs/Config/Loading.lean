import CodeSurvey.Proofs.Config.Validation
import CodeSurvey.Server.FileTree

/-!
# What comes of a configuration file

A path leads to a configuration whose numbers are the validated ones and not below their bounds, or to
an error that names the path. There is a third end: the reader of the file may raise something that is
neither an error of the format nor one of the system, and nobody catches it. All of this holds of every
loader that is as expected.

* `Config.standard_allowed`: the standard value of every field is allowed.
* `Loader.Ends`, `Config.load_ends`: what loading does, case by case.
* `Config.load_eq_ok_iff`, `Config.load_eq_escaped_iff`: when a configuration is loaded, and when an
  exception escapes.
* `Config.load_cases`: the ends of loading what stands at a path.
* `Config.load_impossible_date`: a file that is not rejected although its date does not exist.
-/

namespace CodeSurvey

namespace Loader

/-- A dictionary of named entries is what a loader reads in a file, to the end of the file. -/
def Holds (loader : Loader) (state : FileState) (entries : List (Symbols × loader.Value)) : Prop :=
  ∃ content, state = .file ⟨content, none⟩ ∧
    loader.read ⟨Text.withLineFeeds content, none⟩ =
      .ok (.dictionary (entries.map fun e => (.text e.1, e.2)))

/-- Reading a file raises an exception that is neither an error of the format nor of the system. -/
def Raises (loader : Loader) (state : FileState) (e : Raised) : Prop :=
  ∃ stream, state = .file stream ∧ loader.read stream.withLineFeeds = .error (.other e)

/-- **Why what stands at a path is no configuration.** -/
inductive Rejects (loader : Loader) : FileState → ConfigFault → Prop where
  | missing : Rejects loader .missing .missing
  | directory : Rejects loader .directory .notFile
  | device : Rejects loader .device .notFile
  | closed (message : Text) : Rejects loader (.closed message) (.unreadable message)
  | malformed {stream : Stream} {message : Text}
      (h : loader.read stream.withLineFeeds = .error (.malformed message)) :
      Rejects loader (.file stream) (.malformed message)
  | system {stream : Stream} {message : Text}
      (h : loader.read stream.withLineFeeds = .error (.system message)) :
      Rejects loader (.file stream) (.unreadable message)
  | empty {stream : Stream} (h : loader.read stream.withLineFeeds = .ok .nothing) :
      Rejects loader (.file stream) .empty
  | notDictionary {stream : Stream} (h : loader.read stream.withLineFeeds = .ok .other) :
      Rejects loader (.file stream) .notDictionary
  | keyNotText {stream : Stream} {entries : List (Key × loader.Value)} {value : loader.Value}
      (h : loader.read stream.withLineFeeds = .ok (.dictionary entries))
      (hkey : (.other, value) ∈ entries) : Rejects loader (.file stream) .keyNotText
  | invalid {state : FileState} {entries : List (Symbols × loader.Value)} {r : Rejection}
      (h : loader.Holds state entries) (hr : loader.validate Config.fields entries = .error r) :
      Rejects loader state (.invalid r)

/-- **What can come of what stands at a path.** -/
inductive Ends (loader : Loader) (state : FileState) (path : Text) :
    Except LoadFailure Config → Prop where
  | loaded {c : Config} {entries : List (Symbols × loader.Value)} (h : loader.Holds state entries)
      (hvalues : loader.validate Config.fields entries = .ok c.toValues) :
      Ends loader state path (.ok c)
  | escaped {e : Raised} (h : loader.Raises state e) : Ends loader state path (.error (.escaped e))
  | rejected {fault : ConfigFault} (h : loader.Rejects state fault) :
      Ends loader state path (.error (.rejected path fault))

variable {loader : Loader}

/-- A file that is read has been read to its end. -/
theorem Lawful.fault_eq_none (hlawful : loader.Lawful) {stream : Stream}
    {loaded : Loaded loader.Value} (h : loader.read stream = .ok loaded) : stream.fault = none := by
  obtain ⟨content, fault⟩ := stream
  cases fault with
  | none => rfl
  | some fault =>
    rcases hlawful.read_fault content fault with hfault | ⟨e, he⟩
    · rw [hfault] at h
      cases h
    · rw [he fault] at h
      cases h

end Loader

namespace Config

variable {loader : Loader} {stateOf : Text → FileState} {path : Text} {c : Config}

section Entries

variable {ν : Type} {entries : List (Key × ν)} {named : List (Symbols × ν)}

theorem namedEntries?_map (named : List (Symbols × ν)) :
    namedEntries? (named.map fun e => (Key.text e.1, e.2)) = some named := by
  induction named with
  | nil => rfl
  | cons e rest ih => rw [List.map_cons, namedEntries?, ih, Option.map_some]

/-- The entries have names exactly if all keys are texts. -/
theorem eq_map_of_namedEntries? (h : namedEntries? entries = some named) :
    entries = named.map fun e => (Key.text e.1, e.2) := by
  induction entries generalizing named with
  | nil =>
    obtain rfl := Option.some.inj h
    rfl
  | cons e rest ih =>
    obtain ⟨key, value⟩ := e
    cases key with
    | other => cases h
    | text name =>
      rw [namedEntries?, Option.map_eq_some_iff] at h
      obtain ⟨more, hmore, rfl⟩ := h
      rw [List.map_cons, ← ih hmore]

theorem other_mem_of_namedEntries? (h : namedEntries? entries = none) :
    ∃ value, (Key.other, value) ∈ entries := by
  induction entries with
  | nil => cases h
  | cons e rest ih =>
    obtain ⟨key, value⟩ := e
    cases key with
    | other => exact ⟨value, List.mem_cons_self⟩
    | text name =>
      rw [namedEntries?, Option.map_eq_none_iff] at h
      obtain ⟨found, hfound⟩ := ih h
      exact ⟨found, List.mem_cons_of_mem _ hfound⟩

end Entries

/-- **The standard value of every field is allowed.** -/
theorem standard_allowed : ∀ f ∈ fields, f.kind.Allows f.kind.standardValue := by
  intro f hf
  simp only [fields, List.mem_cons, List.not_mem_nil, or_false] at hf
  rcases hf with rfl | rfl | rfl | rfl | rfl | rfl <;>
    simp [FieldKind.Allows, FieldKind.standardValue, standard]

/-- Validated values are allowed, whether they are given or not. -/
theorem allowed_of_validate (hlawful : loader.Lawful) {entries : List (Symbols × loader.Value)}
    {values : Values fields} (h : loader.validate fields entries = .ok values) :
    Values.All (fun f value => f.kind.Allows value) fields values := by
  have hgiven := hlawful.allowed fields entries values h
  have hstandard := hlawful.standard fields entries values h
  refine (hgiven.and hstandard).imp fun f hf value hvalue => ?_
  by_cases hf' : f.IsGiven entries
  · exact hvalue.1 hf'
  · rw [hvalue.2 hf']
    exact standard_allowed f hf

/-- No number is lost on the way into a configuration, since none is below zero. -/
theorem toValues_ofValues {values : Values fields}
    (h : Values.All (fun f value => f.kind.Allows value) fields values) :
    (ofValues values).toValues = values := by
  obtain ⟨cognitive, nesting, lines, parameters, length, rules, ⟨⟩⟩ := values
  obtain ⟨hcognitive, hnesting, hlines, hparameters, hlength, -⟩ := h
  simp only [FieldKind.Allows] at hcognitive hnesting hlines hparameters hlength
  unfold ofValues toValues
  have hn : ∀ n : Int, 0 ≤ n → ((n.toNat : Nat) : Int) = n := fun n => Int.toNat_of_nonneg
  rw [hn cognitive (by omega), hn nesting (by omega), hn lines (by omega),
    hn parameters (by omega), hn length (by omega)]

theorem ofValues_toValues (c : Config) : ofValues c.toValues = c := rfl

/-- A document that is read ends as a configuration, or is rejected for what it is. -/
theorem ends_of_read (hlawful : loader.Lawful) {stream : Stream} {loaded : Loaded loader.Value}
    (hread : loader.read stream.withLineFeeds = .ok loaded) :
    loader.Ends (.file stream) path (match ofLoaded loader loaded with
      | .ok config => .ok config
      | .error fault => .error (.rejected path fault)) := by
  cases loaded with
  | nothing => exact .rejected (.empty hread)
  | other => exact .rejected (.notDictionary hread)
  | dictionary raw =>
    cases hnamed : namedEntries? raw with
    | none =>
      obtain ⟨value, hkey⟩ := other_mem_of_namedEntries? hnamed
      simp only [ofLoaded, hnamed]
      exact .rejected (.keyNotText hread hkey)
    | some entries =>
      have hholds : loader.Holds (.file stream) entries := by
        have hfault := hlawful.fault_eq_none hread
        obtain ⟨content, fault⟩ := stream
        obtain rfl : fault = none := hfault
        rw [eq_map_of_namedEntries? hnamed] at hread
        exact ⟨content, rfl, hread⟩
      cases hvalidate : loader.validate fields entries with
      | error r =>
        simp only [ofLoaded, hnamed, ofEntries, hvalidate]
        exact .rejected (.invalid hholds hvalidate)
      | ok values =>
        simp only [ofLoaded, hnamed, ofEntries, hvalidate]
        refine .loaded hholds ?_
        rw [toValues_ofValues (allowed_of_validate hlawful hvalidate), hvalidate]

/-- **What loading does**, by what stands at the path and what the reader makes of it. -/
theorem load_ends (hlawful : loader.Lawful) (stateOf : Text → FileState) (path : Text) :
    loader.Ends (stateOf path) path (load loader stateOf path) := by
  unfold load
  cases stateOf path with
  | missing => exact .rejected .missing
  | directory => exact .rejected .directory
  | device => exact .rejected .device
  | closed message => exact .rejected (.closed message)
  | file stream =>
    cases hread : loader.read stream.withLineFeeds with
    | error fault =>
      simp only [hread]
      cases fault with
      | malformed message => exact .rejected (.malformed hread)
      | system message => exact .rejected (.system hread)
      | other e => exact .escaped ⟨stream, rfl, hread⟩
    | ok loaded =>
      simp only [hread]
      exact ends_of_read hlawful hread

/-- **When a configuration is loaded**: the file holds a dictionary with names for keys, and the
configuration has the values that its validation gives. -/
theorem load_eq_ok_iff (hlawful : loader.Lawful) :
    load loader stateOf path = .ok c ↔ ∃ entries, loader.Holds (stateOf path) entries ∧
      loader.validate fields entries = .ok c.toValues := by
  constructor
  · intro h
    have hends := load_ends hlawful stateOf path
    rw [h] at hends
    cases hends with
    | loaded hholds hvalues => exact ⟨_, hholds, hvalues⟩
  · rintro ⟨entries, ⟨content, hstate, hread⟩, hvalidate⟩
    unfold load
    rw [hstate]
    simp only [Stream.withLineFeeds, hread, ofLoaded, namedEntries?_map, ofEntries, hvalidate,
      ofValues_toValues]

/-- What the reader of a file raises besides errors of the format and of the system is not caught. -/
theorem load_of_raises {e : Raised} (h : loader.Raises (stateOf path) e) :
    load loader stateOf path = .error (.escaped e) := by
  obtain ⟨stream, hstate, hread⟩ := h
  unfold load
  simp only [hstate, hread]

/-- **When an exception escapes**: the reader of the file raises it. -/
theorem load_eq_escaped_iff (hlawful : loader.Lawful) {e : Raised} :
    load loader stateOf path = .error (.escaped e) ↔ loader.Raises (stateOf path) e := by
  refine ⟨fun h => ?_, load_of_raises⟩
  have hends := load_ends hlawful stateOf path
  rw [h] at hends
  cases hends with
  | escaped hraises => exact hraises

/-- **The ends of loading what stands at a path.** An exception escapes exactly if the reader of the
file raises one that is neither an error of the format nor one of the system, and there is a
configuration exactly if the file holds a dictionary whose validation gives its values. Without such
an exception there is a configuration, or an error with the path in its message. Every value of the
configuration is allowed, so no number is below its bound; those that the file does not give are the
standard ones, and the file gives nothing else. -/
theorem load_cases (hlawful : loader.Lawful) (stateOf : Text → FileState) (path : Text) :
    (∀ e, load loader stateOf path = .error (.escaped e) ↔ loader.Raises (stateOf path) e) ∧
    (∀ c, load loader stateOf path = .ok c ↔ ∃ entries, loader.Holds (stateOf path) entries ∧
      loader.validate fields entries = .ok c.toValues) ∧
    ((∃ e, loader.Raises (stateOf path) e) ∨
      (∃ c entries, load loader stateOf path = .ok c ∧ loader.Holds (stateOf path) entries ∧
        Values.All (fun f value => f.kind.Allows value) fields c.toValues ∧
        1 ≤ c.longFunctionLines ∧ 1 ≤ c.duplicateMinLength ∧
        Values.All (fun f value => ¬ f.IsGiven entries → value = f.kind.standardValue) fields
          c.toValues ∧
        ∀ e ∈ entries, ∃ f ∈ fields, e.1 = Symbols.ofText f.name.toList) ∨
      ∃ fault, load loader stateOf path = .error (.rejected path fault) ∧
        loader.Rejects (stateOf path) fault ∧
        (fault.toError path).message =
          "Invalid configuration at ".toList ++ path ++ ": ".toList ++ fault.reason) := by
  refine ⟨fun e => load_eq_escaped_iff hlawful, fun c => load_eq_ok_iff hlawful, ?_⟩
  have hends := load_ends hlawful stateOf path
  generalize load loader stateOf path = result at hends ⊢
  cases hends with
  | escaped h => exact .inl ⟨_, h⟩
  | @loaded c entries hholds hvalues =>
    have hallowed := allowed_of_validate hlawful hvalues
    have hlines : (1 : Int) ≤ c.longFunctionLines := hallowed.2.2.1
    have hlength : (1 : Int) ≤ c.duplicateMinLength := hallowed.2.2.2.2.1
    have hstandard := hlawful.standard fields entries _ hvalues
    have hdeclared := hlawful.declared fields entries _ hvalues
    refine .inr (.inl ⟨c, entries, rfl, hholds, hallowed, ?_, ?_, hstandard, hdeclared⟩)
    · omega
    · omega
  | rejected h => exact .inr (.inr ⟨_, rfl, h, rfl⟩)

section OneEntry

/-- The nodes of a dictionary with one key, whose value is a plain one. -/
def oneEntry (name : Text) (kind : Yaml.Kind) (value : Text) : Yaml.Graph :=
  ⟨#[⟨.mapping, .mapping [(1, 2)]⟩, ⟨.text, .scalar (.ofText name)⟩, ⟨kind, .scalar (.ofText value)⟩]⟩

variable {name value : Text} {kind : Yaml.Kind}

theorem merged_oneEntry : (oneEntry name kind value).merged 0 = .ok (oneEntry name kind value) := by
  simp [oneEntry, Yaml.Graph.merged, Yaml.Graph.mergedTo, Yaml.Graph.mergeEntries,
    Yaml.Graph.entryCount, Yaml.Graph.entries?, Yaml.Graph.node, Yaml.Graph.kind, bind, Except.bind,
    pure, Except.pure]

/-- A document with one entry is that of the value, or what is wrong with the value. -/
theorem load_oneEntry {depth : Nat} {t : Text} {r : Yaml.Result Yaml.Value}
    (hdocument : Yaml.Reading.document depth (Yaml.tokens t) = .ok (some (oneEntry name kind value, 0)))
    (hr : (oneEntry name kind value).value 2 = r) (hplain : ∀ v, r = .ok v → v.isKey = true) :
    Yaml.load depth t =
      r.map fun v => ⟨.collection 0, [(0, .dictionary [(.text (.ofText name), v)])]⟩ := by
  have hroot : (oneEntry name kind value).value 0 = .ok (.collection 0) := rfl
  have hkey : (oneEntry name kind value).value 1 = .ok (.text (.ofText name)) := rfl
  have hkind : (oneEntry name kind value).kind 0 = .mapping := rfl
  have hcontent : ((oneEntry name kind value).node 0).content = .mapping [(1, 2)] := rfl
  have hentries : (oneEntry name kind value).entries? 0 = some [(1, 2)] := rfl
  have hsize : (oneEntry name kind value).size = 3 := rfl
  have hcollection : (Yaml.Value.collection 0).isKey = false := rfl
  have htext : (Yaml.Value.text (.ofText name)).isKey = true := rfl
  unfold Yaml.load
  rw [hdocument]
  cases r with
  | error e =>
    simp [Yaml.Document.ofGraph, Yaml.Filling.value, Yaml.Filling.run, Yaml.Filling.collection,
      Yaml.Filling.dictionary, Yaml.Filling.entries, Yaml.Graph.items?, List.lookup_cons, hroot, hkey,
      hkind, hcontent, hentries, hr, hcollection, htext, merged_oneEntry, bind, Except.bind, pure,
      Except.pure, Except.map]
  | ok v =>
    simp [Yaml.Document.ofGraph, Yaml.Filling.value, Yaml.Filling.run, Yaml.Filling.collection,
      Yaml.Filling.dictionary, Yaml.Filling.entries, Yaml.Graph.items?, Yaml.Collection.insert,
      List.lookup_cons, hroot, hkey, hkind, hcontent, hentries, hsize, hr, hcollection, htext,
      hplain v rfl, merged_oneEntry, bind, Except.bind, pure, Except.pure, Except.map]

theorem load_nesting : Yaml.load 1 "nesting_threshold: 4\n".toList = .ok ⟨.collection 0,
    [(0, .dictionary [(.text (.ofText "nesting_threshold".toList), .integer 4)])]⟩ := by
  have htokens : Yaml.tokens "nesting_threshold: 4\n".toList =
      [.blockMappingStart, .key, .scalar (.ofText "nesting_threshold".toList) true, .value,
        .scalar (.ofText "4".toList) true, .blockEnd] := by
    decide +kernel
  have hvalue : (oneEntry "nesting_threshold".toList .integer "4".toList).value 2 =
      .ok (.integer 4) := rfl
  refine load_oneEntry (by rw [htokens]; exact rfl) hvalue fun v hv => ?_
  obtain rfl := Except.ok.inj hv
  rfl

theorem load_date : Yaml.load 1 "cognitive_threshold: 2001-13-01\n".toList =
    .error (.misread .monthOutOfRange) := by
  have htokens : Yaml.tokens "cognitive_threshold: 2001-13-01\n".toList =
      [.blockMappingStart, .key, .scalar (.ofText "cognitive_threshold".toList) true, .value,
        .scalar (.ofText "2001-13-01".toList) true, .blockEnd] := by
    decide +kernel
  have hvalue : (oneEntry "cognitive_threshold".toList .date "2001-13-01".toList).value 2 =
      .error (.misread .monthOutOfRange) := rfl
  exact load_oneEntry (by rw [htokens]; exact rfl) hvalue fun v hv => by cases hv

/-- A file with a number is loaded by the loader that runs, within the bounds of the other numbers. -/
theorem load_cases_nested :
    let tree := FileTree.ofNames [("c.yaml".toList, "nesting_threshold: 4\n".toList)]
    (Loader.running 1).Lawful ∧ ∃ c, load (.running 1) tree.state "c.yaml".toList = .ok c ∧
      c = { standard with nestingThreshold := 4 } ∧ 1 ≤ c.longFunctionLines := by
  intro tree
  have hstate : tree.state "c.yaml".toList = .file ⟨"nesting_threshold: 4\n".toList, none⟩ := by
    decide +kernel
  have hlines : Text.withLineFeeds "nesting_threshold: 4\n".toList =
      "nesting_threshold: 4\n".toList := by
    decide +kernel
  have hload : load (.running 1) tree.state "c.yaml".toList =
      .ok { standard with nestingThreshold := 4 } := by
    unfold load
    simp only [hstate, Loader.running, Loader.readYaml, Stream.withLineFeeds, hlines, load_nesting]
    rfl
  refine ⟨Loader.running_lawful 1, _, hload, rfl, ?_⟩
  obtain ⟨hescaped, -, hends⟩ := load_cases (Loader.running_lawful 1) tree.state "c.yaml".toList
  rcases hends with ⟨e, he⟩ | ⟨c, entries, hc, -, -, hbound, -⟩ | ⟨fault, hfault, -⟩
  · rw [← hescaped, hload] at he
    cases he
  · rw [hload] at hc
    rw [Except.ok.inj hc]
    exact hbound
  · rw [hload] at hfault
    cases hfault

/-- What is raised for a month that does not exist. -/
def impossibleMonth : Raised :=
  ⟨"ValueError", "month must be in 1..12".toList⟩

/-- **A date in the thirteenth month follows the format, so the file is not rejected.** The error that
a reader raises for the value, as the one that runs does, is not caught. -/
theorem load_impossible_date :
    let tree := FileTree.ofNames [("c.yaml".toList, "cognitive_threshold: 2001-13-01\n".toList)]
    let stream : Stream := ⟨"cognitive_threshold: 2001-13-01\n".toList, none⟩
    (∀ loader : Loader, loader.read stream = .error (.other impossibleMonth) →
      load loader tree.state "c.yaml".toList = .error (.escaped impossibleMonth)) ∧
    (Loader.running 1).read stream = .error (.other impossibleMonth) ∧
    load (.running 1) tree.state "c.yaml".toList = .error (.escaped impossibleMonth) := by
  intro tree stream
  have hstate : tree.state "c.yaml".toList = .file stream := by
    decide +kernel
  have hlines : stream.withLineFeeds = stream := by
    decide +kernel
  have hescapes : ∀ loader : Loader, loader.read stream = .error (.other impossibleMonth) →
      load loader tree.state "c.yaml".toList = .error (.escaped impossibleMonth) :=
    fun loader hread => load_of_raises ⟨stream, hstate, by rw [hlines, hread]⟩
  have hraises : (Loader.running 1).read stream = .error (.other impossibleMonth) := by
    simp only [Loader.running, Loader.readYaml, stream, load_date]
    rfl
  exact ⟨hescapes, hraises, hescapes _ hraises⟩

end OneEntry

end Config

end CodeSurvey
