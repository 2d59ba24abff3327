import CodeSurvey.Proofs.Source.Brackets
import CodeSurvey.Proofs.Text.Lines
import CodeSurvey.Proofs.Text.Trim
import CodeSurvey.Source.Param

/-!
# Parameters that are written can be read back

A parameter is written as its name, its type behind a colon and its default value behind an equals
sign, and a list of them with commas between. Types and default values may hold brackets, commas
inside brackets and much else; what they must not hold is a comma, or in a type an assignment sign,
at depth zero.

* `written`, `writtenAll`: how parameters are written.
* `Writable`: the parameters that can be told from what is written.
* `cutDefault_append`, `cutType_head`: the cuts fall where the marks were put.
* `parseAll_join`: a list is read piece by piece.
* `parseAll_writtenAll`: the parameters read are the parameters written.
-/

namespace CodeSurvey

namespace Param

/-- A character that a name can hold: no blank, and no mark that means something in a list of
parameters. -/
def isNameChar (c : Char) : Bool :=
  !Text.isBlank c
    && !(['(', ')', '[', ']', '{', '}', '<', '>', ',', ':', '=', '*', '/', '?'].contains c)

/-- A type or default value that can stand in a list of parameters: not empty, without blanks around
it, with a depth of brackets that comes back to zero and no comma outside of them. -/
structure Fragment (t : Text) : Prop where
  ne_nil : t ≠ []
  trimmed : Text.trim t = t
  depth : Brackets.finalDepth none 0 t = 0
  commas : Brackets.index? Brackets.isComma t = none

instance (t : Text) : Decidable (Fragment t) :=
  decidable_of_iff (t ≠ [] ∧ Text.trim t = t ∧ Brackets.finalDepth none 0 t = 0 ∧
      Brackets.index? Brackets.isComma t = none)
    ⟨fun ⟨h1, h2, h3, h4⟩ => ⟨h1, h2, h3, h4⟩, fun h => ⟨h.1, h.2, h.3, h.4⟩⟩

/-- A parameter that can be told from what is written. -/
structure Writable (language : Language) (p : Param) : Prop where
  name_ne_nil : p.name ≠ []
  name : ∀ c ∈ p.name, isNameChar c = true
  receiver : isReceiver language p.name = false
  type : ∀ ty ∈ p.type, Fragment ty ∧ Brackets.index? Brackets.isAssignment ty = none
  defaultValue : ∀ d ∈ p.defaultValue, Fragment d

instance (language : Language) (p : Param) : Decidable (Writable language p) :=
  decidable_of_iff (p.name ≠ [] ∧ p.name.all isNameChar = true ∧
      isReceiver language p.name = false ∧
      (∀ ty ∈ p.type, Fragment ty ∧ Brackets.index? Brackets.isAssignment ty = none) ∧
      ∀ d ∈ p.defaultValue, Fragment d)
    ⟨fun ⟨h1, h2, h3, h4, h5⟩ => ⟨h1, List.all_eq_true.1 h2, h3, h4, h5⟩,
      fun h => ⟨h.1, List.all_eq_true.2 h.2, h.3, h.4, h.5⟩⟩

/-- The part of a written parameter in front of its default value. -/
def head (p : Param) : Text :=
  p.name ++ p.type.elim [] fun ty => ':' :: ' ' :: ty

/-- A parameter as it is written. -/
def written (p : Param) : Text :=
  p.head ++ p.defaultValue.elim [] fun d => ' ' :: '=' :: ' ' :: d

/-- Parameters as they are written, with commas between. -/
def writtenAll (ps : List Param) : Text :=
  Text.join [',', ' '] (ps.map written)

theorem writtenAll_cons_cons (p q : Param) (qs : List Param) :
    writtenAll (p :: q :: qs) = p.written ++ ',' :: ' ' :: writtenAll (q :: qs) := by
  simp [writtenAll, Text.join_cons_cons]

variable {language : Language} {p : Param} {a b t : Text} {c : Char}

/-- A character that is in no name, no mark and no type or default value is not written. -/
theorem notMem_writtenAll {ch : Char} (hmark : ch ∉ [',', ' ', ':', '=']) (ps : List Param)
    (h : ∀ p ∈ ps, ch ∉ p.name ∧ (∀ ty ∈ p.type, ch ∉ ty) ∧ ∀ d ∈ p.defaultValue, ch ∉ d) :
    ch ∉ writtenAll ps := by
  simp only [List.mem_cons, List.not_mem_nil, or_false, not_or] at hmark
  have hone : ∀ p ∈ ps, ch ∉ p.written := by
    intro p hp
    obtain ⟨hname, htype, hdefault⟩ := h p hp
    unfold written head
    cases hty : p.type <;> cases hd : p.defaultValue <;> simp_all
  induction ps with
  | nil => simp [writtenAll, Text.join]
  | cons p ps ih =>
    have hp := hone p List.mem_cons_self
    cases ps with
    | nil => simpa [writtenAll, Text.join_singleton] using hp
    | cons q qs =>
      have hrest := ih (fun x hx => h x (List.mem_cons_of_mem _ hx))
        fun x hx => hone x (List.mem_cons_of_mem _ hx)
      rw [writtenAll_cons_cons]
      simp [hp, hrest, hmark]

/-! ## Depth -/

/-- A text that can stand between commas: its depth comes back to zero, with no comma on the way. -/
def Level (t : Text) : Prop :=
  Brackets.finalDepth none 0 t = 0 ∧ Brackets.index? Brackets.isComma t = none

/-- A mark without brackets and commas that ends in a space keeps its two sides level. -/
theorem Level.append (mark : Text) (hmark : ∀ c ∈ mark ++ [' '], c ≠ ',' ∧ Brackets.Plain c)
    (ha : Level a) (hb : Level b) : Level (a ++ (mark ++ ' ' :: b)) := by
  have hfresh : Brackets.Fresh (Brackets.lastOf (Brackets.lastOf none a) (mark ++ [' '])) := by
    rw [Brackets.lastOf_append]
    exact Brackets.fresh_some (by decide)
  have hplain := Brackets.finalDepth_of_plain fun c hc => (hmark c hc).2
  constructor
  · rw [show a ++ (mark ++ ' ' :: b) = a ++ (mark ++ [' '] ++ b) by simp,
      Brackets.finalDepth_append, Brackets.finalDepth_append, ha.1, hplain,
      Brackets.finalDepth_fresh hfresh]
    exact hb.1
  · have hcommas : ∀ c ∈ mark ++ [' '], Brackets.Plain c ∧ ∀ p n, Brackets.isComma p c n = false :=
      fun c hc => ⟨(hmark c hc).2, fun _ _ => by simpa [Brackets.isComma] using (hmark c hc).1⟩
    exact Brackets.index?_append_mark mark hcommas (fun _ _ => rfl) (fun _ _ => rfl) ha.1 ha.2 hb.2

/-- A space in front of a level text. -/
theorem Level.space (ht : Level t) : Level (' ' :: t) :=
  Level.append [] (a := []) (by simp [Brackets.Plain]) ⟨rfl, rfl⟩ ht

theorem Fragment.level (h : Fragment t) : Level t :=
  ⟨h.depth, h.commas⟩

theorem isNameChar_spec (h : isNameChar c = true) : Text.isBlank c = false ∧
    c ∉ ['(', ')', '[', ']', '{', '}', '<', '>', ',', ':', '=', '*', '/', '?'] := by
  unfold isNameChar at h
  simpa [List.contains_iff_mem] using h

/-- A character of a name is none that a name cannot hold. -/
theorem isNameChar_ne {mark : Char} (h : isNameChar c = true) (hmark : isNameChar mark = false) :
    c ≠ mark := by
  rintro rfl
  simp [hmark] at h

/-- A character of a name is no bracket. -/
theorem isNameChar_plain (h : isNameChar c = true) : Brackets.Plain c := by
  have := (isNameChar_spec h).2
  simp only [List.mem_cons, List.not_mem_nil, or_false, not_or] at this
  simp [Brackets.Plain, this]

theorem Writable.name_depth (h : Writable language p) (previous : Option Char) (depth : Nat) :
    Brackets.finalDepth previous depth p.name = depth :=
  Brackets.finalDepth_of_plain (fun c hc => isNameChar_plain (h.name c hc)) _ _

theorem Writable.name_level (h : Writable language p) : Level p.name := by
  refine ⟨h.name_depth none 0, Brackets.indexFrom?_of_forall (fun c hc _ _ => ?_) _ _ _⟩
  simpa [Brackets.isComma] using isNameChar_ne (h.name c hc) (by decide)

theorem Writable.head_level (h : Writable language p) : Level p.head := by
  unfold head
  cases hty : p.type with
  | none => simpa using h.name_level
  | some ty =>
    exact Level.append [':'] (by simp [Brackets.Plain]) h.name_level (h.type ty hty).1.level

/-- A default value behind a level text. -/
theorem Level.withDefault {value : Option Text} (ht : Level t) (hvalue : ∀ d ∈ value, Fragment d) :
    Level (t ++ value.elim [] fun d => ' ' :: '=' :: ' ' :: d) := by
  cases value with
  | none => simpa using ht
  | some d => exact Level.append [' ', '='] (by simp [Brackets.Plain]) ht (hvalue d rfl).level

theorem Writable.written_level (h : Writable language p) : Level p.written :=
  h.head_level.withDefault h.defaultValue

/-! ## Cuts -/

theorem Writable.name_trimmed (h : Writable language p) : Text.trim p.name = p.name :=
  Text.trim_of_no_blank fun c hc => (isNameChar_spec (h.name c hc)).1

theorem Writable.name_assignment (h : Writable language p) :
    Brackets.index? Brackets.isAssignment p.name = none := by
  refine Brackets.indexFrom?_of_forall (fun c hc _ _ => ?_) _ _ _
  have hne : c ≠ '=' := isNameChar_ne (h.name c hc) (by decide)
  simp [Brackets.isAssignment, hne]

/-- A mark makes no assignment sign where two texts meet. -/
theorem assignment_append (mark : Text) (hmark : ∀ c ∈ mark ++ [' '], c ≠ '=' ∧ Brackets.Plain c)
    (ha : Level a) (haa : Brackets.index? Brackets.isAssignment a = none)
    (hba : Brackets.index? Brackets.isAssignment b = none) :
    Brackets.index? Brackets.isAssignment (a ++ (mark ++ ' ' :: b)) = none := by
  have hrefused : ∀ c ∈ mark ++ [' '],
      Brackets.Plain c ∧ ∀ p n, Brackets.isAssignment p c n = false :=
    fun c hc => ⟨(hmark c hc).2, fun _ _ => by simp [Brackets.isAssignment, (hmark c hc).1]⟩
  have hnext : ∀ p c, Brackets.isAssignment p c (mark ++ [' ']).head?
      = Brackets.isAssignment p c none := by
    intro p c
    cases hmark' : (mark ++ [' ']).head? with
    | none => rfl
    | some d =>
      obtain ⟨hd, hplain⟩ := hmark d (List.mem_of_mem_head? hmark')
      have hequals : (d == '=') = false := beq_eq_false_iff_ne.2 hd
      have hangle : (d == '>') = false := beq_eq_false_iff_ne.2 fun he => hplain (by simp [he])
      simp [Brackets.isAssignment, hequals, hangle]
  exact Brackets.index?_append_mark mark hrefused hnext
    (Brackets.fresh_some (by decide)).isAssignment_eq ha.1 haa hba

/-- No assignment sign stands in front of the default value. -/
theorem Writable.head_assignment (h : Writable language p) :
    Brackets.index? Brackets.isAssignment p.head = none := by
  unfold head
  cases hty : p.type with
  | none => simpa using h.name_assignment
  | some ty =>
    exact assignment_append [':'] (by simp [Brackets.Plain]) h.name_level h.name_assignment
      (h.type ty hty).2

/-- **The first cut falls at the default value**, whatever stands in front of it without an
assignment sign. -/
theorem cutDefault_append {value : Option Text} (ht : Level t)
    (hassign : Brackets.index? Brackets.isAssignment t = none) (hvalue : ∀ d ∈ value, Fragment d) :
    cutDefault (t ++ value.elim [] fun d => ' ' :: '=' :: ' ' :: d)
      = (t ++ value.elim [] fun _ => [' '], value) := by
  unfold cutDefault
  cases value with
  | none =>
    simp only [Option.elim_none, List.append_nil, hassign]
  | some d =>
    have hindex : Brackets.index? Brackets.isAssignment (t ++ ' ' :: '=' :: ' ' :: d)
        = some (t.length + 1) := by
      unfold Brackets.index?
      rw [Brackets.indexFrom?_append (by simp [Brackets.isAssignment]), ht.1,
        show Brackets.indexFrom? Brackets.isAssignment none 0 0 t = none from hassign]
      simp [Brackets.indexFrom?, Brackets.isAssignment, Brackets.isOpener, Brackets.isCloser,
        Brackets.depthAfter]
    have hfrag := hvalue d rfl
    have htake : (t ++ ' ' :: '=' :: ' ' :: d).take (t.length + 1) = t ++ [' '] := by
      rw [List.take_append, List.take_of_length_le (by omega)]
      simp
    have hdrop : (t ++ ' ' :: '=' :: ' ' :: d).drop (t.length + 1 + 1) = ' ' :: d := by
      rw [List.drop_append, List.drop_of_length_le (by omega)]
      simp [show t.length + 1 + 1 - t.length = 2 by omega]
    have htrim : Text.trim (' ' :: d) = d := by
      simpa using Text.trim_pad (a := [' ']) (b := []) Text.isBlank_space (by simp) hfrag.trimmed
    simp only [Option.elim_some, hindex, htake, hdrop, htrim, nonEmpty?]
    rw [if_neg (by simpa using hfrag.ne_nil)]

theorem cutDefault_written (h : Writable language p) :
    cutDefault p.written = (p.head ++ p.defaultValue.elim [] fun _ => [' '], p.defaultValue) :=
  cutDefault_append h.head_level h.head_assignment h.defaultValue

/-- **The second cut falls at the type.** -/
theorem cutType_head (h : Writable language p) (hb : ∀ c ∈ b, c = ' ') :
    cutType (p.head ++ b) = (p.name, p.type) := by
  have hblank : ∀ c ∈ b, Text.isBlank c = true := fun c hc => by rw [hb c hc]; decide
  have hname : ∀ previous depth place,
      Brackets.indexFrom? Brackets.isColon previous depth place p.name = none :=
    Brackets.indexFrom?_of_forall fun c hc _ _ => by
      simpa [Brackets.isColon] using isNameChar_ne (h.name c hc) (by decide)
  unfold cutType head
  cases hty : p.type with
  | none =>
    have hcolon : Brackets.index? Brackets.isColon (p.name ++ b) = none := by
      unfold Brackets.index?
      rw [Brackets.indexFrom?_append (fun _ _ => rfl), hname]
      exact Brackets.indexFrom?_of_forall (fun c hc _ _ => by rw [hb c hc]; rfl) _ _ _
    have htrim := Text.trim_pad (a := []) (b := b) (by simp) hblank h.name_trimmed
    simp only [Option.elim_none, List.append_nil, hcolon]
    rw [show p.name ++ b = [] ++ p.name ++ b from rfl, htrim]
  | some ty =>
    have hfrag := (h.type ty hty).1
    have hcolon : Brackets.index? Brackets.isColon (p.name ++ (':' :: ' ' :: (ty ++ b)))
        = some p.name.length := by
      unfold Brackets.index?
      rw [Brackets.indexFrom?_append (fun _ _ => rfl), hname, h.name_depth]
      simp [Brackets.indexFrom?, Brackets.isColon, Brackets.isOpener, Brackets.isCloser]
    have htrim : Text.trim (' ' :: (ty ++ b)) = ty := by
      simpa using Text.trim_pad (a := [' ']) (b := b) Text.isBlank_space hblank hfrag.trimmed
    have hdrop : (p.name ++ (':' :: ' ' :: (ty ++ b))).drop (p.name.length + 1)
        = ' ' :: (ty ++ b) := by
      rw [List.drop_append, List.drop_of_length_le (by omega)]
      simp
    simp only [Option.elim_some, List.append_assoc, List.cons_append, hcolon, List.take_left,
      hdrop, htrim, h.name_trimmed, nonEmpty?]
    rw [if_neg (by simpa using hfrag.ne_nil)]

/-! ## Reading back -/

/-- A name has no modifiers and no marks to lose. -/
theorem Writable.bareName_eq (h : Writable language p) : bareName p.name = p.name := by
  have hspace : ' ' ∉ p.name := fun hmem => isNameChar_ne (h.name _ hmem) (by decide) rfl
  have hquestion : ∀ c ∈ p.name, c ≠ '?' := fun c hc => isNameChar_ne (h.name c hc) (by decide)
  -- every modifier ends in a space
  have hmodifier : ∀ m ∈ modifiers, m.isPrefixOf p.name = false := by
    intro m hm
    by_contra hpre
    rw [Bool.not_eq_false, List.isPrefixOf_iff_prefix] at hpre
    have : ∀ m ∈ modifiers, ' ' ∈ m := by decide
    exact hspace (hpre.subset (this m hm))
  have hfold : ∀ ms : List Text, (∀ m ∈ ms, m.isPrefixOf p.name = false) →
      ms.foldl (fun n m => if m.isPrefixOf n then Text.trim (n.drop m.length) else n) p.name
        = p.name := by
    intro ms
    induction ms with
    | nil => intro _; rfl
    | cons m ms ih =>
      intro hms
      simp only [List.foldl_cons, hms m List.mem_cons_self, Bool.false_eq_true, if_false]
      exact ih fun x hx => hms x (List.mem_cons_of_mem _ hx)
  unfold bareName
  simp only [hfold modifiers hmodifier]
  rw [List.dropWhile_eq_self_iff.2, List.reverse_reverse]
  exact fun hl => by simpa using hquestion _ (List.mem_reverse.1 (List.getElem_mem hl))

theorem ofNameFirst?_written (h : Writable language p) :
    ofNameFirst? language p.written = some p := by
  have hspaces : ∀ c ∈ p.defaultValue.elim [] fun _ => [' '], c = ' ' := by
    cases p.defaultValue <;> simp
  have hmark : ∀ m ∈ ['*', '/'], p.name ≠ [m] := by
    intro m hm he
    have hmem : m ∈ p.name := by rw [he]; exact List.mem_singleton_self m
    have := (isNameChar_spec (h.name m hmem)).2
    simp at hm this
    grind
  unfold ofNameFirst?
  simp only [cutDefault_written h, cutType_head h hspaces, h.bareName_eq, ite_self]
  rw [if_neg]
  simp [h.name_ne_nil, hmark '*' (by simp), hmark '/' (by simp)]

theorem Writable.head_trimmed (h : Writable language p) :
    Text.trim p.head = p.head ∧ p.head ≠ [] := by
  unfold head
  cases hty : p.type with
  | none => simpa using ⟨h.name_trimmed, h.name_ne_nil⟩
  | some ty =>
    have hfrag := (h.type ty hty).1
    exact ⟨Text.trim_between h.name_trimmed hfrag.trimmed h.name_ne_nil hfrag.ne_nil [':', ' '],
      by simp [h.name_ne_nil]⟩

/-- A default value behind a text without blanks around it. -/
theorem trim_withDefault {value : Option Text} (ht : Text.trim t = t) (hne : t ≠ [])
    (hvalue : ∀ d ∈ value, Fragment d) :
    Text.trim (t ++ value.elim [] fun d => ' ' :: '=' :: ' ' :: d)
        = t ++ value.elim [] (fun d => ' ' :: '=' :: ' ' :: d) ∧
      t ++ value.elim [] (fun d => ' ' :: '=' :: ' ' :: d) ≠ [] := by
  refine ⟨?_, by simp [hne]⟩
  cases value with
  | none => simpa using ht
  | some d =>
    have hfrag := hvalue d rfl
    exact Text.trim_between ht hfrag.trimmed hne hfrag.ne_nil [' ', '=', ' ']

/-- What is written of a parameter has no blanks around it. -/
theorem Writable.written_trimmed (h : Writable language p) :
    Text.trim p.written = p.written ∧ p.written ≠ [] :=
  trim_withDefault h.head_trimmed.1 h.head_trimmed.2 h.defaultValue

/-- **A written parameter reads back as itself.** -/
theorem ofPart?_written (hfirst : language.typeFirst = false) (h : Writable language p) :
    ofPart? language p.written = some p := by
  obtain ⟨htrim, hne⟩ := h.written_trimmed
  unfold ofPart?
  simp [htrim, hne, hfirst, ofNameFirst?_written h, h.receiver]

/-! ## Lists -/

/-- A space in front of a piece does not matter. -/
theorem ofPart?_space (language : Language) (t : Text) :
    ofPart? language (' ' :: t) = ofPart? language t := by
  have htrim : Text.trim (' ' :: t) = Text.trim t := by
    have := Text.trimLeft_append Text.isBlank_space t
    rw [List.singleton_append] at this
    rw [Text.trim, this, Text.trim]
  unfold ofPart?
  rw [htrim]

/-- Level pieces with commas between are split at these commas. -/
theorem split_join (parts : List Text) : ∀ x, Level x → (∀ y ∈ parts, Level y) →
    Brackets.split ',' (Text.join [',', ' '] (x :: parts)) = x :: parts.map (' ' :: ·) := by
  induction parts with
  | nil =>
    intro x hx _
    rw [Text.join_singleton, Brackets.split, Brackets.splitFrom_comma x hx.2]
    rfl
  | cons y parts ih =>
    intro x hx hparts
    have hy := hparts y List.mem_cons_self
    -- the space goes to the next piece
    have hjoin : Text.join [',', ' '] (x :: y :: parts)
        = x ++ ',' :: Text.join [',', ' '] ((' ' :: y) :: parts) := by
      have hspace := Text.join_append_head [',', ' '] [' '] y parts
      rw [List.singleton_append] at hspace
      rw [Text.join_cons_cons, hspace]
      simp
    rw [hjoin, Brackets.split_append hx.2 hx.1,
      ih _ hy.space fun z hz => hparts z (List.mem_cons_of_mem _ hz), List.map_cons]

/-- **A list of level pieces is read piece by piece.** -/
theorem parseAll_join (language : Language) (parts : List Text) (h : ∀ x ∈ parts, Level x) :
    parseAll language (Text.join [',', ' '] parts) = parts.filterMap (ofPart? language) := by
  cases parts with
  | nil => rfl
  | cons x parts =>
    have hspaces : ∀ parts : List Text,
        (parts.map (' ' :: ·)).filterMap (ofPart? language) = parts.filterMap (ofPart? language) := by
      intro parts
      rw [List.filterMap_map]
      exact List.filterMap_congr fun y _ => ofPart?_space language y
    rw [parseAll, split_join parts x (h x List.mem_cons_self)
        fun y hy => h y (List.mem_cons_of_mem _ hy), List.filterMap_cons, List.filterMap_cons, hspaces]

/-- Parameters are read back from their list if each is read back from its piece. -/
theorem parseAll_pieces (language : Language) (piece : Param → Text) (ps : List Param)
    (h : ∀ p ∈ ps, Level (piece p) ∧ ofPart? language (piece p) = some p) :
    parseAll language (Text.join [',', ' '] (ps.map piece)) = ps := by
  have hlevel : ∀ x ∈ ps.map piece, Level x := by
    intro x hx
    obtain ⟨p, hp, rfl⟩ := List.mem_map.1 hx
    exact (h p hp).1
  calc parseAll language (Text.join [',', ' '] (ps.map piece))
      = (ps.map piece).filterMap (ofPart? language) := parseAll_join language _ hlevel
    _ = ps.filterMap (ofPart? language ∘ piece) := List.filterMap_map
    _ = ps.filterMap some := List.filterMap_congr fun p hp => (h p hp).2
    _ = ps := List.filterMap_some

/-- **The parameters read are the parameters written.** -/
theorem parseAll_writtenAll (hfirst : language.typeFirst = false) (ps : List Param)
    (h : ∀ p ∈ ps, Writable language p) : parseAll language (writtenAll ps) = ps :=
  parseAll_pieces language written ps
    fun p hp => ⟨(h p hp).written_level, ofPart?_written hfirst (h p hp)⟩

end Param

end CodeSurvey
