import CodeSurvey.Proofs.Pattern.Plain
import CodeSurvey.Proofs.RoundTrip.Scripted
import CodeSurvey.Proofs.Source.Method

/-!
# Methods that are lost by their names

A signature pattern takes the head of a statement for that of a function, so the names of such statements are passed
over. All languages share one list of these names. Some words on it are words of one language only, and names like any
other elsewhere: a method that has such a name is not found.

* `first_method`: the signature of a method with no parameters is read as it is written.
* `javaWords`: the words that are no names in the first of the languages that name types first.
* `lostNames`: what else is passed over. `mem_reservedNames_iff`: there is nothing more.
* `scan_method`: a method is found with its name and its body, unless its name is one of these.
-/

namespace CodeSurvey

open Pattern Grammar.Typed

namespace Typed

variable {limit : Nat} {r : Reading} {n body x y : Text}

/-- **A name**: a letter or an underscore, and word characters behind it. -/
def IsName (n : Text) : Prop :=
  ∃ first rest, n = first :: rest ∧ isNameStart first = true ∧ ∀ c ∈ rest, Text.isWord c = true

/-- A method without parameters. -/
def emptyMethod (n body : Text) : Text :=
  "void ".toList ++ (n ++ ("() \x7b".toList ++ (body ++ "\x7d".toList)))

/-! ## The signature -/

theorem first_void (h : r.cursor.after = ['v', 'o', 'i', 'd'] ++ ' ' :: y) :
    First limit typeName r (r.past ['v', 'o', 'i', 'd']) := by
  have hafter : (r.past ['v', 'o', 'i', 'd']).cursor.after = ' ' :: y := Reading.past_after h
  generalize hs : r.past ['v', 'o', 'i', 'd'] = s at hafter
  have hword : First limit (one isNameStart ++ span isDottedRest) r s := by
    rw [← hs]
    have hrest : ['o', 'i', 'd'].all isDottedRest = true := by decide
    exact First.one_span limit h (by decide) (List.all_eq_true.1 hrest)
      (by intro c hc; rw [← Option.some.inj hc]; decide)
  -- a space starts neither type arguments nor a mark behind the type
  have hgenerics : First limit (opt generics) s s := First.skip (outcomes_eq_nil hafter (by decide) (by decide))
  have harray : First limit (star (lit "[]")) s s :=
    First.stay .longest (outcomes_eq_nil hafter (by decide) (by decide))
  have hmark : First limit (opt (lit "?")) s s := First.skip (outcomes_eq_nil hafter (by decide) (by decide))
  exact ((hword.seq hgenerics).seq harray).seq hmark

theorem first_name (hn : IsName n) (h : r.cursor.after = n ++ '(' :: y) : First limit name r (r.past n) := by
  obtain ⟨first, rest, rfl, hfirst, hrest⟩ := hn
  exact First.one_span limit h hfirst hrest (by intro c hc; rw [← Option.some.inj hc]; decide)

/-- No clause of errors stands in front of a body. -/
theorem throws_eq_nil (h : r.cursor.after = ' ' :: '{' :: y) :
    (blanks ++ lit "throws" ++ someBlanks
      ++ plusFew (one fun c => isDottedRest c || c == ',' || Text.isBlank c)).outcomes limit r = [] := by
  apply outcomes_eq_nil_of_spelled
  intro x hx hpre
  obtain ⟨_, w, ⟨_, v, ⟨b, _, hb, rfl, rfl⟩, -, rfl⟩, -, rfl⟩ := hx
  rw [h, List.append_assoc, List.append_assoc] at hpre
  cases b with
  | nil =>
    obtain ⟨heq, -⟩ := List.cons_prefix_cons.1 hpre
    exact absurd heq (by decide)
  | cons c b =>
    obtain ⟨-, hpre⟩ := List.cons_prefix_cons.1 hpre
    cases b with
    | nil =>
      obtain ⟨heq, -⟩ := List.cons_prefix_cons.1 hpre
      exact absurd heq (by decide)
    | cons d b =>
      obtain ⟨heq, -⟩ := List.cons_prefix_cons.1 hpre
      have hblank := hb d (by simp)
      rw [heq] at hblank
      exact absurd hblank (by decide)

/-- What the pattern of a method has read at the end of the signature. -/
def behindSignature (r : Reading) (n : Text) : Reading :=
  (((((r.mark ⟨"rtype", "_a"⟩ ['v', 'o', 'i', 'd']).past [' ']).mark ⟨"name", "_a"⟩ n).past ['(']).mark
    ⟨"params", "_a"⟩ []).past [')']

/-- **The signature of a method is read as it is written.** -/
theorem first_method (hn : IsName n)
    (h : r.cursor.after = ['v', 'o', 'i', 'd'] ++ ([' '] ++ (n ++ (['('] ++ ([] ++ ([')'] ++ ' ' :: '{' :: y)))))) :
    First limit javaFunction r (behindSignature r n) := by
  have hafter₁ := Reading.mark_after ⟨"rtype", "_a"⟩ h
  have hafter₂ := Reading.past_after hafter₁
  have hafter₃ := Reading.mark_after ⟨"name", "_a"⟩ hafter₂
  have hafter₄ := Reading.past_after hafter₃
  have hafter₅ := Reading.mark_after ⟨"params", "_a"⟩ hafter₄
  have hafter₆ := Reading.past_after hafter₅
  have hblank : ∀ c ∈ (n ++ (['('] ++ ([] ++ ([')'] ++ ' ' :: '{' :: y)))).head?, isGap c = false := by
    obtain ⟨first, rest, rfl, hfirst, -⟩ := hn
    intro c hc
    obtain rfl : first = c := Option.some.inj hc
    by_contra hgap
    have hno := Text.isWord_of_isBlank (isBlank_of_isGap (by simpa using hgap))
    rw [isWord_of_isNameStart hfirst] at hno
    cases hno
  have hhead : First limit methodHead r _ :=
    (First.group ⟨"rtype", "_a"⟩ (first_void h)).seq
      ((First.one_span limit hafter₁ (by decide) (by simp) hblank).seq
        (First.group ⟨"name", "_a"⟩ (first_name hn hafter₂)))
  have htail : First limit javaTail _ (behindSignature r n) :=
    (First.span_nil limit hafter₃ (by decide)).seq ((First.lit limit hafter₃ rfl).seq
      ((First.group ⟨"params", "_a"⟩ (first_paramText (by decide) hafter₄ (Nat.zero_le _))).seq
        ((First.lit limit hafter₅ rfl).seq (First.skip (throws_eq_nil hafter₆)))))
  have hbody : First limit (ahead javaBody) (behindSignature r n) (behindSignature r n) :=
    First.look (exists_outcome_blanks_text.2 ⟨[' '], y, Text.isBlank_space, hafter₆⟩)
  have hsignature := hhead.seq htail
  have hne : (methodHead ++ javaTail).outcomes limit r ≠ [] :=
    List.ne_nil_of_mem (List.mem_of_mem_head? hsignature)
  unfold First
  rw [outcomes_javaFunction, javaShape.method_eq hne]
  exact hsignature.seq hbody

/-! ## The scan -/

theorem bracket_mem_of_spelled (h : javaFunction.Spelled x) : '(' ∈ x := by
  obtain ⟨_, _, ⟨_, _, ⟨_, _, ⟨_, _, ⟨u, _, -, rfl, rfl⟩, -, rfl⟩, -, rfl⟩, -, rfl⟩, -, rfl⟩ := h
  simp

/-- Nothing is read where no bracket follows. -/
theorem quiet_of_no_bracket {c : Cursor} (h : '(' ∉ c.after) (k : Nat) : Quiet limit javaFunction c k := by
  intro i _
  apply readAt?_eq_none
  intro x hx hpre
  rw [Cursor.advance_after] at hpre
  exact h (List.mem_of_mem_drop (hpre.subset (bracket_mem_of_spelled hx)))

theorem emptyMethod_eq (n body : Text) : emptyMethod n body = ['v', 'o', 'i', 'd']
    ++ ([' '] ++ (n ++ (['('] ++ ([] ++ ([')'] ++ ' ' :: '{' :: (body ++ ['}'])))))) := rfl

/-- What follows the signature. -/
theorem drop_emptyMethod (n body : Text) :
    (emptyMethod n body).drop (n.length + 7) = ' ' :: '{' :: (body ++ ['}']) := by
  rw [emptyMethod_eq, show n.length + 7 = 5 + (n.length + 2) by omega, ← List.drop_drop]
  show (n ++ (['(', ')'] ++ ' ' :: '{' :: (body ++ ['}']))).drop (n.length + 2) = _
  rw [← List.append_assoc]
  exact List.drop_left' (by simp)

theorem length_emptyMethod (n body : Text) : (emptyMethod n body).length = n.length + 10 + body.length := by
  rw [emptyMethod_eq]
  simp only [List.length_append, List.length_cons, List.length_nil]
  omega

theorem behindSignature_cursor (t n : Text) :
    (behindSignature ⟨Cursor.ofPlace t 0, []⟩ n).cursor = Cursor.ofPlace t (n.length + 7) := by
  simp only [behindSignature, Reading.past, Reading.mark, Cursor.ofPlace_advance, List.length_cons, List.length_nil]
  congr 1
  omega

/-- The match of a method. -/
def methodMatch (t n : Text) : Match :=
  let s := behindSignature ⟨Cursor.ofPlace t 0, []⟩ n
  ⟨Cursor.ofPlace t 0, s.cursor, s.captures⟩

/-- **The signature is all that is read.** -/
theorem findAll_emptyMethod (hn : IsName n) (hbody : '(' ∉ body) :
    javaFunction.findAll (emptyMethod n body) = [methodMatch (emptyMethod n body) n] := by
  have hlen := length_emptyMethod n body
  have hdrop := drop_emptyMethod n body
  generalize ht : emptyMethod n body = t at hlen hdrop
  have hafter : (Cursor.ofPlace t 0).after = ['v', 'o', 'i', 'd']
      ++ ([' '] ++ (n ++ (['('] ++ ([] ++ ([')'] ++ ' ' :: '{' :: (body ++ ['}'])))))) := by
    rw [← ht, ← emptyMethod_eq]
    rfl
  have hread : javaFunction.readAt? t.length ((Cursor.ofPlace t 0).advance 0) = some (methodMatch t n) := by
    rw [Cursor.advance_zero]
    exact readAt?_of_first (first_method hn hafter)
  have hstop : (methodMatch t n).stop = Cursor.ofPlace t (n.length + 7) := behindSignature_cursor t n
  have hlast : (methodMatch t n).last = n.length + 7 := by
    rw [Match.last, hstop, Cursor.ofPlace_place (by omega)]
  have hfirst : (methodMatch t n).first = 0 := rfl
  have hrest : '(' ∉ (methodMatch t n).stop.after := by
    rw [hstop, Cursor.ofPlace_after, hdrop]
    simp [hbody]
  have hquiet : Quiet t.length javaFunction (Cursor.ofPlace t 0) 0 := fun i hi => absurd hi (Nat.not_lt_zero i)
  rw [findAll, readings_of_first (by simp) (Nat.zero_le _) hquiet hread (by omega),
    readings_eq_nil (quiet_of_no_bracket hrest _)]

theorem balancedFrom_of_no_braces (h : '{' ∉ x ∧ '}' ∉ x) : Scripted.balancedFrom 0 x = true := by
  induction x with
  | nil => rfl
  | cons c x ih =>
    simp only [List.mem_cons, not_or] at h
    obtain ⟨⟨hopen, hx⟩, hclose, hx'⟩ := h
    rw [Scripted.balancedFrom, if_neg (by simpa using Ne.symm hopen), if_neg (by simpa using Ne.symm hclose)]
    exact ih ⟨hx, hx'⟩

/-- The signature of the match: none if the name is passed over. -/
theorem signature?_methodMatch (n body : Text) :
    (methodMatch (emptyMethod n body) n).signature? = if n ∈ reservedNames then none else some ⟨n, []⟩ := by
  have hafter : (Cursor.ofPlace (emptyMethod n body) 0).after = ['v', 'o', 'i', 'd']
      ++ ([' '] ++ (n ++ (['('] ++ ([] ++ ([')'] ++ ' ' :: '{' :: (body ++ ['}'])))))) := rfl
  have hafter₁ := Reading.mark_after (r := ⟨_, []⟩) ⟨"rtype", "_a"⟩ hafter
  have hafter₂ := Reading.past_after hafter₁
  have hafter₃ := Reading.mark_after ⟨"name", "_a"⟩ hafter₂
  have hafter₄ := Reading.past_after hafter₃
  have hvoid : ['v', 'o', 'i', 'd'] ∉ reservedTypes := by decide
  have hsignature : (methodMatch (emptyMethod n body) n).signature?
      = if n ∈ reservedNames ∨ ['v', 'o', 'i', 'd'] ∈ reservedTypes then none else some ⟨n, []⟩ :=
    Match.signature?_typed hafter hafter₂ hafter₄
  simp only [hvoid, or_false] at hsignature
  exact hsignature

/-- **A method is found with its name and its body, unless its name is passed over.** -/
theorem scan_emptyMethod (hn : IsName n) (hbracket : '(' ∉ body) (hbraces : '{' ∉ body ∧ '}' ∉ body) :
    (Routine.scan .java (emptyMethod n body)).map (fun r => (r.name, r.body (emptyMethod n body)))
      = if n ∈ reservedNames then [] else [(n, body)] := by
  have hfind : Language.java.grammar.function.findAll (emptyMethod n body)
      = [methodMatch (emptyMethod n body) n] := findAll_emptyMethod hn hbracket
  have hlen := length_emptyMethod n body
  have hlast : (methodMatch (emptyMethod n body) n).last = n.length + 7 := by
    rw [Match.last, show (methodMatch (emptyMethod n body) n).stop = Cursor.ofPlace _ (n.length + 7) from
      behindSignature_cursor _ n, Cursor.ofPlace_place (by omega)]
  have hblock : Language.java.block (emptyMethod n body) (methodMatch (emptyMethod n body) n).first (n.length + 7)
      = ⟨n.length + 7 + 2, n.length + 7 + 2 + body.length, n.length + 7 + 2 + body.length + 1⟩ :=
    Scripted.braced_eq _ (drop_emptyMethod n body) (balancedFrom_of_no_braces hbraces)
  have hslice : Text.slice (emptyMethod n body) (n.length + 7 + 2) (n.length + 7 + 2 + body.length) = body := by
    rw [Text.slice, ← List.drop_drop, drop_emptyMethod, Nat.add_sub_cancel_left]
    exact List.take_left
  rw [Routine.scan, hfind]
  by_cases hreserved : n ∈ reservedNames
  · have hnone : Routine.ofMatch? .java (emptyMethod n body) (methodMatch (emptyMethod n body) n) = none := by
      rw [Routine.ofMatch?, signature?_methodMatch, if_pos hreserved]
      rfl
    rw [List.filterMap_cons, hnone, if_pos hreserved]
    rfl
  · rw [if_neg hreserved, List.filterMap_cons, Routine.ofMatch?, signature?_methodMatch, if_neg hreserved]
    simp only [Option.map_some, List.filterMap_nil, List.map_cons, List.map_nil, Routine.body, hlast, hblock, hslice]

/-! ## Names -/

/-- The words that are no names in the first of the languages that name types first: its keywords and literals. -/
def javaWords : List Text :=
  ["abstract", "assert", "boolean", "break", "byte", "case", "catch", "char", "class", "const", "continue", "default",
    "do", "double", "else", "enum", "extends", "final", "finally", "float", "for", "goto", "if", "implements", "import",
    "instanceof", "int", "interface", "long", "native", "new", "package", "private", "protected", "public", "return",
    "short", "static", "strictfp", "super", "switch", "synchronized", "this", "throw", "throws", "transient", "try",
    "void", "volatile", "while", "_", "true", "false", "null"].map String.toList

/-- The names that are passed over although they are names. -/
def lostNames : List Text :=
  ["foreach", "using", "lock", "fixed", "typeof", "sizeof", "nameof", "function"].map String.toList

theorem mem_reservedNames_iff (h : n ∉ javaWords) : n ∈ reservedNames ↔ n ∈ lostNames := by
  have hwords : ∀ w ∈ reservedNames, w ∈ javaWords ∨ w ∈ lostNames := by decide +kernel
  have hlost : ∀ w ∈ lostNames, w ∈ reservedNames := by decide +kernel
  constructor
  · intro hn
    exact (hwords n hn).resolve_left h
  · intro hn
    exact hlost n hn

/-- **A method is found with its name and its body, unless its name is one of eight.** -/
theorem scan_method (hn : IsName n) (hword : n ∉ javaWords) (hbracket : '(' ∉ body)
    (hbraces : '{' ∉ body ∧ '}' ∉ body) :
    (Routine.scan .java (emptyMethod n body)).map (fun r => (r.name, r.body (emptyMethod n body)))
      = if n ∈ lostNames then [] else [(n, body)] := by
  rw [scan_emptyMethod hn hbracket hbraces]
  simp only [mem_reservedNames_iff hword]

/-- A method whose name only starts as a lost name does. -/
theorem scan_method_locked :
    (Routine.scan .java (emptyMethod "locked".toList " int x = 1 ".toList)).map
      (fun r => (r.name, r.body (emptyMethod "locked".toList " int x = 1 ".toList)))
      = [("locked".toList, " int x = 1 ".toList)] := by
  have hn : IsName "locked".toList := ⟨'l', "ocked".toList, rfl, by decide, List.all_eq_true.1 (by decide)⟩
  have hscan := scan_method hn (show _ ∉ javaWords by decide +kernel) (show '(' ∉ " int x = 1 ".toList by decide)
    (by decide)
  rw [if_neg (by decide)] at hscan
  exact hscan

/-- **A method is lost because of its name.** -/
theorem scan_method_lock : IsName "lock".toList ∧ "lock".toList ∉ javaWords ∧
    Routine.scan .java (emptyMethod "lock".toList []) = [] :=
  ⟨⟨'l', "ock".toList, rfl, by decide, List.all_eq_true.1 (by decide)⟩, by decide +kernel, by decide +kernel⟩

end Typed

end CodeSurvey
