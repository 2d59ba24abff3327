import CodeSurvey.Grammar.Basic
import CodeSurvey.Proofs.Pattern.First
import CodeSurvey.Proofs.Source.ParamText
import CodeSurvey.Source.Routine

/-!
# Parameter lists inside a signature

A signature takes for its parameters the text between round brackets, in which round brackets may
stand again, but not inside one another. Such a text is read as a whole if a closing bracket follows
it, and nothing else is ever read.

* `Text.rounds`, `Text.Shallow`: round brackets followed through a text.
* `first_paramText`: a shallow text in front of a closing bracket is read as a whole.
* `shallow_of_spelled`: whatever is read as parameters is shallow.
* `Param.shallow_writtenAll`: written parameters are shallow if their types and default values are.
* `Outline`: what the round trips are about, a routine with the text of its body.
* `Match.outline?_eq`: the outline of a match, by its signature and its block.
-/

namespace CodeSurvey

namespace Text

/-- Follows the round brackets of a text, from inside a pair of them or from outside: where it ends,
or none if a bracket closes nothing or opens inside another. -/
def rounds : Bool → Text → Option Bool
  | inside, [] => some inside
  | inside, c :: rest =>
    if c == '(' then if inside then none else rounds true rest
    else if c == ')' then if inside then rounds false rest else none
    else rounds inside rest

/-- Round brackets are balanced, and none stands inside another. -/
def Shallow (t : Text) : Prop :=
  rounds false t = some false

instance (t : Text) : Decidable (Shallow t) :=
  inferInstanceAs (Decidable (_ = _))

variable {a b x y t : Text} {inside inside' : Bool}

theorem rounds_append (x y : Text) : ∀ inside,
    rounds inside (x ++ y) = (rounds inside x).bind fun i => rounds i y := by
  induction x with
  | nil => intro inside; rfl
  | cons c rest ih =>
    intro inside
    simp only [List.cons_append, rounds, ih]
    split
    · split <;> rfl
    · split
      · split <;> rfl
      · rfl

/-- The end of a text is followed from wherever its start has led. -/
theorem exists_rounds {result : Bool} (h : rounds inside (x ++ y) = some result) :
    ∃ i, rounds inside x = some i ∧ rounds i y = some result := by
  rw [rounds_append] at h
  exact Option.bind_eq_some_iff.1 h

theorem rounds_of_plain (h : ∀ c ∈ x, c ≠ '(' ∧ c ≠ ')') : ∀ inside,
    rounds inside x = some inside := by
  induction x with
  | nil => intro inside; rfl
  | cons c rest ih =>
    intro inside
    obtain ⟨hopen, hclose⟩ := h c List.mem_cons_self
    rw [rounds, if_neg (by simpa using hopen), if_neg (by simpa using hclose)]
    exact ih (fun d hd => h d (List.mem_cons_of_mem _ hd)) inside

theorem shallow_of_plain (h : ∀ c ∈ x, c ≠ '(' ∧ c ≠ ')') : Shallow x :=
  rounds_of_plain h false

theorem Shallow.append (hx : Shallow x) (hy : Shallow y) : Shallow (x ++ y) := by
  unfold Shallow at *
  rw [rounds_append, hx]
  exact hy

/-- From inside a pair of brackets, a text runs to the one that closes it and goes on outside. -/
theorem rounds_inside (h : rounds true t = some false) :
    ∃ x y, t = x ++ ')' :: y ∧ (∀ c ∈ x, c ≠ '(' ∧ c ≠ ')') ∧ Shallow y := by
  induction t with
  | nil => simp [rounds] at h
  | cons c rest ih =>
    unfold rounds at h
    split at h
    · simp at h
    · rename_i hopen
      split at h
      · rename_i hclose
        refine ⟨[], rest, ?_, by simp, by simpa [Shallow] using h⟩
        rw [beq_iff_eq.1 hclose]
        rfl
      · rename_i hclose
        obtain ⟨x, y, rfl, hx, hy⟩ := ih h
        refine ⟨c :: x, y, rfl, ?_, hy⟩
        intro d hd
        rcases List.mem_cons.1 hd with rfl | hd
        · exact ⟨by simpa using hopen, by simpa using hclose⟩
        · exact hx d hd

/-- A text that can stand inside a pair of brackets as well as outside has no brackets. -/
theorem rounds_both (h : rounds false x = some inside) (h' : rounds true x = some inside') :
    inside = false := by
  induction x with
  | nil => simpa [rounds] using h.symm
  | cons c rest ih =>
    unfold rounds at h h'
    split at h
    · rename_i hc
      simp [hc] at h'
    · rename_i hc
      split at h
      · simp at h
      · rename_i hc'
        rw [if_neg hc, if_neg hc'] at h'
        exact ih h h'

end Text

namespace Pattern

variable {limit : Nat} {r : Reading} {x y : Text} {c : Char}

/-- A character that is no round bracket. -/
def isNoRound (c : Char) : Bool :=
  !"()".toList.contains c

theorem isNoRound_iff : isNoRound c = true ↔ c ≠ '(' ∧ c ≠ ')' := by
  simp [isNoRound]

/-- One step through a parameter text: a character or a pair of brackets. -/
def paramStep : Pattern :=
  one isNoRound <|> (text ['('] ++ span isNoRound ++ text [')'])

theorem paramText_eq : paramText = many .longest paramStep := rfl

/-- **A shallow text in front of a closing bracket is read as a whole.** -/
theorem first_paramText (hx : Text.Shallow x) (hafter : r.cursor.after = x ++ ')' :: y)
    (hlimit : x.length ≤ limit) : First limit paramText r (r.past x) := by
  rw [paramText_eq]
  suffices h : ∀ (n : Nat) (x : Text) (r : Reading), Text.Shallow x →
      r.cursor.after = x ++ ')' :: y → x.length ≤ n →
      (repeated .longest (paramStep.outcomes limit) n r).head? = some (r.past x) from
    h limit x r hx hafter hlimit
  intro n
  induction n with
  | zero =>
    intro x r _ _ hlen
    obtain rfl : x = [] := List.length_eq_zero_iff.1 (by omega)
    simp [repeated]
  | succ n ih =>
    intro x r hx hafter hlen
    -- what a first step does, and what follows it
    have hgo : ∀ u v, x = u ++ v → First limit paramStep r (r.past u) → Text.Shallow v →
        v.length ≤ n →
        (repeated .longest (paramStep.outcomes limit) (n + 1) r).head? = some (r.past x) := by
      rintro u v rfl hstep hv hlen
      rw [List.append_assoc] at hafter
      have hrest := ih v (r.past u) hv (Reading.past_after hafter) hlen
      rw [Reading.past_past] at hrest
      rw [repeated, List.head?_append, head?_flatMap hstep hrest]
      rfl
    cases x with
    | nil =>
      have hnone : paramStep.outcomes limit r = [] := outcomes_eq_nil hafter (by decide) (by decide)
      rw [repeated, hnone]
      simp
    | cons c x =>
      by_cases hopen : c = '('
      · subst hopen
        obtain ⟨u, v, rfl, hu, hv⟩ := Text.rounds_inside (t := x) <| by
          simpa [Text.Shallow, Text.rounds] using hx
        have hafter' : r.cursor.after = ['('] ++ (u ++ ([')'] ++ (v ++ ')' :: y))) := by
          simpa using hafter
        have h1 := First.text limit hafter'
        have a1 := Reading.past_after hafter'
        have h2 := First.span limit a1 (fun c hc => isNoRound_iff.2 (hu c hc))
          (by simp [isNoRound])
        have a2 := Reading.past_after a1
        have h3 := First.text limit a2
        have hpair := (h1.seq h2).seq h3
        rw [Reading.past_past, Reading.past_past] at hpair
        have hone : (one isNoRound).outcomes limit r = [] :=
          outcomes_eq_nil hafter (by decide) (by decide)
        apply hgo ('(' :: u ++ [')']) v (by simp) _ hv (by simp at hlen; omega)
        have hstep : paramStep.outcomes limit r = (one isNoRound).outcomes limit r
          ++ (text ['('] ++ span isNoRound ++ text [')']).outcomes limit r := rfl
        unfold First
        rw [hstep, hone]
        exact hpair
      · by_cases hclose : c = ')'
        · subst hclose
          simp [Text.Shallow, Text.rounds] at hx
        · have hx' : Text.Shallow x := by
            simpa [Text.Shallow, Text.rounds, hopen, hclose] using hx
          exact hgo [c] x rfl
            (First.altLeft (First.one limit hafter (isNoRound_iff.2 ⟨hopen, hclose⟩)))
            hx' (by simpa using hlen)

/-- **Whatever is read as parameters is shallow.** -/
theorem shallow_of_spelled (h : paramText.Spelled x) : Text.Shallow x := by
  obtain ⟨pieces, hpieces, rfl⟩ : ∃ pieces : List Text, (∀ y ∈ pieces, paramStep.Spelled y)
    ∧ x = pieces.flatten := h
  induction pieces with
  | nil => rfl
  | cons piece pieces ih =>
    have hrest := ih fun y hy => hpieces y (List.mem_cons_of_mem _ hy)
    rw [List.flatten_cons]
    refine Text.Shallow.append ?_ hrest
    rcases hpieces piece List.mem_cons_self with ⟨c, hc, rfl⟩ | hpair
    · exact Text.shallow_of_plain (by simpa using isNoRound_iff.1 hc)
    · obtain ⟨_, _, ⟨_, u, rfl, hu, rfl⟩, rfl, rfl⟩ := hpair
      have hu' := Text.rounds_of_plain fun c hc => isNoRound_iff.1 (hu c hc)
      simp [Text.Shallow, Text.rounds, Text.rounds_append, hu']

end Pattern

namespace Param

/-- Round brackets do not stand inside one another, in the type nor in the default value. -/
def Shallow (p : Param) : Prop :=
  (∀ ty ∈ p.type, Text.Shallow ty) ∧ ∀ d ∈ p.defaultValue, Text.Shallow d

variable {language : Language} {p : Param}

theorem shallow_written (h : Writable language p) (hp : p.Shallow) : Text.Shallow p.written := by
  have hname : Text.Shallow p.name := Text.shallow_of_plain fun c hc =>
    ⟨isNameChar_ne (h.name c hc) (by decide), isNameChar_ne (h.name c hc) (by decide)⟩
  have htype : Text.Shallow (p.type.elim [] fun ty => ':' :: ' ' :: ty) := by
    cases hty : p.type with
    | none => rfl
    | some ty =>
      exact Text.Shallow.append (x := [':', ' ']) (by decide) (hp.1 ty hty)
  have hdefault : Text.Shallow (p.defaultValue.elim [] fun d => ' ' :: '=' :: ' ' :: d) := by
    cases hd : p.defaultValue with
    | none => rfl
    | some d =>
      exact Text.Shallow.append (x := [' ', '=', ' ']) (by decide) (hp.2 d hd)
  exact (hname.append htype).append hdefault

/-- **Written parameters are shallow if their types and default values are.** -/
theorem shallow_writtenAll (ps : List Param) (h : ∀ p ∈ ps, Writable language p ∧ p.Shallow) :
    Text.Shallow (writtenAll ps) := by
  induction ps with
  | nil => rfl
  | cons p ps ih =>
    obtain ⟨hp, hshallow⟩ := h p List.mem_cons_self
    have hwritten := shallow_written hp hshallow
    cases ps with
    | nil => simpa [writtenAll, Text.join_singleton] using hwritten
    | cons q qs =>
      have hrest := ih fun x hx => h x (List.mem_cons_of_mem _ hx)
      rw [writtenAll_cons_cons]
      exact hwritten.append (Text.Shallow.append (x := [',', ' ']) (by decide) hrest)

end Param

/-! ## Places of a cursor -/

namespace Cursor

variable {c : Cursor} {l y : Text}

theorem whole_drop (c : Cursor) (n : Nat) : c.whole.drop (c.place + n) = c.after.drop n := by
  rw [whole, c.place_eq, List.drop_append, List.length_reverse,
    List.drop_of_length_le (by simp), Nat.add_sub_cancel_left]
  rfl

theorem slice_whole (c : Cursor) (m n : Nat) :
    Text.slice c.whole (c.place + m) (c.place + m + n) = (c.after.drop m).take n := by
  rw [Text.slice, whole_drop, Nat.add_sub_cancel_left]

theorem lineNumber_whole (c : Cursor) (n : Nat) :
    Text.lineNumber c.whole (c.place + n)
      = c.before.count '\n' + 1 + (c.after.take n).count '\n' := by
  rw [Text.lineNumber, whole, c.place_eq, List.take_append, List.length_reverse,
    List.take_of_length_le (by simp), Nat.add_sub_cancel_left, List.count_append,
    List.count_reverse]
  omega

/-- The line of a cursor at the start of a line starts there. -/
theorem lineStart_whole (h : c.atLineStart = true) : Text.lineStart c.whole c.place = c.place := by
  have htake : c.whole.take c.place = c.before.reverse := by
    rw [whole, c.place_eq, ← List.length_reverse, List.take_left]
  have hwhile : c.before.takeWhile (· != '\n') = [] := by
    unfold atLineStart lastIs at h
    cases hb : c.before with
    | nil => rfl
    | cons x b =>
      rw [hb] at h
      simpa using h
  simp only [Text.lineStart, htake, List.reverse_reverse, hwhile]
  simp [c.place_eq]

/-- The line of a cursor ends where the first line end follows it, or with the text. -/
theorem lineEnd_whole {n : Nat} (hafter : c.after.drop n = l ++ y) (hn : n ≤ c.after.length)
    (hl : '\n' ∉ l) (hy : y = [] ∨ ∃ z, y = '\n' :: z) :
    Text.lineEnd c.whole (c.place + n) = c.place + n + l.length := by
  have hnone : l.findIdx? (· == '\n') = none := by
    rw [List.findIdx?_eq_none_iff]
    intro x hx
    rw [beq_eq_false_iff_ne]
    rintro rfl
    exact hl hx
  unfold Text.lineEnd Text.indexFrom?
  rw [whole_drop, hafter, List.findIdx?_append, hnone]
  rcases hy with rfl | ⟨z, rfl⟩
  · have hlen := congrArg List.length hafter
    have hplace := c.place_eq
    simp only [List.length_drop, List.append_nil] at hlen
    simp only [whole, List.findIdx?_nil, List.length_append, List.length_reverse]
    simp
    omega
  · simp [List.findIdx?_cons]

end Cursor

/-! ## Outlines -/

/-- A routine as a reader of the text knows it: its signature, the text of its body, and its first
and last line. -/
structure Outline where
  name : Text
  params : List Param
  body : Text
  startLine : Nat
  endLine : Nat
deriving DecidableEq, Repr

/-- The outline of a routine of a text. -/
def Routine.outline (t : Text) (r : Routine) : Outline :=
  ⟨r.name, r.params, r.body t, r.startLine, r.endLine⟩

theorem Capture.text_eq {c : Cursor} {x y : Text} (label : Label) (h : c.after = x ++ y) :
    Capture.text ⟨label, c, c.advance x.length⟩ = x := by
  rw [Capture.text, c.advance_place (by simp [h]), h]
  simp

/-- The signature of a match with a name and parameters, if the name is not reserved. -/
theorem Match.signature?_eq {start stop c d : Cursor} {name params x y : Text}
    (hc : c.after = name ++ x) (hd : d.after = params ++ y) (hname : name ∉ reservedNames) :
    Match.signature? ⟨start, stop,
      [⟨⟨"params", "_a"⟩, d, d.advance params.length⟩, ⟨⟨"name", "_a"⟩, c, c.advance name.length⟩]⟩
        = some ⟨name, params⟩ := by
  have hgroup : ∀ role : String, Match.group? ⟨start, stop,
      [⟨⟨"params", "_a"⟩, d, d.advance params.length⟩,
        ⟨⟨"name", "_a"⟩, c, c.advance name.length⟩]⟩ role
      = if "params" = role then some params else if "name" = role then some name else none := by
    intro role
    rw [Match.group?, Match.capture?, List.find?_cons, List.find?_cons]
    by_cases h1 : "params" = role
    · simp [h1, Capture.text_eq _ hd]
    · by_cases h2 : "name" = role
      · simp [h1, h2, Capture.text_eq _ hc]
      · simp [h1, h2]
  unfold Match.signature?
  simp [hgroup, hname]

/-- The signature of a match with a type in front of the name: words that name neither are passed over. -/
theorem Match.signature?_typed {start stop b c d : Cursor} {ty name params w x y : Text}
    (hb : b.after = ty ++ w) (hc : c.after = name ++ x) (hd : d.after = params ++ y) :
    Match.signature? ⟨start, stop,
      [⟨⟨"params", "_a"⟩, d, d.advance params.length⟩, ⟨⟨"name", "_a"⟩, c, c.advance name.length⟩,
        ⟨⟨"rtype", "_a"⟩, b, b.advance ty.length⟩]⟩
      = if name ∈ reservedNames ∨ ty ∈ reservedTypes then none else some ⟨name, params⟩ := by
  have hgroup : ∀ role : String, Match.group? ⟨start, stop,
      [⟨⟨"params", "_a"⟩, d, d.advance params.length⟩, ⟨⟨"name", "_a"⟩, c, c.advance name.length⟩,
        ⟨⟨"rtype", "_a"⟩, b, b.advance ty.length⟩]⟩ role
      = if "params" = role then some params else if "name" = role then some name
        else if "rtype" = role then some ty else none := by
    intro role
    rw [Match.group?, Match.capture?, List.find?_cons, List.find?_cons, List.find?_cons]
    by_cases h1 : "params" = role
    · simp [h1, Capture.text_eq _ hd]
    · by_cases h2 : "name" = role
      · simp [h1, h2, Capture.text_eq _ hc]
      · by_cases h3 : "rtype" = role
        · simp [h1, h2, h3, Capture.text_eq _ hb]
        · simp [h1, h2, h3]
  unfold Match.signature?
  by_cases hname : name ∈ reservedNames
  · simp [hgroup, hname]
  · by_cases hty : ty ∈ reservedTypes
    · simp [hgroup, hname, hty]
    · simp [hgroup, hname, hty]

/-- The outline of the routine that a match stands for. -/
def Match.outline? (m : Match) (language : Language) (t : Text) : Option Outline :=
  (Routine.ofMatch? language t m).map (Routine.outline t)

/-- The outlines of a scan are those of the readings of its pattern. -/
theorem Routine.map_outline_scan (language : Language) (t : Text) :
    (Routine.scan language t).map (Routine.outline t)
      = (language.grammar.function.readings t.length (t.length + 1) (Cursor.ofPlace t 0)).filterMap
          (·.outline? language t) := by
  rw [Routine.scan, List.map_filterMap]
  rfl

/-- What is left to know of a written function once its signature is read: where its body is. -/
theorem Match.outline?_eq {language : Language} {m : Match} {c : Cursor} {n : Nat} {name : Text}
    {params : List Param} {block : Block} (hm : m.start = c) (hstop : m.stop = c.advance n)
    (hn : n ≤ c.after.length) (hsig : m.signature? = some ⟨name, Param.writtenAll params⟩)
    (htypes : language.typeFirst = false) (hparams : ∀ p ∈ params, Param.Writable language p)
    (hblock : language.block c.whole c.place (c.place + n) = block) :
    m.outline? language c.whole
      = some ⟨name, params, Text.slice c.whole block.bodyStart block.bodyEnd,
          c.before.count '\n' + 1, Text.lineNumber c.whole (max c.place (block.stop - 1))⟩ := by
  have hfirst : m.first = c.place := by rw [Match.first, hm]
  have hlast : m.last = c.place + n := by rw [Match.last, hstop, c.advance_place hn]
  have hline : Text.lineNumber c.whole c.place = c.before.count '\n' + 1 := by
    simpa using c.lineNumber_whole 0
  simp only [Match.outline?, Routine.ofMatch?, hsig, hfirst, hlast, hblock, hline,
    Param.parseAll_writtenAll htypes params hparams, Option.map_some, Routine.outline, Routine.body]

end CodeSurvey
