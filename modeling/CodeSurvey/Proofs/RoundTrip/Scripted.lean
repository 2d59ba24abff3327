import CodeSurvey.Proofs.RoundTrip.Signature
import CodeSurvey.Proofs.Text.NameChars

/-!
# Functions between braces can be read back

Functions are written one behind the other, each as a declaration with its body between braces and a
line end. A body may hold anything but the word that declares a function and the arrow, if its
braces are balanced. The scan finds exactly these functions.

The pattern of a function has four forms, and those that are not declarations could start inside one
body and end inside a later signature. What keeps them from it is the brace that closes the body:
only a type, type arguments and a parameter list can be read across it. A type ends with the line,
type arguments end in an angle that no signature has in front of its brackets, and a parameter list
would have to close a bracket inside the brackets of the later signature.

* `Draft`, `written`: functions to be written, and the text of them.
* `readAt?_signature`: a declaration is read where its word stands.
* `no_arrow`: no parameter list in front of an arrow ends behind a body.
* `readAt?_body`: nothing is read inside a body.
* `braced_body`: the body found is the body written.
* `outlines_concatenated`: the outlines of the functions found are those of the functions written.
-/

namespace CodeSurvey.Scripted

open Pattern Grammar.Scripted

/-- A function to be written: its signature and the text between its braces. -/
structure Draft where
  name : Text
  params : List Param
  body : Text

namespace Draft

/-- What is written in front of the brackets. -/
def opening (d : Draft) : Text :=
  ['f', 'u', 'n', 'c', 't', 'i', 'o', 'n', ' '] ++ d.name

/-- The signature. -/
def signature (d : Draft) : Text :=
  d.opening ++ '(' :: (Param.writtenAll d.params ++ [')'])

/-- What stands between the signature and the closing brace. -/
def inner (d : Draft) : Text :=
  ' ' :: '{' :: d.body

/-- The function as it is written. -/
def written (d : Draft) : Text :=
  d.signature ++ (d.inner ++ ['}', '\n'])

end Draft

/-- The text of functions. -/
def written (ds : List Draft) : Text :=
  ds.flatMap Draft.written

/-- Whether braces are balanced, given the number of those that are open. -/
def balancedFrom : Nat → Text → Bool
  | depth, [] => depth == 0
  | depth, c :: rest =>
    if c == '{' then balancedFrom (depth + 1) rest
    else if c == '}' then
      match depth with
      | 0 => false
      | depth + 1 => balancedFrom depth rest
    else balancedFrom depth rest

/-- A function that can be told from what is written. -/
structure Draft.Writable (d : Draft) : Prop where
  name : ∃ first rest, d.name = first :: rest ∧ isScriptNameStart first = true ∧
    ∀ c ∈ rest, isScriptNameRest c = true
  not_reserved : d.name ∉ reservedNames
  params : ∀ p ∈ d.params, Param.Writable .javascript p ∧ p.Shallow
  balanced : balancedFrom 0 d.body = true
  no_function : ¬ "function".toList <:+: d.body
  no_arrow : ¬ "=>".toList <:+: d.body

/-- The outlines of written functions, the first line having this number. -/
def outlinesFrom (line : Nat) : List Draft → List Outline
  | [] => []
  | d :: ds =>
    ⟨d.name, d.params, d.body, line, line + (d.signature ++ d.inner).count '\n'⟩ ::
      outlinesFrom (line + d.written.count '\n') ds

variable {limit : Nat} {c : Cursor} {d : Draft} {ds : List Draft} {y : Text}

/-! ## Names -/

theorem Draft.Writable.name_chars (hd : d.Writable) :
    ∀ c ∈ d.name, Text.isBlank c = false ∧ c ∉ ['(', ')', '>', '*', '/'] := by
  obtain ⟨first, rest, hname, hfirst, hrest⟩ := hd.name
  intro c hc
  rw [hname] at hc
  rcases List.mem_cons.1 hc with rfl | hc
  · exact nameChar_spec (isScriptNameRest_of_start hfirst)
  · exact nameChar_spec (hrest c hc)

/-! ## Where a function is read -/

/-- **A declaration is read where its word stands.** -/
theorem readAt?_signature (hd : d.Writable) (hafter : c.after = d.signature ++ y)
    (hlimit : c.after.length ≤ limit) :
    ∃ m, function.readAt? limit c = some m ∧ m.start = c ∧
      m.stop = c.advance d.signature.length ∧
      m.signature? = some ⟨d.name, Param.writtenAll d.params⟩ := by
  obtain ⟨first, rest, hname, hfirst, hrest⟩ := hd.name
  obtain ⟨hblank, hmarks⟩ := nameChar_spec (isScriptNameRest_of_start hfirst)
  have hparams := Param.shallow_writtenAll d.params hd.params
  have hlen : (Param.writtenAll d.params).length ≤ limit := by
    rw [hafter] at hlimit
    simp only [Draft.signature, List.length_append, List.length_cons] at hlimit
    omega
  have a0 : (⟨c, []⟩ : Reading).cursor.after = ['f', 'u', 'n', 'c', 't', 'i', 'o', 'n'] ++ ([' '] ++
      (d.name ++ (['('] ++ (Param.writtenAll d.params ++ ([')'] ++ y))))) := by
    simpa [Draft.signature, Draft.opening] using hafter
  have h0 : First limit (opt (lit "async" ++ someBlanks)) ⟨c, []⟩ _ :=
    First.skip (outcomes_eq_nil a0 (by decide) (by decide))
  have h1 : First limit (lit "function") ⟨c, []⟩ _ := First.lit limit a0 rfl
  have a1 := Reading.past_after a0
  have hedge : (Reading.past ⟨c, []⟩ ['f', 'u', 'n', 'c', 't', 'i', 'o', 'n']).cursor.atEdge
      = true := by
    have hlast : (Reading.past ⟨c, []⟩ ['f', 'u', 'n', 'c', 't', 'i', 'o', 'n']).cursor.before
        = ['n', 'o', 'i', 't', 'c', 'n', 'u', 'f'] ++ c.before := by
      rw [Reading.past, Cursor.advance_before, a0, List.take_left]
      rfl
    unfold Cursor.atEdge Cursor.lastIs Cursor.nextIs
    rw [hlast, a1]
    exact (by decide : (Text.isWord 'n' != Text.isWord ' ') = true)
  have h2 := First.edge limit hedge
  have a3 := Reading.past_after a1
  have a3' := a3
  rw [hname] at a3'
  have h3 : First limit blanks _ _ :=
    First.span limit a1 Text.isBlank_space (by rw [hname]; simpa using hblank)
  have hstar : (lit "*").mayStart first = false := by
    have hne : '*' ≠ first := fun h => hmarks (by simp [← h])
    exact (by simpa using hne : (some '*' == some first) = false)
  have h4 : First limit (opt (lit "*")) _ _ := First.skip (outcomes_eq_nil a3' hstar (by decide))
  have h5 : First limit blanks _ _ := First.span_nil limit a3' hblank
  -- the name ends at the bracket
  have hspan := First.one_span limit a3' hfirst hrest (by simp; decide)
  rw [← hname] at hspan
  have h6 : First limit (group ⟨"name", "_a"⟩ scriptName) _ _ := First.group _ hspan
  have a6 := Reading.mark_after ⟨"name", "_a"⟩ a3
  have h7 : First limit blanks _ _ := First.span_nil limit a6 (by decide)
  have h8 : First limit (opt generics) _ _ :=
    First.skip (outcomes_eq_nil a6 (by decide) (by decide))
  have h9 : First limit (lit "(") _ _ := First.lit limit a6 rfl
  have a9 := Reading.past_after a6
  have h10 : First limit (group ⟨"params", "_a"⟩ paramText) _ _ :=
    First.group _ (first_paramText hparams a9 hlen)
  have a10 := Reading.mark_after ⟨"params", "_a"⟩ a9
  have h11 : First limit (lit ")") _ _ := First.lit limit a10 rfl
  have hall : First limit declaredFunction _ _ := (((((((((((h0.seq h1).seq h2).seq h3).seq h4).seq
    h5).seq h6).seq h7).seq h8).seq h7).seq h9).seq h10).seq h11
  have hfun : First limit function _ _ := First.altLeft hall
  refine ⟨_, readAt?_of_first hfun, rfl, ?_, ?_⟩
  · simp only [Reading.past, Reading.mark, Cursor.advance_advance]
    refine congrArg c.advance ?_
    simp only [Draft.signature, Draft.opening, List.length_append, List.length_cons,
      List.length_nil]
    omega
  · exact Match.signature?_eq a3 a9 hd.not_reserved

/-! ## Across the brace that closes a body -/

section Boundary

variable {E R S u v w x z : Text} {ch last : Char}

/-- Behind another character there is the last one still to come. -/
theorem exists_concat (h : E ++ [last] = u ++ ch :: v) (hne : ch ≠ last) :
    ∃ v', v = v' ++ [last] ∧ E = u ++ ch :: v' := by
  rcases List.eq_nil_or_concat v with rfl | ⟨v', d, rfl⟩
  · have := (List.append_inj' h rfl).2
    simp at this
    exact absurd this.symm hne
  · rw [List.concat_eq_append, ← List.cons_append, ← List.append_assoc] at h
    obtain ⟨hE, hd⟩ := List.append_inj' h rfl
    obtain rfl : last = d := by simpa using hd
    exact ⟨v', List.concat_eq_append, hE⟩

/-- A word that is reached without a closing brace stands in front of the brace. -/
theorem infix_of_reached (h : E ++ '}' :: S = u ++ (w ++ v)) (hu : '}' ∉ u) (hw : '}' ∉ w) :
    w <:+: E := by
  obtain ⟨E', rfl, hrest⟩ := Text.exists_eq_append h hu
  obtain ⟨E'', rfl, -⟩ := Text.exists_eq_append hrest.symm hw
  exact ⟨u, E'', by simp⟩

/-- The place of a mark that is no part of the end of a body: in front of that end, or in what
follows. -/
theorem mark_cases (h : E ++ '}' :: '\n' :: R = u ++ ch :: v) (hbrace : ch ≠ '}')
    (hend : ch ≠ '\n') :
    (∃ E', E = u ++ ch :: E' ∧ v = E' ++ '}' :: '\n' :: R) ∨
      ∃ u', u = E ++ '}' :: '\n' :: u' ∧ R = u' ++ ch :: v := by
  have h' : (E ++ ['}'] ++ ['\n']) ++ R = u ++ ch :: v := by simpa using h
  rcases List.append_eq_append_iff.1 h' with ⟨u', hu, hR⟩ | ⟨V, hV, hrest⟩
  · exact Or.inr ⟨u', by simpa using hu, hR⟩
  · cases V with
    | nil => exact Or.inr ⟨[], by simpa using hV.symm, by simpa using hrest.symm⟩
    | cons d V =>
      obtain ⟨rfl, rfl⟩ : ch = d ∧ v = V ++ R := by simpa using hrest
      obtain ⟨V', rfl, hV'⟩ := exists_concat hV hend
      obtain ⟨V'', rfl, hE⟩ := exists_concat hV' hbrace
      exact Or.inl ⟨V'', hE, by simp⟩

end Boundary

theorem Draft.Writable.opening_chars (hd : d.Writable) :
    '(' ∉ d.opening ∧ ')' ∉ d.opening := by
  have hname := hd.name_chars
  constructor
  · intro hmem
    rcases List.mem_append.1 hmem with h | h
    · exact absurd h (by decide)
    · exact (hname _ h).2 (by decide)
  · intro hmem
    rcases List.mem_append.1 hmem with h | h
    · exact absurd h (by decide)
    · exact (hname _ h).2 (by decide)

/-- A word without blanks and braces stands in a body if it stands inside the function. -/
theorem Draft.infix_body {w : Text} {first : Char} {rest : Text} (hw : w = first :: rest)
    (hfirst : first ≠ ' ' ∧ first ≠ '{') (h : w <:+: d.inner) : w <:+: d.body := by
  subst hw
  rcases List.infix_cons_iff.1 h with h | h
  · exact absurd (List.cons_prefix_cons.1 h).1 hfirst.1
  · rcases List.infix_cons_iff.1 h with h | h
    · exact absurd (List.cons_prefix_cons.1 h).1 hfirst.2
    · exact h

theorem written_cons (d : Draft) (ds : List Draft) : written (d :: ds)
    = d.opening ++ '(' ::
        (Param.writtenAll d.params ++ ')' :: (d.inner ++ '}' :: '\n' :: written ds)) := by
  simp [written, Draft.written, Draft.signature]

/-- **No parameter list in front of an arrow ends behind a body**: the bracket that closes it would
stand inside the brackets of a later signature, and the bracket that it closes outside of them. -/
theorem no_arrow (hds : ∀ d ∈ ds, d.Writable) : ∀ {E W w v : Text} {inside : Bool},
    ¬ ['=', '>'] <:+: E → '}' ∉ w →
    E ++ '}' :: '\n' :: written ds = W ++ ')' :: (w ++ (['=', '>'] ++ v)) →
    Text.rounds inside W ≠ some false := by
  induction ds with
  | nil =>
    intro E W w v inside harrow hw h
    rcases mark_cases h (by decide) (by decide) with ⟨E', rfl, hrest⟩ | ⟨u', -, hR⟩
    · have := infix_of_reached hrest.symm hw (by decide)
      exact absurd (this.trans ⟨W ++ [')'], [], by simp⟩) harrow
    · simp [written] at hR
  | cons d ds ih =>
    intro E W w v inside harrow hw h hrounds
    have hd := hds d List.mem_cons_self
    rcases mark_cases h (by decide) (by decide) with ⟨E', rfl, hrest⟩ | ⟨W', rfl, hR⟩
    · have := infix_of_reached hrest.symm hw (by decide)
      exact absurd (this.trans ⟨W ++ [')'], [], by simp⟩) harrow
    · rw [written_cons] at hR
      have hopening : ')' ∉ d.opening ++ ['('] := by simp [hd.opening_chars.2]
      have hcut : W' ++ ')' :: (w ++ (['=', '>'] ++ v)) = d.opening ++ ['('] ++
          (Param.writtenAll d.params ++ ')' :: (d.inner ++ '}' :: '\n' :: written ds)) := by
        rw [← hR]
        simp
      obtain ⟨W1, rfl, hrest⟩ := Text.exists_eq_append hcut hopening
      -- the bracket of the signature has been passed from outside
      have hinside : Text.rounds true W1 = some false := by
        obtain ⟨i, -, hi⟩ := Text.exists_rounds (x := E ++ '}' :: '\n' :: d.opening)
          (y := '(' :: W1) (by simpa using hrounds)
        cases i with
        | true => simp [Text.rounds] at hi
        | false => simpa [Text.rounds] using hi
      have hinner : ∀ v, d.inner ++ '}' :: '\n' :: written ds ≠ w ++ (['=', '>'] ++ v) := by
        intro v hv
        exact hd.no_arrow (Draft.infix_body rfl (by decide) (infix_of_reached hv hw (by decide)))
      rcases List.append_eq_append_iff.1 hrest with ⟨a, ha, hclose⟩ | ⟨a, hP, hclose⟩
      · cases a with
        | nil => exact hinner v (List.cons.inj hclose).2
        | cons e a =>
          -- behind the signature, in its body or in what follows
          obtain ⟨rfl, hrest⟩ := List.cons.inj hclose
          obtain ⟨i, -, hi⟩ := Text.exists_rounds (x := Param.writtenAll d.params ++ [')']) (y := a)
            (by simpa [ha] using hinside)
          exact ih (fun x hx => hds x (List.mem_cons_of_mem _ hx))
            (fun h => hd.no_arrow (Draft.infix_body rfl (by decide) h)) hw hrest hi
      · cases a with
        | nil => exact hinner v (List.cons.inj hclose).2.symm
        | cons e a =>
          -- inside the brackets of the signature, where it closes another bracket
          obtain ⟨rfl, -⟩ := List.cons.inj hclose
          have hshallow := Param.shallow_writtenAll d.params hd.params
          rw [hP] at hshallow
          obtain ⟨i, hi, hrest⟩ := Text.exists_rounds hshallow
          obtain rfl : i = false := Text.rounds_both hi hinside
          simp [Text.rounds] at hrest

/-! ## Where none is read -/

section Forms

variable {E S x : Text}

theorem infix_of_declaredFunction (hx : declaredFunction.Spelled x) (hpre : x <+: E ++ '}' :: S) :
    "function".toList <:+: E := by
  simp only [declaredFunction, spelled_append_assoc] at hx
  obtain ⟨u, _, hu, ⟨_, v, rfl, -, rfl⟩, rfl⟩ := hx
  obtain ⟨rest, hrest⟩ := hpre
  simp only [List.append_assoc] at hrest
  exact infix_of_reached hrest.symm (notMem_of_lacks (by decide) hu) (by decide)

theorem infix_of_bareArrowFunction (hx : bareArrowFunction.Spelled x) (hpre : x <+: E ++ '}' :: S) :
    ['=', '>'] <:+: E := by
  unfold bareArrowFunction at hx
  obtain ⟨u, _, hu, rfl, rfl⟩ := hx
  obtain ⟨rest, hrest⟩ := hpre
  rw [List.append_assoc] at hrest
  exact infix_of_reached hrest.symm (notMem_of_lacks (by decide) hu) (by decide)

theorem infix_of_assignedFunction (hx : assignedFunction.Spelled x) (hpre : x <+: E ++ '}' :: S) :
    "function".toList <:+: E := by
  simp only [assignedFunction, spelled_append_assoc] at hx
  obtain ⟨u1, _, h1, ⟨u2, _, h2, ⟨u3, _, h3, ⟨u4, _, h4, ⟨u5, _, h5, ⟨_, v, rfl, -, rfl⟩, rfl⟩,
    rfl⟩, rfl⟩, rfl⟩, rfl⟩ := hx
  obtain ⟨rest, hrest⟩ := hpre
  have hu : '}' ∉ u1 ++ (u2 ++ (u3 ++ (u4 ++ u5))) := by
    simp only [List.mem_append, not_or]
    exact ⟨notMem_of_lacks (by decide) h1, notMem_of_lacks (by decide) h2,
      notMem_of_lacks (by decide) h3, notMem_of_lacks (by decide) h4,
      notMem_of_lacks (by decide) h5⟩
  refine infix_of_reached (S := S) (v := v ++ rest) ?_ hu (by decide)
  rw [← hrest]
  simp only [List.append_assoc]

/-- Type arguments and the blanks behind them end in a blank or an angle. -/
theorem generics_last (hx : (opt (generics ++ blanks)).Spelled x) :
    ∀ c ∈ x.getLast?, Text.isBlank c = true ∨ c = '>' := by
  rcases hx with ⟨g, b, hg, hb, rfl⟩ | rfl
  · obtain ⟨g, _, -, rfl, rfl⟩ : ∃ u v, _ ∧ (lit ">").Spelled v ∧ g = u ++ v := hg
    intro c hc
    rcases List.eq_nil_or_concat b with rfl | ⟨b, e, rfl⟩
    · right
      simpa [lit] using hc.symm
    · left
      rw [List.concat_eq_append, ← List.append_assoc, List.getLast?_concat] at hc
      obtain rfl : e = c := by simpa using hc
      exact hb e (by simp)
  · simp

/-- The bracket behind type arguments is not one of a later signature. -/
theorem bracket_before {Y : Text} (hds : ∀ d ∈ ds, d.Writable)
    (h : E ++ '}' :: '\n' :: written ds = x ++ '(' :: Y) (hx : '(' ∉ x)
    (hlast : ∀ c ∈ x.getLast?, Text.isBlank c = true ∨ c = '>') :
    ∃ E', E = x ++ '(' :: E' ∧ Y = E' ++ '}' :: '\n' :: written ds := by
  rcases mark_cases h (by decide) (by decide) with hbefore | ⟨x', rfl, hR⟩
  · exact hbefore
  · exfalso
    cases ds with
    | nil => simp [written] at hR
    | cons d ds =>
      have hd := hds d List.mem_cons_self
      rw [written_cons] at hR
      have hx' : '(' ∉ x' := fun hmem => hx (by simp [hmem])
      obtain ⟨w, hw, hrest⟩ := Text.exists_eq_append hR hx'
      cases w with
      | nil =>
        -- what is in front of the bracket is the name of the function
        rw [List.append_nil] at hw
        subst hw
        obtain ⟨first, rest, hname, -, -⟩ := hd.name
        have hne : d.name ≠ [] := by simp [hname]
        have hmem := List.getLast_mem hne
        obtain ⟨hblank, hmarks⟩ := hd.name_chars _ hmem
        rcases hlast (d.name.getLast hne) (by
          rw [Draft.opening, ← List.cons_append, ← List.cons_append, ← List.append_assoc,
            List.getLast?_append_of_ne_nil _ hne, List.getLast?_eq_some_getLast hne]
          rfl) with hc | hc
        · rw [hblank] at hc
          simp at hc
        · exact hmarks (by simp [hc])
      | cons e w =>
        obtain ⟨rfl, -⟩ := List.cons.inj hrest
        exact hd.opening_chars.1 (by simp [hw])

/-- **No arrow function is read in front of the end of a body without an arrow.** -/
theorem not_arrowFunction (hds : ∀ d ∈ ds, d.Writable) (harrow : ¬ ['=', '>'] <:+: E)
    (hx : arrowFunction.Spelled x) : ¬ x <+: E ++ '}' :: '\n' :: written ds := by
  rintro ⟨rest, hrest⟩
  simp only [arrowFunction, spelled_append_assoc] at hx
  obtain ⟨u1, _, h1, ⟨u2, _, h2, ⟨u3, _, h3, ⟨u4, _, h4, ⟨_, _, rfl, ⟨u5, _, h5, ⟨u6, _, h6,
    ⟨u7, _, h7, ⟨_, _, rfl, ⟨z, _, hz, ⟨_, _, rfl, ⟨w1, _, k1, ⟨w2, _, k2, ⟨w3, _, k3, rfl, rfl⟩,
    rfl⟩, rfl⟩, rfl⟩, rfl⟩, rfl⟩, rfl⟩, rfl⟩, rfl⟩, rfl⟩, rfl⟩, rfl⟩, rfl⟩, rfl⟩ := hx
  have hfront : '}' ∉ u1 ++ (u2 ++ u3) := by
    simp only [List.mem_append, not_or]
    exact ⟨notMem_of_lacks (by decide) h1, notMem_of_lacks (by decide) h2,
      notMem_of_lacks (by decide) h3⟩
  have htype : '\n' ∉ u4 := notMem_of_lacks (by decide) h4
  have hasync : '}' ∉ u5 ++ u6 := by
    simp only [List.mem_append, not_or]
    exact ⟨notMem_of_lacks (by decide) h5, notMem_of_lacks (by decide) h6⟩
  have hreturn : '}' ∉ w1 ++ (w2 ++ w3) := by
    simp only [List.mem_append, not_or]
    exact ⟨notMem_of_lacks (by decide) k1, notMem_of_lacks (by decide) k2,
      notMem_of_lacks (by decide) k3⟩
  have hcut : E ++ '}' :: '\n' :: written ds = (u1 ++ (u2 ++ u3)) ++ (u4 ++ '=' :: ((u5 ++ u6) ++
      (u7 ++ '(' :: (z ++ ')' :: ((w1 ++ (w2 ++ w3)) ++ (['=', '>'] ++ rest)))))) := by
    rw [← hrest]
    simp
  -- the name and its type end in front of the brace, and so does everything up to the bracket
  obtain ⟨E1, rfl, r1⟩ := Text.exists_eq_append hcut hfront
  rcases mark_cases r1.symm (by decide) (by decide) with ⟨E2, rfl, r2⟩ | ⟨u', rfl, -⟩
  · obtain ⟨E3, rfl, r3⟩ := Text.exists_eq_append r2.symm hasync
    obtain ⟨E4, rfl, r4⟩ := bracket_before hds r3.symm (notMem_of_lacks (by decide) h7)
      (generics_last h7)
    have harrow' : ¬ ['=', '>'] <:+: E4 := fun h => harrow <| h.trans
      ⟨u1 ++ (u2 ++ u3) ++ (u4 ++ '=' :: (u5 ++ u6 ++ (u7 ++ ['(']))), [], by simp⟩
    exact no_arrow hds harrow' hreturn r4.symm (shallow_of_spelled hz)
  · simp at htype

/-- **Nothing is read inside a body.** -/
theorem readAt?_body (hds : ∀ d ∈ ds, d.Writable)
    (hafter : c.after = E ++ '}' :: '\n' :: written ds)
    (hfunction : ¬ "function".toList <:+: E) (harrow : ¬ ['=', '>'] <:+: E) :
    function.readAt? limit c = none := by
  apply readAt?_eq_none
  intro x hx hpre
  rw [hafter] at hpre
  rcases hx with hx | hx | hx | hx
  · exact hfunction (infix_of_declaredFunction hx hpre)
  · exact not_arrowFunction hds harrow hx hpre
  · exact harrow (infix_of_bareArrowFunction hx hpre)
  · exact hfunction (infix_of_assignedFunction hx hpre)

end Forms

/-- Nothing is read at a line end or at the end of the text. -/
theorem readAt?_end (hafter : c.after = [] ∨ ∃ z, c.after = '\n' :: z) :
    function.readAt? limit c = none := by
  apply readAt?_eq_none
  intro x hx hpre
  cases x with
  | nil =>
    have := minWidth_le_length hx
    exact absurd this (by decide)
  | cons ch x =>
    rcases hafter with hafter | ⟨z, hafter⟩
    · rw [hafter] at hpre
      simp at hpre
    · rw [hafter] at hpre
      obtain rfl := (List.cons_prefix_cons.1 hpre).1
      exact absurd (mayStart_of_spelled hx) (by decide)

/-- From the end of a signature up to the next one, or to the end of the text, nothing is read. -/
theorem quiet_inner (hd : d.Writable) (hds : ∀ d ∈ ds, d.Writable)
    (hafter : c.after = d.inner ++ '}' :: '\n' :: written ds) :
    Quiet limit function c (d.inner.length + 2) := by
  intro i hi
  rcases Nat.lt_or_ge d.inner.length i with hlt | hle
  · obtain rfl : i = d.inner.length + 1 := by omega
    apply readAt?_end
    right
    refine ⟨written ds, ?_⟩
    rw [Cursor.advance_after, hafter, List.drop_append, List.drop_of_length_le (by omega)]
    simp
  · have hsuffix : ∀ w : Text, w <:+: d.inner.drop i → w <:+: d.inner := fun w hw =>
      hw.trans (List.drop_suffix i d.inner).isInfix
    refine readAt?_body hds (E := d.inner.drop i) ?_ ?_ ?_
    · rw [Cursor.advance_after, hafter, List.drop_append_of_le_length hle]
    · exact fun h => hd.no_function (Draft.infix_body rfl (by decide) (hsuffix _ h))
    · exact fun h => hd.no_arrow (Draft.infix_body rfl (by decide) (hsuffix _ h))

/-! ## Bodies -/

/-- The brace behind a balanced text closes the one in front of it. -/
theorem closeFrom?_balanced (body : Text) : ∀ {depth place : Nat}, balancedFrom depth body = true →
    Block.closeFrom? ((depth : Int) + 1) place (body ++ '}' :: y) = some (place + body.length) := by
  induction body with
  | nil =>
    intro depth place h
    obtain rfl : depth = 0 := by simpa [balancedFrom] using h
    rfl
  | cons ch body ih =>
    intro depth place h
    have hlen : place + (ch :: body).length = place + 1 + body.length := by
      rw [List.length_cons]
      omega
    rw [List.cons_append, Block.closeFrom?, hlen]
    unfold balancedFrom at h
    split at h
    · rename_i hopen
      rw [if_pos hopen]
      exact_mod_cast ih h
    · rename_i hopen
      rw [if_neg hopen]
      split at h
      · rename_i hclose
        rw [if_pos hclose]
        cases depth with
        | zero => simp at h
        | succ depth =>
          have hdepth : ((depth + 1 : Nat) : Int) + 1 - 1 = (depth : Int) + 1 := by omega
          rw [hdepth, if_neg (by simp; omega)]
          exact ih h
      · rename_i hclose
        rw [if_neg hclose]
        exact ih h

/-- The block behind a signature that a blank, a brace and a balanced text follow. -/
theorem braced_eq {t body : Text} {place : Nat} (start : Nat) (hdrop : t.drop place = ' ' :: '{' :: (body ++ '}' :: y))
    (hbody : balancedFrom 0 body = true) : Block.braced t start place
      = ⟨place + 2, place + 2 + body.length, place + 2 + body.length + 1⟩ := by
  have hdrop' : t.drop (place + 1) = '{' :: (body ++ '}' :: y) := by
    rw [← List.drop_drop, hdrop]
    rfl
  have hskip : Block.skipBlanks t place = place + 1 := by
    unfold Block.skipBlanks
    rw [hdrop]
    rfl
  have hbrace : Block.standsAt ['{'] t (place + 1) = true := by
    unfold Block.standsAt
    rw [hdrop']
    rfl
  have harrow : Block.standsAt ['=', '>'] t (place + 1) = false := by
    unfold Block.standsAt
    rw [hdrop']
    rfl
  have hopen : Block.openBrace? t place = some (place + 1) := by
    have hindex : Text.indexFrom? (fun ch => ch == '{' || ch == ';') t place = some (place + 1) := by
      unfold Text.indexFrom?
      rw [hdrop]
      rfl
    rw [Block.openBrace?, hindex, Option.filter_some, if_pos hbrace]
  have hclose : Block.matchingBrace? t (place + 1) = some (place + 1 + 1 + body.length) := by
    unfold Block.matchingBrace?
    rw [hdrop']
    exact closeFrom?_balanced body hbody
  unfold Block.braced
  simp only [hskip, harrow, hbrace, Block.enclosed, hopen, hclose, Bool.false_eq_true, if_false,
    Bool.not_true, Bool.and_false]

/-- **The body found is the body written.** -/
theorem braced_body (hd : d.Writable) (hafter : c.after = d.signature ++ (d.inner ++ '}' :: y)) :
    Block.braced c.whole c.place (c.place + d.signature.length)
      = ⟨c.place + (d.signature.length + 2), c.place + (d.signature.length + 2) + d.body.length,
          c.place + (d.signature.length + 2) + d.body.length + 1⟩ := by
  have hdrop : c.whole.drop (c.place + d.signature.length)
      = ' ' :: '{' :: (d.body ++ '}' :: y) := by
    rw [Cursor.whole_drop, hafter, List.drop_left]
    rfl
  exact braced_eq c.place hdrop hd.balanced

/-- The routine of a match of a written function. -/
theorem outline?_written {m : Match} (hd : d.Writable)
    (hafter : c.after = d.signature ++ (d.inner ++ '}' :: y)) (hm : m.start = c)
    (hstop : m.stop = c.advance d.signature.length)
    (hsig : m.signature? = some ⟨d.name, Param.writtenAll d.params⟩) :
    m.outline? .javascript c.whole
      = some ⟨d.name, d.params, d.body, c.before.count '\n' + 1,
          c.before.count '\n' + 1 + (d.signature ++ d.inner).count '\n'⟩ := by
  have hinner : d.inner.length = d.body.length + 2 := rfl
  have hslice : Text.slice c.whole (c.place + (d.signature.length + 2))
      (c.place + (d.signature.length + 2) + d.body.length) = d.body := by
    rw [c.slice_whole, hafter, ← List.drop_drop, List.drop_left]
    simp [Draft.inner]
  have hline : Text.lineNumber c.whole (c.place + (d.signature.length + 2 + d.body.length))
      = c.before.count '\n' + 1 + (d.signature ++ d.inner).count '\n' := by
    have htake : c.after.take (d.signature.length + 2 + d.body.length)
        = d.signature ++ d.inner := by
      rw [hafter, ← List.append_assoc]
      exact List.take_left' (by rw [List.length_append, hinner]; omega)
    rw [c.lineNumber_whole, htake]
  have hmax : max c.place (c.place + (d.signature.length + 2) + d.body.length + 1 - 1)
      = c.place + (d.signature.length + 2 + d.body.length) := by omega
  have hblock := braced_body hd hafter
  have hlanguage : Language.javascript.block = Block.braced := rfl
  rw [← hlanguage] at hblock
  rw [Match.outline?_eq hm hstop (by simp [hafter]) hsig rfl (fun p hp => (hd.params p hp).1)
    hblock, hslice, hmax, hline]

/-! ## All functions -/

/-- **One function more**: behind places where nothing is read it is the first that is read, and
nothing is read between it and the next one. -/
theorem readings_step {k : Nat} (hd : d.Writable) (hds : ∀ d ∈ ds, d.Writable)
    (hquiet : Quiet limit function c k) (hk : k ≤ c.after.length)
    (hafter : (c.advance k).after = written (d :: ds)) (hlimit : c.after.length ≤ limit) (n : Nat) :
    ∃ m f, function.readings limit (n + 1) c = m :: function.readings limit n f ∧
      f.whole = c.whole ∧ f.after.length < c.after.length ∧
      d.inner.length + 2 ≤ f.after.length ∧ Quiet limit function f (d.inner.length + 2) ∧
      (f.advance (d.inner.length + 2)).after = written ds ∧
      (f.advance (d.inner.length + 2)).before.count '\n'
        = (c.advance k).before.count '\n' + d.written.count '\n' ∧
      m.outline? .javascript c.whole
        = some ⟨d.name, d.params, d.body, (c.advance k).before.count '\n' + 1,
            (c.advance k).before.count '\n' + 1 + (d.signature ++ d.inner).count '\n'⟩ := by
  obtain ⟨e, he⟩ : ∃ e, e = c.advance k := ⟨_, rfl⟩
  rw [← he] at hafter ⊢
  have heafter : e.after = d.signature ++ (d.inner ++ '}' :: '\n' :: written ds) := by
    rw [hafter, written_cons]
    simp [Draft.signature]
  have hlen : e.after.length ≤ c.after.length := by
    rw [he, Cursor.advance_after, List.length_drop]
    omega
  have hewhole : e.whole = c.whole := by rw [he, Cursor.advance_whole]
  obtain ⟨m, hread, hm, hstop, hsig⟩ := readAt?_signature hd heafter (Nat.le_trans hlen hlimit)
  have hpos : 0 < d.signature.length := by
    rw [Draft.signature, List.length_append, List.length_cons]
    omega
  have hlt : m.first < m.last := by
    rw [Match.first, Match.last, hm, hstop, e.advance_place (by simp [heafter])]
    omega
  have hfafter : m.stop.after = d.inner ++ '}' :: '\n' :: written ds := by
    simp [hstop, heafter]
  rw [he] at hread
  refine ⟨m, m.stop, readings_of_first hlimit hk hquiet hread hlt, ?_, ?_, ?_,
    quiet_inner hd hds hfafter, ?_, ?_, ?_⟩
  · rw [hstop, Cursor.advance_whole, hewhole]
  · have := congrArg List.length heafter
    rw [List.length_append, ← hfafter] at this
    omega
  · rw [hfafter, List.length_append, List.length_cons, List.length_cons]
    omega
  · rw [Cursor.advance_after, hfafter, ← List.drop_drop, List.drop_left]
    rfl
  · rw [hstop, Cursor.advance_advance, Cursor.advance_before, heafter]
    have htake : (d.signature ++ (d.inner ++ '}' :: '\n' :: written ds)).take
        (d.signature.length + (d.inner.length + 2)) = d.written := by
      rw [List.take_length_add_append, List.take_length_add_append]
      rfl
    rw [htake, List.count_append, List.count_reverse, Nat.add_comm]
  · have := outline?_written hd heafter hm hstop hsig
    rwa [hewhole] at this

/-- **The functions found behind places where nothing is read are those written there**, by
induction on the functions. -/
theorem readings_written (limit : Nat) (ds : List Draft) :
    ∀ (c : Cursor) (k n : Nat), (∀ d ∈ ds, d.Writable) → Quiet limit function c k →
      k ≤ c.after.length → (c.advance k).after = written ds → c.after.length ≤ limit →
      c.after.length < n →
      (function.readings limit n c).filterMap (·.outline? .javascript c.whole)
        = outlinesFrom ((c.advance k).before.count '\n' + 1) ds := by
  induction ds with
  | nil =>
    intro c k n _ hquiet hk hafter _ _
    -- the text ends here
    have hnone : function.readAt? limit (c.advance k) = none := readAt?_end (Or.inl hafter)
    have hlen : c.after.length = k := by
      have := congrArg List.length hafter
      rw [Cursor.advance_after, List.length_drop] at this
      simp [written] at this
      omega
    have hall : Quiet limit function c (c.after.length + 1) := by
      rw [hlen]
      refine hquiet.append fun i hi => ?_
      obtain rfl : i = 0 := by omega
      rwa [Cursor.advance_zero]
    rw [readings_eq_nil hall]
    rfl
  | cons d ds ih =>
    intro c k n hds hquiet hk hafter hlimit hn
    have hd := hds d List.mem_cons_self
    have hds' : ∀ d ∈ ds, d.Writable := fun x hx => hds x (List.mem_cons_of_mem _ hx)
    obtain ⟨n, rfl⟩ : ∃ n', n = n' + 1 := ⟨n - 1, by omega⟩
    obtain ⟨m, f, hreadings, hwhole, hshort, hfk, hfquiet, hfafter, hcount, houtline⟩ :=
      readings_step hd hds' hquiet hk hafter hlimit n
    have hrest := ih f _ n hds' hfquiet hfk hfafter (by omega) (by omega)
    rw [hwhole, hcount] at hrest
    rw [Nat.add_right_comm] at hrest
    rw [hreadings, List.filterMap_cons, houtline, hrest, outlinesFrom]

/-- **The outlines of the functions found are those of the functions written.** -/
theorem outlines_concatenated (ds : List Draft) (h : ∀ d ∈ ds, d.Writable) :
    (Routine.scan .javascript (written ds)).map (Routine.outline (written ds))
      = outlinesFrom 1 ds := by
  have hrun := readings_written (written ds).length ds (Cursor.ofPlace (written ds) 0) 0
    ((written ds).length + 1) h (fun i hi => absurd hi (Nat.not_lt_zero i)) (Nat.zero_le _) rfl
    (Nat.le_refl _) (Nat.lt_succ_self _)
  rw [Cursor.ofPlace_whole] at hrun
  rw [Routine.map_outline_scan]
  exact hrun

/-- Two functions: one whose body opens what could be the parameter list of an arrow function, and
one with an arrow among its default values. -/
def sample : List Draft :=
  [⟨"$f".toList, [⟨"a".toList, none, some "\x7b b: [1, 2] \x7d".toList⟩],
      "\n  if (a) \x7b let y = (a, \x7d\n".toList⟩,
    ⟨"g2".toList, [⟨"x".toList, none, none⟩, ⟨"cb".toList, none, some "(x) => x".toList⟩], []⟩]

theorem sample_writable : ∀ d ∈ sample, d.Writable := by
  have hfunction : ∀ d ∈ sample, ¬ "function".toList <:+: d.body := by
    simp only [← Text.occursIn_iff]
    decide
  have harrow : ∀ d ∈ sample, ¬ "=>".toList <:+: d.body := by
    simp only [← Text.occursIn_iff]
    decide
  intro d hd
  rcases List.mem_cons.1 hd with rfl | hd'
  · refine ⟨⟨'$', "f".toList, rfl, by decide, List.all_eq_true.1 (by decide)⟩, by decide, ?_,
      by decide, hfunction _ hd, harrow _ hd⟩
    intro p hp
    obtain rfl := List.mem_singleton.1 hp
    refine ⟨⟨by decide, List.all_eq_true.1 (by decide), by decide, by simp, ?_⟩, by decide,
      by decide⟩
    rintro _ ⟨⟩
    exact ⟨by decide, by decide, by decide, by decide⟩
  · obtain rfl := List.mem_singleton.1 hd'
    refine ⟨⟨'g', "2".toList, rfl, by decide, List.all_eq_true.1 (by decide)⟩, by decide, ?_,
      by decide, hfunction _ hd, harrow _ hd⟩
    intro p hp
    rcases List.mem_cons.1 hp with rfl | hp
    · exact ⟨⟨by decide, List.all_eq_true.1 (by decide), by decide, by simp, by simp⟩, by decide,
        by decide⟩
    · obtain rfl := List.mem_singleton.1 hp
      refine ⟨⟨by decide, List.all_eq_true.1 (by decide), by decide, by simp, ?_⟩, by decide,
        by decide⟩
      rintro _ ⟨⟩
      exact ⟨by decide, by decide, by decide, by decide⟩

theorem outlines_concatenated_sample : (∀ d ∈ sample, d.Writable) ∧
    (Routine.scan .javascript (written sample)).map (Routine.outline (written sample))
      = [⟨"$f".toList, [⟨"a".toList, none, some "\x7b b: [1, 2] \x7d".toList⟩],
          "\n  if (a) \x7b let y = (a, \x7d\n".toList, 1, 3⟩,
        ⟨"g2".toList, [⟨"x".toList, none, none⟩, ⟨"cb".toList, none, some "(x) => x".toList⟩], [],
          4, 4⟩] :=
  ⟨sample_writable, (outlines_concatenated sample sample_writable).trans (by decide)⟩

end CodeSurvey.Scripted
