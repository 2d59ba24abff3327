import CodeSurvey.Proofs.RoundTrip.Signature

/-!
# Functions told by indentation can be read back

Functions are written one below the other, each as a line with its signature and the lines of its
body, with any number of empty lines between. The scan finds exactly these functions.

* `Draft`, `written`: functions to be written, and the text of them.
* `readAt?_signature`: a signature is read at the start of its line.
* `readAt?_of_not_start`, `readAt?_of_not_opens`, `quiet_unlines`: nothing else is read.
* `indented_body`: the body found is the body written.
* `outlines_written`: the outlines of the functions found are those of the functions written.
-/

namespace CodeSurvey.Indented

open Pattern Grammar.Indented

/-- A function to be written: its signature and the lines of its body. -/
structure Draft where
  name : Text
  params : List Param
  body : List Text

namespace Draft

/-- The line of the signature. -/
def signature (d : Draft) : Text :=
  ['d', 'e', 'f', ' '] ++ d.name ++ '(' :: Param.writtenAll d.params ++ [')', ':']

/-- The lines of a function. -/
def lines (d : Draft) : List Text :=
  d.signature :: d.body

end Draft

/-- How the line of a function may start behind its indentation. -/
def openings : List Text :=
  ["def ", "def\t", "async ", "async\t"].map String.toList

/-- Whether a line starts as the line of a function does. -/
def OpensFunction (line : Text) : Prop :=
  ∃ w ∈ openings, w <+: line.dropWhile isGap

instance (line : Text) : Decidable (OpensFunction line) :=
  inferInstanceAs (Decidable (∃ w ∈ openings, w <+: line.dropWhile isGap))

/-- A line of a body whose first line has this indentation. -/
structure BodyLine (width : Nat) (line : Text) : Prop where
  no_end : '\n' ∉ line
  not_blank : Block.isBlankLine line = false
  width_le : width ≤ Text.indentWidth line
  no_function : ¬ OpensFunction line

/-- A function that can be told from what is written. -/
structure Draft.Writable (d : Draft) : Prop where
  name : ∃ first rest, d.name = first :: rest ∧ isNameStart first = true ∧
    ∀ c ∈ rest, Text.isWord c = true
  not_reserved : d.name ∉ reservedNames
  params : ∀ p ∈ d.params, Param.Writable .python p ∧ p.Shallow
  params_line : ∀ p ∈ d.params, (∀ ty ∈ p.type, '\n' ∉ ty) ∧ ∀ v ∈ p.defaultValue, '\n' ∉ v
  body : ∃ first rest, d.body = first :: rest ∧ 0 < Text.indentWidth first ∧
    ∀ line ∈ d.body, BodyLine (Text.indentWidth first) line

/-- The lines of functions, each behind its number of empty lines. -/
def writtenLines : List (Nat × Draft) → List Text
  | [] => []
  | (gap, d) :: ds => List.replicate gap [] ++ d.lines ++ writtenLines ds

/-- The text of functions, with empty lines in front of each and at the end. -/
def written (ds : List (Nat × Draft)) (trailing : Nat) : Text :=
  Text.joinLines (writtenLines ds ++ List.replicate trailing [])

/-- The outlines of written functions, the first line having this number. -/
def outlinesFrom (line : Nat) : List (Nat × Draft) → List Outline
  | [] => []
  | (gap, d) :: ds =>
    let first := line + gap
    ⟨d.name, d.params, Text.joinLines d.body, first, first + d.body.length⟩ ::
      outlinesFrom (first + d.body.length + 1) ds

variable {limit : Nat} {c : Cursor} {d : Draft} {l y : Text}

theorem isGap_iff {c : Char} : isGap c = true ↔ c = ' ' ∨ c = '\t' := by
  simp [isGap]

/-! ## Where a function is read -/

/-- **A signature is read at the start of its line.** -/
theorem readAt?_signature (hd : d.Writable) (hstart : c.atLineStart = true)
    (hafter : c.after = d.signature ++ y) (hlimit : c.after.length ≤ limit) :
    ∃ m, function.readAt? limit c = some m ∧ m.start = c ∧
      m.stop = c.advance d.signature.length ∧
      m.signature? = some ⟨d.name, Param.writtenAll d.params⟩ := by
  obtain ⟨first, rest, hname, hfirst, hrest⟩ := hd.name
  have hgap : isGap first = false := by
    by_contra h
    rcases isGap_iff.1 (by simpa using h) with rfl | rfl <;> exact absurd hfirst (by decide)
  have hparams := Param.shallow_writtenAll d.params hd.params
  have hlen : (Param.writtenAll d.params).length ≤ limit := by
    rw [hafter] at hlimit
    simp only [Draft.signature, List.length_append, List.length_cons] at hlimit
    omega
  have a0 : (⟨c, []⟩ : Reading).cursor.after = ['d', 'e', 'f'] ++ ([' '] ++ (d.name ++
      (['('] ++ (Param.writtenAll d.params ++ ([')'] ++ ([':'] ++ y)))))) := by
    simpa [Draft.signature] using hafter
  -- the line starts here, without indentation
  have h0 : First limit indent ⟨c, []⟩ _ :=
    (First.lineStart limit hstart).seq (First.span_nil limit a0 (by decide))
  have h1 : First limit (opt (lit "async" ++ someGap)) ⟨c, []⟩ _ :=
    First.skip (outcomes_eq_nil a0 (by decide) (by decide))
  have h2 : First limit (lit "def") ⟨c, []⟩ _ := First.lit limit a0 rfl
  have a2 := Reading.past_after a0
  have a3 := Reading.past_after a2
  have a3' := a3
  rw [hname] at a3'
  have h3 : First limit someGap _ _ :=
    (First.one limit a2 (by decide)).seq (First.span_nil limit a3' hgap)
  -- the name ends at the bracket
  have hspan := First.one_span limit a3' hfirst hrest (by simp; decide)
  rw [← hname] at hspan
  have h4 : First limit (group ⟨"name", "_a"⟩ name) _ _ := First.group _ hspan
  have a4 := Reading.mark_after ⟨"name", "_a"⟩ a3
  have h5 : First limit gap _ _ := First.span_nil limit a4 (by decide)
  have h6 : First limit (lit "(") _ _ := First.lit limit a4 rfl
  have a6 := Reading.past_after a4
  have h7 : First limit (group ⟨"params", "_a"⟩ paramText) _ _ :=
    First.group _ (first_paramText hparams a6 hlen)
  have a7 := Reading.mark_after ⟨"params", "_a"⟩ a6
  have h8 : First limit (lit ")") _ _ := First.lit limit a7 rfl
  have a8 := Reading.past_after a7
  have h9 : First limit gap _ _ := First.span_nil limit a8 (by decide)
  have h10 : First limit (opt (lit "->" ++ plus (noneOf ":\n"))) _ _ :=
    First.skip (outcomes_eq_nil a8 (by decide) (by decide))
  have h11 : First limit (lit ":") _ _ := First.lit limit a8 rfl
  have hall : First limit function _ _ := ((((((((((h0.seq h1).seq h2).seq h3).seq h4).seq h5).seq
    h6).seq h7).seq h8).seq h9).seq h10).seq h11
  refine ⟨_, readAt?_of_first hall, rfl, ?_, ?_⟩
  · simp only [Reading.past, Reading.mark, Cursor.advance_advance]
    refine congrArg c.advance ?_
    simp only [Draft.signature, List.length_append, List.length_cons, List.length_nil]
    omega
  · exact Match.signature?_eq a3 a6 hd.not_reserved

/-! ## Where none is read -/

/-- A function is read only at the start of a line. -/
theorem readAt?_of_not_start (h : c.atLineStart = false) : function.readAt? limit c = none := by
  rw [readAt?_eq]
  simp [function, indent, outcomes_append, outcomes, h]

theorem opensFunction_append {g w z : Text} (hg : ∀ c ∈ g, isGap c = true) (hw : w ∈ openings) :
    OpensFunction (g ++ (w ++ z)) := by
  refine ⟨w, hw, ?_⟩
  rw [List.dropWhile_append_of_pos hg]
  have hfirst : ∀ w ∈ openings, ∀ z : Text, (w ++ z).dropWhile isGap = w ++ z := by
    simp [openings, isGap]
  rw [hfirst w hw]
  exact List.prefix_append _ _

/-- A function is read only where the line starts as one. -/
theorem readAt?_of_not_opens (h : ¬ OpensFunction c.after) : function.readAt? limit c = none := by
  apply readAt?_eq_none
  intro x hx hpre
  simp only [function, indent, spelled_append_assoc] at hx
  obtain ⟨_, _, rfl, ⟨g, _, hg, ⟨a, _, ha, ⟨_, _, rfl, ⟨_, z, hb, -, rfl⟩, rfl⟩, rfl⟩, rfl⟩, rfl⟩ :=
    hx
  obtain ⟨rest, hrest⟩ := hpre
  obtain ⟨_, v, ⟨b, hbgap, rfl⟩, -, rfl⟩ := hb
  apply h
  rw [← hrest]
  rcases ha with ⟨_, _, rfl, ⟨_, u, ⟨e, hegap, rfl⟩, -, rfl⟩, rfl⟩ | rfl
  · have hw : "async".toList ++ [e] ∈ openings := by
      rcases isGap_iff.1 hegap with rfl | rfl <;> decide
    simpa using opensFunction_append (z := u ++ ("def".toList ++ ([b] ++ (v ++ (z ++ rest))))) hg hw
  · have hw : "def".toList ++ [b] ∈ openings := by
      rcases isGap_iff.1 hbgap with rfl | rfl <;> decide
    simpa using opensFunction_append (z := v ++ (z ++ rest)) hg hw

/-- What follows the line does not matter to how it starts. -/
theorem opensFunction_of_append (hy : y = [] ∨ ∃ z, y = '\n' :: z) (h : OpensFunction (l ++ y)) :
    OpensFunction l := by
  rcases hy with rfl | ⟨z, rfl⟩
  · simpa using h
  · obtain ⟨w, hw, rest, hrest⟩ := h
    have hdrop : (l ++ '\n' :: z).dropWhile isGap = l.dropWhile isGap ++ '\n' :: z := by
      rw [List.dropWhile_append]
      split
      · rename_i hempty
        rw [List.isEmpty_iff.1 hempty]
        rfl
      · rfl
    have hend : ∀ w ∈ openings, '\n' ∉ w := by decide
    rw [hdrop] at hrest
    obtain ⟨w', hw', -⟩ := Text.exists_eq_append hrest.symm (hend w hw)
    exact ⟨w, hw, w', hw'.symm⟩

/-- **No function is read on a line that does not start as one.** -/
theorem quiet_line (hafter : c.after = l ++ y) (hy : y = [] ∨ ∃ z, y = '\n' :: z) (hl : '\n' ∉ l)
    (hopen : ¬ OpensFunction l) : Quiet limit function c (l.length + 1) := by
  intro i hi
  cases i with
  | zero =>
    rw [Cursor.advance_zero]
    apply readAt?_of_not_opens
    rw [hafter]
    exact fun h => hopen (opensFunction_of_append hy h)
  | succ i =>
    -- the character in front is one of the line
    apply readAt?_of_not_start
    have hlt : i < l.length := by omega
    have hbefore : (c.advance (i + 1)).before
        = l[i] :: ((c.after.take i).reverse ++ c.before) := by
      rw [Cursor.advance_before, List.take_add_one, List.reverse_append, List.append_assoc, hafter,
        List.getElem?_append_left hlt, List.getElem?_eq_getElem hlt]
      rfl
    have hne : l[i] ≠ '\n' := fun h => hl (h ▸ List.getElem_mem hlt)
    unfold Cursor.atLineStart Cursor.lastIs
    rw [hbefore]
    simpa using hne

theorem quiet_unlines (ls : List Text) (h : ∀ l ∈ ls, '\n' ∉ l ∧ ¬ OpensFunction l) :
    ∀ {c : Cursor}, c.after = Text.unlines ls ++ y →
      Quiet limit function c (Text.unlines ls).length := by
  induction ls with
  | nil => intro c _ i hi; simp [Text.unlines] at hi
  | cons l ls ih =>
    intro c hafter
    obtain ⟨hl, hopen⟩ := h l List.mem_cons_self
    rw [Text.unlines_cons, List.append_assoc, List.cons_append] at hafter
    have hline : Quiet limit function c _ := quiet_line hafter (Or.inr ⟨_, rfl⟩) hl hopen
    have hrest := ih (fun x hx => h x (List.mem_cons_of_mem _ hx))
      (c := c.advance (l.length + 1)) (by simp [hafter])
    rw [Text.unlines_cons, List.length_append, List.length_cons, Nat.add_comm _ 1, ← Nat.add_assoc]
    exact hline.append hrest

/-- A text of lines that do not start as functions. -/
theorem quiet_joinLines (ls : List Text) (h : ∀ l ∈ ls, '\n' ∉ l ∧ ¬ OpensFunction l)
    (hafter : c.after = Text.joinLines ls) : Quiet limit function c (c.after.length + 1) := by
  rcases List.eq_nil_or_concat ls with rfl | ⟨init, last, rfl⟩
  · rw [hafter]
    exact quiet_line (l := []) hafter (Or.inl rfl) (by simp) (by decide)
  · obtain ⟨hl, hopen⟩ := h last (by simp)
    rw [List.concat_eq_append, Text.joinLines_append _ (by simp), Text.joinLines,
      Text.join_singleton] at hafter
    have hinit : Quiet limit function c _ :=
      quiet_unlines init (fun x hx => h x (by simp [hx])) hafter
    have hlast : Quiet limit function (c.advance (Text.unlines init).length) _ :=
      quiet_line (l := last) (y := []) (by simp [hafter]) (Or.inl rfl) hl hopen
    rw [hafter, List.length_append, Nat.add_assoc]
    exact hinit.append hlast

/-! ## The line of the signature -/

theorem Draft.signature_cons (d : Draft) : ∃ rest, d.signature = 'd' :: rest :=
  ⟨_, rfl⟩

theorem Draft.Writable.signature_no_end (hd : d.Writable) : '\n' ∉ d.signature := by
  obtain ⟨first, rest, hname, hfirst, hrest⟩ := hd.name
  have hparams : '\n' ∉ Param.writtenAll d.params := by
    apply Param.notMem_writtenAll (by decide)
    intro p hp
    refine ⟨fun hmem => ?_, hd.params_line p hp⟩
    exact absurd ((hd.params p hp).1.name _ hmem) (by decide)
  have hfirst' : '\n' ≠ first := by
    rintro rfl
    exact absurd hfirst (by decide)
  have hrest' : '\n' ∉ rest := fun hmem => absurd (hrest _ hmem) (by decide)
  simp [Draft.signature, hname, hfirst', hrest', hparams]

theorem Draft.signature_indent (d : Draft) : Text.indentWidth d.signature = 0 := by
  obtain ⟨rest, hrest⟩ := d.signature_cons
  rw [hrest]
  rfl

theorem Draft.signature_not_blank (d : Draft) : Block.isBlankLine d.signature = false := by
  have htrim : Text.trim d.signature = d.signature := by
    rw [Text.trim_eq_self_iff]
    constructor
    · obtain ⟨rest, hrest⟩ := d.signature_cons
      rw [hrest]
      simp
      decide
    · rw [Draft.signature, List.getLast?_append_of_ne_nil _ (by simp)]
      simp
      decide
  obtain ⟨rest, hrest⟩ := d.signature_cons
  rw [Block.isBlankLine, htrim, hrest]
  rfl

/-! ## Bodies -/

variable {outer width stop place : Nat} {inner last : Option Nat} {more : List Text}

theorem BodyLine.ne_nil (h : BodyLine width l) : l ≠ [] := by
  rintro rfl
  exact absurd h.not_blank (by decide)

theorem contentEnd?_blanks (n : Nat) : ∀ place,
    Block.contentEnd? outer inner last place (List.replicate n [] ++ more)
      = Block.contentEnd? outer inner last (place + n) more := by
  induction n with
  | zero => intro place; rfl
  | succ n ih =>
    intro place
    have hblank : Block.isBlankLine [] = true := rfl
    rw [List.replicate_succ, List.cons_append, Block.contentEnd?, if_pos hblank, ih]
    congr 1
    simp
    omega

/-- Lines that are indented enough belong to the body. -/
theorem contentEnd?_lines (ls : List Text) (h : ∀ l ∈ ls, BodyLine width l) : ∀ stop,
    Block.contentEnd? outer (some width) (some stop) (stop + 1) (ls ++ more)
      = Block.contentEnd? outer (some width) (some (stop + (Text.unlines ls).length))
          (stop + (Text.unlines ls).length + 1) more := by
  induction ls with
  | nil => intro stop; rfl
  | cons l ls ih =>
    intro stop
    have hl := h l List.mem_cons_self
    have hwidth := hl.width_le
    have hlen : (Text.unlines (l :: ls)).length = 1 + l.length + (Text.unlines ls).length := by
      simp only [Text.unlines_cons, List.length_append, List.length_cons]
      omega
    rw [List.cons_append, Block.contentEnd?, if_neg (by simp [hl.not_blank])]
    simp only [if_neg (Nat.not_lt.2 hwidth)]
    rw [ih fun x hx => h x (List.mem_cons_of_mem _ hx), hlen]
    simp only [Nat.add_assoc]

/-- A body ends in front of the next function, and in front of the empty lines there. -/
theorem contentEnd?_written (hwidth : 0 < width) (ds : List (Nat × Draft)) (trailing : Nat) :
    Block.contentEnd? 0 (some width) last place (writtenLines ds ++ List.replicate trailing [])
      = last := by
  cases ds with
  | nil =>
    have : Block.contentEnd? 0 (some width) last place (List.replicate trailing [] ++ []) = last :=
      contentEnd?_blanks trailing place
    rwa [List.append_nil] at this
  | cons nd ds =>
    obtain ⟨n, d⟩ := nd
    simp only [writtenLines, Draft.lines, List.append_assoc, contentEnd?_blanks, List.cons_append]
    rw [Block.contentEnd?, if_neg (by simp [d.signature_not_blank])]
    simp only [d.signature_indent, if_pos hwidth]

theorem writtenLines_no_end (ds : List (Nat × Draft)) (h : ∀ nd ∈ ds, nd.2.Writable) :
    ∀ l ∈ writtenLines ds, '\n' ∉ l := by
  induction ds with
  | nil => simp [writtenLines]
  | cons nd ds ih =>
    obtain ⟨n, d⟩ := nd
    have hd : d.Writable := h _ List.mem_cons_self
    obtain ⟨first, rest, -, -, hlines⟩ := hd.body
    intro l hl
    simp only [writtenLines, Draft.lines, List.mem_append, List.mem_cons] at hl
    rcases hl with (hl | rfl | hl) | hl
    · rw [List.eq_of_mem_replicate hl]
      simp
    · exact hd.signature_no_end
    · exact (hlines l hl).no_end
    · exact ih (fun x hx => h x (List.mem_cons_of_mem _ hx)) l hl

/-- **The body found is the body written.** -/
theorem indented_body (hd : d.Writable) (hstart : c.atLineStart = true)
    (hafter : c.after = d.signature ++ '\n' :: Text.joinLines (d.body ++ more))
    (hmore : ∀ l ∈ more, '\n' ∉ l)
    (hend : ∀ width last place, 0 < width →
      Block.contentEnd? 0 (some width) last place more = last) :
    Block.indented c.whole c.place (c.place + d.signature.length)
      = ⟨c.place + (d.signature.length + 1),
          c.place + (d.signature.length + 1) + (Text.joinLines d.body).length,
          c.place + (d.signature.length + 1) + (Text.joinLines d.body).length⟩ := by
  obtain ⟨first, rest, hbody, hpos, hlines⟩ := hd.body
  have hne : d.body ≠ [] := by simp [hbody]
  have hnoend : ∀ l ∈ d.body ++ more, '\n' ∉ l := by
    intro l hl
    rcases List.mem_append.1 hl with hl | hl
    · exact (hlines l hl).no_end
    · exact hmore l hl
  -- the line of the signature
  have hfirst : Text.lineEnd c.whole c.place = c.place + d.signature.length :=
    Cursor.lineEnd_whole (n := 0) hafter (Nat.zero_le _) hd.signature_no_end (Or.inr ⟨_, rfl⟩)
  have hslice : Text.slice c.whole c.place (c.place + d.signature.length) = d.signature := by
    have := c.slice_whole 0 d.signature.length
    simpa [hafter] using this
  have heol : Text.lineEnd c.whole (c.place + d.signature.length) = c.place + d.signature.length :=
    Cursor.lineEnd_whole (l := []) (y := '\n' :: Text.joinLines (d.body ++ more))
      (by simp [hafter]) (by simp [hafter]) (by simp) (Or.inr ⟨_, rfl⟩)
  have hempty : Text.slice c.whole (c.place + d.signature.length) (c.place + d.signature.length)
      = [] := by simp [Text.slice]
  -- the lines behind it
  have hdrop : c.whole.drop (c.place + d.signature.length + 1)
      = Text.joinLines (d.body ++ more) := by
    rw [Nat.add_assoc, Cursor.whole_drop, hafter, List.drop_append,
      List.drop_of_length_le (by omega)]
    simp
  have hsum : first.length + (Text.unlines rest).length = (Text.joinLines d.body).length := by
    have := Text.length_unlines hne
    rw [hbody, Text.unlines_cons, List.length_append, List.length_cons] at this
    rw [hbody]
    omega
  have hcontent : Block.contentEnd? 0 none none (c.place + d.signature.length + 1) (d.body ++ more)
      = some (c.place + (d.signature.length + 1) + (Text.joinLines d.body).length) := by
    have hf := hlines first (by simp [hbody])
    rw [hbody, List.cons_append, Block.contentEnd?, if_neg (by simp [hf.not_blank])]
    simp only [if_neg (Nat.not_le.2 hpos)]
    rw [contentEnd?_lines rest fun l hl => hlines l (by simp [hbody, hl]), hend _ _ _ hpos, ← hbody,
      ← hsum]
    simp only [Nat.add_assoc]
  unfold Block.indented
  simp only [Cursor.lineStart_whole hstart, hfirst, hslice, d.signature_indent, heol, hempty, hdrop,
    Text.lines_joinLines (by simp [hne]) hnoend, hcontent]
  rfl

/-- The routine of a match of a written function. -/
theorem outline?_written {m : Match} (hd : d.Writable) (hstart : c.atLineStart = true)
    (hafter : c.after = d.signature ++ '\n' :: Text.joinLines (d.body ++ more))
    (hmore : ∀ l ∈ more, '\n' ∉ l)
    (hend : ∀ width last place, 0 < width →
      Block.contentEnd? 0 (some width) last place more = last)
    (hm : m.start = c) (hstop : m.stop = c.advance d.signature.length)
    (hsig : m.signature? = some ⟨d.name, Param.writtenAll d.params⟩) :
    m.outline? .python c.whole
      = some ⟨d.name, d.params, Text.joinLines d.body, c.before.count '\n' + 1,
          c.before.count '\n' + 1 + d.body.length⟩ := by
  obtain ⟨first, rest, hbody, hpos, hlines⟩ := hd.body
  have hne : d.body ≠ [] := by simp [hbody]
  obtain ⟨y, hy⟩ := Text.prefix_joinLines d.body more
  have hblock := indented_body hd hstart hafter hmore hend
  rw [← hy] at hafter
  have hlen : 0 < (Text.joinLines d.body).length := by
    have hpre := (Text.prefix_joinLines [first] rest).length_le
    have hpos := List.length_pos_of_ne_nil (hlines first (by simp [hbody])).ne_nil
    rw [Text.joinLines, Text.join_singleton, List.cons_append, List.nil_append, ← hbody] at hpre
    omega
  -- the text of the body, and the line of its last character
  have hslice : Text.slice c.whole (c.place + (d.signature.length + 1))
      (c.place + (d.signature.length + 1) + (Text.joinLines d.body).length)
      = Text.joinLines d.body := by
    rw [c.slice_whole, hafter, List.drop_append, List.drop_of_length_le (by omega)]
    simp
  have htake : c.after.take (d.signature.length + (Text.joinLines d.body).length)
      = d.signature ++ '\n' :: (Text.joinLines d.body).dropLast := by
    obtain ⟨n, hn⟩ : ∃ n, (Text.joinLines d.body).length = n + 1 :=
      ⟨_, (Nat.sub_add_cancel hlen).symm⟩
    rw [hafter, List.take_length_add_append, hn, List.take_succ_cons,
      List.take_append_of_le_length (by omega), List.dropLast_eq_take, hn, Nat.add_sub_cancel]
  have hline : Text.lineNumber c.whole
      (c.place + (d.signature.length + (Text.joinLines d.body).length))
      = c.before.count '\n' + 1 + d.body.length := by
    rw [c.lineNumber_whole, htake, List.count_append, List.count_cons_self,
      List.count_eq_zero.2 hd.signature_no_end, Nat.zero_add,
      Text.count_dropLast_joinLines hne fun l hl => ⟨(hlines l hl).no_end, (hlines l hl).ne_nil⟩]
  have hmax : max c.place (c.place + (d.signature.length + 1) + (Text.joinLines d.body).length - 1)
      = c.place + (d.signature.length + (Text.joinLines d.body).length) := by omega
  have hlanguage : Language.python.block = Block.indented := rfl
  rw [← hlanguage] at hblock
  rw [Match.outline?_eq hm hstop (by simp [hafter]) hsig rfl (fun p hp => (hd.params p hp).1)
    hblock, hslice, hmax, hline]

/-! ## All functions -/

/-- Behind whole lines a line starts. -/
theorem atLineStart_unlines {ls : List Text} (hafter : c.after = Text.unlines ls ++ y)
    (hstart : ls = [] → c.atLineStart = true) :
    (c.advance (Text.unlines ls).length).atLineStart = true := by
  rcases List.eq_nil_or_concat ls with rfl | ⟨init, last, rfl⟩
  · simpa [Text.unlines] using hstart rfl
  · have hbefore : (c.advance (Text.unlines (init.concat last)).length).before
        = '\n' :: ((Text.unlines init ++ last).reverse ++ c.before) := by
      rw [Cursor.advance_before, hafter, List.take_left]
      simp [Text.unlines]
    unfold Cursor.atLineStart Cursor.lastIs
    rw [hbefore]
    rfl

/-- **One function more**: behind lines that are no functions it is the first that is read, and its
reading stops at the end of its signature. -/
theorem readings_step {dull : List Text} (hd : d.Writable)
    (hdull : ∀ l ∈ dull, '\n' ∉ l ∧ ¬ OpensFunction l) (hstart : dull = [] → c.atLineStart = true)
    (hafter : c.after
      = Text.unlines dull ++ (d.signature ++ '\n' :: Text.joinLines (d.body ++ more)))
    (hmore : ∀ l ∈ more, '\n' ∉ l)
    (hend : ∀ width last place, 0 < width →
      Block.contentEnd? 0 (some width) last place more = last)
    (hlimit : c.after.length ≤ limit) (n : Nat) :
    ∃ m f, function.readings limit (n + 1) c = m :: function.readings limit n f ∧
      f.whole = c.whole ∧ f.after = '\n' :: Text.joinLines (d.body ++ more) ∧
      f.before.count '\n' = c.before.count '\n' + dull.length ∧
      m.outline? .python c.whole
        = some ⟨d.name, d.params, Text.joinLines d.body, c.before.count '\n' + dull.length + 1,
            c.before.count '\n' + dull.length + 1 + d.body.length⟩ := by
  obtain ⟨e, he⟩ : ∃ e, e = c.advance (Text.unlines dull).length := ⟨_, rfl⟩
  have heafter : e.after = d.signature ++ '\n' :: Text.joinLines (d.body ++ more) := by
    simp [he, hafter]
  have hestart : e.atLineStart = true := he ▸ atLineStart_unlines hafter hstart
  have hewhole : e.whole = c.whole := by rw [he, Cursor.advance_whole]
  have hecount : e.before.count '\n' = c.before.count '\n' + dull.length := by
    rw [he, Cursor.advance_before, hafter, List.take_left, List.count_append, List.count_reverse,
      Text.count_unlines fun l hl => (hdull l hl).1, Nat.add_comm]
  have helen : e.after.length ≤ limit := by
    rw [he, Cursor.advance_after, List.length_drop]
    omega
  obtain ⟨m, hread, hm, hstop, hsig⟩ := readAt?_signature hd hestart heafter helen
  have hlt : m.first < m.last := by
    obtain ⟨rest, hrest⟩ := d.signature_cons
    rw [Match.first, Match.last, hm, hstop, e.advance_place (by simp [heafter]), hrest]
    simp
  have hread' : function.readAt? limit (c.advance (Text.unlines dull).length) = some m := he ▸ hread
  refine ⟨m, m.stop, readings_of_first hlimit (by simp [hafter]) (quiet_unlines dull hdull hafter)
    hread' hlt, ?_, ?_, ?_, ?_⟩
  · rw [hstop, Cursor.advance_whole, hewhole]
  · simp [hstop, heafter]
  · -- the signature has no line end
    rw [hstop, Cursor.advance_before, heafter, List.take_left, List.count_append,
      List.count_reverse, List.count_eq_zero.2 hd.signature_no_end, hecount, Nat.zero_add]
  · have := outline?_written hd hestart heafter hmore hend hm hstop hsig
    rwa [hewhole, hecount] at this

/-- **The functions found behind lines that are none are those written behind them**, by induction
on the functions: the lines of one body are the lines in front of the next function. -/
theorem readings_written (limit trailing : Nat) (ds : List (Nat × Draft)) :
    ∀ (ls : List Text) (c : Cursor) (n : Nat), (∀ nd ∈ ds, nd.2.Writable) →
      (∀ l ∈ ls, '\n' ∉ l ∧ ¬ OpensFunction l) → (ls = [] → c.atLineStart = true) →
      c.after = Text.joinLines (ls ++ (writtenLines ds ++ List.replicate trailing [])) →
      c.after.length ≤ limit → c.after.length < n →
      (function.readings limit n c).filterMap (·.outline? .python c.whole)
        = outlinesFrom (c.before.count '\n' + 1 + ls.length) ds := by
  have hblank : ∀ (k : Nat), ∀ l ∈ List.replicate k ([] : Text), '\n' ∉ l ∧ ¬ OpensFunction l := by
    intro k l hl
    obtain rfl := List.eq_of_mem_replicate hl
    decide
  induction ds with
  | nil =>
    intro ls c n _ hls _ hafter _ _
    have hquiet : Quiet limit function c (c.after.length + 1) := by
      refine quiet_joinLines _ (fun l hl => ?_) hafter
      rcases List.mem_append.1 hl with hl | hl
      · exact hls l hl
      · exact hblank trailing l hl
    rw [readings_eq_nil hquiet]
    rfl
  | cons nd ds ih =>
    obtain ⟨gap, d⟩ := nd
    intro ls c n hds hls hstart hafter hlimit hn
    have hd : d.Writable := hds _ List.mem_cons_self
    have hds' : ∀ nd ∈ ds, nd.2.Writable := fun x hx => hds x (List.mem_cons_of_mem _ hx)
    obtain ⟨first, rest, hbody, -, hlines⟩ := hd.body
    obtain ⟨n, rfl⟩ : ∃ n', n = n' + 1 := ⟨n - 1, by omega⟩
    -- the lines behind the function
    have hne : d.body ++ (writtenLines ds ++ List.replicate trailing []) ≠ [] := by simp [hbody]
    have hmore : ∀ l ∈ writtenLines ds ++ List.replicate trailing [], '\n' ∉ l := by
      intro l hl
      rcases List.mem_append.1 hl with hl | hl
      · exact writtenLines_no_end ds hds' l hl
      · exact (hblank trailing l hl).1
    have hdull : ∀ l ∈ ls ++ List.replicate gap [], '\n' ∉ l ∧ ¬ OpensFunction l := by
      intro l hl
      rcases List.mem_append.1 hl with hl | hl
      · exact hls l hl
      · exact hblank gap l hl
    have hcut : c.after = Text.unlines (ls ++ List.replicate gap []) ++ (d.signature ++
        '\n' :: Text.joinLines (d.body ++ (writtenLines ds ++ List.replicate trailing []))) := by
      rw [hafter, ← Text.joinLines_cons _ hne, ← Text.joinLines_append _ (by simp)]
      simp [writtenLines, Draft.lines]
    obtain ⟨m, f, hreadings, hwhole, hfafter, hcount, houtline⟩ := readings_step hd hdull
      (fun hnil => hstart (List.append_eq_nil_iff.1 hnil).1) hcut hmore
      (fun width last place hwidth => contentEnd?_written hwidth ds trailing) hlimit n
    have hshort : f.after.length < c.after.length := by
      rw [hcut, hfafter]
      obtain ⟨rest, hrest⟩ := d.signature_cons
      simp [hrest]
      omega
    -- the rest of the line and the body are in front of the next function
    have hrest := ih ([] :: d.body) f n hds' (by
        intro l hl
        rcases List.mem_cons.1 hl with rfl | hl
        · exact hblank 1 [] (by simp)
        · exact ⟨(hlines l hl).no_end, (hlines l hl).no_function⟩)
      (by simp) (by rw [hfafter, List.cons_append, Text.joinLines_cons _ hne]; rfl) (by omega)
      (by omega)
    rw [hwhole, hcount] at hrest
    rw [hreadings, List.filterMap_cons, houtline, hrest]
    have hline : c.before.count '\n' + (ls ++ List.replicate gap ([] : Text)).length + 1
        = c.before.count '\n' + 1 + ls.length + gap := by
      rw [List.length_append, List.length_replicate]
      omega
    rw [hline]
    rfl

/-- **The outlines of the functions found are those of the functions written.** -/
theorem outlines_written (ds : List (Nat × Draft)) (trailing : Nat)
    (h : ∀ nd ∈ ds, nd.2.Writable) :
    (Routine.scan .python (written ds trailing)).map (Routine.outline (written ds trailing))
      = outlinesFrom 1 ds := by
  have hrun := readings_written (written ds trailing).length trailing ds []
    (Cursor.ofPlace (written ds trailing) 0) ((written ds trailing).length + 1) h (by simp)
    (fun _ => rfl) rfl (Nat.le_refl _) (Nat.lt_succ_self _)
  rw [Cursor.ofPlace_whole] at hrun
  rw [Routine.map_outline_scan]
  exact hrun

/-- Two functions: one with a type and a default value that hold brackets and a comma, and one
behind two empty lines, with a line in its body that only looks like a signature. -/
def sample : List (Nat × Draft) :=
  [(0, ⟨"area".toList, [⟨"w".toList, some "dict[str, int]".toList, some "g(1, [2])".toList⟩],
      ["    return w".toList]⟩),
    (2, ⟨"_f2".toList, [], ["  if x:".toList, "\t\tdefine(x)".toList]⟩)]

theorem sample_writable : ∀ nd ∈ sample, nd.2.Writable := by
  intro nd hnd
  rcases List.mem_cons.1 hnd with rfl | hnd
  · refine ⟨⟨'a', "rea".toList, rfl, by decide, List.all_eq_true.1 (by decide)⟩, by decide, ?_,
      by decide, ?_⟩
    · intro p hp
      obtain rfl := List.mem_singleton.1 hp
      refine ⟨⟨by decide, List.all_eq_true.1 (by decide), by decide, ?_, ?_⟩, by decide, by decide⟩
      · rintro _ ⟨⟩
        exact ⟨⟨by decide, by decide, by decide, by decide⟩, by decide⟩
      · rintro _ ⟨⟩
        exact ⟨by decide, by decide, by decide, by decide⟩
    · refine ⟨_, _, rfl, by decide, ?_⟩
      intro l hl
      obtain rfl := List.mem_singleton.1 hl
      exact ⟨by decide, by decide, by decide, by decide⟩
  · obtain rfl := List.mem_singleton.1 hnd
    refine ⟨⟨'_', "f2".toList, rfl, by decide, List.all_eq_true.1 (by decide)⟩, by decide, by simp,
      by simp, ?_⟩
    refine ⟨_, _, rfl, by decide, ?_⟩
    intro l hl
    rcases List.mem_cons.1 hl with rfl | hl
    · exact ⟨by decide, by decide, by decide, by decide⟩
    · obtain rfl := List.mem_singleton.1 hl
      exact ⟨by decide, by decide, by decide, by decide⟩

theorem outlines_sample : (∀ nd ∈ sample, nd.2.Writable) ∧
    (Routine.scan .python (written sample 1)).map (Routine.outline (written sample 1))
      = [⟨"area".toList, [⟨"w".toList, some "dict[str, int]".toList, some "g(1, [2])".toList⟩],
          "    return w".toList, 1, 2⟩,
        ⟨"_f2".toList, [], "  if x:\n\t\tdefine(x)".toList, 5, 7⟩] :=
  ⟨sample_writable, (outlines_written sample 1 sample_writable).trans (by decide)⟩

end CodeSurvey.Indented
