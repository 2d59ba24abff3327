import CodeSurvey.Proofs.Pattern.Every
import CodeSurvey.Proofs.Pattern.Line
import CodeSurvey.Proofs.Pattern.Plain
import CodeSurvey.Proofs.Text.NameChars
import CodeSurvey.Trace

/-!
# A trace shows where a name stands

A name stands at a place if the text carries it there as a word of its own. Two such places are at least a name apart,
since inside a name no name can start, so a search that goes on behind each match loses none of them. Outside the
scripting languages calls are left out, and where types come first, places behind a comment mark as well.

* `IsIdentifier`: the names that can be traced. `isName_iff`: they are told from all other texts.
* `StandsAt`: where a name stands, told by the text alone. `mem_offsets_iff`: the trace shows these places.
* `Located`: an occurrence with the right line, column and offset. `located_of_mem`: every occurrence is.
* `ofText_traces`: the trace of a name, and the error for what is no name.
-/

namespace CodeSurvey

/-- A place in a text is on the line that its cut shows. -/
theorem Text.Cut.onLine {t x y : Text} {i : Nat} {ls ms : List Text} (h : Text.Cut t i ls x y ms) :
    Cursor.OnLine t ls.length y (Cursor.ofPlace t i) := by
  have hline : (Text.lines t)[ls.length]? = some (x ++ y) := by
    rw [h.lines_eq]
    simp
  have hrow := (Cursor.onLine_row hline).advance
  rwa [Cursor.row, h.lines_eq, List.take_left, Cursor.ofPlace_advance, ← h.place_eq] at hrow

namespace Trace

open Pattern

variable {language : Language} {t name x y : Text} {i limit : Nat} {c : Cursor} {r s : Reading} {m : Match}
  {o : Occurrence} {ls ms : List Text}

/-! ## Names -/

/-- **A name that can be traced**: a letter, an underscore or a dollar sign, and behind it word characters and dollar
signs. -/
def IsIdentifier (name : Text) : Prop :=
  ∃ first rest, name = first :: rest ∧ isScriptNameStart first = true ∧ ∀ c ∈ rest, isScriptNameRest c = true

theorem isName_iff (name : Text) : isName name = true ↔ IsIdentifier name := by
  unfold isName coversAll opens matchAt?
  rw [isSome_readAt?_iff, exists_outcome_seq]
  constructor
  · rintro ⟨u, hu, s, hs⟩
    obtain ⟨x, ⟨_, rest, ⟨first, hfirst, rfl⟩, hrest, rfl⟩, hafter⟩ := exists_spelled scriptName _ u hu
    rw [(mem_outcomes_textEnd.1 hs).1, List.append_nil, Cursor.ofPlace_after] at hafter
    exact ⟨first, rest, hafter, hfirst, hrest⟩
  · rintro ⟨first, rest, rfl, hfirst, hrest⟩
    have hafter : (Cursor.ofPlace (first :: rest) 0).after = first :: rest ++ [] := by simp
    have hname : First (first :: rest).length scriptName ⟨Cursor.ofPlace (first :: rest) 0, []⟩
        (Reading.past ⟨Cursor.ofPlace (first :: rest) 0, []⟩ (first :: rest)) :=
      First.one_span _ hafter hfirst hrest (by simp)
    exact ⟨_, List.mem_of_mem_head? hname, _, mem_outcomes_textEnd.2 ⟨Reading.past_after hafter, rfl⟩⟩

/-- Every character of a name is one that a name may go on with. -/
theorem IsIdentifier.chars (h : IsIdentifier name) : ∀ c ∈ name, isScriptNameRest c = true := by
  obtain ⟨first, rest, rfl, hfirst, hrest⟩ := h
  rw [List.forall_mem_cons]
  exact ⟨isScriptNameRest_of_start hfirst, hrest⟩

theorem IsIdentifier.length_pos (h : IsIdentifier name) : 0 < name.length := by
  obtain ⟨first, rest, rfl, -, -⟩ := h
  exact Nat.succ_pos _

theorem IsIdentifier.noEnd (h : IsIdentifier name) : '\n' ∉ name := by
  intro hmem
  exact absurd (h.chars _ hmem) (by decide)

/-! ## Whole names -/

/-- A name follows a cursor as a word of its own, and is not called if calls are passed over. -/
structure Whole (language : Language) (name : Text) (c : Cursor) : Prop where
  carried : name <+: c.after
  apartBefore : ∀ ch ∈ c.before.head?, isScriptNameRest ch = false
  apartBehind : ∀ ch ∈ (c.after.drop name.length).head?, isScriptNameRest ch = false
  notCalled : language.isScript = false → ¬ Text.ComesNext ['('] (c.after.drop name.length)

/-- A name as a word of its own, whatever comes behind. -/
theorem mem_outcomes_apart :
    s ∈ (notBehind [isScriptNameRest] ++ text name ++ notAhead (one isScriptNameRest)).outcomes limit r ↔
      ((∀ ch ∈ r.cursor.before.head?, isScriptNameRest ch = false) ∧ name <+: r.cursor.after ∧
        ∀ ch ∈ (r.cursor.after.drop name.length).head?, isScriptNameRest ch = false) ∧ s = r.past name := by
  have hafter : (r.past name).cursor.after = r.cursor.after.drop name.length := Cursor.advance_after _ _
  simp only [outcomes_append, List.mem_flatMap, mem_outcomes_notBehind, mem_outcomes_text, mem_outcomes_notAhead,
    notMem_outcomes_one]
  rw [← hafter]
  constructor
  · intro h
    obtain ⟨u, ⟨v, ⟨hbefore, rfl⟩, hcarried, rfl⟩, hbehind, rfl⟩ := h
    exact ⟨⟨hbefore, hcarried, hbehind⟩, rfl⟩
  · intro h
    obtain ⟨⟨hbefore, hcarried, hbehind⟩, rfl⟩ := h
    exact ⟨_, ⟨r, ⟨hbefore, rfl⟩, hcarried, rfl⟩, hbehind, rfl⟩

theorem mem_outcomes_wholeName : s ∈ (wholeName language name).outcomes limit r ↔
    Whole language name r.cursor ∧ s = r.past name := by
  have hafter : (r.past name).cursor.after = r.cursor.after.drop name.length := Cursor.advance_after _ _
  unfold wholeName
  simp only
  split
  · rename_i hscript
    rw [mem_outcomes_apart]
    constructor
    · rintro ⟨⟨hbefore, hcarried, hbehind⟩, rfl⟩
      exact ⟨⟨hcarried, hbefore, hbehind, by simp [hscript]⟩, rfl⟩
    · rintro ⟨h, rfl⟩
      exact ⟨⟨h.apartBefore, h.carried, h.apartBehind⟩, rfl⟩
  · rename_i hscript
    have hcall : (∀ u, u ∉ (blanks ++ lit "(").outcomes limit (r.past name)) ↔
        ¬ Text.ComesNext ['('] (r.cursor.after.drop name.length) := by
      rw [← not_exists]
      apply not_congr
      rw [← hafter]
      exact exists_outcome_blanks_text
    rw [outcomes_append, List.mem_flatMap]
    simp only [mem_outcomes_apart, mem_outcomes_notAhead]
    constructor
    · rintro ⟨u, ⟨⟨hbefore, hcarried, hbehind⟩, rfl⟩, hnone, rfl⟩
      exact ⟨⟨hcarried, hbefore, hbehind, fun _ => hcall.1 hnone⟩, rfl⟩
    · rintro ⟨h, rfl⟩
      have hnot := h.notCalled (by simpa using hscript)
      exact ⟨_, ⟨⟨h.apartBefore, h.carried, h.apartBehind⟩, rfl⟩, hcall.2 hnot, rfl⟩

theorem readAt?_wholeName : (wholeName language name).readAt? limit c = some m ↔
    Whole language name c ∧ m = ⟨c, c.advance name.length, []⟩ :=
  readAt?_eq_some_iff fun _ => mem_outcomes_wholeName

/-- **Inside a name no name starts**: in front of such a place there is a character of the name. -/
theorem apart_wholeName (hname : IsIdentifier name) : Apart limit (wholeName language name) := by
  intro c m hread i hi hlt
  obtain ⟨hwhole, rfl⟩ := readAt?_wholeName.1 hread
  obtain ⟨z, hz⟩ := hwhole.carried
  have hroom : name.length ≤ c.after.length := by
    rw [← hz]
    simp
  have hinside : i < name.length := by
    have hlen : i < (c.advance name.length).place - c.place := hlt
    rw [c.advance_place hroom] at hlen
    omega
  have hlast : (c.advance i).before.head? = some (name.get ⟨i - 1, by omega⟩) := by
    rw [Cursor.advance_before, ← hz, List.take_append_of_le_length (by omega), List.head?_append,
      List.head?_reverse, List.getLast?_take, if_neg (by omega)]
    simp [List.getElem?_eq_getElem (show i - 1 < name.length by omega)]
  cases hnext : (wholeName language name).readAt? limit (c.advance i) with
  | none => rfl
  | some m =>
    obtain ⟨hwhole, -⟩ := readAt?_wholeName.1 hnext
    have hno := hwhole.apartBefore _ hlast
    rw [hname.chars _ (List.get_mem _ _)] at hno
    cases hno

theorem minWidth_wholeName (hname : IsIdentifier name) : 0 < (wholeName language name).minWidth := by
  have hpos := hname.length_pos
  have hbare : (notBehind [isScriptNameRest] ++ text name ++ notAhead (one isScriptNameRest)).minWidth
      = name.length := by
    show 0 + name.length + 0 = name.length
    omega
  unfold wholeName
  simp only
  split
  · rw [hbare]
    exact hpos
  · show 0 < Pattern.minWidth _ + 0
    rw [hbare]
    exact hpos

/-! ## Places -/

/-- What is in front of a place on its line. -/
def leadAt (t : Text) (i : Nat) : Text :=
  (Text.lines (t.take i)).getLastD []

theorem leadAt_eq (h : Text.Cut t i ls x y ms) : leadAt t i = x := by
  obtain ⟨hls, hx, -⟩ := h.no_end
  have hends : ∀ l ∈ ls ++ [x], '\n' ∉ l := by
    intro l hl
    rcases List.mem_append.1 hl with hl | hl
    · exact hls l hl
    · rw [List.mem_singleton.1 hl]
      exact hx
  rw [leadAt, h.take_eq, ← Text.joinLines_concat, Text.lines_joinLines (by simp) hends]
  simp

theorem opensComment_iff (x : Text) : opensComment x = true ↔ ['/', '/'] <:+: x ∨ ['/', '*'] <:+: x := by
  rw [opensComment, Bool.or_eq_true, Text.occursIn_iff, Text.occursIn_iff]

/-- **Where a name stands in a text**: the text carries it there, no character of a name touches it, it is not called
outside the scripting languages, and no comment mark is in front of it on its line where types come first. -/
structure StandsAt (language : Language) (t name : Text) (i : Nat) : Prop where
  carried : name <+: t.drop i
  apartBefore : ∀ c ∈ (t.take i).getLast?, Text.isWord c = false ∧ c ≠ '$'
  apartBehind : ∀ c ∈ (t.drop (i + name.length)).head?, Text.isWord c = false ∧ c ≠ '$'
  notCalled : language.isScript = false → ¬ Text.ComesNext ['('] (t.drop (i + name.length))
  notCommented : language.typeFirst = true → ¬ ['/', '/'] <:+: leadAt t i ∧ ¬ ['/', '*'] <:+: leadAt t i

theorem standsAt_iff : StandsAt language t name i ↔
    Whole language name (Cursor.ofPlace t i) ∧ (language.typeFirst && opensComment (leadAt t i)) = false := by
  have hbefore : (Cursor.ofPlace t i).before.head? = (t.take i).getLast? := by
    rw [Cursor.ofPlace_before, List.head?_reverse]
  have hbehind : (Cursor.ofPlace t i).after.drop name.length = t.drop (i + name.length) := by
    rw [Cursor.ofPlace_after, List.drop_drop]
  have hcomment : (language.typeFirst && opensComment (leadAt t i)) = false ↔
      (language.typeFirst = true → ¬ ['/', '/'] <:+: leadAt t i ∧ ¬ ['/', '*'] <:+: leadAt t i) := by
    rw [← not_or, ← opensComment_iff]
    cases language.typeFirst <;> simp
  rw [hcomment]
  constructor
  · intro h
    refine ⟨⟨?_, ?_, ?_, ?_⟩, h.notCommented⟩
    · rw [Cursor.ofPlace_after]
      exact h.carried
    · rw [hbefore]
      exact fun c hc => (not_isScriptNameRest_iff c).2 (h.apartBefore c hc)
    · rw [hbehind]
      exact fun c hc => (not_isScriptNameRest_iff c).2 (h.apartBehind c hc)
    · rw [hbehind]
      exact h.notCalled
  · rintro ⟨⟨hcarried, hfront, hback, hcalled⟩, hcomment⟩
    rw [Cursor.ofPlace_after] at hcarried
    rw [hbefore] at hfront
    rw [hbehind] at hback hcalled
    exact ⟨hcarried, fun c hc => (not_isScriptNameRest_iff c).1 (hfront c hc),
      fun c hc => (not_isScriptNameRest_iff c).1 (hback c hc), hcalled, hcomment⟩

/-- The occurrence at a place, by the cut of the text there. -/
theorem occurrenceAt?_eq (h : Text.Cut t i ls x y ms) : occurrenceAt? language t name i =
    if language.typeFirst && opensComment x then none
    else some ⟨ls.length + 1, x.length + 1, i, x ++ y, isDefinition language x (y.drop name.length)⟩ := by
  have hlen := congrArg List.length h.text_eq
  have hline : Text.slice t (Text.lineStart t i) (Text.lineEnd t i) = x ++ y := by
    have hend : Text.lineEnd t (Text.lineStart t i) = Text.lineEnd t i := by
      rw [h.start.lineEnd_eq, h.lineEnd_eq, h.lineStart_eq, h.place_eq, List.length_append, Nat.add_assoc]
    rw [← hend, Text.slice_line, h.lineAt_eq]
    rw [h.place_eq, hlen, List.length_append, List.length_append]
    omega
  have hcolumn : i - Text.lineStart t i = x.length := by
    rw [h.lineStart_eq, h.place_eq]
    omega
  have htail : (x ++ y).drop (x.length + name.length) = y.drop name.length := by
    rw [List.drop_append]
    simp
  simp only [occurrenceAt?, hline, hcolumn, h.lineNumber_eq, List.take_left, htail]

/-- An occurrence is one of the places where the name stands. -/
theorem mem_occurrences_iff (hname : IsIdentifier name) : o ∈ occurrences language t name ↔
    ∃ i ≤ t.length, Whole language name (Cursor.ofPlace t i) ∧ occurrenceAt? language t name i = some o := by
  simp only [occurrences, List.mem_filterMap,
    mem_findAll_iff (apart_wholeName hname) (minWidth_wholeName hname), readAt?_wholeName]
  constructor
  · rintro ⟨m, ⟨i, hi, hwhole, rfl⟩, ho⟩
    refine ⟨i, hi, hwhole, ?_⟩
    rwa [Match.first, Cursor.ofPlace_place hi] at ho
  · rintro ⟨i, hi, hwhole, ho⟩
    refine ⟨_, ⟨i, hi, hwhole, rfl⟩, ?_⟩
    rwa [Match.first, Cursor.ofPlace_place hi]

theorem offset_eq (h : occurrenceAt? language t name i = some o) : o.offset = i := by
  unfold occurrenceAt? at h
  simp only at h
  split at h
  · cases h
  · rw [← Option.some.inj h]

theorem StandsAt.lt_length (hname : IsIdentifier name) (h : StandsAt language t name i) : i < t.length := by
  have hpos := hname.length_pos
  have hle := h.carried.length_le
  rw [List.length_drop] at hle
  omega

/-- **The trace shows the places where the name stands, and no others.** -/
theorem mem_offsets_iff (hname : IsIdentifier name) :
    i ∈ (occurrences language t name).map Occurrence.offset ↔ StandsAt language t name i := by
  rw [List.mem_map]
  simp only [mem_occurrences_iff hname]
  constructor
  · rintro ⟨o, ⟨j, hj, hwhole, ho⟩, rfl⟩
    obtain rfl := offset_eq ho
    refine standsAt_iff.2 ⟨hwhole, ?_⟩
    obtain ⟨ls, x, y, ms, hcut⟩ := Text.exists_cut hj
    rw [occurrenceAt?_eq hcut] at ho
    rw [leadAt_eq hcut]
    split at ho
    · cases ho
    · rename_i hcomment
      simpa using hcomment
  · intro h
    have hi := Nat.le_of_lt (h.lt_length hname)
    obtain ⟨hwhole, hcomment⟩ := standsAt_iff.1 h
    obtain ⟨ls, x, y, ms, hcut⟩ := Text.exists_cut hi
    rw [leadAt_eq hcut] at hcomment
    exact ⟨_, ⟨i, hi, hwhole, by rw [occurrenceAt?_eq hcut, hcomment]; rfl⟩, rfl⟩

/-- The occurrences come in the order of the text. -/
theorem offsets_increasing (hname : IsIdentifier name) :
    ((occurrences language t name).map Occurrence.offset).Pairwise (· < ·) := by
  rw [List.pairwise_map, occurrences, List.pairwise_filterMap]
  apply List.Pairwise.imp_of_mem _ (findAll_pairwise (wholeName language name) t)
  intro a b ha _ hab o ho o' ho'
  have hwidth := (findAll_fits ha).width_le
  have hpos : 0 < (wholeName language name).minWidth := minWidth_wholeName hname
  rw [offset_eq ho, offset_eq ho']
  omega

/-! ## Lines and columns -/

/-- **An occurrence at its place**: the line with its number is the one it shows, the line carries the name at its
column, and its offset is that of the column in the text. Lines and columns count from one. -/
structure Located (t name : Text) (o : Occurrence) : Prop where
  line_pos : 1 ≤ o.line
  line_eq : (Text.lines t)[o.line - 1]? = some o.lineText
  column_pos : 1 ≤ o.column
  carried : Text.slice o.lineText (o.column - 1) (o.column - 1 + name.length) = name
  offset_eq : o.offset = (Text.unlines ((Text.lines t).take (o.line - 1))).length + (o.column - 1)

theorem located_of_mem (hname : IsIdentifier name) (ho : o ∈ occurrences language t name) : Located t name o := by
  obtain ⟨i, hi, hwhole, ho⟩ := (mem_occurrences_iff hname).1 ho
  obtain ⟨ls, x, y, ms, hcut⟩ := Text.exists_cut hi
  -- a name has no line end, so the line carries all of it
  have hcarried : name <+: y := (hcut.onLine.prefix_iff hname.noEnd).1 hwhole.carried
  rw [occurrenceAt?_eq hcut] at ho
  split at ho
  · cases ho
  · obtain rfl := Option.some.inj ho
    refine ⟨Nat.succ_pos _, ?_, Nat.succ_pos _, ?_, ?_⟩
    · rw [Nat.add_sub_cancel, hcut.lines_eq]
      simp
    · rw [Nat.add_sub_cancel, Text.slice, Nat.add_sub_cancel_left, List.drop_left]
      exact (List.prefix_iff_eq_take.1 hcarried).symm
    · rw [Nat.add_sub_cancel, Nat.add_sub_cancel, hcut.lines_eq, List.take_left]
      exact hcut.place_eq

/-- **A trace shows exactly the places where the name stands, in the order of the text and rightly located. What is no
name is refused.** -/
theorem ofText_traces (language : Language) (t name : Text) :
    (IsIdentifier name → ∃ found, ofText language t name = .ok found ∧
      (found.map Occurrence.offset).Pairwise (· < ·) ∧
      (∀ i, i ∈ found.map Occurrence.offset ↔ StandsAt language t name i) ∧
      ∀ o ∈ found, Located t name o) ∧
    (¬ IsIdentifier name → ofText language t name = .error (.invalidIdentifier (Text.quoted name))) := by
  constructor
  · intro hname
    refine ⟨occurrences language t name, ?_, offsets_increasing hname, fun i => mem_offsets_iff hname,
      fun o ho => located_of_mem hname ho⟩
    rw [ofText, if_pos ((isName_iff name).2 hname)]
  · intro hno
    rw [ofText, if_neg (mt (isName_iff name).1 hno)]

/-- Two places of three on the first line, a call and a comment passed over on the second, and what is no name. -/
theorem ofText_traces_sample :
    (∃ found, ofText .java "n = n2 - n;\nn(); // n".toList ['n'] = .ok found ∧
      found.map Occurrence.offset = [0, 9] ∧ StandsAt .java "n = n2 - n;\nn(); // n".toList ['n'] 9 ∧
      ¬ StandsAt .java "n = n2 - n;\nn(); // n".toList ['n'] 4) ∧
    ofText .java "n = n2 - n;\nn(); // n".toList ['2', 'n'] = .error (.invalidIdentifier (Text.quoted ['2', 'n'])) := by
  have hname : IsIdentifier ['n'] := (isName_iff _).1 (by decide +kernel)
  have hno : ¬ IsIdentifier ['2', 'n'] := mt (isName_iff _).2 (by decide +kernel)
  obtain ⟨found, hfound, -, hoffsets, -⟩ := (ofText_traces .java "n = n2 - n;\nn(); // n".toList ['n']).1 hname
  have hmap : found.map Occurrence.offset = [0, 9] := by
    have hrun : (ofText .java "n = n2 - n;\nn(); // n".toList ['n']).toOption.map (List.map Occurrence.offset)
        = some [0, 9] := by decide +kernel
    rw [hfound] at hrun
    exact Option.some.inj hrun
  rw [hmap] at hoffsets
  exact ⟨⟨found, hfound, hmap, (hoffsets 9).1 (by decide), fun h => absurd ((hoffsets 4).2 h) (by decide)⟩,
    (ofText_traces .java _ _).2 hno⟩

end Trace

end CodeSurvey
