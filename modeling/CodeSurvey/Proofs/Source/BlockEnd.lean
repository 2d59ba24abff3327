import CodeSurvey.Proofs.Pattern.Part
import CodeSurvey.Proofs.Source.BraceBody
import CodeSurvey.Proofs.Source.Method
import CodeSurvey.Proofs.Source.Placement

/-!
# Where a function can be cut out

The text of a function runs from its signature to the end of its block. However the block is told, it does
not end in the middle of a word: it ends with a brace, a bracket, an arrow or a semicolon, in front of a
line end, or with the text. So a function that does not start in the middle of a word is cut out cleanly.

* `Text.Apart`: no word goes on through a place.
* `Block.braced_apart`: blocks in braces end so.
* `Block.indented_lineEnd`: blocks told by indentation end with a line.
* `Routine.cleanCut`: a function that starts apart is cut out cleanly.
* `Routine.atLineStart`, `Routine.newline_before`: where indentation tells blocks, a function starts with a line.
-/

namespace CodeSurvey

open Pattern

variable {t : Text} {i stop : Nat}

/-- No word goes on through a place. -/
def Text.Apart (t : Text) (i : Nat) : Prop :=
  ∀ j c d, i = j + 1 → t[j]? = some c → t[i]? = some d → Text.isWord c = true → Text.isWord d = false

namespace Block

variable {b : Block} {place : Nat}

/-! ## Braces -/

theorem apart_of_last {c : Char} (h : t[i]? = some c) (hc : Text.isWord c = false) :
    Text.Apart t (i + 1) := by
  intro j c' d hj hc' _ hword
  obtain rfl : i = j := by omega
  rw [h, Option.some.injEq] at hc'
  rw [hc', hword] at hc
  cases hc

theorem apart_of_next (h : ∀ d, t[i]? = some d → Text.isWord d = false) : Text.Apart t i :=
  fun _ _ d _ _ hd _ => h d hd

theorem IsEnclosed.apart (h : b.IsEnclosed t stop) : Text.Apart t b.stop := by
  rcases h.close with ⟨-, hclose, hstop, -⟩ | ⟨-, -, hstop⟩
  · rw [hstop]
    exact apart_of_last hclose (by decide)
  · rw [hstop]
    exact apart_of_next fun d hd => by simp at hd

theorem IsExpression.apart (h : b.IsExpression t place) : Text.Apart t b.stop := by
  rw [h.stop_eq]
  split
  · rename_i hsemicolon
    exact apart_of_last hsemicolon (by decide)
  · rename_i hno
    refine apart_of_next fun d hd => ?_
    -- one character more would be a semicolon or a line end
    have hlt := (List.getElem?_eq_some_iff.1 hd).1
    obtain ⟨c, hc, hkind⟩ := h.maximal (b.bodyEnd + 1) (by omega) (by omega)
    obtain ⟨k, hk, hk', hget⟩ := Text.mem_slice_iff.1 hc
    rcases Nat.lt_or_ge k b.bodyEnd with hinside | hend
    · obtain ⟨hs, hn⟩ := h.inside c (Text.mem_slice_iff.2 ⟨k, hk, hinside, hget⟩)
      rcases hkind with rfl | rfl
      · exact absurd rfl hs
      · exact absurd rfl hn
    · obtain rfl : k = b.bodyEnd := by omega
      rw [hd, Option.some.injEq] at hget
      subst hget
      rcases hkind with rfl | rfl
      · exact absurd hd hno
      · decide

/-- **A block in braces ends apart**, if the signature does where there is no body. -/
theorem braced_apart {start : Nat} (h : (braced t start stop).stop = stop → Text.Apart t stop) :
    Text.Apart t (braced t start stop).stop := by
  rcases braced_cases t start stop with ⟨place, -, hexpression⟩ | ⟨-, henclosed | hnone⟩
  · exact hexpression.apart
  · exact henclosed.apart
  · have hstop : (braced t start stop).stop = stop := by rw [hnone.eq]
    rw [hstop]
    exact h hstop

/-! ## Indentation -/

/-- The end of an indented body is the one given, or the end of one of the lines. -/
theorem contentEnd?_lineEnd {outer : Nat} : ∀ {lines : List Text} {inner last : Option Nat}
    {place stop : Nat}, contentEnd? outer inner last place lines = some stop →
    last = some stop ∨ ∃ k, stop = place + k ∧ ∀ d, (Text.joinLines lines)[k]? = some d → d = '\n' := by
  intro lines
  induction lines with
  | nil => intro inner last place stop h; exact Or.inl h
  | cons line rest ih =>
    intro inner last place stop h
    have hline : ∀ d, (Text.joinLines (line :: rest))[line.length]? = some d → d = '\n' := by
      intro d hd
      by_cases hnil : rest = []
      · subst hnil
        simp [Text.joinLines, Text.join_singleton] at hd
      · rw [Text.joinLines_cons line hnil, List.getElem?_append_right (Nat.le_refl _),
          Nat.sub_self] at hd
        simpa using hd.symm
    have hrest : ∀ {inner' last'}, contentEnd? outer inner' last' (place + line.length + 1) rest
        = some stop → last' = some stop ∨
          ∃ k, stop = place + k ∧ ∀ d, (Text.joinLines (line :: rest))[k]? = some d → d = '\n' := by
      intro inner' last' hcontent
      rcases ih hcontent with hlast | ⟨k, hk, hend⟩
      · exact Or.inl hlast
      · by_cases hnil : rest = []
        · subst hnil
          exact Or.inl (by simpa [contentEnd?] using hcontent)
        · refine Or.inr ⟨line.length + 1 + k, by omega, fun d hd => hend d ?_⟩
          rw [Text.joinLines_cons line hnil, List.getElem?_append_right (by omega),
            show line.length + 1 + k - line.length = k + 1 by omega] at hd
          simpa using hd
    have hself : some (place + line.length) = some stop →
        ∃ k, stop = place + k ∧ ∀ d, (Text.joinLines (line :: rest))[k]? = some d → d = '\n' :=
      fun heq => ⟨line.length, (Option.some.inj heq).symm, hline⟩
    unfold contentEnd? at h
    simp only at h
    -- a line that belongs to the body is the last one so far, or lines behind it belong to it too
    split at h
    · exact hrest h
    · split at h
      · split at h
        · exact Or.inl h
        · exact Or.inr ((hrest h).elim hself id)
      · split at h
        · exact Or.inl h
        · exact Or.inr ((hrest h).elim hself id)

theorem lineEnd_next (t : Text) (i : Nat) : ∀ d, t[Text.lineEnd t i]? = some d → d = '\n' := by
  intro d hd
  unfold Text.lineEnd at hd
  cases hindex : Text.indexFrom? (· == '\n') t i with
  | none =>
    rw [hindex, Option.getD_none] at hd
    simp at hd
  | some j =>
    obtain ⟨-, ⟨c, hc, hnewline⟩, -⟩ := Text.indexFrom?_eq_some_iff.1 hindex
    rw [hindex, Option.getD_some, hc, Option.some.injEq] at hd
    rw [← hd]
    exact beq_iff_eq.1 hnewline

/-- **A block told by indentation ends with a line.** -/
theorem indented_lineEnd (t : Text) (start stop : Nat) :
    ∀ d, t[(indented t start stop).stop]? = some d → d = '\n' := by
  unfold indented
  simp only
  split
  · exact lineEnd_next t stop
  · split
    · exact lineEnd_next t stop
    · rename_i last hlast
      rcases contentEnd?_lineEnd hlast with hnone | ⟨k, rfl, hend⟩
      · cases hnone
      · intro d hd
        refine hend d ?_
        rwa [Text.joinLines_lines, List.getElem?_drop]

end Block

/-! ## Signatures -/

/-- Behind a text the last character is the last one of the text. -/
theorem Pattern.lastIs_of_mem_text {limit : Nat} {p : Pattern} {x : Text} {ch : Char} {r s : Reading}
    (accepts : Char → Bool) (h : s ∈ (p ++ text (x ++ [ch])).outcomes limit r) :
    s.cursor.lastIs accepts = accepts ch := by
  rw [outcomes_append, List.mem_flatMap] at h
  obtain ⟨u, -, hs⟩ := h
  obtain ⟨hpre, rfl⟩ := mem_outcomes_text.1 hs
  rw [Cursor.lastIs, Reading.past, Cursor.advance_before, ← List.prefix_iff_eq_take.1 hpre,
    List.reverse_append]
  rfl

/-- The signature of a script function ends with a bracket or an arrow. -/
theorem Grammar.Scripted.lastIs_function {limit : Nat} {r s : Reading}
    (h : s ∈ function.outcomes limit r) : s.cursor.lastIs Text.isWord = false := by
  rcases List.mem_append.1 h with h | h
  · exact lastIs_of_mem_text (x := []) _ h
  · rcases List.mem_append.1 h with h | h
    · exact lastIs_of_mem_text (x := ['=']) _ h
    · rcases List.mem_append.1 h with h | h
      · exact lastIs_of_mem_text (x := ['=']) _ h
      · exact lastIs_of_mem_text (x := []) _ h

/-- A function of the language without braces starts with a line. -/
theorem Grammar.Indented.atLineStart_of_mem {limit : Nat} {r s : Reading}
    (h : s ∈ function.outcomes limit r) : r.cursor.atLineStart = true := by
  by_contra hline
  simp [function, indent, outcomes_append, outcomes, hline] at h

namespace Routine

variable {language : Language} {r : Routine}

/-- A routine does not start in the middle of a word. -/
def StartsApart (r : Routine) (t : Text) : Prop :=
  r.offset = 0 ∨ ∃ c, t[r.offset - 1]? = some c ∧ Text.isWord c = false

/-- The block of a routine ends apart. -/
theorem apart_stop {m : Match} (hm : m ∈ language.grammar.function.findAll t) :
    Text.Apart t (language.block t m.first m.last).stop := by
  have hfits := findAll_fits hm
  have hfirst := first_of_mem_readings _ _ hm
  have hmem : (⟨m.stop, m.captures⟩ : Reading)
      ∈ language.grammar.function.outcomes t.length ⟨m.start, []⟩ := List.mem_of_mem_head? hfirst
  have hstop : m.stop.after = t.drop m.last := by
    conv_lhs => rw [hfits.stop_eq]
    rfl
  -- the signature of a script function ends apart, and that of a method is never the end of its block
  have hscript : ∀ {p : Pattern}, p = Grammar.Scripted.function →
      (⟨m.stop, m.captures⟩ : Reading) ∈ p.outcomes t.length ⟨m.start, []⟩ →
      Text.Apart t (Block.braced t m.first m.last).stop := by
    rintro p rfl hmem
    refine Block.braced_apart fun _ => ?_
    have hlast := Grammar.Scripted.lastIs_function hmem
    intro j c d hj hc _ hword
    have hlt := (List.getElem?_eq_some_iff.1 hc).1
    simp only at hlast
    rw [hfits.stop_eq, hj, Cursor.lastIs_ofPlace _ hlt, hc, Option.any_some, hword] at hlast
    cases hlast
  have hmethod : ∀ {l : List String} {tail body : Pattern}, Typed.MethodShape l tail body →
      0 < body.minWidth → First t.length (Typed.method l tail body) ⟨m.start, []⟩ ⟨m.stop, m.captures⟩ →
      Text.Apart t (Block.braced t m.first m.last).stop := by
    intro l tail body hshape hwidth hread
    obtain ⟨u, hu, hle⟩ := hshape.exists_seen hread hstop m.first
    have hplace := place_of_mem_outcomes hu
    refine Block.braced_apart fun heq => ?_
    simp only [Match.last] at hplace hle heq
    omega
  cases language with
  | javascript | typescript | jsx | tsx => exact hscript rfl hmem
  | python =>
    refine Block.apart_of_next fun d hd => ?_
    obtain rfl := Block.indented_lineEnd _ _ _ d hd
    decide
  | java =>
    exact hmethod Typed.javaShape (by decide)
      ((congrArg List.head? (Typed.outcomes_javaFunction _ _)).symm.trans hfirst)
  | csharp =>
    exact hmethod Typed.csharpShape (by decide)
      ((congrArg List.head? (Typed.outcomes_csharpFunction _ _)).symm.trans hfirst)

/-- **A routine that starts apart is cut out cleanly.** -/
theorem cleanCut (hr : r ∈ scan language t) (hstart : r.StartsApart t) :
    CleanCut t r.offset r.block.stop := by
  obtain ⟨m, hm, hmr⟩ := List.mem_filterMap.1 hr
  obtain ⟨signature, -, rfl⟩ := Option.map_eq_some_iff.1 hmr
  have hfits := findAll_fits hm
  have hwithin := language.block_within m.first hfits.last_le
  have hwidth := hfits.width_le
  have hplace := hwithin.place_le_stop
  have hapart := apart_stop hm
  refine ⟨by simp only; omega, hwithin.stop_le, ?_, fun hlast => ?_⟩
  · rcases hstart with hzero | ⟨c, hc, hword⟩
    · simp only at hzero ⊢
      rw [hzero]
      rfl
    · simp only at hc ⊢
      have hlt := (List.getElem?_eq_some_iff.1 hc).1
      rcases Nat.eq_zero_or_pos m.first with hzero | hpos
      · rw [hzero]
        rfl
      · rw [show m.first = m.first - 1 + 1 by omega, Cursor.lastIs_ofPlace _ hlt, hc]
        exact hword
  · -- a word character on the left leaves none on the right
    simp only at hlast ⊢
    generalize hstop : (language.block t m.first m.last).stop = stop at hlast hapart hwithin ⊢
    have hle : stop ≤ t.length := hstop ▸ hwithin.stop_le
    rw [Cursor.nextIs_ofPlace]
    cases stop with
    | zero => cases hlast
    | succ j =>
      rw [Cursor.lastIs_ofPlace _ (by omega), Option.any_eq_true] at hlast
      obtain ⟨c, hc, hword⟩ := hlast
      cases hd : t[j + 1]? with
      | none => rfl
      | some d => exact hapart j c d rfl hc hd hword

/-- Where indentation tells blocks, a routine starts with a line. -/
theorem atLineStart (hr : r ∈ scan .python t) : (Cursor.ofPlace t r.offset).atLineStart = true := by
  obtain ⟨m, hm, hmr⟩ := List.mem_filterMap.1 hr
  obtain ⟨signature, -, rfl⟩ := Option.map_eq_some_iff.1 hmr
  have hfits := findAll_fits hm
  have hfirst := first_of_mem_readings _ _ hm
  have hline := Grammar.Indented.atLineStart_of_mem (List.mem_of_mem_head? hfirst)
  simp only at hline
  rwa [hfits.start_eq] at hline

/-- So, unless it starts with the text, a line end stands in front of it. -/
theorem newline_before (hr : r ∈ scan .python t) (hpos : 0 < r.offset) : t[r.offset - 1]? = some '\n' := by
  have h := atLineStart hr
  have hle : r.offset ≤ t.length := by
    obtain ⟨m, hm, hmr⟩ := mem_scan hr
    have hplaced := ofMatch?_wellPlaced hm hmr
    have := hplaced.offset_lt
    have := hplaced.signatureEnd_le
    have := hplaced.bodyStart_le
    have := hplaced.bodyEnd_le
    have := hplaced.stop_le
    omega
  obtain ⟨i, hi⟩ : ∃ i, r.offset = i + 1 := ⟨r.offset - 1, by omega⟩
  have hlt : i < t.length := by omega
  rw [hi, Nat.add_sub_cancel]
  rw [hi, Cursor.atLineStart, Cursor.lastIs_ofPlace _ hlt, List.getElem?_eq_getElem hlt,
    Bool.or_eq_true] at h
  rcases h with hempty | hnewline
  · have hplace := (Cursor.ofPlace t (i + 1)).place_eq
    rw [List.isEmpty_iff.1 hempty] at hplace
    have : (t.take (i + 1)).length = 0 := hplace
    rw [List.length_take] at this
    omega
  · rw [List.getElem?_eq_getElem hlt, beq_iff_eq.1 hnewline]

/-- So it does not start in the middle of a word. -/
theorem startsApart_of_python (hr : r ∈ scan .python t) : r.StartsApart t := by
  rcases Nat.eq_zero_or_pos r.offset with hzero | hpos
  · exact Or.inl hzero
  · exact Or.inr ⟨'\n', newline_before hr hpos, by decide⟩

end Routine

end CodeSurvey
