import CodeSurvey.Proofs.Pattern.Stops
import CodeSurvey.Proofs.Text.Lines

/-!
# What is found in a part of a text

A part of a text is cut out, and a pattern is looked for in it. What the pattern tests for at the ends of
the part is no longer what stands there in the text. If the cuts do not run through a word, then a test for
the edge of a word succeeds in the part only where it succeeds in the text, and whatever is found in the
part is found in the text.

* `isPositive`: a pattern that tests for edges and line starts only.
* `CleanCut`: two places between which a text can be cut out.
* `exists_of_mem_excerpt`: every outcome in the part is one in the text.
* `foundIn_of_slice`: so what is found in the part is found in the text.
-/

namespace CodeSurvey

open Pattern

/-- **Two places between which a text can be cut out**: no word goes on through either of them. -/
structure CleanCut (t : Text) (first last : Nat) : Prop where
  le : first ≤ last
  last_le : last ≤ t.length
  left : (Cursor.ofPlace t first).lastIs Text.isWord = false
  right : (Cursor.ofPlace t last).lastIs Text.isWord = true →
    (Cursor.ofPlace t last).nextIs Text.isWord = false

/-- A reading lies in a part of a text, and so does what its groups hold. -/
structure Reading.LiesIn (r : Reading) (t : Text) (first last : Nat) : Prop where
  whole : r.cursor.whole = t
  first_le : first ≤ r.cursor.place
  le_last : r.cursor.place ≤ last
  captures : ∀ c ∈ r.captures,
    first ≤ c.start.place ∧ c.start.place ≤ c.stop.place ∧ c.stop.place ≤ last

variable {t x : Text} {first last limit limit' n n' : Nat} {p : Pattern} {r s : Reading} {c : Cursor}

/-! ## Cursors -/

theorem Cursor.eq_ofPlace_of (h : c.whole = t) (hplace : c.place = n) : c = Cursor.ofPlace t n := by
  rw [← h, ← hplace]
  exact c.eq_ofPlace

/-- A test for the edge of a word that succeeds in the part succeeds in the text. -/
theorem CleanCut.atEdge (hcut : CleanCut t first last) (hr : r.LiesIn t first last)
    (h : (r.cursor.excerpt first last).atEdge = true) : r.cursor.atEdge = true := by
  have hfirst := hr.first_le
  have hlast := hr.le_last
  -- in front of the part there is nothing, and behind it neither
  have hbefore : r.cursor.place = first → (r.cursor.excerpt first last).lastIs Text.isWord = false ∧
      r.cursor.lastIs Text.isWord = false := by
    intro heq
    refine ⟨by simp [Cursor.lastIs, Cursor.excerpt, heq], ?_⟩
    rw [Cursor.eq_ofPlace_of hr.whole heq]
    exact hcut.left
  have hafter : r.cursor.place = last → (r.cursor.excerpt first last).nextIs Text.isWord = false ∧
      (r.cursor.lastIs Text.isWord = true → r.cursor.nextIs Text.isWord = false) := by
    intro heq
    refine ⟨by simp [Cursor.nextIs, Cursor.excerpt, heq], ?_⟩
    rw [Cursor.eq_ofPlace_of hr.whole heq]
    exact hcut.right
  have hlastIs : (r.cursor.excerpt first last).lastIs Text.isWord = r.cursor.lastIs Text.isWord := by
    rcases Nat.eq_or_lt_of_le hfirst with heq | hlt
    · rw [(hbefore heq.symm).1, (hbefore heq.symm).2]
    · exact Cursor.lastIs_excerpt _ hlt
  rw [Cursor.atEdge, hlastIs] at h
  rw [Cursor.atEdge]
  rcases Nat.eq_or_lt_of_le hlast with heq | hlt
  · rw [(hafter heq).1] at h
    have hword : r.cursor.lastIs Text.isWord = true := by simpa using h
    rw [hword, (hafter heq).2 hword]
    rfl
  · rwa [Cursor.nextIs_excerpt _ hlt] at h

/-- A line that starts in the part starts in the text, if the part starts with one. -/
theorem Reading.LiesIn.atLineStart (hr : r.LiesIn t first last)
    (hline : (Cursor.ofPlace t first).atLineStart = true)
    (h : (r.cursor.excerpt first last).atLineStart = true) : r.cursor.atLineStart = true := by
  rcases Nat.eq_or_lt_of_le hr.first_le with heq | hlt
  · rw [Cursor.eq_ofPlace_of hr.whole heq.symm]
    exact hline
  · rw [Cursor.atLineStart, Cursor.lastIs_excerpt _ hlt, Bool.or_eq_true] at h
    rw [Cursor.atLineStart, Bool.or_eq_true]
    refine h.imp_left fun hempty => ?_
    -- the part has characters in front of the cursor
    have hplace : (r.cursor.excerpt first last).place = 0 := by
      rw [Cursor.place_eq, List.isEmpty_iff.1 hempty]
      rfl
    have : r.cursor.place - first = 0 := hplace
    omega

/-! ## Readings -/

/-- What can be passed in the part can be passed in the text. -/
theorem Reading.LiesIn.past (hr : r.LiesIn t first last)
    (hx : x <+: (r.excerpt first last).cursor.after) : x <+: r.cursor.after ∧
      (r.past x).LiesIn t first last ∧ (r.excerpt first last).past x = (r.past x).excerpt first last := by
  have hafter : (r.excerpt first last).cursor.after = r.cursor.after.take (last - r.cursor.place) := rfl
  rw [hafter] at hx
  have hpre : x <+: r.cursor.after := hx.trans ( List.take_prefix _ _)
  have hlen := hx.length_le
  rw [List.length_take] at hlen
  have hplace := r.cursor.advance_place hpre.length_le
  have hfirst := hr.first_le
  have hlast := hr.le_last
  refine ⟨hpre, ⟨?_, ?_, ?_, hr.captures⟩, ?_⟩
  · show (r.cursor.advance x.length).whole = t
    rw [Cursor.advance_whole, hr.whole]
  · show first ≤ (r.cursor.advance x.length).place
    omega
  · show (r.cursor.advance x.length).place ≤ last
    omega
  · have hmove : (r.cursor.advance x.length).excerpt first last
        = (r.cursor.excerpt first last).advance x.length :=
      Cursor.excerpt_advance hfirst hpre.length_le (by omega)
    show (⟨(r.cursor.excerpt first last).advance x.length, _⟩ : Reading)
      = ⟨(r.cursor.advance x.length).excerpt first last, _⟩
    rw [hmove]
    rfl

/-- What a group holds is the same in the part. -/
theorem Reading.LiesIn.capture? (hr : r.LiesIn t first last) (label : Label) :
    ((r.excerpt first last).capture? label).map Capture.text
      = (r.capture? label).map Capture.text := by
  have hfind : (r.excerpt first last).capture? label
      = (r.capture? label).map (Capture.excerpt first last) := by
    unfold Reading.capture? Reading.excerpt
    rw [List.find?_map]
    rfl
  rw [hfind, Option.map_map]
  cases hc : r.capture? label with
  | none => rfl
  | some c =>
    obtain ⟨h1, h2, h3⟩ := hr.captures c (List.mem_of_find?_eq_some hc)
    simp only [Option.map_some, Function.comp_apply]
    rw [Capture.text_excerpt h1 h2 h3]

namespace Pattern

/-- Whether a pattern tests for nothing but edges of words and starts of lines. -/
def isPositive : Pattern → Bool
  | .seq p q | .alt p q => p.isPositive && q.isPositive
  | .many _ p | .group _ p => p.isPositive
  | .ahead _ | .notAhead _ | .behind _ | .notBehind _ | .lineEnd | .textEnd => false
  | _ => true

/-- Whether a pattern tests for the start of a line. -/
def asksLine : Pattern → Bool
  | .seq p q | .alt p q => p.asksLine || q.asksLine
  | .many _ p | .group _ p => p.asksLine
  | .lineStart => true
  | _ => false

theorem mem_outcomes_again {label : Label} : s ∈ (again label).outcomes limit r ↔
    ∃ x, (r.capture? label).map Capture.text = some x ∧ x <+: r.cursor.after ∧ s = r.past x := by
  rw [outcomes]
  cases r.capture? label with
  | none => simp
  | some capture =>
    have htext : s ∈ ((r.cursor.passText? capture.text).map fun c => (⟨c, r.captures⟩ : Reading)).toList
        ↔ s ∈ (text capture.text).outcomes limit r := Iff.rfl
    simp only [htext, mem_outcomes_text, Option.map_some, Option.some.injEq, exists_eq_left']

/-- Steps that are made in the part are made in the text, and more may be made there. -/
theorem exists_of_mem_repeated {order : Order} {inside whole : Reading → List Reading}
    (hstep : ∀ {r s}, r.LiesIn t first last → s ∈ inside (r.excerpt first last) →
      ∃ u ∈ whole r, u.LiesIn t first last ∧ s = u.excerpt first last) :
    ∀ {n n' : Nat} {r s : Reading}, n' ≤ n → r.LiesIn t first last →
      s ∈ repeated order inside n' (r.excerpt first last) →
      ∃ u ∈ repeated order whole n r, u.LiesIn t first last ∧ s = u.excerpt first last := by
  intro n
  induction n with
  | zero =>
    intro n' r s hn hr hs
    obtain rfl : n' = 0 := by omega
    rw [repeated, List.mem_singleton] at hs
    exact ⟨r, by simp [repeated], hr, hs⟩
  | succ n ih =>
    intro n' r s hn hr hs
    -- a repetition may stop at once, or it goes on behind a step
    have hstay : r ∈ repeated order whole (n + 1) r := by
      cases order <;> simp [repeated]
    have hgo : ∀ {u v}, u ∈ whole r → v ∈ repeated order whole n u →
        v ∈ repeated order whole (n + 1) r := by
      intro u v hu hv
      cases order
      · exact List.mem_append_left _ (List.mem_flatMap.2 ⟨u, hu, hv⟩)
      · exact List.mem_cons_of_mem _ (List.mem_flatMap.2 ⟨u, hu, hv⟩)
    cases n' with
    | zero =>
      rw [repeated, List.mem_singleton] at hs
      exact ⟨r, hstay, hr, hs⟩
    | succ n' =>
      rcases mem_repeated_succ hs with rfl | ⟨u', hu', hs⟩
      · exact ⟨r, hstay, hr, rfl⟩
      · obtain ⟨u, hu, hlies, rfl⟩ := hstep hr hu'
        obtain ⟨v, hv, hlies', rfl⟩ := ih (by omega) hlies hs
        exact ⟨v, hgo hu hv, hlies', rfl⟩

/-- **Every outcome in a part is an outcome in the text.** -/
theorem exists_of_mem_excerpt (hcut : CleanCut t first last) (hlimit : limit' ≤ limit) (p : Pattern) :
    p.isPositive = true → (p.asksLine = true → (Cursor.ofPlace t first).atLineStart = true) →
      ∀ {r s : Reading}, r.LiesIn t first last → s ∈ p.outcomes limit' (r.excerpt first last) →
        ∃ u ∈ p.outcomes limit r, u.LiesIn t first last ∧ s = u.excerpt first last := by
  induction p with
  | empty =>
    intro _ _ r s hr hs
    rw [outcomes, List.mem_singleton] at hs
    exact ⟨r, List.mem_singleton.2 rfl, hr, hs⟩
  | one accepts =>
    intro _ _ r s hr hs
    obtain ⟨ch, hch, hx, rfl⟩ := mem_outcomes_one.1 hs
    obtain ⟨hpre, hlies, heq⟩ := hr.past hx
    exact ⟨_, mem_outcomes_one.2 ⟨ch, hch, hpre, rfl⟩, hlies, heq⟩
  | text chars =>
    intro _ _ r s hr hs
    obtain ⟨hx, rfl⟩ := mem_outcomes_text.1 hs
    obtain ⟨hpre, hlies, heq⟩ := hr.past hx
    exact ⟨_, mem_outcomes_text.2 ⟨hpre, rfl⟩, hlies, heq⟩
  | span accepts =>
    intro _ _ r s hr hs
    obtain ⟨x, hall, hx, rfl⟩ := mem_outcomes_span.1 hs
    obtain ⟨hpre, hlies, heq⟩ := hr.past hx
    exact ⟨_, mem_outcomes_span.2 ⟨x, hall, hpre, rfl⟩, hlies, heq⟩
  | again label =>
    intro _ _ r s hr hs
    obtain ⟨x, hcapture, hx, rfl⟩ := mem_outcomes_again.1 hs
    obtain ⟨hpre, hlies, heq⟩ := hr.past hx
    rw [hr.capture?] at hcapture
    exact ⟨_, mem_outcomes_again.2 ⟨x, hcapture, hpre, rfl⟩, hlies, heq⟩
  | seq p q ihp ihq =>
    intro hpos hline r s hr hs
    simp only [isPositive, Bool.and_eq_true] at hpos
    simp only [asksLine, Bool.or_eq_true] at hline
    rw [outcomes, List.mem_flatMap] at hs
    obtain ⟨u', hu', hs⟩ := hs
    obtain ⟨u, hu, hlies, rfl⟩ := ihp hpos.1 (fun h => hline (Or.inl h)) hr hu'
    obtain ⟨v, hv, hlies', rfl⟩ := ihq hpos.2 (fun h => hline (Or.inr h)) hlies hs
    exact ⟨v, List.mem_flatMap.2 ⟨u, hu, hv⟩, hlies', rfl⟩
  | alt p q ihp ihq =>
    intro hpos hline r s hr hs
    simp only [isPositive, Bool.and_eq_true] at hpos
    simp only [asksLine, Bool.or_eq_true] at hline
    rw [outcomes, List.mem_append] at hs
    rcases hs with hs | hs
    · obtain ⟨u, hu, hlies, rfl⟩ := ihp hpos.1 (fun h => hline (Or.inl h)) hr hs
      exact ⟨u, List.mem_append_left _ hu, hlies, rfl⟩
    · obtain ⟨u, hu, hlies, rfl⟩ := ihq hpos.2 (fun h => hline (Or.inr h)) hr hs
      exact ⟨u, List.mem_append_right _ hu, hlies, rfl⟩
  | many order p ih =>
    intro hpos hline r s hr hs
    exact exists_of_mem_repeated (ih hpos hline) hlimit hr hs
  | group label p ih =>
    intro hpos hline r s hr hs
    rw [outcomes, List.mem_map] at hs
    obtain ⟨u', hu', rfl⟩ := hs
    obtain ⟨u, hu, hlies, rfl⟩ := ih hpos hline hr hu'
    refine ⟨_, List.mem_map.2 ⟨u, hu, rfl⟩, ⟨hlies.whole, hlies.first_le, hlies.le_last, ?_⟩, rfl⟩
    intro c hc
    rcases List.mem_cons.1 hc with rfl | hc
    · have hle := place_of_mem_outcomes hu
      exact ⟨hr.first_le, by simp only; omega, hlies.le_last⟩
    · exact hlies.captures c hc
  | edge =>
    intro _ _ r s hr hs
    obtain ⟨hedge, rfl⟩ := mem_outcomes_edge.1 hs
    exact ⟨r, mem_outcomes_edge.2 ⟨hcut.atEdge hr hedge, rfl⟩, hr, rfl⟩
  | lineStart =>
    intro _ hline r s hr hs
    rw [outcomes] at hs
    split at hs
    · rename_i hstart
      obtain rfl := List.mem_singleton.1 hs
      refine ⟨r, ?_, hr, rfl⟩
      rw [outcomes, if_pos (hr.atLineStart (hline rfl) hstart)]
      exact List.mem_singleton.2 rfl
    · cases hs
  | ahead p _ | notAhead p _ | behind a | notBehind a | lineEnd | textEnd =>
    intro hpos
    cases hpos

/-- **What is found in a part is found in the text.** -/
theorem foundIn_of_slice (hcut : CleanCut t first last) (hp : p.isPositive = true)
    (hline : p.asksLine = true → (Cursor.ofPlace t first).atLineStart = true)
    (h : p.foundIn (Text.slice t first last) = true) : p.foundIn t = true := by
  rw [foundIn_iff] at h ⊢
  obtain ⟨k, hk, s, hs⟩ := h
  have hle := hcut.le
  have hlast := hcut.last_le
  rw [Text.length_slice hlast] at hk hs
  have hplace : (Cursor.ofPlace t first).place = first := Cursor.ofPlace_place (by omega)
  have hlen : k ≤ (Cursor.ofPlace t first).after.length := by
    rw [Cursor.ofPlace_after, List.length_drop]
    omega
  have hadvance := (Cursor.ofPlace t first).advance_place hlen
  -- the cursor of the part, seen in the text
  have hcursor : ((Cursor.ofPlace t first).advance k).excerpt first last
      = Cursor.ofPlace (Text.slice t first last) k := by
    rw [Cursor.excerpt_advance (by omega) hlen (by omega), Cursor.excerpt_ofPlace hle hlast,
      Cursor.ofPlace_advance, Nat.zero_add]
  have hlies : Reading.LiesIn ⟨(Cursor.ofPlace t first).advance k, []⟩ t first last := by
    refine ⟨?_, by simp only; omega, by simp only; omega, by simp⟩
    rw [Cursor.advance_whole, Cursor.ofPlace_whole]
  have hlimit : last - first ≤ t.length := by omega
  obtain ⟨u, hu, -, -⟩ := exists_of_mem_excerpt hcut hlimit p hp hline hlies
    (by rwa [Reading.excerpt, hcursor, List.map_nil])
  refine ⟨first + k, by omega, u, ?_⟩
  rwa [Cursor.ofPlace_advance] at hu

end Pattern

end CodeSurvey
