import CodeSurvey.Proofs.Pattern.Excerpt
import CodeSurvey.Proofs.Pattern.Recall
import CodeSurvey.Proofs.RoundTrip.Signature

/-!
# What groups hold

The text that a group remembers is one that its pattern spells, and it is part of what the whole pattern has read.

* `captures_spelled`: every capture holds a text that its group spells.
* `Match.spelled_of_group?`, `Match.infix_of_group?`: so does every group of a match, and its text is part of the text
  read.
-/

namespace CodeSurvey

namespace Pattern

variable {limit : Nat} {p : Pattern} {r s : Reading}

/-- A capture holds a text that one of the groups spells. -/
def Holds (G : List (Label × Pattern)) (c : Capture) : Prop :=
  ∃ q, (c.label, q) ∈ G ∧ q.Spelled c.text

theorem Holds.mono {G G' : List (Label × Pattern)} {c : Capture} (h : Holds G c) (hG : ∀ g ∈ G, g ∈ G') :
    Holds G' c := by
  obtain ⟨q, hq, hspelled⟩ := h
  exact ⟨q, hG _ hq, hspelled⟩

theorem repeated_captures {order : Order} {step : Reading → List Reading} {P : Capture → Prop}
    (hstep : ∀ r s, s ∈ step r → ∀ c ∈ s.captures, c ∈ r.captures ∨ P c) :
    ∀ n r s, s ∈ repeated order step n r → ∀ c ∈ s.captures, c ∈ r.captures ∨ P c := by
  intro n
  induction n with
  | zero =>
    intro r s hs c hc
    rw [repeated, List.mem_singleton] at hs
    exact Or.inl (hs ▸ hc)
  | succ n ih =>
    intro r s hs c hc
    rcases mem_repeated_succ hs with rfl | ⟨u, hu, hs⟩
    · exact Or.inl hc
    · rcases ih u s hs c hc with hold | hnew
      · exact hstep r u hu c hold
      · exact Or.inr hnew

/-- **Every capture was there before, or holds a text that its group spells.** -/
theorem captures_spelled (p : Pattern) : ∀ r s, s ∈ p.outcomes limit r →
    ∀ c ∈ s.captures, c ∈ r.captures ∨ Holds p.groups c := by
  induction p with
  | seq p q ihp ihq =>
    intro r s hs c hc
    rw [outcomes, List.mem_flatMap] at hs
    obtain ⟨u, hu, hs⟩ := hs
    rcases ihq u s hs c hc with hold | hnew
    · rcases ihp r u hu c hold with hold | hnew
      · exact Or.inl hold
      · exact Or.inr (hnew.mono fun g hg => List.mem_append_left _ hg)
    · exact Or.inr (hnew.mono fun g hg => List.mem_append_right _ hg)
  | alt p q ihp ihq =>
    intro r s hs c hc
    rw [outcomes, List.mem_append] at hs
    rcases hs with hs | hs
    · exact (ihp r s hs c hc).imp_right fun h => h.mono fun g hg => List.mem_append_left _ hg
    · exact (ihq r s hs c hc).imp_right fun h => h.mono fun g hg => List.mem_append_right _ hg
  | many order p ih =>
    intro r s hs
    exact repeated_captures ih limit r s hs
  | group label p ih =>
    intro r s hs c hc
    rw [outcomes, List.mem_map] at hs
    obtain ⟨u, hu, rfl⟩ := hs
    rcases List.mem_cons.1 hc with rfl | hc
    · -- the group itself has read from here to there
      obtain ⟨x, hx, hafter, hstop⟩ := exists_spelled_advance hu
      right
      refine ⟨p, List.mem_cons_self, ?_⟩
      rw [hstop, Capture.text_eq label hafter]
      exact hx
    · exact (ih r u hu c hc).imp_right fun h => h.mono fun g hg => List.mem_cons_of_mem _ hg
  | empty | one | text | span | again | ahead | notAhead | behind | notBehind | edge | lineStart | lineEnd | textEnd =>
    intro r s hs c hc
    rw [captures_of_mem_outcomes _ rfl r s hs] at hc
    exact Or.inl hc

end Pattern

/-! ## Matches -/

namespace Match

variable {p : Pattern} {t x : Text} {m : Match} {role : String}

theorem exists_capture (h : m.group? role = some x) : ∃ c ∈ m.captures, c.label.role = role ∧ c.text = x := by
  unfold group? capture? at h
  obtain ⟨c, hc, hx⟩ := Option.map_eq_some_iff.1 h
  have hrole := List.find?_some hc
  exact ⟨c, List.mem_of_find?_eq_some hc, by simpa using hrole, hx⟩

/-- **The text of a group of a match is one that the group spells.** -/
theorem spelled_of_group? (hm : m ∈ p.findAll t) (h : m.group? role = some x) :
    ∃ g ∈ p.groups, g.1.role = role ∧ g.2.Spelled x := by
  obtain ⟨c, hc, hrole, rfl⟩ := exists_capture h
  have hread := List.mem_of_mem_head? (Pattern.first_of_mem_readings _ _ hm)
  rcases Pattern.captures_spelled p _ _ hread c hc with hold | ⟨q, hq, hspelled⟩
  · cases hold
  · exact ⟨_, hq, hrole, hspelled⟩

/-- **The text of a group of a match is part of the text read.** -/
theorem infix_of_group? (hm : m.Fits p t) (h : m.group? role = some x) : x <:+: Text.slice t m.first m.last := by
  obtain ⟨c, hc, -, rfl⟩ := exists_capture h
  obtain ⟨q, -, hstart, -, hfirst, -, hlast⟩ := hm.captures c hc
  have htext : c.text = Text.slice t c.start.place c.stop.place := by
    unfold Capture.text Text.slice
    rw [← Cursor.ofPlace_after, ← hstart]
  rw [htext]
  exact Text.isInfix_slice hfirst hlast

end Match

end CodeSurvey
