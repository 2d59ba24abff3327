import CodeSurvey.Proofs.Pattern.Recall

/-!
# Plain patterns

A pattern without tests and groups, in which nothing but single characters is repeated, reads the texts it spells, all
of them and no others. Whether it can be read at a place is then a question about the text that follows.

* `isPlain`: such patterns, by recursion on the pattern.
* `mem_outcomes_plain`: their outcomes. `exists_outcome_plain`: whether there is one.
* `Text.ComesNext`: what stands behind blanks, and `exists_outcome_blanks_text`: the pattern for it.
-/

namespace CodeSurvey

/-- A text comes next in another one, blanks aside. -/
def Text.ComesNext (x z : Text) : Prop :=
  ∃ b y, (∀ ch ∈ b, Text.isBlank ch = true) ∧ z = b ++ (x ++ y)

namespace Pattern

variable {limit : Nat} {p : Pattern} {r s : Reading} {x : Text}

/-- **A pattern made of texts and characters alone**: no tests, no groups, and nothing repeated but characters. -/
def isPlain : Pattern → Bool
  | .empty | .one _ | .text _ | .span _ => true
  | .seq p q | .alt p q => p.isPlain && q.isPlain
  | _ => false

/-- **A plain pattern reads what it spells.** -/
theorem mem_outcomes_plain (p : Pattern) : p.isPlain = true → ∀ r s, s ∈ p.outcomes limit r ↔
    ∃ x, p.Spelled x ∧ x <+: r.cursor.after ∧ s = r.past x := by
  induction p with
  | empty =>
    intro _ r s
    simp [outcomes, Spelled]
  | one accepts =>
    intro _ r s
    rw [mem_outcomes_one]
    constructor
    · intro h
      obtain ⟨ch, hch, hpre, hs⟩ := h
      exact ⟨[ch], ⟨ch, hch, rfl⟩, hpre, hs⟩
    · intro h
      obtain ⟨_, ⟨ch, hch, rfl⟩, hpre, hs⟩ := h
      exact ⟨ch, hch, hpre, hs⟩
  | text chars =>
    intro _ r s
    rw [mem_outcomes_text]
    constructor
    · intro h
      exact ⟨chars, rfl, h⟩
    · intro h
      obtain ⟨_, rfl, hpre, hs⟩ := h
      exact ⟨hpre, hs⟩
  | span accepts =>
    intro _ r s
    exact mem_outcomes_span
  | seq p q ihp ihq =>
    intro hplain r s
    rw [isPlain, Bool.and_eq_true] at hplain
    rw [outcomes, List.mem_flatMap]
    constructor
    · intro h
      obtain ⟨u, hu, hs⟩ := h
      obtain ⟨x, hx, ⟨z, hz⟩, rfl⟩ := (ihp hplain.1 r u).1 hu
      obtain ⟨y, hy, ⟨z', hz'⟩, rfl⟩ := (ihq hplain.2 _ s).1 hs
      rw [Reading.past_after hz.symm] at hz'
      refine ⟨x ++ y, ⟨x, y, hx, hy, rfl⟩, ⟨z', ?_⟩, Reading.past_past _ _ _⟩
      rw [List.append_assoc, hz', hz]
    · intro h
      obtain ⟨_, ⟨x, y, hx, hy, rfl⟩, ⟨z, hz⟩, rfl⟩ := h
      rw [List.append_assoc] at hz
      refine ⟨r.past x, (ihp hplain.1 r _).2 ⟨x, hx, ⟨_, hz⟩, rfl⟩, ?_⟩
      refine (ihq hplain.2 _ _).2 ⟨y, hy, ?_, (Reading.past_past _ _ _).symm⟩
      rw [Reading.past_after hz.symm]
      exact List.prefix_append y z
  | alt p q ihp ihq =>
    intro hplain r s
    rw [isPlain, Bool.and_eq_true] at hplain
    rw [outcomes, List.mem_append, ihp hplain.1, ihq hplain.2]
    constructor
    · intro h
      rcases h with ⟨x, hx, h⟩ | ⟨x, hx, h⟩
      · exact ⟨x, Or.inl hx, h⟩
      · exact ⟨x, Or.inr hx, h⟩
    · intro h
      obtain ⟨x, hx | hx, h⟩ := h
      · exact Or.inl ⟨x, hx, h⟩
      · exact Or.inr ⟨x, hx, h⟩
  | many | group | again | ahead | notAhead | behind | notBehind | edge | lineStart | lineEnd | textEnd =>
    intro hplain
    cases hplain

theorem exists_outcome_plain (h : p.isPlain = true) : (∃ s, s ∈ p.outcomes limit r) ↔
    ∃ x, p.Spelled x ∧ x <+: r.cursor.after := by
  constructor
  · intro hs
    obtain ⟨s, hs⟩ := hs
    obtain ⟨x, hx, hpre, -⟩ := (mem_outcomes_plain p h r s).1 hs
    exact ⟨x, hx, hpre⟩
  · intro hx
    obtain ⟨x, hx, hpre⟩ := hx
    exact ⟨_, (mem_outcomes_plain p h r _).2 ⟨x, hx, hpre, rfl⟩⟩

/-- Blanks and then a text. -/
theorem exists_outcome_blanks_text : (∃ s, s ∈ (blanks ++ text x).outcomes limit r) ↔
    Text.ComesNext x r.cursor.after := by
  rw [exists_outcome_plain rfl]
  constructor
  · intro h
    obtain ⟨_, ⟨b, _, hb, rfl, rfl⟩, y, hy⟩ := h
    exact ⟨b, y, hb, by rw [← hy, List.append_assoc]⟩
  · intro h
    obtain ⟨b, y, hb, hafter⟩ := h
    exact ⟨b ++ x, ⟨b, x, hb, rfl, rfl⟩, y, by rw [hafter, List.append_assoc]⟩

end Pattern

end CodeSurvey
