import CodeSurvey.Cache.Key
import CodeSurvey.Proofs.Text.Case
import CodeSurvey.Proofs.Text.Trim

/-!
# Requests are told apart by their key text

The text a key is made from holds the tool, the language and the source with a null character
between them. Normalising a language brings in no null character, so the three parts can be read
back from the text.

* `nul_notMem_lower`, `nul_mem_lower`: lower case brings in no null character and drops none.
* `nul_notMem_of_resolve?`: no language that is supported has one.
* `request_inj`: two requests to one tool, in languages without a null character, have one key text
  only if languages and sources agree.
-/

namespace CodeSurvey

/-- The null character, which divides the parts of a key text. -/
def nul : Char := Char.ofNat 0

namespace Text

/-- **Lower case brings in no null character.** -/
theorem nul_notMem_lower {t : Text} (h : nul ∉ t) : nul ∉ lower t := by
  intro hmem
  exact h (mem_of_mem_lower (by decide) hmem)

/-- A null character stays one in lower case. -/
theorem nul_mem_lower {t : Text} (h : nul ∈ t) : nul ∈ lower t := by
  have hself : nul ∈ changeCase lowerLong lowerRuns nul := by decide +kernel
  have hfrom : ∀ before, nul ∈ lowerFrom before t := by
    induction t with
    | nil => cases h
    | cons c rest ih =>
      intro before
      rw [lowerFrom, List.mem_append]
      rcases List.mem_cons.1 h with rfl | h
      · rw [if_neg (by decide)]
        exact Or.inl hself
      · exact Or.inr (ih h _)
  exact hfrom []

end Text

/-- A language without a null character has none in its normal spelling either. -/
theorem Language.nul_notMem_normalized {spelling : Text} (h : nul ∉ spelling) :
    nul ∉ normalized spelling :=
  Text.nul_notMem_lower fun hm => h (Text.mem_of_mem_trim hm)

/-- A null character of a language is in its normal spelling. -/
theorem Language.nul_mem_normalized {spelling : Text} (h : nul ∈ spelling) :
    nul ∈ normalized spelling :=
  Text.nul_mem_lower (Text.mem_trim_of_mem (by decide) h)

/-- A language that is supported has no null character. -/
theorem Language.nul_notMem_of_resolve? {spelling : Text} (h : (resolve? spelling).isSome) :
    nul ∉ spelling := by
  have hnames : ∀ name ∈ aliases.map Prod.fst ++ all.map id, nul ∉ name.toList := by decide
  have hmem : String.ofList (normalized spelling) ∈ aliases.map Prod.fst ++ all.map id := by
    unfold resolve? at h
    simp only at h
    rw [List.mem_append]
    cases hlookup : aliases.lookup (String.ofList (normalized spelling)) with
    | some name =>
      obtain ⟨a, ha, hname⟩ := List.lookup_isSome_iff.1 (Option.isSome_of_eq_some hlookup)
      exact Or.inl (List.mem_map.2 ⟨a, ha, (beq_iff_eq.1 hname).symm⟩)
    | none =>
      rw [hlookup, Option.getD_none, ofId?, List.find?_isSome] at h
      obtain ⟨l, hl, hid⟩ := h
      exact Or.inr (List.mem_map.2 ⟨l, hl, by simpa using hid⟩)
  intro hnul
  have := hnames _ hmem
  rw [String.toList_ofList] at this
  exact this (nul_mem_normalized hnul)

namespace CacheKey

theorem request_eq (tool language source : Text) :
    request tool language source
      = tool ++ nul :: (Language.normalized language ++ nul :: source) := by
  simp [request, Text.join, List.intercalate, nul]

/-- **Key texts tell requests to one tool apart**: the languages agree in their normal spelling, and
the sources agree. -/
theorem request_inj {tool l₁ l₂ s₁ s₂ : Text} (h₁ : nul ∉ l₁) (h₂ : nul ∉ l₂)
    (h : request tool l₁ s₁ = request tool l₂ s₂) :
    Language.normalized l₁ = Language.normalized l₂ ∧ s₁ = s₂ := by
  rw [request_eq, request_eq, List.append_cancel_left_eq, List.cons.injEq] at h
  have hn₁ := Language.nul_notMem_normalized h₁
  have hn₂ := Language.nul_notMem_normalized h₂
  -- both sides are read up to their first null character
  have hleft := congrArg (List.takeWhile (· != nul)) h.2
  have hall : ∀ l s : Text, nul ∉ l → (l ++ nul :: s).takeWhile (· != nul) = l := by
    intro l s hl
    rw [List.takeWhile_append_of_pos]
    · simp
    · intro c hc
      simpa using fun he : c = nul => hl (he ▸ hc)
  rw [hall _ _ hn₁, hall _ _ hn₂] at hleft
  have hright := h.2
  rw [hleft, List.append_cancel_left_eq, List.cons.injEq] at hright
  exact ⟨hleft, hright.2⟩

end CacheKey

end CodeSurvey
