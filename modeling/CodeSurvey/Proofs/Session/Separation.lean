import CodeSurvey.Proofs.Session.Provenance

/-!
# Whom a cached report is served to

The key text of a call holds the language and the source with a null character between them. A report
is stored only in a language that is supported, and no such language has a null character; but the
language that is asked for may have one, and then the text can be cut in another place.

* `StoredBefore`: an earlier call stored the answer.
* `StoredBefore.nul_notMem`: if it asked for the same thing, the language has no null character.
* `found_for_same_request_iff`: an answer from the cache was stored for the same language and source if
  and only if the language has no null character. A language that is not supported is turned down
  unless the cache answers, for which it has to have one.
* `found_for_other_request`: a language that is not supported is given the report on another source.
-/

namespace CodeSurvey.Session

/-- The answer to a language that is not supported. -/
def unsupported (language : Text) : Json :=
  (SurveyError.unsupportedLanguage language (Language.all.map (·.id.toList))).toJson

/-- An earlier call of the run stored the answer, and asked for such a language and source. -/
def StoredBefore (s : Session) (before : List Step) (asked : Text → Text → Prop)
    (answer : Except ToolFault Json) : Prop :=
  ∃ earlier c later, before = earlier ++ .call c :: later ∧ ∃ code language : String,
    c.tool = .analyzeCode ∧ c.code = .str code ∧ c.language = .str language ∧
    asked language.toList code.toList ∧ ((s.run earlier).call c).cacheUse = .stored ∧
    ((s.run earlier).call c).answer = answer

/-- The same source, and the same language without blanks around it and in lower case. -/
def SameRequest (language code language' code' : Text) : Prop :=
  Language.normalized language' = Language.normalized language ∧ code' = code

variable {s : Session} {c : ToolCall} {code language : String} {before rest : List Step}

/-- A report is not the answer to a language that is not supported. -/
theorem reportAnswer_ne_unsupported {config : Config} {language code : Text}
    (h : (Language.resolve? language).isSome) (other : Text) :
    reportAnswer config language code ≠ unsupported other := by
  obtain ⟨l, hl⟩ := Option.isSome_iff_exists.1 h
  rw [reportAnswer_of_resolve? hl]
  simp [Report.toJson, unsupported, SurveyError.toJson]

theorem reportAnswer_of_unsupported {config : Config} {language code : Text}
    (h : Language.resolve? language = none) :
    reportAnswer config language code = unsupported language := by
  rw [reportAnswer, h]
  rfl

/-- Where the digest tells the key texts of the run apart, an answer from the cache was stored by an
earlier call with the same key text. -/
theorem storedBefore_of_found (hcache : s.cache = none)
    (hinj : ∀ t ∈ s.keyTexts (before ++ .call c :: rest),
      ∀ u ∈ s.keyTexts (before ++ .call c :: rest), CacheKey.ofText t = CacheKey.ofText u → t = u)
    (htool : c.tool = .analyzeCode) (hcode : c.code = .str code) (hlang : c.language = .str language)
    (hfound : ((s.run before).call c).cacheUse = .found) :
    s.StoredBefore before (fun l t => reportKey l t = reportKey language.toList code.toList)
      ((s.run before).call c).answer := by
  obtain ⟨earlier, c', later, code', language', e, hbefore, hstores, -, hkey, hanswer⟩ :=
    exists_stores_of_found hcache hinj htool hcode hlang hfound
  exact ⟨earlier, c', later, hbefore, code', language', hstores.tool, hstores.code_eq,
    hstores.language_eq, hkey, hstores.use, hstores.answer.trans hanswer.symm⟩

namespace StoredBefore

variable {language code : Text} {answer : Except ToolFault Json}

theorem nul_notMem (h : s.StoredBefore before (SameRequest language code) answer) :
    nul ∉ language := by
  obtain ⟨earlier, c, later, -, code', language', htool, hcode, hlang, hasked, huse, -⟩ := h
  have hsupported := (activeCache_of_stored htool hcode hlang huse).2
  have hnul := Language.nul_notMem_of_resolve? hsupported
  intro hmem
  have hnormal := Language.nul_mem_normalized hmem
  rw [← hasked.1] at hnormal
  exact Language.nul_notMem_normalized hnul hnormal

/-- Without a null character the key text can be cut in one place only. -/
theorem sameRequest (hnul : nul ∉ language)
    (h : s.StoredBefore before (fun l t => reportKey l t = reportKey language code) answer) :
    s.StoredBefore before (SameRequest language code) answer := by
  obtain ⟨earlier, c, later, hbefore, code', language', htool, hcode, hlang, hasked, huse, hanswer⟩ := h
  have hsupported := (activeCache_of_stored htool hcode hlang huse).2
  have hsame := CacheKey.request_inj (Language.nul_notMem_of_resolve? hsupported) hnul hasked
  exact ⟨earlier, c, later, hbefore, code', language', htool, hcode, hlang, hsame, huse, hanswer⟩

theorem supported (h : s.StoredBefore before (SameRequest language code) answer) :
    (Language.resolve? language).isSome := by
  obtain ⟨earlier, c, later, -, code', language', htool, hcode, hlang, hasked, huse, -⟩ := h
  rw [← Language.resolve?_congr hasked.1]
  exact (activeCache_of_stored htool hcode hlang huse).2

/-- What was stored is a report. -/
theorem ne_unsupported {asked : Text → Text → Prop} (h : s.StoredBefore before asked answer)
    (language : Text) : answer ≠ .ok (unsupported language) := by
  obtain ⟨earlier, c, later, -, code', language', htool, hcode, hlang, -, huse, rfl⟩ := h
  obtain ⟨e, hstores⟩ := exists_stores htool hcode hlang huse
  rw [hstores.answer, hstores.value]
  intro heq
  exact reportAnswer_ne_unsupported hstores.supported language (Except.ok.inj heq)

end StoredBefore

/-- **A cached report is served to the request that it was stored for, if and only if the language has
no null character.** Along every run of steps of use from a session without a cache, where the digest
tells the key texts of the run apart, an answer from the cache was stored by an earlier call with the
same key text. That call asked for the same source and the same language exactly if the language now
asked for has no null character. A language that is not supported is turned down exactly if the answer
does not come from the cache, and this can only come about with a null character. -/
theorem found_for_same_request_iff {steps : List Step} (hcache : s.cache = none)
    (hclock : s.clock.IsTime) (hsteps : ∀ x ∈ steps, x.Usable)
    (hinj : ∀ t ∈ s.keyTexts steps, ∀ u ∈ s.keyTexts steps,
      CacheKey.ofText t = CacheKey.ofText u → t = u)
    (hsplit : steps = before ++ .call c :: rest) (htool : c.tool = .analyzeCode)
    (hcode : c.code = .str code) (hlang : c.language = .str language) :
    let out := (s.run before).call c
    (out.cacheUse = .found →
      s.StoredBefore before
        (fun l t => reportKey l t = reportKey language.toList code.toList) out.answer ∧
      (s.StoredBefore before (SameRequest language.toList code.toList) out.answer
        ↔ nul ∉ language.toList)) ∧
    (Language.resolve? language.toList = none →
      (out.answer = .ok (unsupported language.toList) ↔ out.cacheUse ≠ .found) ∧
      (out.cacheUse = .found → nul ∈ language.toList)) := by
  intro out
  subst hsplit
  have hworking : (s.run before).Working :=
    (working_of_uncached hcache hclock).run fun x hx => hsteps x (List.mem_append_left _ hx)
  have hstored := storedBefore_of_found (s := s) hcache hinj htool hcode hlang
  refine ⟨fun hfound => ?_, fun hl => ⟨⟨fun hanswer hfound => ?_, fun huse => ?_⟩, fun hfound => ?_⟩⟩
  · exact ⟨hstored hfound, StoredBefore.nul_notMem, fun hnul => (hstored hfound).sameRequest hnul⟩
  · exact (hstored hfound).ne_unsupported _ hanswer
  · rw [← reportAnswer_of_unsupported hl]
    exact hworking.answer_of_not_found htool hcode hlang huse
  · -- without a null character the stored report would be one in this language
    by_contra hnul
    have hsupported := ((hstored hfound).sameRequest hnul).supported
    rw [hl] at hsupported
    cases hsupported

/-- The language in another spelling is the same language. -/
theorem found_for_same_request_iff_respelled :
    let out := (initial.run (storing "let x = 1;" "js")).call (asking "let x = 1;" " JS ")
    out.cacheUse = .found ∧ initial.StoredBefore (storing "let x = 1;" "js")
      (SameRequest " JS ".toList "let x = 1;".toList) out.answer := by
  have hl : Language.resolve? "js".toList = some .javascript := by decide +kernel
  obtain ⟨husable, hinj, hfound, -⟩ :=
    found_behind_storing "let x = 1;" "js" "let x = 1;" " JS " [] hl (by decide +kernel)
  exact ⟨hfound, ((found_for_same_request_iff rfl Json.isTime_zero husable hinj rfl rfl rfl rfl).1
    hfound).2.2 (by decide)⟩

/-- **A language that is not supported is given the report on another source**: the key text of the
source `a`, null, `b` in one language is that of `b` in the language with null and `a` behind it. -/
theorem found_for_other_request :
    let steps := storing "a\x00b" "python"
    let c := asking "b" "python\x00a"
    let out := (initial.run steps).call c
    (∀ x ∈ steps ++ [.call c], x.Usable) ∧
      (∀ t ∈ initial.keyTexts (steps ++ [.call c]), ∀ u ∈ initial.keyTexts (steps ++ [.call c]),
        CacheKey.ofText t = CacheKey.ofText u → t = u) ∧
      out.cacheUse = .found ∧
      ¬ initial.StoredBefore steps (SameRequest "python\x00a".toList "b".toList) out.answer ∧
      Language.resolve? "python\x00a".toList = none ∧
      out.answer ≠ .ok (unsupported "python\x00a".toList) := by
  intro steps c out
  have hl : Language.resolve? "python".toList = some .python := by decide +kernel
  obtain ⟨husable, hinj, hfound, hanswer⟩ :=
    found_behind_storing "a\x00b" "python" "b" "python\x00a" [] hl (by decide +kernel)
  refine ⟨husable, hinj, hfound, fun h => h.nul_notMem (by decide), by decide +kernel, ?_⟩
  rw [show out.answer = _ from hanswer]
  intro hsame
  exact reportAnswer_ne_unsupported (Option.isSome_of_eq_some hl) _ (Except.ok.inj hsame)

end CodeSurvey.Session
