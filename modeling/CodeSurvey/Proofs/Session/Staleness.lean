import CodeSurvey.Proofs.Session.Separation

/-!
# Which configuration a report was made under

The key text of a call does not tell the configuration, and a change of the configuration leaves the
cache as it is. A report from the cache is therefore one under the configuration that was in force when
it was stored.

* `LastStored`: the place in a run where a report was last stored.
* `SparedBy.lastStored`: the store behind which a run has left an entry alone is the last one.
* `report_made_under_config_of_store`: a report is made under the configuration of the call if it does
  not come from the cache, and under that of the last store if it does. The two are the same in a run
  that renews the cache after each change of the configuration.
* `stale_report`: in a run that does not, a report from the cache is not the one of the configuration
  in force.
-/

namespace CodeSurvey.Session

/-- The call asks for the full report on a source, in a language or in another spelling of it. -/
def Asks (c : ToolCall) (language code : Text) : Prop :=
  ∃ code' language' : String, c.tool = .analyzeCode ∧ c.code = .str code' ∧
    c.language = .str language' ∧ SameRequest language code language'.toList code'.toList

/-- **The last store of a report**: the first call behind `earlier` stored the report on the source,
and since then neither has the cache been replaced nor has a call stored the report again. -/
def LastStored (s : Session) (before earlier : List Step) (language code : Text) : Prop :=
  ∃ c later, before = earlier ++ .call c :: later ∧ Asks c language code ∧
    ((s.run earlier).call c).cacheUse = .stored ∧
    (∀ maxSize timeToLive, .initCache maxSize timeToLive ∉ later) ∧
    ∀ between d rest, later = between ++ .call d :: rest → Asks d language code →
      ((s.run (earlier ++ .call c :: between)).call d).cacheUse ≠ .stored

/-- After each change of the configuration a new cache has taken the place of the old one. -/
def RenewsCache (steps : List Step) : Prop :=
  ∀ earlier config later, steps = earlier ++ .setConfig config :: later →
    ∃ maxSize timeToLive, .initCache maxSize timeToLive ∈ later

variable {s : Session} {c : ToolCall} {code language : String} {steps before rest : List Step}

theorem SameRequest.reportKey_eq {language code language' code' : Text}
    (h : SameRequest language code language' code') :
    reportKey language' code' = reportKey language code := by
  obtain ⟨hlang, rfl⟩ := h
  unfold reportKey CacheKey.request
  rw [hlang]

/-- Two spellings of a language that is supported have one report. -/
theorem SameRequest.reportAnswer_eq {language code language' code' : Text} (config : Config)
    (h : SameRequest language code language' code') (hl : (Language.resolve? language').isSome) :
    reportAnswer config language' code' = reportAnswer config language code := by
  obtain ⟨hlang, rfl⟩ := h
  obtain ⟨l, hl'⟩ := Option.isSome_iff_exists.1 hl
  have hsame : Language.resolve? language = some l := by
    rw [← Language.resolve?_congr hlang]
    exact hl'
  rw [reportAnswer_of_resolve? hl', reportAnswer_of_resolve? hsame]

/-! ## Runs that leave something alone -/

theorem SparedBy.initCache_notMem {key : Text} (h : s.SparedBy key steps) (maxSize timeToLive : Json) :
    .initCache maxSize timeToLive ∉ steps := by
  intro hmem
  obtain ⟨l₁, l₂, rfl⟩ := List.append_of_mem hmem
  exact ((sparedBy_append s key l₁ _).1 h).2.1

/-- **The store behind which a run has left the entry alone is the last one.** -/
theorem SparedBy.lastStored {earlier later : List Step} {e : CacheEntry Text Json}
    {language' code' : Text} (hstores : (s.run earlier).Stores c code language e)
    (hsame : SameRequest language' code' language.toList code.toList)
    (hlater : (s.run (earlier ++ [.call c])).SparedBy e.key later) :
    s.LastStored (earlier ++ .call c :: later) earlier language' code' := by
  have hasks : Asks c language' code' :=
    ⟨code, language, hstores.tool, hstores.code_eq, hstores.language_eq, hsame⟩
  refine ⟨c, later, rfl, hasks, hstores.use, hlater.initCache_notMem, ?_⟩
  rintro between d rest rfl ⟨code₂, language₂, htool, hcode, hlang, hsame₂⟩ huse
  -- a second store would be one under the key of the entry
  obtain ⟨e₂, hstores₂⟩ := exists_stores htool hcode hlang huse
  have hkey : e₂.key = e.key := by
    rw [hstores₂.key, hstores.key, hsame₂.reportKey_eq, hsame.reportKey_eq]
  have hspares := ((sparedBy_append _ e.key between _).1 hlater).2.1
  rw [← run_append, List.append_assoc, List.singleton_append] at hspares
  exact hspares code₂ language₂ e₂ hstores₂ hkey

/-- In a run that renews the cache, the configuration has not changed since a cache was last
replaced. -/
theorem RenewsCache.config_eq {earlier later : List Step} (h : RenewsCache (earlier ++ later))
    (hlater : ∀ maxSize timeToLive, .initCache maxSize timeToLive ∉ later) :
    (s.run (earlier ++ later)).config = (s.run earlier).config := by
  rw [run_append]
  refine config_run_of_notMem fun config hmem => ?_
  obtain ⟨l₁, l₂, rfl⟩ := List.append_of_mem hmem
  obtain ⟨maxSize, timeToLive, hinit⟩ := h (earlier ++ l₁) config l₂ (by simp)
  exact hlater maxSize timeToLive
    (List.mem_append_right _ (List.mem_cons_of_mem _ hinit))

/-! ## The configuration of an answer -/

/-- **A report reflects the configuration that was in force when it was made.** Along every run of steps
of use from a session without a cache, where the digest tells the key texts of the run apart, a call for
the full report is given the report of some configuration. If the report does not come from the cache,
this is the one in force; if it does, it is the one that was in force at the last store, which may have
changed since. It has not if the run has renewed the cache after each change. -/
theorem report_made_under_config_of_store (hcache : s.cache = none) (hclock : s.clock.IsTime)
    (hsteps : ∀ x ∈ steps, x.Usable)
    (hinj : ∀ t ∈ s.keyTexts steps, ∀ u ∈ s.keyTexts steps,
      CacheKey.ofText t = CacheKey.ofText u → t = u)
    (hsplit : steps = before ++ .call c :: rest) (htool : c.tool = .analyzeCode)
    (hcode : c.code = .str code) (hlang : c.language = .str language)
    (hnul : nul ∉ language.toList) :
    let out := (s.run before).call c
    ∃ config, out.answer = .ok (reportAnswer config language.toList code.toList) ∧
      (out.cacheUse ≠ .found → config = (s.run before).config) ∧
      (out.cacheUse = .found → ∃ earlier,
        s.LastStored before earlier language.toList code.toList ∧ config = (s.run earlier).config) ∧
      (RenewsCache before → config = (s.run before).config) := by
  intro out
  subst hsplit
  have hworking : (s.run before).Working :=
    (working_of_uncached hcache hclock).run fun x hx => hsteps x (List.mem_append_left _ hx)
  by_cases hfound : out.cacheUse = .found
  · obtain ⟨earlier, c', later, code', language', e, rfl, hstores, hlater, hkey, hanswer⟩ :=
      exists_stores_of_found hcache hinj htool hcode hlang hfound
    have hsame : SameRequest language.toList code.toList language'.toList code'.toList :=
      CacheKey.request_inj (Language.nul_notMem_of_resolve? hstores.supported) hnul hkey
    refine ⟨(s.run earlier).config, ?_, fun h => absurd hfound h, fun _ => ?_, fun hrenews => ?_⟩
    · rw [hanswer, hstores.value, hsame.reportAnswer_eq _ hstores.supported]
    · exact ⟨earlier, hlater.lastStored hstores hsame, rfl⟩
    · refine (hrenews.config_eq fun maxSize timeToLive hmem => ?_).symm
      rcases List.mem_cons.1 hmem with h | h
      · cases h
      · exact hlater.initCache_notMem maxSize timeToLive h
  · exact ⟨(s.run before).config, hworking.answer_of_not_found htool hcode hlang hfound,
      fun _ => rfl, fun h => absurd h hfound, fun _ => rfl⟩

/-- The configuration under which every parameter is one too many. -/
def noParameters : Config :=
  { Config.standard with parameterThreshold := 0 }

/-- A report from the cache is one under the configuration that was in force before the change. -/
theorem report_made_under_config_of_store_changed :
    let code := "def f(a):\n  a"
    let before := storing code "python" ++ [.setConfig noParameters]
    let out := (initial.run before).call (asking code " Python")
    ∃ earlier, initial.LastStored before earlier " Python".toList code.toList ∧
      out.answer = .ok (reportAnswer (initial.run earlier).config " Python".toList code.toList) := by
  intro code before out
  have hl : Language.resolve? "python".toList = some .python := by decide +kernel
  obtain ⟨husable, hinj, hfound, -⟩ :=
    found_behind_storing code "python" code " Python" [noParameters] hl (by decide +kernel)
  obtain ⟨config, hanswer, -, hstored, -⟩ :=
    report_made_under_config_of_store rfl Json.isTime_zero husable hinj rfl rfl rfl rfl (by decide)
  obtain ⟨earlier, hlast, rfl⟩ := hstored hfound
  exact ⟨earlier, hlast, hanswer⟩

/-- **A report that does not reflect the configuration in force**: a function with a parameter is asked
about again when parameters are no longer allowed, and nothing is found wrong with it. -/
theorem stale_report :
    let code := "def f(a):\n  a"
    let before := storing code "python" ++ [.setConfig noParameters]
    let c := asking code "python"
    (∀ x ∈ before ++ [.call c], x.Usable) ∧
      (∀ t ∈ initial.keyTexts (before ++ [.call c]), ∀ u ∈ initial.keyTexts (before ++ [.call c]),
        CacheKey.ofText t = CacheKey.ofText u → t = u) ∧
      (initial.run before).config = noParameters ∧
      ((initial.run before).call c).answer
        ≠ .ok (reportAnswer noParameters "python".toList code.toList) := by
  intro code before c
  have hl : Language.resolve? "python".toList = some .python := by decide +kernel
  obtain ⟨husable, hinj, -, hanswer⟩ :=
    found_behind_storing code "python" code "python" [noParameters] hl rfl
  refine ⟨husable, hinj, rfl, ?_⟩
  rw [show ((initial.run before).call c).answer = _ from hanswer]
  intro hsame
  have hreport := Except.ok.inj hsame
  rw [reportAnswer_of_resolve? hl, reportAnswer_of_resolve? hl] at hreport
  -- the two reports differ in the number of opportunities they list
  have hlists : Json.arr ((Opportunity.ofText .standard .python code.toList).map Opportunity.toJson)
      = Json.arr ((Opportunity.ofText noParameters .python code.toList).map Opportunity.toJson) :=
    congrArg (·.field "refactorings") hreport
  have hlength := congrArg List.length (Json.arr.inj hlists)
  rw [List.length_map, List.length_map] at hlength
  have hone : (Opportunity.ofText .standard .python code.toList).length
      ≠ (Opportunity.ofText noParameters .python code.toList).length := by
    decide +kernel
  exact hone hlength

end CodeSurvey.Session
