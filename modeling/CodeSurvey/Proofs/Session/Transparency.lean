import Mathlib.Data.List.Basic
import CodeSurvey.Proofs.Cache.Key
import CodeSurvey.Proofs.Cache.Step
import CodeSurvey.Session

/-!
# The cache does not show

Over a whole run of a session, a call for the full report gives what it would give without a cache.
The run may move the clock, switch the cache on and off and replace it, but keeps the configuration.
All that is assumed of the digest is that it tells the key texts of the run apart.

* `Faithful`: every entry of the cache is the report on a text whose key text came up in the run.
* `Faithful.after`, `Faithful.run`: every step keeps it, and so does every run.
* `Faithful.call`: from such a session a call for the full report gives `reportAnswer`.
* `answer_eq_uncached`: the two together, along a run.
-/

namespace CodeSurvey

/-- Two spellings of one normal form stand for one language. -/
theorem Language.resolve?_congr {l₁ l₂ : Text} (h : normalized l₁ = normalized l₂) :
    resolve? l₁ = resolve? l₂ := by
  unfold resolve?
  rw [h]

namespace Session

/-- The answer to a call for the full report where there is no cache: the report, or the rejection
of a language that is not supported. -/
def reportAnswer (config : Config) (language code : Text) : Json :=
  match Language.resolve? language with
  | some l => (Report.ofText config l code).toJson
  | none => (SurveyError.unsupportedLanguage language (Language.all.map (·.id.toList))).toJson

/-- The session after a list of steps. -/
def run (s : Session) (steps : List Step) : Session :=
  steps.foldl after s

/-- The session without a cache. -/
def uncached (s : Session) : Session :=
  { s with cache := none }

/-- The key text of a call for the full report. -/
def reportKey (language code : Text) : Text :=
  CacheKey.request Tool.analyzeCode.name.toList language code

/-- The key text that a step makes the session digest, if it does. -/
def keyText? (s : Session) : Step → Option Text
  | .call ⟨.analyzeCode, .str code, .str language, _, _⟩ =>
    if s.activeCache.isSome then some (reportKey language.toList code.toList) else none
  | _ => none

/-- The key texts of a run. -/
def keyTexts (s : Session) : List Step → List Text
  | [] => []
  | x :: rest => (s.keyText? x).toList ++ keyTexts (s.after x) rest

/-- The steps of a run with one configuration. Reports are asked for with texts, the language
without a null character; a cache has room for an entry and a time to live that is a number; the
clock shows any time. -/
def Step.Steady : Step → Prop
  | .call c => c.tool = .analyzeCode →
    ∃ code language : String, c.code = .str code ∧ c.language = .str language ∧
      nul ∉ language.toList
  | .setConfig _ => False
  | .initCache maxSize timeToLive =>
    Json.compare .atLeast maxSize (.int 1) = .ok true ∧ timeToLive.amount?.isSome
  | .enableCache _ => True
  | .setClock now => now.IsTime

/-- An entry that is the report on a text, under the key of that text. -/
def FaithfulEntry (config : Config) (keys : List Text) (e : CacheEntry Text Json) : Prop :=
  ∃ (language code : Text) (l : Language), nul ∉ language ∧ reportKey language code ∈ keys ∧
    Language.resolve? language = some l ∧ e.key = CacheKey.ofText (reportKey language code) ∧
    e.value = (Report.ofText config l code).toJson

/-- **The invariant of a run**: one configuration, a clock that shows a time, and a usable cache
that holds nothing but reports on texts whose key texts are among `keys`, each stored at a time. -/
structure Faithful (config : Config) (keys : List Text) (s : Session) : Prop where
  config_eq : s.config = config
  clock : s.clock.IsTime
  usable : ∀ c, s.cache = some c → c.Usable
  entries : ∀ c, s.cache = some c → ∀ e ∈ c.entries, FaithfulEntry config keys e
  times : ∀ c, s.cache = some c → ∀ e ∈ c.entries, e.storedAt.IsTime

variable {config : Config} {keys : List Text} {s : Session} {c : ToolCall} {code language : String}

/-- What a call for the full report comes to, before any cache. -/
theorem result_analyzeCode (htool : c.tool = .analyzeCode) (hcode : c.code = .str code)
    (hlang : c.language = .str language) :
    c.result config = match Language.resolve? language.toList with
      | some l => .ok (.ofReport l (Report.ofText config l code.toList))
      | none => .error (.rejected
          (.unsupportedLanguage language.toList (Language.all.map (·.id.toList)))) := by
  unfold ToolCall.result ToolCall.resolvedLanguage
  simp only [htool, hlang, Argument.language, Language.resolve]
  cases hres : Language.resolve? language.toList with
  | none => rfl
  | some l =>
    simp only [Except.mapError, ToolCall.checked, htool, hcode, Argument.text, ToolCall.resultFor]

/-- Without a cache the answer is `reportAnswer`. -/
theorem callDirectly_answer (htool : c.tool = .analyzeCode) (hcode : c.code = .str code)
    (hlang : c.language = .str language) (records : List LogRecord) :
    (s.callDirectly c records).answer
      = .ok (reportAnswer s.config language.toList code.toList) := by
  unfold callDirectly reportAnswer
  rw [result_analyzeCode htool hcode hlang]
  cases Language.resolve? language.toList <;> rfl

theorem callDirectly_session (records : List LogRecord) :
    (s.callDirectly c records).session = s := by
  unfold callDirectly
  split
  · unfold refuse; split <;> rfl
  · rfl

theorem keyOf_analyzeCode (htool : c.tool = .analyzeCode) (hcode : c.code = .str code)
    (hlang : c.language = .str language) :
    keyOf c = .ok (CacheKey.ofText (reportKey language.toList code.toList)) := by
  unfold keyOf CacheKey.ofDocuments
  simp only [hcode, hlang, htool]
  rfl

/-- How a call for the full report is made. -/
theorem call_analyzeCode (htool : c.tool = .analyzeCode) (hcode : c.code = .str code) :
    s.call c = match s.activeCache with
      | some cache => s.callCached c cache [invokedRecord c]
      | none => s.callDirectly c [invokedRecord c] := by
  unfold call
  simp only [htool, hcode, Argument.length?]
  rfl

/-- A tool other than the full report leaves the session as it is. -/
theorem call_session_of_ne (htool : c.tool ≠ .analyzeCode) : (s.call c).session = s := by
  unfold call
  simp only
  split
  · rfl
  · exact callDirectly_session _
  · contradiction
  · split
    · rfl
    · exact callDirectly_session _

/-- Where the digest tells the key texts apart, a faithful entry under the key of a call holds the
answer to it. -/
theorem FaithfulEntry.value_eq {e : CacheEntry Text Json} (he : FaithfulEntry config keys e)
    (hinj : ∀ t ∈ keys, ∀ u ∈ keys, CacheKey.ofText t = CacheKey.ofText u → t = u)
    {language code : Text} (hnul : nul ∉ language) (hmem : reportKey language code ∈ keys)
    (hkey : e.key = CacheKey.ofText (reportKey language code)) :
    e.value = reportAnswer config language code := by
  obtain ⟨language', code', l, hnul', hmem', hres, hkey', hvalue⟩ := he
  have htext := hinj _ hmem' _ hmem (hkey'.symm.trans hkey)
  obtain ⟨hnorm, rfl⟩ := CacheKey.request_inj hnul' hnul htext
  unfold reportAnswer
  rw [← Language.resolve?_congr hnorm, hres]
  exact hvalue

namespace Faithful

/-- With a cache that was looked at or stored to, the session is as faithful as its entries. -/
theorem withCache (hs : Faithful config keys s) {old new : ReportCache} (hold : s.cache = some old)
    (hlimits : Cache.SameLimits old new)
    (hentries : ∀ e ∈ new.entries, e ∈ old.entries ∨
      FaithfulEntry config keys e ∧ e.storedAt.IsTime) :
    Faithful config keys { s with cache := some new } := by
  refine ⟨hs.config_eq, hs.clock, ?_, ?_, ?_⟩
  · rintro c ⟨⟩
    exact (hs.usable old hold).of_sameLimits hlimits
  · rintro c ⟨⟩ e he
    rcases hentries e he with h | h
    · exact hs.entries old hold e h
    · exact h.1
  · rintro c ⟨⟩ e he
    rcases hentries e he with h | h
    · exact hs.times old hold e h
    · exact h.2

/-- A call whose key is not in the cache gives the answer, and stores it if it is a report. -/
theorem callAndStore (hs : Faithful config keys s) {cache : ReportCache}
    (hcache : s.cache = some cache) (htool : c.tool = .analyzeCode) (hcode : c.code = .str code)
    (hlang : c.language = .str language) (hnul : nul ∉ language.toList)
    (hmem : reportKey language.toList code.toList ∈ keys) (records : List LogRecord) :
    let out := s.callAndStore c cache
      (CacheKey.ofText (reportKey language.toList code.toList)) records
    out.answer = .ok (reportAnswer config language.toList code.toList) ∧
      Faithful config keys out.session := by
  intro out
  obtain rfl := hs.config_eq
  simp only [out, Session.callAndStore, result_analyzeCode htool hcode hlang, reportAnswer]
  cases hres : Language.resolve? language.toList with
  | none => exact ⟨rfl, hs⟩
  | some l =>
    -- a report is stored, and a usable cache takes it
    obtain ⟨stored, hput⟩ := Cache.put_ok (hs.usable cache hcache) s.clock
      (CacheKey.ofText (reportKey language.toList code.toList))
      (ToolResult.ofReport l (Report.ofText s.config l code.toList)).answer
    simp only [hput]
    obtain ⟨hlimits, hentries⟩ := Cache.put_spec hput
    refine ⟨rfl, hs.withCache hcache hlimits fun e he => ?_⟩
    rcases hentries e he with h | rfl
    · exact Or.inl h
    · exact Or.inr ⟨⟨_, _, l, hnul, hmem, hres, rfl, rfl⟩, hs.clock⟩

/-- A call that goes through the cache gives the answer. -/
theorem callCached (hs : Faithful config keys s)
    (hinj : ∀ t ∈ keys, ∀ u ∈ keys, CacheKey.ofText t = CacheKey.ofText u → t = u)
    {cache : ReportCache} (hcache : s.cache = some cache) (htool : c.tool = .analyzeCode)
    (hcode : c.code = .str code) (hlang : c.language = .str language)
    (hnul : nul ∉ language.toList) (hmem : reportKey language.toList code.toList ∈ keys)
    (records : List LogRecord) :
    (s.callCached c cache records).answer
        = .ok (reportAnswer config language.toList code.toList) ∧
      Faithful config keys (s.callCached c cache records).session := by
  unfold Session.callCached
  rw [keyOf_analyzeCode htool hcode hlang]
  obtain ⟨⟨found, after⟩, hget⟩ := Cache.get_ok (hs.usable cache hcache) hs.clock
    (hs.times cache hcache) (CacheKey.ofText (reportKey language.toList code.toList))
  simp only [hget]
  obtain ⟨hlimits, hentries, hfound⟩ := Cache.get_spec hget
  have hafter := hs.withCache hcache hlimits fun e he => Or.inl (hentries e he)
  cases found with
  | some v =>
    obtain ⟨e, he, hkey, hv⟩ := hfound v rfl
    have hvalue := (hs.entries cache hcache e he).value_eq hinj hnul hmem hkey
    exact ⟨by rw [← hv, hvalue], hafter⟩
  | none => exact hafter.callAndStore rfl htool hcode hlang hnul hmem _

theorem cache_of_active {cache : ReportCache} (h : s.activeCache = some cache) :
    s.cache = some cache := by
  unfold activeCache at h
  split at h
  · exact h
  · simp at h

/-- **A call for the full report gives what it gives without a cache**, and keeps the session
faithful. -/
theorem call (hs : Faithful config keys s)
    (hinj : ∀ t ∈ keys, ∀ u ∈ keys, CacheKey.ofText t = CacheKey.ofText u → t = u)
    (htool : c.tool = .analyzeCode) (hcode : c.code = .str code)
    (hlang : c.language = .str language) (hnul : nul ∉ language.toList)
    (hkeys : ∀ t ∈ s.keyText? (.call c), t ∈ keys) :
    (s.call c).answer = .ok (reportAnswer config language.toList code.toList) ∧
      Faithful config keys (s.call c).session := by
  rw [call_analyzeCode htool hcode]
  cases hactive : s.activeCache with
  | none =>
    simp only
    rw [callDirectly_answer htool hcode hlang, callDirectly_session, hs.config_eq]
    exact ⟨rfl, hs⟩
  | some cache =>
    have hmem : reportKey language.toList code.toList ∈ keys := by
      apply hkeys
      obtain ⟨tool, code', language', v, f⟩ := c
      obtain rfl : tool = .analyzeCode := htool
      obtain rfl : code' = .str code := hcode
      obtain rfl : language' = .str language := hlang
      simp [keyText?, hactive]
    exact hs.callCached hinj (cache_of_active hactive) htool hcode hlang hnul hmem _

/-- **Every step keeps a session faithful.** -/
theorem after (hs : Faithful config keys s)
    (hinj : ∀ t ∈ keys, ∀ u ∈ keys, CacheKey.ofText t = CacheKey.ofText u → t = u)
    {x : Step} (hx : x.Steady) (hkeys : ∀ t ∈ s.keyText? x, t ∈ keys) :
    Faithful config keys (s.after x) := by
  cases x with
  | call c =>
    by_cases htool : c.tool = .analyzeCode
    · obtain ⟨code, language, hcode, hlang, hnul⟩ := hx htool
      exact (hs.call hinj htool hcode hlang hnul hkeys).2
    · show Faithful config keys (s.call c).session
      rw [call_session_of_ne htool]
      exact hs
  | setConfig c => exact hx.elim
  | initCache maxSize timeToLive =>
    refine ⟨hs.config_eq, hs.clock, ?_, ?_, ?_⟩
    · rintro c ⟨⟩
      exact ⟨hx.1, hx.2⟩
    · rintro c ⟨⟩ e he
      cases he
    · rintro c ⟨⟩ e he
      cases he
  | enableCache on => exact ⟨hs.config_eq, hs.clock, hs.usable, hs.entries, hs.times⟩
  | setClock now => exact ⟨hs.config_eq, hx, hs.usable, hs.entries, hs.times⟩

/-- **Every run keeps a session faithful.** -/
theorem run (hinj : ∀ t ∈ keys, ∀ u ∈ keys, CacheKey.ofText t = CacheKey.ofText u → t = u)
    {steps : List Step} (hsteps : ∀ x ∈ steps, x.Steady) :
    ∀ {s : Session}, Faithful config keys s → (∀ t ∈ s.keyTexts steps, t ∈ keys) →
      Faithful config keys (s.run steps) := by
  induction steps with
  | nil => intro s hs _; exact hs
  | cons x rest ih =>
    intro s hs hkeys
    have hx : Faithful config keys (s.after x) :=
      hs.after hinj (hsteps x List.mem_cons_self) fun t ht =>
        hkeys t (List.mem_append_left _ (Option.mem_toList.2 ht))
    exact ih (fun y hy => hsteps y (List.mem_cons_of_mem _ hy)) hx fun t ht =>
      hkeys t (List.mem_append_right _ ht)

end Faithful

theorem keyTexts_append (steps rest : List Step) :
    ∀ s : Session,
      s.keyTexts (steps ++ rest) = s.keyTexts steps ++ (s.run steps).keyTexts rest := by
  induction steps with
  | nil => intro s; rfl
  | cons x xs ih =>
    intro s
    simp only [List.cons_append, keyTexts, ih, List.append_assoc]
    rfl

/-- A key text of a run comes from a call for the full report. -/
theorem mem_keyTexts {t : Text} {steps : List Step} : ∀ {s : Session}, t ∈ s.keyTexts steps →
    ∃ c code language, .call c ∈ steps ∧ c.code = .str code ∧ c.language = .str language ∧
      t = reportKey language.toList code.toList := by
  induction steps with
  | nil => intro s h; simp [keyTexts] at h
  | cons x rest ih =>
    intro s h
    rcases List.mem_append.1 h with h | h
    · rw [Option.mem_toList] at h
      unfold keyText? at h
      split at h
      · split at h
        · obtain rfl := Option.some.inj h
          exact ⟨_, _, _, List.mem_cons_self, rfl, rfl, rfl⟩
        · simp at h
      · simp at h
    · obtain ⟨c, code, language, hc, hrest⟩ := ih h
      exact ⟨c, code, language, List.mem_cons_of_mem _ hc, hrest⟩

/-- **The cache does not show.** Along every run of steady steps from a session without a cache,
where the digest tells the key texts of the run apart, each call for the full report gives exactly
what the same call gives without a cache, and each call of another tool leaves the cache alone. -/
theorem answer_eq_uncached {s : Session} {steps : List Step} (hcache : s.cache = none)
    (hclock : s.clock.IsTime) (hsteps : ∀ x ∈ steps, x.Steady)
    (hinj : ∀ t ∈ s.keyTexts steps, ∀ u ∈ s.keyTexts steps,
      CacheKey.ofText t = CacheKey.ofText u → t = u) :
    ∀ before c rest, steps = before ++ .call c :: rest →
      (∀ code language : String, c.tool = .analyzeCode → c.code = .str code →
        c.language = .str language →
        ((s.run before).call c).answer = ((s.run before).uncached.call c).answer ∧
        ((s.run before).call c).answer
          = .ok (reportAnswer s.config language.toList code.toList)) ∧
      (c.tool ≠ .analyzeCode → ((s.run before).call c).session.cache = (s.run before).cache) := by
  intro before c rest hsplit
  subst hsplit
  have hstart : Faithful s.config (s.keyTexts (before ++ .call c :: rest)) s := by
    refine ⟨rfl, hclock, ?_, ?_, ?_⟩ <;> · intro d hd; rw [hcache] at hd; simp at hd
  have hkeys := keyTexts_append before (.call c :: rest) s
  have hrun : Faithful s.config (s.keyTexts (before ++ .call c :: rest)) (s.run before) :=
    hstart.run hinj (fun x hx => hsteps x (List.mem_append_left _ hx)) fun t ht => by
      rw [hkeys]; exact List.mem_append_left _ ht
  refine ⟨fun code language htool hcode hlang => ?_, fun htool => by rw [call_session_of_ne htool]⟩
  obtain ⟨code', language', hcode', hlang', hnul⟩ :=
    hsteps (.call c) (List.mem_append_right _ List.mem_cons_self) htool
  obtain rfl : language = language' := by rw [hlang] at hlang'; exact Json.str.inj hlang'
  have hanswer := (hrun.call hinj htool hcode hlang hnul fun t ht => by
    rw [hkeys]
    exact List.mem_append_right _ (List.mem_append_left _ (Option.mem_toList.2 ht))).1
  refine ⟨?_, hanswer⟩
  have hactive : (s.run before).uncached.activeCache = none := by
    unfold activeCache uncached; split <;> rfl
  rw [hanswer, call_analyzeCode htool hcode, hactive]
  simp only
  rw [callDirectly_answer htool hcode hlang, ← hrun.config_eq]
  rfl

/-- The steps up to the last call of a run in which one text is asked about under two spellings of
its language, with the clock moved back and the cache switched off in between. -/
def respelled : List Step :=
  [.initCache (.int 1) (.int 300), .call ⟨.analyzeCode, .str "let x = 1;", .str "js", .null, .null⟩,
    .enableCache false, .setClock (.int 500), .call ⟨.parseStructure, .null, .null, .null, .null⟩,
    .enableCache true, .setClock (.int (-7))]

/-- The last call of that run is answered as without a cache. -/
theorem answer_eq_uncached_respelled :
    let c : ToolCall := ⟨.analyzeCode, .str "let x = 1;", .str " JS ", .null, .null⟩
    (∀ x ∈ respelled ++ [.call c], x.Steady) ∧
      ((initial.run respelled).call c).answer = ((initial.run respelled).uncached.call c).answer ∧
      ((initial.run respelled).call c).answer
        = .ok (reportAnswer .standard " JS ".toList "let x = 1;".toList) := by
  intro c
  have hsteady : ∀ x ∈ respelled ++ [.call c], x.Steady := by
    intro x hx
    simp only [respelled, List.cons_append, List.nil_append, List.mem_cons, List.not_mem_nil,
      or_false] at hx
    rcases hx with rfl | rfl | rfl | rfl | rfl | rfl | rfl | rfl
    · exact ⟨by simp [Json.compare, Json.comparePlain, Json.amount?, Relation.holds, Amount.atMost],
        rfl⟩
    · exact fun _ => ⟨_, _, rfl, rfl, by decide⟩
    · trivial
    · exact ⟨.whole 500, rfl, by decide +kernel⟩
    · intro h; cases h
    · trivial
    · exact ⟨.whole (-7), rfl, by decide +kernel⟩
    · exact fun _ => ⟨_, _, rfl, rfl, by decide⟩
  -- all key texts of the run are one
  have hone : ∀ t ∈ initial.keyTexts (respelled ++ [.call c]),
      t = reportKey "js".toList "let x = 1;".toList := by
    intro t ht
    obtain ⟨d, code, language, hd, hcode, hlang, rfl⟩ := mem_keyTexts ht
    simp only [respelled, List.cons_append, List.nil_append, List.mem_cons, List.not_mem_nil,
      or_false, reduceCtorEq, false_or, Step.call.injEq] at hd
    rcases hd with rfl | rfl | rfl
    · cases hcode; cases hlang; rfl
    · cases hcode
    · cases hcode; cases hlang; decide +kernel
  exact ⟨hsteady, (answer_eq_uncached rfl Json.isTime_zero hsteady
    (fun t ht u hu _ => (hone t ht).trans (hone u hu).symm) respelled c [] rfl).1 _ _ rfl rfl rfl⟩

end Session

end CodeSurvey
