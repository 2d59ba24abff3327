import Mathlib.Data.List.Induction
import CodeSurvey.Proofs.Session.Transparency

/-!
# Where cached reports come from

A call for the full report looks its key up before it looks at anything else, and stores what it has
worked out. What the log tells of it is enough to say whether its answer came out of the cache or went
into it.

* `ReportCall`, `reportCall`: all that a call for the full report can come to.
* `Holds.of_call`, `Holds.of_after`, `Holds.of_run`: every entry of the cache was stored by a call of
  the run, and the steps since have left it alone.
* `Working`: the cache is of use, and all times are times. Every step of use keeps it so, and an answer
  that does not come from the cache is then that of the call itself.
* `exists_stores_of_found`: an answer from the cache is the answer to an earlier call of the run with the
  same key text.
* `found_behind_stored`: what is stored in an empty cache is given to the next call with the same key
  text.
-/

namespace CodeSurvey

/-- What a call does with the cache. -/
inductive CacheUse where
  /-- Nothing is taken from it or added to it. -/
  | idle
  /-- The answer is taken from it. -/
  | found
  /-- The answer is added to it. -/
  | stored
deriving DecidableEq, Repr

/-- What an event tells about the use of the cache. -/
def CacheUse.ofEvent? (event : String) : Option CacheUse :=
  if event = "analyze_code_cache_hit" then some found
  else if event = "analyze_code_cache_stored" then some stored
  else none

/-- What the log of a call tells about its use of the cache. -/
def CallOutcome.cacheUse (o : CallOutcome) : CacheUse :=
  (o.records.findSome? fun r => CacheUse.ofEvent? r.event).getD .idle

/-- The analyses log nothing about the cache, so only what is logged behind them tells its use. -/
theorem CallOutcome.cacheUse_reportTrail {before after : List LogRecord} {language : Language}
    {report : Report} (answer : Except ToolFault Json) (session : Session)
    (hbefore : ∀ r ∈ before, CacheUse.ofEvent? r.event = none) :
    cacheUse ⟨answer, before ++ ToolResult.reportTrail language report ++ after, session⟩
      = cacheUse ⟨answer, after, session⟩ := by
  have htrail : ∀ r ∈ ToolResult.reportTrail language report, CacheUse.ofEvent? r.event = none := by
    intro r hr
    simp only [ToolResult.reportTrail, List.mem_append, List.mem_cons, List.not_mem_nil, or_false,
      List.mem_map] at hr
    rcases hr with ((rfl | rfl | rfl | rfl) | ⟨p, -, rfl⟩) | rfl | rfl | rfl <;> rfl
  unfold cacheUse
  rw [List.findSome?_append, List.findSome?_append, List.findSome?_eq_none_iff.2 hbefore,
    List.findSome?_eq_none_iff.2 htrail]
  rfl

namespace Session

/-- **What a call for the full report can come to**: its use of the cache, its answer, and the session
after it. -/
inductive ReportCall (s : Session) (language code : Text) :
    CacheUse → Except ToolFault Json → Session → Prop where
  /-- No cache is in use. -/
  | direct (hcache : s.activeCache = none) :
      ReportCall s language code .idle (.ok (reportAnswer s.config language code)) s
  /-- The cache cannot tell whether it holds the key. -/
  | unreadable {cache : ReportCache} {f : CacheFault} (hcache : s.activeCache = some cache)
      (hget : cache.get s.clock (CacheKey.ofText (reportKey language code)) = .error f) :
      ReportCall s language code .idle (.error (.cache f)) s
  /-- The cache holds the key. -/
  | found {cache after : ReportCache} {value : Json} (hcache : s.activeCache = some cache)
      (hget : cache.get s.clock (CacheKey.ofText (reportKey language code))
        = .ok (some value, after)) :
      ReportCall s language code .found (.ok value) { s with cache := some after }
  /-- The key is not there, and the language is not supported. -/
  | rejected {cache after : ReportCache} (hcache : s.activeCache = some cache)
      (hget : cache.get s.clock (CacheKey.ofText (reportKey language code)) = .ok (none, after))
      (hlang : Language.resolve? language = none) :
      ReportCall s language code .idle (.ok (reportAnswer s.config language code))
        { s with cache := some after }
  /-- The key is not there, and the cache does not take the report. -/
  | refused {cache after : ReportCache} {l : Language} {f : CacheFault}
      (hcache : s.activeCache = some cache)
      (hget : cache.get s.clock (CacheKey.ofText (reportKey language code)) = .ok (none, after))
      (hlang : Language.resolve? language = some l)
      (hput : after.put s.clock (CacheKey.ofText (reportKey language code))
        (Report.ofText s.config l code).toJson = .error f) :
      ReportCall s language code .idle (.error (.cache f)) { s with cache := some after }
  /-- The key is not there, and the report is stored under it. -/
  | stored {cache after new : ReportCache} {l : Language} (hcache : s.activeCache = some cache)
      (hget : cache.get s.clock (CacheKey.ofText (reportKey language code)) = .ok (none, after))
      (hlang : Language.resolve? language = some l)
      (hput : after.put s.clock (CacheKey.ofText (reportKey language code))
        (Report.ofText s.config l code).toJson = .ok new) :
      ReportCall s language code .stored (.ok (Report.ofText s.config l code).toJson)
        { s with cache := some new }

variable {s : Session} {c : ToolCall} {code language : String}

/-- **Every call for the full report is one of these.** -/
theorem reportCall (htool : c.tool = .analyzeCode) (hcode : c.code = .str code)
    (hlang : c.language = .str language) :
    ReportCall s language.toList code.toList (s.call c).cacheUse (s.call c).answer
      (s.call c).session := by
  have hresult : c.result s.config = _ := result_analyzeCode htool hcode hlang
  have hinvoked : ∀ r ∈ [invokedRecord c], CacheUse.ofEvent? r.event = none := by
    intro r hr
    rw [List.mem_singleton.1 hr]
    rfl
  rw [call_analyzeCode htool hcode]
  cases hcache : s.activeCache with
  | none =>
    have hanswer := callDirectly_answer (s := s) htool hcode hlang [invokedRecord c]
    have huse : (s.callDirectly c [invokedRecord c]).cacheUse = .idle := by
      unfold callDirectly
      rw [hresult]
      cases Language.resolve? language.toList with
      | none => rfl
      | some l => exact CallOutcome.cacheUse_reportTrail _ _ hinvoked
    simp only [huse, hanswer, callDirectly_session]
    exact .direct hcache
  | some cache =>
    simp only [callCached, keyOf_analyzeCode htool hcode hlang]
    cases hget : cache.get s.clock (CacheKey.ofText (reportKey language.toList code.toList)) with
    | error f => exact .unreadable hcache hget
    | ok r =>
      obtain ⟨found, after⟩ := r
      cases found with
      | some value => exact .found hcache hget
      | none =>
        have hmiss : ∀ r ∈ [invokedRecord c] ++ [cacheRecord "analyze_code_cache_miss" []],
            CacheUse.ofEvent? r.event = none := by
          intro r hr
          rcases List.mem_append.1 hr with hr | hr
          · exact hinvoked r hr
          · rw [List.mem_singleton.1 hr]
            rfl
        simp only [callAndStore, hresult]
        cases hl : Language.resolve? language.toList with
        | none =>
          have h := ReportCall.rejected hcache hget hl
          rw [reportAnswer, hl] at h
          exact h
        | some l =>
          simp only [ToolResult.ofReport]
          cases hput : after.put s.clock (CacheKey.ofText (reportKey language.toList code.toList))
              (Report.ofText s.config l code.toList).toJson with
          | error f =>
            simp only [refuse, CallOutcome.cacheUse_reportTrail _ _ hmiss]
            exact .refused hcache hget hl hput
          | ok new =>
            simp only [CallOutcome.cacheUse_reportTrail _ _ hmiss]
            exact .stored hcache hget hl hput

/-- A call comes to one thing only. -/
theorem ReportCall.unique {language code : Text} {use use' : CacheUse}
    {answer answer' : Except ToolFault Json} {t t' : Session}
    (h : ReportCall s language code use answer t) (h' : ReportCall s language code use' answer' t') :
    use = use' ∧ answer = answer' ∧ t = t' := by
  cases h <;> cases h' <;> simp_all

/-! ## Entries -/

section Store

variable {κ α : Type} [DecidableEq κ] {c d : Cache κ α} {now : Json} {key : κ} {value : α}

/-- A store leaves out the older entries of its key, whatever else it makes room for. -/
theorem exists_store_of_put (h : c.put now key value = .ok d) :
    ∃ entries, d.entries = Cache.store entries now key value := by
  unfold Cache.put at h
  split at h
  · cases h
  · split at h
    · split at h
      · cases h
      · cases h
        exact ⟨_, rfl⟩
    · cases h
      exact ⟨_, rfl⟩

/-- After a store the key has no entry but the new one. -/
theorem eq_of_mem_put (h : c.put now key value = .ok d) {e : CacheEntry κ α} (he : e ∈ d.entries)
    (hkey : e.key = key) : e = ⟨key, value, now⟩ := by
  obtain ⟨entries, hd⟩ := exists_store_of_put h
  rw [hd, Cache.store] at he
  rcases List.mem_append.1 he with he | he
  · exact absurd hkey (by simpa using (List.mem_filter.1 he).2)
  · exact List.mem_singleton.1 he

/-- What was stored last is found under its key. -/
theorem entry?_of_put (h : c.put now key value = .ok d) :
    d.entry? key = some ⟨key, value, now⟩ := by
  obtain ⟨entries, hd⟩ := exists_store_of_put h
  unfold Cache.entry?
  rw [hd, Cache.store, List.find?_append, List.find?_eq_none.2]
  · simp
  · intro e he
    simpa using (List.mem_filter.1 he).2

end Store

/-- The cache holds an entry, whether it is switched on or not. -/
def Holds (s : Session) (e : CacheEntry Text Json) : Prop :=
  ∃ cache, s.cache = some cache ∧ e ∈ cache.entries

/-- **A call that stores an entry**: it asks for the full report on a text, in a language that is
supported, and the entry is its answer under its key. -/
structure Stores (s : Session) (c : ToolCall) (code language : String) (e : CacheEntry Text Json) :
    Prop where
  tool : c.tool = .analyzeCode
  code_eq : c.code = .str code
  language_eq : c.language = .str language
  use : (s.call c).cacheUse = .stored
  answer : (s.call c).answer = .ok e.value
  supported : (Language.resolve? language.toList).isSome
  value : e.value = reportAnswer s.config language.toList code.toList
  key : e.key = CacheKey.ofText (reportKey language.toList code.toList)
  time : e.storedAt = s.clock

variable {e : CacheEntry Text Json} {steps : List Step}

theorem reportAnswer_of_resolve? {config : Config} {language code : Text} {l : Language}
    (h : Language.resolve? language = some l) :
    reportAnswer config language code = (Report.ofText config l code).toJson := by
  rw [reportAnswer, h]

theorem text_of_keyOf_ok {key : Text} (h : keyOf c = .ok key) :
    ∃ code language : String, c.code = .str code ∧ c.language = .str language := by
  unfold keyOf CacheKey.ofDocuments at h
  split at h
  · rename_i hlang htool hcode
    exact ⟨_, _, hcode, hlang⟩
  all_goals cases h

/-- Only a call for the full report that is given texts can change the session. -/
theorem call_session_cases (s : Session) (c : ToolCall) : (s.call c).session = s ∨
    ∃ code language : String, c.tool = .analyzeCode ∧ c.code = .str code ∧
      c.language = .str language := by
  by_cases htool : c.tool = .analyzeCode
  · unfold call
    simp only [htool]
    split
    · exact Or.inl rfl
    · cases s.activeCache with
      | none => exact Or.inl (callDirectly_session _)
      | some cache =>
        simp only [callCached]
        cases hkey : keyOf c with
        | error f => exact Or.inl rfl
        | ok key =>
          obtain ⟨code, language, hcode, hlang⟩ := text_of_keyOf_ok hkey
          exact Or.inr ⟨code, language, trivial, hcode, hlang⟩
  · exact Or.inl (call_session_of_ne htool)

/-- After a call that stores an entry its key has no other. -/
theorem Stores.eq_of_key {e' : CacheEntry Text Json} (h : s.Stores c code language e)
    (he' : (s.call c).session.Holds e') (hkey : e'.key = e.key) : e' = e := by
  have hcall := reportCall (s := s) h.tool h.code_eq h.language_eq
  rw [h.use, h.answer] at hcall
  obtain ⟨d, hd, hmem⟩ := he'
  generalize (s.call c).session = after at hcall hd
  generalize hanswer : (Except.ok e.value : Except ToolFault Json) = answer at hcall
  cases hcall with
  | stored hcache hget hl hput =>
    cases hd
    have heq := eq_of_mem_put hput hmem (hkey.trans h.key)
    rw [heq, ← h.key, ← h.time, ← Except.ok.inj hanswer]

/-- A call for the full report that adds to the cache stores an entry. -/
theorem exists_stores (htool : c.tool = .analyzeCode) (hcode : c.code = .str code)
    (hlang : c.language = .str language) (huse : (s.call c).cacheUse = .stored) :
    ∃ e, s.Stores c code language e := by
  have h := reportCall (s := s) htool hcode hlang
  rw [huse] at h
  generalize hanswer : (s.call c).answer = answer at h
  generalize (s.call c).session = after at h
  cases h with
  | stored hcache hget hl hput =>
    refine ⟨⟨_, _, s.clock⟩, htool, hcode, hlang, huse, hanswer, ?_, ?_, rfl, rfl⟩
    · exact Option.isSome_of_eq_some hl
    · exact (reportAnswer_of_resolve? hl).symm

/-- A step that leaves the entry of a key alone: it does not replace the cache, and stores nothing under
the key. -/
def Spares (s : Session) (key : Text) : Step → Prop
  | .initCache _ _ => False
  | .call c => ∀ code language e, s.Stores c code language e → e.key ≠ key
  | _ => True

/-- **Where the entries after a call come from**: they were there, or the call has stored them. -/
theorem Holds.of_call (he : (s.call c).session.Holds e) :
    (s.Holds e ∧ s.Spares e.key (.call c)) ∨ ∃ code language, s.Stores c code language e := by
  by_cases hspares : s.Spares e.key (.call c)
  swap
  · -- what the call has stored under the key is the entry
    simp only [Spares, not_forall, not_not] at hspares
    obtain ⟨code, language, e', hstores, hkey⟩ := hspares
    obtain rfl := hstores.eq_of_key he hkey.symm
    exact Or.inr ⟨code, language, hstores⟩
  rcases call_session_cases s c with hsame | ⟨code, language, htool, hcode, hlang⟩
  · rw [hsame] at he
    exact Or.inl ⟨he, hspares⟩
  · have h := reportCall (s := s) htool hcode hlang
    have hnew : ∀ e', s.Stores c code language e' → e'.key ≠ e.key := hspares code language
    obtain ⟨d, hd, hmem⟩ := he
    -- entries of a cache that was only looked at were there before
    have hlook : ∀ {cache after : ReportCache} {found : Option Json} {key : Text},
        s.activeCache = some cache → cache.get s.clock key = .ok (found, after) →
        ∀ x ∈ after.entries, s.Holds x := by
      intro cache after found key hcache hget x hx
      exact ⟨cache, Faithful.cache_of_active hcache, (Cache.get_spec hget).2.1 x hx⟩
    refine Or.inl ⟨?_, hspares⟩
    have hstores := exists_stores (s := s) htool hcode hlang
    generalize (s.call c).cacheUse = use at h hstores
    generalize (s.call c).answer = answer at h
    generalize (s.call c).session = after at h hd
    cases h with
    | direct hcache => exact ⟨d, hd, hmem⟩
    | unreadable hcache hget => exact ⟨d, hd, hmem⟩
    | found hcache hget =>
      cases hd
      exact hlook hcache hget e hmem
    | rejected hcache hget hl =>
      cases hd
      exact hlook hcache hget e hmem
    | refused hcache hget hl hput =>
      cases hd
      exact hlook hcache hget e hmem
    | stored hcache hget hl hput =>
      cases hd
      rcases (Cache.put_spec hput).2 e hmem with hold | rfl
      · exact hlook hcache hget e hold
      · obtain ⟨e', he'⟩ := hstores rfl
        exact absurd he'.key (hnew e' he')

/-- **Where the entries after a step come from.** -/
theorem Holds.of_after {x : Step} (he : (s.after x).Holds e) :
    (s.Holds e ∧ s.Spares e.key x) ∨ ∃ c code language, x = .call c ∧ s.Stores c code language e := by
  cases x with
  | call c =>
    rcases Holds.of_call he with hold | ⟨code, language, hnew⟩
    · exact Or.inl hold
    · exact Or.inr ⟨c, code, language, rfl, hnew⟩
  | initCache maxSize timeToLive =>
    obtain ⟨d, ⟨⟩, hmem⟩ := he
    exact absurd hmem List.not_mem_nil
  | setConfig config => exact Or.inl ⟨he, trivial⟩
  | enableCache on => exact Or.inl ⟨he, trivial⟩
  | setClock now => exact Or.inl ⟨he, trivial⟩

theorem run_append (s : Session) (steps rest : List Step) :
    s.run (steps ++ rest) = (s.run steps).run rest :=
  List.foldl_append

/-- A run that leaves the entry of a key alone. -/
def SparedBy (s : Session) (key : Text) : List Step → Prop
  | [] => True
  | x :: rest => s.Spares key x ∧ (s.after x).SparedBy key rest

theorem sparedBy_append (s : Session) (key : Text) (steps rest : List Step) :
    s.SparedBy key (steps ++ rest) ↔ s.SparedBy key steps ∧ (s.run steps).SparedBy key rest := by
  induction steps generalizing s with
  | nil => simp [SparedBy, run]
  | cons x steps ih =>
    simp only [List.cons_append, SparedBy, ih, and_assoc]
    rfl

/-- **Every entry of the cache was stored by a call of the run**, and the steps since have left it
alone. -/
theorem Holds.of_run (hs : s.cache = none) (he : (s.run steps).Holds e) :
    ∃ earlier c later code language, steps = earlier ++ .call c :: later ∧
      (s.run earlier).Stores c code language e ∧
      (s.run (earlier ++ [.call c])).SparedBy e.key later := by
  induction steps using List.reverseRecOn with
  | nil =>
    obtain ⟨d, hd, -⟩ := he
    rw [show s.run [] = s from rfl, hs] at hd
    cases hd
  | append_singleton steps x ih =>
    rw [run_append] at he
    rcases Holds.of_after he with ⟨hold, hx⟩ | ⟨c, code, language, rfl, hnew⟩
    · obtain ⟨earlier, c, later, code, language, rfl, hstores, hlater⟩ := ih hold
      refine ⟨earlier, c, later ++ [x], code, language, by simp, hstores, ?_⟩
      rw [sparedBy_append, ← run_append, List.append_assoc, List.singleton_append]
      exact ⟨hlater, hx, trivial⟩
    · exact ⟨steps, c, [], code, language, rfl, hnew, trivial⟩

/-! ## Sessions that work -/

/-- A call changes nothing but what the cache holds. -/
theorem call_frame (s : Session) (c : ToolCall) : ∃ cache,
    (s.call c).session = { s with cache := cache } ∧
      ∀ d, cache = some d → ∃ old, s.cache = some old ∧ Cache.SameLimits old d := by
  have hsame : ∃ cache, s = { s with cache := cache } ∧
      ∀ d, cache = some d → ∃ old, s.cache = some old ∧ Cache.SameLimits old d :=
    ⟨s.cache, rfl, fun d hd => ⟨d, hd, rfl, rfl⟩⟩
  rcases call_session_cases s c with hs | ⟨code, language, htool, hcode, hlang⟩
  · rw [hs]
    exact hsame
  · have hlook : ∀ {cache after : ReportCache} {found : Option Json} {key : Text},
        s.activeCache = some cache → cache.get s.clock key = .ok (found, after) →
        ∃ old, s.cache = some old ∧ Cache.SameLimits old after := by
      intro cache after found key hcache hget
      exact ⟨cache, Faithful.cache_of_active hcache, (Cache.get_spec hget).1⟩
    have h := reportCall (s := s) htool hcode hlang
    generalize (s.call c).cacheUse = use at h
    generalize (s.call c).answer = answer at h
    generalize (s.call c).session = after at h
    cases h with
    | direct hcache => exact hsame
    | unreadable hcache hget => exact hsame
    | found hcache hget => exact ⟨_, rfl, fun d hd => by cases hd; exact hlook hcache hget⟩
    | rejected hcache hget hl => exact ⟨_, rfl, fun d hd => by cases hd; exact hlook hcache hget⟩
    | refused hcache hget hl hput =>
      exact ⟨_, rfl, fun d hd => by cases hd; exact hlook hcache hget⟩
    | stored hcache hget hl hput =>
      refine ⟨_, rfl, fun d hd => ?_⟩
      cases hd
      obtain ⟨old, hold, hsize, httl⟩ := hlook hcache hget
      obtain ⟨hsize', httl'⟩ := (Cache.put_spec hput).1
      exact ⟨old, hold, hsize'.trans hsize, httl'.trans httl⟩

theorem config_after_of_ne {x : Step} (hx : ∀ config, x ≠ .setConfig config) :
    (s.after x).config = s.config := by
  cases x with
  | call c =>
    obtain ⟨cache, hsession, -⟩ := call_frame s c
    show (s.call c).session.config = s.config
    rw [hsession]
  | setConfig config => exact absurd rfl (hx config)
  | initCache maxSize timeToLive => rfl
  | enableCache on => rfl
  | setClock now => rfl

/-- The configuration stays in force until it is changed. -/
theorem config_run_of_notMem (h : ∀ config, .setConfig config ∉ steps) :
    (s.run steps).config = s.config := by
  induction steps generalizing s with
  | nil => rfl
  | cons x steps ih =>
    have hx : ∀ config, x ≠ .setConfig config := by
      intro config hx
      exact h config (hx ▸ List.mem_cons_self)
    have hrest : ∀ config, .setConfig config ∉ steps := by
      intro config hmem
      exact h config (List.mem_cons_of_mem x hmem)
    calc (s.run (x :: steps)).config
        = ((s.after x).run steps).config := rfl
      _ = (s.after x).config := ih hrest
      _ = s.config := config_after_of_ne hx

/-- The steps of a run whose caches have room for an entry and a time to live that is a number, and
whose clock shows times. Calls may be of any kind, and the configuration may change. -/
def Step.Usable : Step → Prop
  | .initCache maxSize timeToLive =>
    Json.compare .atLeast maxSize (.int 1) = .ok true ∧ timeToLive.amount?.isSome
  | .setClock now => now.IsTime
  | _ => True

/-- The cache is of use, and all times are times. -/
structure Working (s : Session) : Prop where
  clock : s.clock.IsTime
  usable : ∀ c, s.cache = some c → c.Usable
  times : ∀ e, s.Holds e → e.storedAt.IsTime

/-- A session without a cache works. -/
theorem working_of_uncached (hcache : s.cache = none) (hclock : s.clock.IsTime) : s.Working := by
  refine ⟨hclock, fun d hd => ?_, ?_⟩
  · rw [hcache] at hd
    cases hd
  · rintro e ⟨d, hd, -⟩
    rw [hcache] at hd
    cases hd

/-- **Every step of use keeps a session working.** -/
theorem Working.after (hs : s.Working) {x : Step} (hx : x.Usable) : (s.after x).Working := by
  have htimes : ∀ e, (s.after x).Holds e → e.storedAt.IsTime := by
    intro e he
    rcases Holds.of_after he with ⟨hold, -⟩ | ⟨c, code, language, -, hnew⟩
    · exact hs.times e hold
    · rw [hnew.time]
      exact hs.clock
  cases x with
  | call c =>
    obtain ⟨cache, hsession, hlimits⟩ := call_frame s c
    refine ⟨?_, ?_, htimes⟩
    · show ((s.call c).session).clock.IsTime
      rw [hsession]
      exact hs.clock
    · show ∀ d, (s.call c).session.cache = some d → d.Usable
      rw [hsession]
      intro d hd
      obtain ⟨old, hold, hsame⟩ := hlimits d hd
      exact (hs.usable old hold).of_sameLimits hsame
  | initCache maxSize timeToLive => exact ⟨hs.clock, by rintro d ⟨⟩; exact ⟨hx.1, hx.2⟩, htimes⟩
  | setConfig config => exact ⟨hs.clock, hs.usable, htimes⟩
  | enableCache on => exact ⟨hs.clock, hs.usable, htimes⟩
  | setClock now => exact ⟨hx, hs.usable, htimes⟩

/-- **Every run of such steps keeps a session working.** -/
theorem Working.run (hs : s.Working) (hsteps : ∀ x ∈ steps, x.Usable) : (s.run steps).Working := by
  induction steps using List.reverseRecOn with
  | nil => exact hs
  | append_singleton steps x ih =>
    rw [run_append]
    exact (ih fun y hy => hsteps y (List.mem_append_left _ hy)).after
      (hsteps x (List.mem_append_right _ List.mem_cons_self))

/-- A cache that works can be looked at. -/
theorem Working.get_ok (hs : s.Working) {cache : ReportCache} (hcache : s.activeCache = some cache)
    (key : Text) : ∃ r, cache.get s.clock key = .ok r := by
  have hc := Faithful.cache_of_active hcache
  exact Cache.get_ok (hs.usable cache hc) hs.clock (fun e he => hs.times e ⟨cache, hc, he⟩) key

/-- A cache that works takes what is stored, also after a look-up. -/
theorem Working.put_ok (hs : s.Working) {cache after : ReportCache}
    (hcache : s.activeCache = some cache) {found : Option Json} {key : Text}
    (hget : cache.get s.clock key = .ok (found, after)) (value : Json) :
    ∃ new, after.put s.clock key value = .ok new :=
  Cache.put_ok ((hs.usable cache (Faithful.cache_of_active hcache)).of_sameLimits
    (Cache.get_spec hget).1) _ _ _

/-! ## Answers -/

/-- **In a session that works, an answer that does not come from the cache is that of the call
itself.** -/
theorem Working.answer_of_not_found (hs : s.Working) (htool : c.tool = .analyzeCode)
    (hcode : c.code = .str code) (hlang : c.language = .str language)
    (huse : (s.call c).cacheUse ≠ .found) :
    (s.call c).answer = .ok (reportAnswer s.config language.toList code.toList) := by
  have hcall := reportCall (s := s) htool hcode hlang
  generalize (s.call c).cacheUse = use at hcall huse
  generalize (s.call c).answer = answer at hcall
  generalize (s.call c).session = after at hcall
  cases hcall with
  | direct hcache => rfl
  | unreadable hcache hget =>
    obtain ⟨r, hr⟩ := hs.get_ok hcache (CacheKey.ofText (reportKey language.toList code.toList))
    rw [hr] at hget
    cases hget
  | found hcache hget => exact absurd rfl huse
  | rejected hcache hget hl => rfl
  | refused hcache hget hl hput =>
    obtain ⟨new, hnew⟩ := hs.put_ok hcache hget (Report.ofText s.config _ code.toList).toJson
    rw [hnew] at hput
    cases hput
  | stored hcache hget hl hput => rw [reportAnswer_of_resolve? hl]

theorem activeCache_of_found (htool : c.tool = .analyzeCode) (hcode : c.code = .str code)
    (hlang : c.language = .str language) (h : (s.call c).cacheUse = .found) :
    ∃ cache after value, s.activeCache = some cache ∧
      cache.get s.clock (CacheKey.ofText (reportKey language.toList code.toList))
        = .ok (some value, after) ∧ (s.call c).answer = .ok value := by
  have hcall := reportCall (s := s) htool hcode hlang
  rw [h] at hcall
  generalize (s.call c).answer = answer at hcall
  generalize (s.call c).session = after at hcall
  cases hcall with
  | found hcache hget => exact ⟨_, _, _, hcache, hget, rfl⟩

theorem activeCache_of_stored (htool : c.tool = .analyzeCode) (hcode : c.code = .str code)
    (hlang : c.language = .str language) (h : (s.call c).cacheUse = .stored) :
    s.activeCache.isSome ∧ (Language.resolve? language.toList).isSome := by
  have hcall := reportCall (s := s) htool hcode hlang
  rw [h] at hcall
  generalize (s.call c).answer = answer at hcall
  generalize (s.call c).session = after at hcall
  cases hcall with
  | stored hcache hget hl hput => rw [hcache, hl]; exact ⟨rfl, rfl⟩

/-- A call for the full report that goes through the cache adds its key text to those of the run. -/
theorem reportKey_mem_keyTexts {before rest : List Step} (htool : c.tool = .analyzeCode)
    (hcode : c.code = .str code) (hlang : c.language = .str language)
    (hactive : (s.run before).activeCache.isSome) :
    reportKey language.toList code.toList ∈ s.keyTexts (before ++ .call c :: rest) := by
  have hkey : (s.run before).keyText? (.call c) = some (reportKey language.toList code.toList) := by
    obtain ⟨tool, code', language', v, f⟩ := c
    obtain rfl : tool = .analyzeCode := htool
    obtain rfl : code' = .str code := hcode
    obtain rfl : language' = .str language := hlang
    simp [keyText?, hactive]
  rw [keyTexts_append, keyTexts, hkey]
  exact List.mem_append_right _ (List.mem_append_left _ List.mem_cons_self)

/-- **An answer from the cache is the answer to an earlier call of the run with the same key text**,
where the digest tells the key texts of the run apart. -/
theorem exists_stores_of_found {before rest : List Step} (hs : s.cache = none)
    (hinj : ∀ t ∈ s.keyTexts (before ++ .call c :: rest),
      ∀ u ∈ s.keyTexts (before ++ .call c :: rest), CacheKey.ofText t = CacheKey.ofText u → t = u)
    (htool : c.tool = .analyzeCode) (hcode : c.code = .str code) (hlang : c.language = .str language)
    (hfound : ((s.run before).call c).cacheUse = .found) :
    ∃ earlier c' later code' language' e, before = earlier ++ .call c' :: later ∧
      (s.run earlier).Stores c' code' language' e ∧
      (s.run (earlier ++ [.call c'])).SparedBy e.key later ∧
      reportKey language'.toList code'.toList = reportKey language.toList code.toList ∧
      ((s.run before).call c).answer = .ok e.value := by
  obtain ⟨cache, after, value, hcache, hget, hanswer⟩ :=
    activeCache_of_found htool hcode hlang hfound
  obtain ⟨e, hmem, hkey, rfl⟩ := (Cache.get_spec hget).2.2 value rfl
  obtain ⟨earlier, c', later, code', language', rfl, hstores, hlater⟩ :=
    Holds.of_run hs ⟨cache, Faithful.cache_of_active hcache, hmem⟩
  have hactive := activeCache_of_stored hstores.tool hstores.code_eq hstores.language_eq hstores.use
  -- both key texts are among those of the run
  have hmem' : reportKey language'.toList code'.toList
      ∈ s.keyTexts (earlier ++ .call c' :: later ++ .call c :: rest) := by
    rw [List.append_assoc, List.cons_append]
    exact reportKey_mem_keyTexts hstores.tool hstores.code_eq hstores.language_eq hactive.1
  have hmem : reportKey language.toList code.toList
      ∈ s.keyTexts (earlier ++ .call c' :: later ++ .call c :: rest) :=
    reportKey_mem_keyTexts htool hcode hlang (Option.isSome_of_eq_some hcache)
  exact ⟨earlier, c', later, code', language', e, rfl, hstores, hlater,
    hinj _ hmem' _ hmem (hstores.key.symm.trans hkey), hanswer⟩

/-- The call for the full report on a source, and nothing else. -/
def asking (code language : String) : ToolCall :=
  ⟨.analyzeCode, .str code, .str language, .null, .null⟩

/-- **What is stored in an empty cache is given to the next call with the same key text**, whatever the
configuration is by then. -/
theorem found_behind_stored {t : Session} {code' language' : String} {maxSize timeToLive now : Int}
    {l : Language} (hempty : s.activeCache = some (.empty (.int maxSize) (.int timeToLive)))
    (hclock : s.clock = .int now) (hsize : 1 ≤ maxSize) (httl : 0 ≤ timeToLive)
    (hl : Language.resolve? language.toList = some l)
    (hcache : t.activeCache = (s.call (asking code language)).session.activeCache)
    (hnow : t.clock = (s.call (asking code language)).session.clock)
    (hkey : reportKey language'.toList code'.toList = reportKey language.toList code.toList) :
    (t.call (asking code' language')).cacheUse = .found ∧
      (t.call (asking code' language')).answer
        = .ok (reportAnswer s.config language.toList code.toList) := by
  set value := (Report.ofText s.config l code.toList).toJson
  set key := CacheKey.ofText (reportKey language.toList code.toList)
  -- the first call misses, and there is room for its report
  obtain ⟨new, hput⟩ : ∃ new : ReportCache,
      Cache.put ⟨.int maxSize, .int timeToLive, [], 0, 1⟩ s.clock key value = .ok new := by
    refine Cache.put_ok ⟨?_, rfl⟩ _ _ _
    rw [Json.compare_ok .atLeast (x := .whole maxSize) (y := .whole 1) rfl rfl]
    simpa [Relation.holds, Amount.atMost] using hsize
  obtain ⟨-, -, hsession⟩ :=
    (reportCall (s := s) (c := asking code language) rfl rfl rfl).unique
      (.stored hempty rfl hl hput)
  have hon : s.cacheEnabled = true := by
    by_contra hoff
    rw [activeCache, if_neg hoff] at hempty
    cases hempty
  have hactive : t.activeCache = some new := by
    rw [hcache, hsession, activeCache]
    exact if_pos hon
  -- the second one finds it, as it is not older than the clock
  have httl' : new.timeToLive = .int timeToLive := (Cache.put_spec hput).1.2
  have hage : new.expired s.clock ⟨key, value, s.clock⟩ = .ok false := by
    unfold Cache.expired
    rw [httl', hclock]
    simp only [Json.minus, Json.amount?, Amount.sub?, Int.sub_self, Json.ofAmount]
    rw [Json.compare_ok .more (x := .whole 0) (y := .whole timeToLive) rfl rfl]
    simpa [Relation.holds, Amount.less] using httl
  have hget : new.get t.clock (CacheKey.ofText (reportKey language'.toList code'.toList))
      = .ok (some value, { new with
          entries := new.others key ++ [⟨key, value, s.clock⟩], hits := new.hits + 1 }) := by
    unfold Cache.get
    rw [hkey, entry?_of_put hput, hnow, hsession]
    simp only [hage]
    rfl
  obtain ⟨hfound, hanswer, -⟩ :=
    (reportCall (s := t) (c := asking code' language') rfl rfl rfl).unique (.found hactive hget)
  exact ⟨hfound, by rw [hanswer, reportAnswer_of_resolve? hl]⟩

/-- A run that stores one report in a new cache. -/
def storing (code language : String) : List Step :=
  [.initCache (.int 1) (.int 300), .call (asking code language)]

theorem activeCache_run_setConfig (s : Session) (configs : List Config) :
    (s.run (configs.map .setConfig)).activeCache = s.activeCache ∧
      (s.run (configs.map .setConfig)).clock = s.clock := by
  induction configs generalizing s with
  | nil => exact ⟨rfl, rfl⟩
  | cons config configs ih => exact ih { s with config := config }

/-- The next call with the same key text is answered with the report, also if the configuration has
changed, and the run meets what is asked of runs: there is only one key text. -/
theorem found_behind_storing (code language code' language' : String) (configs : List Config)
    {l : Language} (hl : Language.resolve? language.toList = some l)
    (hkey : reportKey language'.toList code'.toList = reportKey language.toList code.toList) :
    let before := storing code language ++ configs.map .setConfig
    let steps := before ++ [.call (asking code' language')]
    let out := (initial.run before).call (asking code' language')
    (∀ x ∈ steps, x.Usable) ∧
      (∀ t ∈ initial.keyTexts steps, ∀ u ∈ initial.keyTexts steps,
        CacheKey.ofText t = CacheKey.ofText u → t = u) ∧
      out.cacheUse = .found ∧
      out.answer = .ok (reportAnswer .standard language.toList code.toList) := by
  intro before steps out
  have hcalls : ∀ x ∈ steps, x = .initCache (.int 1) (.int 300) ∨ (∃ config, x = .setConfig config) ∨
      x = .call (asking code language) ∨ x = .call (asking code' language') := by
    intro x hx
    simp only [steps, before, storing, List.cons_append, List.nil_append, List.mem_cons,
      List.mem_append, List.mem_map, List.not_mem_nil, or_false] at hx
    rcases hx with hx | hx | ⟨config, -, hx⟩ | hx
    · exact Or.inl hx
    · exact Or.inr (Or.inr (Or.inl hx))
    · exact Or.inr (Or.inl ⟨config, hx.symm⟩)
    · exact Or.inr (Or.inr (Or.inr hx))
  have hone : ∀ t ∈ initial.keyTexts steps, t = reportKey language.toList code.toList := by
    intro t ht
    obtain ⟨d, source, spelling, hd, hcode, hlang, rfl⟩ := mem_keyTexts ht
    rcases hcalls _ hd with h | ⟨config, h⟩ | h | h <;> cases h <;> cases hcode <;> cases hlang
    · rfl
    · exact hkey
  refine ⟨?_, fun t ht u hu _ => (hone t ht).trans (hone u hu).symm, ?_⟩
  · intro x hx
    rcases hcalls x hx with rfl | ⟨config, rfl⟩ | rfl | rfl
    · exact ⟨by simp [Json.compare, Json.comparePlain, Json.amount?, Relation.holds, Amount.atMost],
        rfl⟩
    all_goals trivial
  · obtain ⟨s, hs⟩ : ∃ s, s = initial.initCache (.int 1) (.int 300) := ⟨_, rfl⟩
    have hempty : s.activeCache = some (.empty (.int 1) (.int 300)) := by rw [hs]; rfl
    have hclock : s.clock = .int 0 := by rw [hs]; rfl
    have hconfig : s.config = .standard := by rw [hs]; rfl
    have hrun : initial.run before
        = (s.call (asking code language)).session.run (configs.map .setConfig) := by
      rw [hs]
      exact run_append _ _ _
    obtain ⟨hcache, hnow⟩ :=
      activeCache_run_setConfig (s.call (asking code language)).session configs
    rw [← hrun] at hcache hnow
    have hfound := found_behind_stored hempty hclock (by decide) (by decide) hl hcache hnow hkey
    rw [hconfig] at hfound
    exact hfound

end Session

end CodeSurvey
