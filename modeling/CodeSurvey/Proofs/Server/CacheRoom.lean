import CodeSurvey.Config.Running
import CodeSurvey.Proofs.Session.Separation
import CodeSurvey.Server.Run

/-!
# What the cache settings of a server do to its answers

The size of the cache is any whole number that the command line or the environment gives. A cache
without room for an entry stays empty, so it has nothing to drop for a new report, and the report is
lost after it has been worked out.

* `NoRoom`: the cache is in use, empty, and not to hold anything. `NoRoom.run`: it stays so.
* `NoRoom.call_report`: what a call for the full report then comes to.
* `Launch.session_eq`: a server starts as a session without a cache does, with at most one step.
* `Launch.answer_of_room`: a server whose cache has room answers every such call.
* `report_call_fails_iff_noRoom`: along every run of a server, a call for the full report fails if and
  only if the cache is in use, its size is not positive, and the language is supported.
* `served_failure`: a server that is started with the size zero fails at its first call.
-/

namespace CodeSurvey

namespace Session

/-- The steps of a server: calls of any kind, at any time. -/
def Step.Serving : Step → Prop
  | .call _ => True
  | .setClock now => now.IsTime
  | _ => False

theorem Step.Serving.usable {x : Step} (h : x.Serving) : x.Usable := by
  cases x with
  | call c => trivial
  | setClock now => exact h
  | initCache maxSize timeToLive => exact h.elim
  | setConfig config => trivial
  | enableCache on => trivial

/-- **A cache without room**: it is in use, it is empty, and it may not hold anything. -/
def NoRoom (s : Session) : Prop :=
  ∃ cache size, s.activeCache = some cache ∧ cache.maxSize = .int size ∧ size ≤ 0 ∧
    cache.entries = []

variable {s : Session} {c : ToolCall} {code language : String} {steps : List Step}

section EmptyCache

variable {cache : ReportCache} {now : Json} {key : Text} {value : Json}

theorem get_of_empty (h : cache.entries = []) :
    cache.get now key = .ok (none, { cache with misses := cache.misses + 1 }) := by
  unfold Cache.get Cache.entry?
  rw [h, List.find?_nil]

theorem put_of_noRoom {size : Int} (h : cache.entries = []) (hmax : cache.maxSize = .int size)
    (hsize : size ≤ 0) : cache.put now key value = .error .nothingToDrop := by
  have hfull : cache.full = .ok true := by
    unfold Cache.full Cache.size
    rw [h, hmax, Json.compare_ok .atLeast (x := .whole 0) (y := .whole size) rfl rfl]
    simpa [Relation.holds, Amount.atMost] using hsize
  have hentry : cache.entry? key = none := by
    unfold Cache.entry?
    rw [h, List.find?_nil]
  unfold Cache.put
  rw [hfull]
  simp only [hentry, h, Option.isNone_none, Bool.and_self, if_true]

end EmptyCache

theorem NoRoom.cacheEnabled (hs : s.NoRoom) : s.cacheEnabled = true := by
  obtain ⟨cache, size, hactive, -⟩ := hs
  by_contra hoff
  rw [activeCache, if_neg hoff] at hactive
  cases hactive

/-- Nothing is in a cache without room. -/
theorem NoRoom.not_holds (hs : s.NoRoom) (e : CacheEntry Text Json) : ¬ s.Holds e := by
  obtain ⟨cache, size, hactive, -, -, hempty⟩ := hs
  rintro ⟨d, hd, hmem⟩
  rw [Faithful.cache_of_active hactive] at hd
  obtain rfl := Option.some.inj hd
  rw [hempty] at hmem
  cases hmem

/-- **What a call comes to where the cache has no room**: a report that is worked out is lost, and
only a language that is not supported has an answer. The cache has counted a miss. -/
theorem NoRoom.call_report (hs : s.NoRoom) (htool : c.tool = .analyzeCode)
    (hcode : c.code = .str code) (hlang : c.language = .str language) :
    (s.call c).session.NoRoom ∧
      (s.call c).answer = match Language.resolve? language.toList with
        | some _ => .error (.cache .nothingToDrop)
        | none => .ok (unsupported language.toList) := by
  have hon := hs.cacheEnabled
  obtain ⟨cache, size, hactive, hmax, hsize, hempty⟩ := hs
  have hget : cache.get s.clock (CacheKey.ofText (reportKey language.toList code.toList))
      = .ok (none, { cache with misses := cache.misses + 1 }) := get_of_empty hempty
  have hcall := reportCall (s := s) htool hcode hlang
  have hafter : NoRoom { s with cache := some { cache with misses := cache.misses + 1 } } := by
    refine ⟨{ cache with misses := cache.misses + 1 }, size, ?_, hmax, hsize, hempty⟩
    rw [activeCache]
    exact if_pos hon
  cases hl : Language.resolve? language.toList with
  | none =>
    obtain ⟨-, hanswer, hsession⟩ := hcall.unique (.rejected hactive hget hl)
    rw [hsession, hanswer, reportAnswer_of_unsupported hl]
    exact ⟨hafter, rfl⟩
  | some l =>
    obtain ⟨-, hanswer, hsession⟩ :=
      hcall.unique (.refused hactive hget hl (put_of_noRoom hempty hmax hsize))
    rw [hsession, hanswer]
    exact ⟨hafter, rfl⟩

/-- **A step of a server leaves a cache without room as it is.** -/
theorem NoRoom.after (hs : s.NoRoom) {x : Step} (hx : x.Serving) : (s.after x).NoRoom := by
  cases x with
  | call c =>
    rcases call_session_cases s c with hsame | ⟨code, language, htool, hcode, hlang⟩
    · show (s.call c).session.NoRoom
      rw [hsame]
      exact hs
    · exact (hs.call_report htool hcode hlang).1
  | setClock now => exact hs
  | initCache maxSize timeToLive => exact hx.elim
  | setConfig config => exact hx.elim
  | enableCache on => exact hx.elim

/-- **So does every run of a server.** -/
theorem NoRoom.run (hs : s.NoRoom) (hsteps : ∀ x ∈ steps, x.Serving) : (s.run steps).NoRoom := by
  induction steps generalizing s with
  | nil => exact hs
  | cons x steps ih =>
    have hx : x.Serving := hsteps x List.mem_cons_self
    exact ih (hs.after hx) fun y hy => hsteps y (List.mem_cons_of_mem x hy)

/-- **In a session that works, every call for the full report is answered**: with a report under the
configuration of the run, or with the rejection of a language that is not supported. -/
theorem answer_of_working (hcache : s.cache = none) (hconfig : ∀ config, .setConfig config ∉ steps)
    (hs : (s.run steps).Working) (htool : c.tool = .analyzeCode) (hcode : c.code = .str code)
    (hlang : c.language = .str language) :
    (∃ l t, ((s.run steps).call c).answer = .ok (Report.ofText s.config l t).toJson) ∨
      Language.resolve? language.toList = none ∧
        ((s.run steps).call c).answer = .ok (unsupported language.toList) := by
  by_cases hfound : ((s.run steps).call c).cacheUse = .found
  · -- the value is that of an entry, and a call of the run has made it
    obtain ⟨cache, after, value, hactive, hget, hanswer⟩ :=
      activeCache_of_found htool hcode hlang hfound
    obtain ⟨e, hmem, -, rfl⟩ := (Cache.get_spec hget).2.2 value rfl
    obtain ⟨earlier, c', later, code', language', rfl, hstores, -⟩ :=
      Holds.of_run hcache ⟨cache, Faithful.cache_of_active hactive, hmem⟩
    have hsame : (s.run earlier).config = s.config := by
      refine config_run_of_notMem fun config hmem => ?_
      exact hconfig config (List.mem_append_left _ hmem)
    obtain ⟨l, hl⟩ := Option.isSome_iff_exists.1 hstores.supported
    refine Or.inl ⟨l, code'.toList, ?_⟩
    rw [hanswer, hstores.value, reportAnswer_of_resolve? hl, hsame]
  · have hanswer := hs.answer_of_not_found htool hcode hlang hfound
    rw [config_run_of_notMem hconfig] at hanswer
    cases hl : Language.resolve? language.toList with
    | some l =>
      rw [reportAnswer_of_resolve? hl] at hanswer
      exact Or.inl ⟨l, code.toList, hanswer⟩
    | none =>
      rw [reportAnswer_of_unsupported hl] at hanswer
      exact Or.inr ⟨rfl, hanswer⟩

end Session

/-! ## Servers -/

open Session

/-- The steps that set up the cache of a server. -/
def Launch.steps (settings : CacheSettings) : List Step :=
  if settings.enabled then [.initCache settings.size.toJson settings.timeToLive.toJson] else []

/-- A server starts as a session without a cache does. -/
theorem Launch.session_eq (config : Config) (settings : CacheSettings) :
    Launch.session config settings
      = Session.run ⟨config, none, settings.enabled, .int 0⟩ (Launch.steps settings) := by
  unfold Launch.session Launch.steps
  by_cases hon : settings.enabled = true
  · simp only [hon, if_true]
    rfl
  · simp only [hon]
    rfl

theorem Startup.session_eq {loader : Loader} {a : Arguments} {env : Environment}
    {stateOf : Text → FileState} {s : Session}
    (h : (Startup.ofArguments loader a env stateOf).session = .ok s) :
    ∃ config, s = Launch.session config (Launch.cacheSettings a env).1 := by
  unfold Startup.ofArguments at h
  simp only at h
  split at h
  · cases h
  · exact ⟨_, (Except.ok.inj h).symm⟩

namespace Launch

variable {config : Config} {settings : CacheSettings} {size timeToLive : Int} {steps : List Step}

theorem noRoom (hon : settings.enabled = true) (hsize : settings.size = .number size)
    (h : size ≤ 0) : (Launch.session config settings).NoRoom := by
  refine ⟨.empty settings.size.toJson settings.timeToLive.toJson, size, ?_, ?_, h, rfl⟩
  · unfold Launch.session activeCache
    simp only [hon, if_true, initCache]
  · rw [hsize]
    rfl

/-- The steps that set up a cache with room for an entry are of use. -/
theorem usable_steps (hsize : settings.size = .number size)
    (httl : settings.timeToLive = .number timeToLive) (h : settings.enabled = true → 1 ≤ size) :
    ∀ x ∈ Launch.steps settings, x.Usable := by
  intro x hx
  unfold Launch.steps at hx
  split at hx
  · rename_i hon
    have hone := h hon
    rw [List.mem_singleton.1 hx, hsize, httl]
    refine ⟨?_, rfl⟩
    rw [FlagNumber.toJson, Json.compare_ok .atLeast (x := .whole size) (y := .whole 1) rfl rfl]
    simpa [Relation.holds, Amount.atMost] using hone
  · cases hx

theorem setConfig_notMem_steps (settings : CacheSettings) (config : Config) :
    .setConfig config ∉ Launch.steps settings := by
  unfold Launch.steps
  split <;> simp

theorem config_session (config : Config) (settings : CacheSettings) :
    (Launch.session config settings).config = config := by
  rw [Launch.session_eq, config_run_of_notMem (Launch.setConfig_notMem_steps settings)]

/-- **A server whose cache has room answers every call for the full report**, and so does one without
a cache. -/
theorem answer_of_room {c : ToolCall} {code language : String} (hsize : settings.size = .number size)
    (httl : settings.timeToLive = .number timeToLive) (h : settings.enabled = true → 1 ≤ size)
    (hsteps : ∀ x ∈ steps, x.Serving) (htool : c.tool = .analyzeCode) (hcode : c.code = .str code)
    (hlang : c.language = .str language) :
    let out := ((Launch.session config settings).run steps).call c
    (∃ l t, out.answer = .ok (Report.ofText config l t).toJson) ∨
      Language.resolve? language.toList = none ∧
        out.answer = .ok (unsupported language.toList) := by
  intro out
  -- the start of the server is the first step of a run without a cache
  obtain ⟨start, hstart⟩ : ∃ start : Session, start = ⟨config, none, settings.enabled, .int 0⟩ :=
    ⟨_, rfl⟩
  have hrun : (Launch.session config settings).run steps
      = start.run (Launch.steps settings ++ steps) := by
    rw [Launch.session_eq, run_append, hstart]
  have hcache : start.cache = none := by rw [hstart]
  have hclock : start.clock.IsTime := by rw [hstart]; exact Json.isTime_zero
  have hworking : (start.run (Launch.steps settings ++ steps)).Working := by
    refine (working_of_uncached hcache hclock).run fun x hx => ?_
    rcases List.mem_append.1 hx with hx | hx
    · exact usable_steps hsize httl h x hx
    · exact (hsteps x hx).usable
  have hconfig : ∀ new, .setConfig new ∉ Launch.steps settings ++ steps := by
    intro new hmem
    rcases List.mem_append.1 hmem with hmem | hmem
    · exact setConfig_notMem_steps settings new hmem
    · exact hsteps _ hmem
  have hanswer := answer_of_working hcache hconfig hworking htool hcode hlang
  rw [← hrun, hstart] at hanswer
  exact hanswer

end Launch

/-- **A call for the full report fails if and only if the cache is in use, its size is not positive,
and the language is supported.** This holds along every run of a server that was started with whole
numbers for the size and the time to live, from the command line or the environment. The call then fails
since there is nothing to drop, and the cache is and stays empty. Every other call is answered with a
report under the configuration of the server, or with the rejection of a language that is not
supported. -/
theorem report_call_fails_iff_noRoom {loader : Loader} {a : Arguments} {env : Environment}
    {stateOf : Text → FileState} {s : Session} {size timeToLive : Int} {steps : List Step} {c : ToolCall}
    {code language : String} (hstart : (Startup.ofArguments loader a env stateOf).session = .ok s)
    (hsize : (Launch.cacheSettings a env).1.size = .number size)
    (httl : (Launch.cacheSettings a env).1.timeToLive = .number timeToLive)
    (hsteps : ∀ x ∈ steps, x.Serving) (htool : c.tool = .analyzeCode) (hcode : c.code = .str code)
    (hlang : c.language = .str language) :
    let out := (s.run steps).call c
    let noRoom := (Launch.cacheSettings a env).1.enabled = true ∧ size ≤ 0 ∧
      (Language.resolve? language.toList).isSome
    (noRoom → out.answer = .error (.cache .nothingToDrop) ∧
      ∀ e, ¬ (s.run steps).Holds e ∧ ¬ out.session.Holds e) ∧
    (¬ noRoom → (∃ l t, out.answer = .ok (Report.ofText s.config l t).toJson) ∨
      Language.resolve? language.toList = none ∧
        out.answer = .ok (unsupported language.toList)) := by
  intro out noRoom
  obtain ⟨config, rfl⟩ := Startup.session_eq hstart
  rw [Launch.config_session]
  by_cases hroom : (Launch.cacheSettings a env).1.enabled = true ∧ size ≤ 0
  · obtain ⟨hon, hle⟩ := hroom
    have hstart : (Launch.session config (Launch.cacheSettings a env).1).NoRoom :=
      Launch.noRoom hon hsize hle
    have hrun := hstart.run hsteps
    obtain ⟨hafter, hanswer⟩ := hrun.call_report htool hcode hlang
    refine ⟨fun hfail => ⟨?_, fun e => ⟨hrun.not_holds e, hafter.not_holds e⟩⟩, fun hfail => ?_⟩
    · obtain ⟨l, hl⟩ := Option.isSome_iff_exists.1 hfail.2.2
      rw [hl] at hanswer
      exact hanswer
    · have hl : Language.resolve? language.toList = none := by
        by_contra hne
        exact hfail ⟨hon, hle, Option.isSome_iff_ne_none.2 hne⟩
      rw [hl] at hanswer
      exact Or.inr ⟨hl, hanswer⟩
  · refine ⟨fun hfail => absurd ⟨hfail.1, hfail.2.1⟩ hroom, fun _ => ?_⟩
    refine Launch.answer_of_room hsize httl (fun hon => ?_) hsteps htool hcode hlang
    by_contra hlt
    exact hroom ⟨hon, by omega⟩

/-- No variable is set. -/
def Environment.bare : Environment :=
  ⟨none, none, none, none, none, none⟩

/-- A time to live below zero does no harm: the report is stored, is too old at once, and is worked out
again. -/
theorem report_call_fails_iff_noRoom_outdated :
    ∃ a s, Arguments.parse ["--cache-size=1".toList, "--cache-ttl=-5".toList] = .ok (.run a) ∧
      (Startup.ofArguments (.running 1) a .bare fun _ => .missing).session = .ok s ∧
      ∃ l t, ((s.run [.call (asking "x = 1" "python")]).call (asking "x = 1" "python")).answer
        = .ok (Report.ofText s.config l t).toJson := by
  have hparse : Arguments.parse ["--cache-size=1".toList, "--cache-ttl=-5".toList]
      = .ok (.run ⟨none, none, none, false, some (.number 1), some (.number (-5))⟩) := by
    decide +kernel
  have hl : Language.resolve? "python".toList = some .python := by decide +kernel
  have hserving : ∀ x ∈ [Step.call (asking "x = 1" "python")], x.Serving := by
    intro x hx
    rw [List.mem_singleton.1 hx]
    trivial
  refine ⟨_, Launch.session .standard ⟨true, .number 1, .number (-5)⟩, hparse, rfl, ?_⟩
  obtain ⟨-, hanswer⟩ := report_call_fails_iff_noRoom (c := asking "x = 1" "python")
    (show (Startup.ofArguments (.running 1)
      ⟨none, none, none, false, some (.number 1), some (.number (-5))⟩ .bare
      fun _ => .missing).session = _ from rfl) rfl rfl hserving rfl rfl rfl
  rcases hanswer (by omega) with hreport | ⟨hnone, -⟩
  · exact hreport
  · rw [hl] at hnone
    cases hnone

/-- **A server that fails at its first call**, whatever reads its files: its cache is to hold no
report. -/
theorem served_failure :
    ∃ run, (∀ loader, ServerRun.ofInput loader ⟨[], ["--cache-size".toList, "0".toList], .bare, ⟨[]⟩,
        [asking "" "python"]⟩ = run) ∧
      run.cacheSettings = ⟨true, .number 0, .number 300⟩ ∧
      run.ending = .served [.error (.cache .nothingToDrop)] := by
  have hparse : Arguments.parse ["--cache-size".toList, "0".toList]
      = .ok (.run ⟨none, none, none, false, some (.number 0), none⟩) := by
    decide +kernel
  refine ⟨ServerRun.ofArguments (.running 1) ⟨none, none, none, false, some (.number 0), none⟩
    ⟨[], ["--cache-size".toList, "0".toList], .bare, ⟨[]⟩, [asking "" "python"]⟩, ?_, rfl, rfl⟩
  intro loader
  unfold ServerRun.ofInput
  rw [hparse]
  rfl

end CodeSurvey
