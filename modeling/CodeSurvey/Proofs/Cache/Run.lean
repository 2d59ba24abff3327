import Mathlib.Data.List.Induction
import CodeSurvey.Proofs.Cache.Step

/-!
# Runs of a cache

A cache with whole limits, and a clock beside it that may be moved either way. A run is a list of
look-ups, stores, clearings and clock moves; a step that fails leaves everything as it is.

* `Instant`: a number that a clock can show. The difference of two of them is never "no number", so
  an entry is too old exactly when its age is not at most the time to live.
* `get_cases`, `put_cases`: all that a look-up and a store can come to.
* `Transition`: the same for a step, with the key that it uses; later proofs go by its cases.
* `Transition.mem_entries`, `Transition.keys_eq`: where entries come from, and the order of the keys.
-/

namespace CodeSurvey

/-- A number that a clock can show: a whole one in the range of double precision, or a finite one of
double precision. -/
structure Instant where
  number : Json
  finite : ∃ a negative magnitude, number.amount? = some a ∧
    a.toDouble? = some (.finite negative magnitude)

/-- What is a number and not more than a whole number is at most that. -/
theorem Amount.not_less_iff {x : Amount} (n : Int) (hx : x ≠ .real .notNumber) :
    (Amount.whole n).less x = false ↔ x.atMost (.whole n) = true := by
  cases x with
  | whole m => simp only [Amount.less, Amount.atMost, decide_eq_false_iff_not, decide_eq_true_eq,
      Int.not_lt]
  | real d =>
    cases d with
    | finite negative b =>
      simp only [Amount.less, Amount.atMost, Amount.same, Amount.exact, Double.less, Double.same,
        Bool.or_eq_true, decide_eq_true_eq, decide_eq_false_iff_not, beq_iff_eq, Int.not_lt]
      rw [Nat.max_comm (Double.places b)]
      omega
    | infinite negative =>
      cases negative <;> simp [Amount.less, Amount.atMost, Amount.same, Amount.exact, Double.less,
        Double.same]
    | notNumber => exact absurd rfl hx

namespace Instant

/-- The second instant is at most a number of seconds before the first. -/
def Within (timeToLive : Int) (now stored : Instant) : Prop :=
  ∃ age, now.number.minus stored.number = .ok age ∧
    Json.compare .atMost age (.int timeToLive) = .ok true

/-- A whole number as an instant, given its form of double precision. -/
def ofWhole (n : Int) (negative : Bool) (magnitude : Binary)
    (h : (Amount.whole n).toDouble? = some (.finite negative magnitude)) : Instant :=
  ⟨.int n, .whole n, negative, magnitude, rfl, h⟩

/-- The difference of whole numbers is exact. -/
theorem within_iff_of_whole {now stored : Instant} {m n : Int} (hm : now.number = .int m)
    (hn : stored.number = .int n) (timeToLive : Int) :
    now.Within timeToLive stored ↔ m - n ≤ timeToLive := by
  have hminus : now.number.minus stored.number = .ok (.int (m - n)) := by rw [hm, hn]; rfl
  have hcompare : Json.compare .atMost (.int (m - n)) (.int timeToLive)
      = .ok (decide (m - n ≤ timeToLive)) :=
    Json.compare_ok .atMost (x := .whole (m - n)) (y := .whole timeToLive) rfl rfl
  constructor
  · rintro ⟨age, hage, hle⟩
    obtain rfl : Json.int (m - n) = age := Except.ok.inj (hminus.symm.trans hage)
    simpa using hcompare.symm.trans hle
  · intro hle
    exact ⟨.int (m - n), hminus, by rw [hcompare, decide_eq_true hle]⟩

/-- Two instants have a difference, and it is a number. -/
theorem exists_age (now stored : Instant) : ∃ age x, now.number.minus stored.number = .ok age ∧
    age.amount? = some x ∧ x ≠ .real .notNumber := by
  obtain ⟨x, m, b, hx, hx'⟩ := now.finite
  obtain ⟨y, n, b', hy, hy'⟩ := stored.finite
  have hsub : ∃ z, x.sub? y = some z ∧ z ≠ .real .notNumber := by
    unfold Amount.sub?
    split
    · exact ⟨_, rfl, by simp⟩
    · rw [hx', hy']
      refine ⟨_, rfl, ?_⟩
      simp only [Double.sub, Double.neg, Double.add, Double.ofQuotient]
      split <;> simp
  obtain ⟨z, hz, hne⟩ := hsub
  refine ⟨.ofAmount z, z, ?_, by cases z <;> rfl, hne⟩
  simp only [Json.minus, hx, hy, hz]

end Instant

/-- A step of a run. -/
inductive CacheStep (κ α : Type) where
  | get (key : κ)
  | put (key : κ) (value : α)
  | clear
  | setClock (now : Instant)

/-- A cache and the clock that it reads. -/
structure TimedCache (κ α : Type) where
  cache : Cache κ α
  now : Instant

namespace TimedCache

variable {κ α : Type} [DecidableEq κ]

/-- An empty cache of a size and a time to live. -/
def start (maxSize timeToLive : Int) (now : Instant) : TimedCache κ α :=
  ⟨.empty (.int maxSize) (.int timeToLive), now⟩

/-- A look-up at the time of the clock. -/
def get (s : TimedCache κ α) (key : κ) : Except CacheFault (Option α × Cache κ α) :=
  s.cache.get s.now.number key

/-- A store at the time of the clock. -/
def put (s : TimedCache κ α) (key : κ) (value : α) : Except CacheFault (Cache κ α) :=
  s.cache.put s.now.number key value

/-- The cache after a step. -/
def after (s : TimedCache κ α) : CacheStep κ α → TimedCache κ α
  | .get key =>
    match s.get key with
    | .ok (_, c) => { s with cache := c }
    | .error _ => s
  | .put key value =>
    match s.put key value with
    | .ok c => { s with cache := c }
    | .error _ => s
  | .clear => { s with cache := s.cache.clear }
  | .setClock now => { s with now := now }

/-- The cache after a list of steps. -/
def run (s : TimedCache κ α) (steps : List (CacheStep κ α)) : TimedCache κ α :=
  steps.foldl after s

/-- The key that a step uses: one that is stored, or looked up and found. -/
def used? (s : TimedCache κ α) : CacheStep κ α → Option κ
  | .get key =>
    match s.get key with
    | .ok (some _, _) => some key
    | _ => none
  | .put key value =>
    match s.put key value with
    | .ok _ => some key
    | .error _ => none
  | _ => none

/-- The keys that a run uses, in order. -/
def uses (s : TimedCache κ α) : List (CacheStep κ α) → List κ
  | [] => []
  | x :: rest => (s.used? x).toList ++ uses (s.after x) rest

variable {s : TimedCache κ α} {maxSize timeToLive : Int} {key : κ} {value : α}

/-- The clock moves only when it is set. -/
theorem after_now (s : TimedCache κ α) (x : CacheStep κ α) :
    (s.after x).now = match x with
      | .setClock now => now
      | _ => s.now := by
  cases x with
  | get key => unfold after; simp only; split <;> rfl
  | put key value => unfold after; simp only; split <;> rfl
  | clear => rfl
  | setClock now => rfl

theorem run_append (s : TimedCache κ α) (steps rest : List (CacheStep κ α)) :
    s.run (steps ++ rest) = (s.run steps).run rest :=
  List.foldl_append

theorem run_concat (s : TimedCache κ α) (steps : List (CacheStep κ α)) (x : CacheStep κ α) :
    s.run (steps ++ [x]) = (s.run steps).after x :=
  run_append s steps [x]

theorem uses_append (steps rest : List (CacheStep κ α)) : ∀ s : TimedCache κ α,
    s.uses (steps ++ rest) = s.uses steps ++ (s.run steps).uses rest := by
  induction steps with
  | nil => intro s; rfl
  | cons x xs ih =>
    intro s
    simp only [List.cons_append, uses, ih, List.append_assoc]
    rfl

theorem uses_concat (s : TimedCache κ α) (steps : List (CacheStep κ α)) (x : CacheStep κ α) :
    s.uses (steps ++ [x]) = s.uses steps ++ ((s.run steps).used? x).toList := by
  rw [uses_append]
  simp only [uses, List.append_nil]

/-- A cache with whole limits, whose entries were stored at instants. -/
structure Regular (maxSize timeToLive : Int) (s : TimedCache κ α) : Prop where
  maxSize_eq : s.cache.maxSize = .int maxSize
  timeToLive_eq : s.cache.timeToLive = .int timeToLive
  times : ∀ e ∈ s.cache.entries, ∃ stored : Instant, e.storedAt = stored.number

/-! ## What a step can come to -/

theorem isNone_entry?_iff {c : Cache κ α} : (c.entry? key).isNone = true ↔ key ∉ c.keys := by
  unfold Cache.entry? Cache.keys
  rw [Option.isNone_iff_eq_none, List.find?_eq_none]
  simp

/-- The keys of the other entries. -/
theorem map_key_others (c : Cache κ α) (key : κ) :
    (c.others key).map CacheEntry.key = c.keys.filter (· ≠ key) := by
  unfold Cache.others Cache.keys
  rw [List.filter_map]
  rfl

theorem others_of_notMem {c : Cache κ α} (h : key ∉ c.keys) : c.others key = c.entries := by
  unfold Cache.others
  rw [List.filter_eq_self]
  intro e he
  have hne : e.key ≠ key := by
    rintro rfl
    exact h (List.mem_map_of_mem he)
  simpa using hne

omit [DecidableEq κ] in
theorem full_eq (hs : s.Regular maxSize timeToLive) :
    s.cache.full = .ok (decide (maxSize ≤ s.cache.size)) := by
  unfold Cache.full
  rw [hs.maxSize_eq]
  exact Json.compare_ok .atLeast (x := .whole s.cache.size) (y := .whole maxSize) rfl rfl

omit [DecidableEq κ] in
/-- An entry is too old unless it was stored within the time to live. -/
theorem expired_eq (hs : s.Regular maxSize timeToLive) {e : CacheEntry κ α} {stored : Instant}
    (hstored : e.storedAt = stored.number) : ∃ old, s.cache.expired s.now.number e = .ok old ∧
      (old = false ↔ s.now.Within timeToLive stored) := by
  obtain ⟨age, x, hage, hx, hne⟩ := s.now.exists_age stored
  have hmore := Json.compare_ok .more hx (b := .int timeToLive) (y := .whole timeToLive) rfl
  have hmost := Json.compare_ok .atMost hx (b := .int timeToLive) (y := .whole timeToLive) rfl
  have hold := Amount.not_less_iff timeToLive hne
  refine ⟨(Amount.whole timeToLive).less x, ?_, ?_⟩
  · unfold Cache.expired
    rw [hstored, hage, hs.timeToLive_eq]
    exact hmore
  · rw [hold]
    constructor
    · intro h
      exact ⟨age, hage, hmost.trans (congrArg Except.ok h)⟩
    · rintro ⟨age', hage', hle⟩
      obtain rfl : age = age' := Except.ok.inj (hage.symm.trans hage')
      exact Except.ok.inj (hmost.symm.trans hle)

/-- **What a look-up can come to**: the key is not there, its entry is too old and goes, or it is
found and becomes the most recently used. -/
theorem get_cases (hs : s.Regular maxSize timeToLive) (key : κ) :
    (key ∉ s.cache.keys ∧
      s.get key = .ok (none, { s.cache with misses := s.cache.misses + 1 })) ∨
    ∃ e ∈ s.cache.entries, ∃ stored : Instant, e.key = key ∧ e.storedAt = stored.number ∧
      (¬ s.now.Within timeToLive stored ∧ s.get key = .ok (none,
          { s.cache with entries := s.cache.others key, misses := s.cache.misses + 1 }) ∨
        s.now.Within timeToLive stored ∧ s.get key = .ok (some e.value,
          { s.cache with entries := s.cache.others key ++ [e], hits := s.cache.hits + 1 })) := by
  cases hentry : s.cache.entry? key with
  | none =>
    left
    refine ⟨isNone_entry?_iff.1 (by rw [hentry]; rfl), ?_⟩
    unfold get Cache.get
    rw [hentry]
  | some e =>
    right
    obtain ⟨hmem, hkey⟩ := Cache.entry?_spec hentry
    obtain ⟨stored, hstored⟩ := hs.times e hmem
    obtain ⟨old, hold, hwithin⟩ := expired_eq hs hstored
    refine ⟨e, hmem, stored, hkey, hstored, ?_⟩
    unfold get Cache.get
    rw [hentry]
    simp only [hold]
    cases old with
    | true => exact Or.inl ⟨fun h => by simpa using hwithin.2 h, rfl⟩
    | false => exact Or.inr ⟨hwithin.1 rfl, rfl⟩

/-- **What a store can come to**: there is room or the key is there, or the least recently used
entry makes room, or there is none to do so. -/
theorem put_cases (hs : s.Regular maxSize timeToLive) (key : κ) (value : α) :
    ((key ∈ s.cache.keys ∨ (s.cache.size : Int) < maxSize) ∧ s.put key value = .ok { s.cache with
      entries := s.cache.others key ++ [⟨key, value, s.now.number⟩] }) ∨
    (key ∉ s.cache.keys ∧ maxSize ≤ s.cache.size ∧ ∃ e rest, s.cache.entries = e :: rest ∧
      s.put key value = .ok { s.cache with
        entries := rest ++ [⟨key, value, s.now.number⟩] }) ∨
    (s.cache.entries = [] ∧ maxSize ≤ 0 ∧ s.put key value = .error .nothingToDrop) := by
  unfold put Cache.put
  rw [full_eq hs]
  simp only
  by_cases hroom : key ∈ s.cache.keys ∨ (s.cache.size : Int) < maxSize
  · left
    refine ⟨hroom, ?_⟩
    rw [if_neg]
    · rfl
    · rw [Bool.and_eq_true, isNone_entry?_iff, decide_eq_true_eq]
      rintro ⟨hfull, hnew⟩
      rcases hroom with hmem | hlt
      · exact hnew hmem
      · omega
  · right
    obtain ⟨hnew, hfull⟩ := not_or.1 hroom
    have hfull' : maxSize ≤ s.cache.size := by omega
    rw [if_pos (by rw [Bool.and_eq_true, isNone_entry?_iff, decide_eq_true_eq]
                   exact ⟨hfull', hnew⟩)]
    cases hentries : s.cache.entries with
    | nil =>
      right
      have hsize : s.cache.size = 0 := by rw [Cache.size, hentries]; rfl
      exact ⟨rfl, by omega, rfl⟩
    | cons e rest =>
      left
      refine ⟨hnew, hfull', e, rest, rfl, ?_⟩
      -- the key is new, so nothing else makes room for it
      have hrest : rest.filter (·.key ≠ key) = rest := by
        have hothers := others_of_notMem hnew
        unfold Cache.others at hothers
        rw [hentries, List.filter_eq_self] at hothers
        exact List.filter_eq_self.2 fun x hx => hothers x (List.mem_cons_of_mem _ hx)
      simp only [Cache.store, hrest]

/-- **What a step can do to a cache**, and which key it uses. -/
inductive Transition (maxSize timeToLive : Int) (s : TimedCache κ α) :
    CacheStep κ α → Option κ → TimedCache κ α → Prop where
  /-- The key is not there. -/
  | missed {key : κ} (hkey : key ∉ s.cache.keys) : Transition maxSize timeToLive s (.get key) none
      { s with cache := { s.cache with misses := s.cache.misses + 1 } }
  /-- The entry is too old. -/
  | expired {e : CacheEntry κ α} {stored : Instant} (hmem : e ∈ s.cache.entries)
      (hstored : e.storedAt = stored.number) (hold : ¬ s.now.Within timeToLive stored) :
      Transition maxSize timeToLive s (.get e.key) none { s with cache :=
        { s.cache with entries := s.cache.others e.key, misses := s.cache.misses + 1 } }
  /-- The entry is found. -/
  | found {e : CacheEntry κ α} {stored : Instant} (hmem : e ∈ s.cache.entries)
      (hstored : e.storedAt = stored.number) (hnew : s.now.Within timeToLive stored) :
      Transition maxSize timeToLive s (.get e.key) (some e.key) { s with cache :=
        { s.cache with entries := s.cache.others e.key ++ [e], hits := s.cache.hits + 1 } }
  /-- The value is stored, and there is room for it. -/
  | stored {key : κ} {value : α}
      (hroom : key ∈ s.cache.keys ∨ (s.cache.size : Int) < maxSize) :
      Transition maxSize timeToLive s (.put key value) (some key) { s with cache :=
        { s.cache with entries := s.cache.others key ++ [⟨key, value, s.now.number⟩] } }
  /-- The value is stored in the place of the least recently used entry. -/
  | replaced {key : κ} {value : α} {e : CacheEntry κ α} {rest : List (CacheEntry κ α)}
      (hkey : key ∉ s.cache.keys) (hfull : maxSize ≤ s.cache.size)
      (hentries : s.cache.entries = e :: rest) :
      Transition maxSize timeToLive s (.put key value) (some key) { s with cache :=
        { s.cache with entries := rest ++ [⟨key, value, s.now.number⟩] } }
  /-- The value is not stored: the cache is full without holding anything. -/
  | refused {key : κ} {value : α} (hentries : s.cache.entries = []) (hmax : maxSize ≤ 0) :
      Transition maxSize timeToLive s (.put key value) none s
  | cleared : Transition maxSize timeToLive s .clear none { s with cache := s.cache.clear }
  | clockSet (now : Instant) :
      Transition maxSize timeToLive s (.setClock now) none { s with now := now }

/-- **Every step is one of these.** -/
theorem after_transition (hs : s.Regular maxSize timeToLive) (x : CacheStep κ α) :
    Transition maxSize timeToLive s x (s.used? x) (s.after x) := by
  cases x with
  | get key =>
    rcases get_cases hs key with ⟨hkey, hget⟩ | ⟨e, hmem, stored, rfl, hstored, hcase⟩
    · simp only [used?, after, hget]
      exact .missed hkey
    · rcases hcase with ⟨hold, hget⟩ | ⟨hnew, hget⟩
      · simp only [used?, after, hget]
        exact .expired hmem hstored hold
      · simp only [used?, after, hget]
        exact .found hmem hstored hnew
  | put key value =>
    rcases put_cases hs key value with ⟨hroom, hput⟩ | ⟨hkey, hfull, e, rest, hentries, hput⟩ |
      ⟨hentries, hmax, hput⟩
    · simp only [used?, after, hput]
      exact .stored hroom
    · simp only [used?, after, hput]
      exact .replaced hkey hfull hentries
    · simp only [used?, after, hput]
      exact .refused hentries hmax
  | clear => exact .cleared
  | setClock now => exact .clockSet now

/-- **Where the entries after a step come from**: an entry was there before, and the step neither
cleared the cache nor stored its key; or the step has just stored it. -/
theorem Transition.mem_entries {x : CacheStep κ α} {used : Option κ} {d : TimedCache κ α}
    (h : Transition maxSize timeToLive s x used d) {e : CacheEntry κ α}
    (he : e ∈ d.cache.entries) :
    (e ∈ s.cache.entries ∧ x ≠ .clear ∧ ∀ v, x ≠ .put e.key v) ∨
      (x = .put e.key e.value ∧ e.storedAt = s.now.number) := by
  have hother : ∀ key, e ∈ s.cache.others key → e ∈ s.cache.entries ∧ e.key ≠ key := by
    intro key he
    obtain ⟨hmem, hne⟩ := List.mem_filter.1 he
    exact ⟨hmem, by simpa using hne⟩
  cases h with
  | missed hkey => exact Or.inl ⟨he, by simp, by simp⟩
  | expired hmem hstored hold => exact Or.inl ⟨(hother _ he).1, by simp, by simp⟩
  | found hmem hstored hnew =>
    left
    rcases List.mem_append.1 he with he | he
    · exact ⟨(hother _ he).1, by simp, by simp⟩
    · rw [List.mem_singleton.1 he]
      exact ⟨hmem, by simp, by simp⟩
  | stored hroom =>
    rcases List.mem_append.1 he with he | he
    · obtain ⟨hmem, hne⟩ := hother _ he
      exact Or.inl ⟨hmem, by simp, fun v hv => hne (CacheStep.put.inj hv).1.symm⟩
    · rw [List.mem_singleton.1 he]
      exact Or.inr ⟨rfl, rfl⟩
  | replaced hkey hfull hentries =>
    rcases List.mem_append.1 he with he | he
    · have hmem : e ∈ s.cache.entries := by rw [hentries]; exact List.mem_cons_of_mem _ he
      refine Or.inl ⟨hmem, by simp, fun v hv => hkey ?_⟩
      rw [(CacheStep.put.inj hv).1]
      exact List.mem_map_of_mem hmem
    · rw [List.mem_singleton.1 he]
      exact Or.inr ⟨rfl, rfl⟩
  | refused hentries hmax => rw [hentries] at he; exact absurd he List.not_mem_nil
  | cleared => exact absurd he List.not_mem_nil
  | clockSet now => exact Or.inl ⟨he, by simp, by simp⟩

/-- **What a step does to the keys**: it keeps some of them, in order, and puts the one it uses
behind them. -/
theorem Transition.keys_eq {x : CacheStep κ α} {used : Option κ} {d : TimedCache κ α}
    (h : Transition maxSize timeToLive s x used d) :
    ∃ kept, kept.Sublist s.cache.keys ∧ (∀ key ∈ used, key ∉ kept) ∧
      d.cache.keys = kept ++ used.toList := by
  have htouch : ∀ key, (s.cache.keys.filter (· ≠ key)).Sublist s.cache.keys ∧
      ∀ key' ∈ some key, key' ∉ s.cache.keys.filter (· ≠ key) := by
    intro key
    refine ⟨List.filter_sublist, ?_⟩
    rintro key' ⟨⟩
    simp
  cases h with
  | missed hkey => exact ⟨s.cache.keys, List.Sublist.refl _, by simp, (List.append_nil _).symm⟩
  | @expired e =>
    refine ⟨s.cache.keys.filter (· ≠ e.key), (htouch e.key).1, by simp, ?_⟩
    rw [← map_key_others]
    exact (List.append_nil _).symm
  | @found e =>
    refine ⟨s.cache.keys.filter (· ≠ e.key), (htouch e.key).1, (htouch e.key).2, ?_⟩
    rw [← map_key_others]
    exact List.map_append
  | @stored key value =>
    refine ⟨s.cache.keys.filter (· ≠ key), (htouch key).1, (htouch key).2, ?_⟩
    rw [← map_key_others]
    exact List.map_append
  | @replaced key value e rest hkey hfull hentries =>
    have hkeys : s.cache.keys = e.key :: rest.map CacheEntry.key := by
      unfold Cache.keys
      rw [hentries]
      rfl
    refine ⟨rest.map CacheEntry.key, ?_, ?_, List.map_append⟩
    · rw [hkeys]
      exact List.sublist_cons_self _ _
    · rintro key' ⟨⟩ hmem
      rw [hkeys] at hkey
      exact hkey (List.mem_cons_of_mem _ hmem)
  | refused hentries hmax =>
    exact ⟨s.cache.keys, List.Sublist.refl _, by simp, (List.append_nil _).symm⟩
  | cleared => exact ⟨[], List.nil_sublist _, by simp, rfl⟩
  | clockSet now => exact ⟨s.cache.keys, List.Sublist.refl _, by simp, (List.append_nil _).symm⟩

/-- Every step keeps a cache regular. -/
theorem Regular.after (hs : s.Regular maxSize timeToLive) (x : CacheStep κ α) :
    (s.after x).Regular maxSize timeToLive := by
  have h := after_transition hs x
  have hlimits : (s.after x).cache.maxSize = s.cache.maxSize ∧
      (s.after x).cache.timeToLive = s.cache.timeToLive := by
    generalize s.used? x = used at h
    generalize s.after x = d at h
    cases h <;> exact ⟨rfl, rfl⟩
  refine ⟨hlimits.1.trans hs.maxSize_eq, hlimits.2.trans hs.timeToLive_eq, fun e he => ?_⟩
  rcases h.mem_entries he with ⟨hmem, -⟩ | ⟨-, hnow⟩
  · exact hs.times e hmem
  · exact ⟨s.now, hnow⟩

/-- The cache after a run from an empty one is regular. -/
theorem regular_run (maxSize timeToLive : Int) (now : Instant) (steps : List (CacheStep κ α)) :
    ((start maxSize timeToLive now).run steps).Regular maxSize timeToLive := by
  induction steps using List.reverseRecOn with
  | nil => exact ⟨rfl, rfl, fun e he => absurd he List.not_mem_nil⟩
  | append_singleton steps x ih =>
    rw [run_concat]
    exact ih.after x

/-- Every step of a run from an empty cache is one of the transitions. -/
theorem run_transition (maxSize timeToLive : Int) (now : Instant) (steps : List (CacheStep κ α))
    (x : CacheStep κ α) :
    let s : TimedCache κ α := (start maxSize timeToLive now).run steps
    Transition maxSize timeToLive s x (s.used? x)
      ((start maxSize timeToLive now).run (steps ++ [x])) := by
  intro s
  rw [run_concat]
  exact after_transition (regular_run maxSize timeToLive now steps) x

end TimedCache

end CodeSurvey
