import CodeSurvey.Proofs.Cache.Run

/-!
# A cache is safe in every run

From an empty cache of any size and time to live, whole numbers of either sign, every run of
look-ups, stores, clearings and clock moves keeps the keys distinct, the size within its limit and
the counters true, and gives out a value only if it is the latest one stored under its key and not
too old. A store fails only where the size leaves room for nothing.

* `lookups`: the look-ups since the last clearing, counted in the steps of the run.
* `LatestPut`: the last store of a key in a run, with the steps before it.
* `Sound`: the invariant, `Sound.after`: one step keeps it, `sound_run`: every run does.
* `run_safe`: what that says about the next look-up and the next store.
-/

namespace CodeSurvey

namespace CacheStep

variable {κ α : Type}

def isGet : CacheStep κ α → Bool
  | .get _ => true
  | _ => false

def isClear : CacheStep κ α → Bool
  | .clear => true
  | _ => false

/-- The number of look-ups since the last clearing. -/
def lookups (steps : List (CacheStep κ α)) : Nat :=
  (steps.reverse.takeWhile (!·.isClear)).countP isGet

theorem lookups_concat (steps : List (CacheStep κ α)) (x : CacheStep κ α) :
    lookups (steps ++ [x]) =
      if x.isClear then 0 else lookups steps + if x.isGet then 1 else 0 := by
  unfold lookups
  rw [List.reverse_append, List.reverse_singleton, List.singleton_append, List.takeWhile_cons]
  cases hx : x.isClear with
  | true => simp
  | false => simp [List.countP_cons]

/-- The last store of a key in a run is of this value, behind the steps `before`; there is no
clearing after it. -/
def LatestPut (steps : List (CacheStep κ α)) (key : κ) (value : α)
    (before : List (CacheStep κ α)) : Prop :=
  ∃ later, steps = before ++ .put key value :: later ∧
    ∀ x ∈ later, x ≠ .clear ∧ ∀ v, x ≠ .put key v

theorem LatestPut.concat {steps before : List (CacheStep κ α)} {key : κ} {value : α}
    (h : LatestPut steps key value before) {x : CacheStep κ α} (hclear : x ≠ .clear)
    (hput : ∀ v, x ≠ .put key v) : LatestPut (steps ++ [x]) key value before := by
  obtain ⟨later, rfl, hlater⟩ := h
  refine ⟨later ++ [x], by simp, fun y hy => ?_⟩
  rcases List.mem_append.1 hy with hy | hy
  · exact hlater y hy
  · rw [List.mem_singleton.1 hy]
    exact ⟨hclear, hput⟩

theorem latestPut_concat (steps : List (CacheStep κ α)) (key : κ) (value : α) :
    LatestPut (steps ++ [.put key value]) key value steps :=
  ⟨[], rfl, by simp⟩

end CacheStep

namespace TimedCache

open CacheStep

variable {κ α : Type} [DecidableEq κ] {maxSize timeToLive : Int} {now : Instant}
  {steps : List (CacheStep κ α)}

/-- **The invariant of a run**: the keys are distinct and not too many, every look-up was counted as
a hit or a miss, and every entry is the latest store of its key, with the time of that store. -/
structure Sound (maxSize timeToLive : Int) (now : Instant) (steps : List (CacheStep κ α))
    (s : TimedCache κ α) : Prop where
  nodup : s.cache.keys.Nodup
  size_le : (s.cache.size : Int) ≤ max maxSize 0
  count : s.cache.hits + s.cache.misses = lookups steps
  latest : ∀ e ∈ s.cache.entries, ∃ before, LatestPut steps e.key e.value before ∧
    e.storedAt = ((start maxSize timeToLive now : TimedCache κ α).run before).now.number

/-- The other entries are at most as many, and fewer if the key is there. -/
theorem length_others (c : Cache κ α) (key : κ) : (c.others key).length ≤ c.size ∧
    (key ∈ c.keys → (c.others key).length < c.size) := by
  unfold Cache.others Cache.size
  refine ⟨List.length_filter_le _ _, fun hkey => ?_⟩
  obtain ⟨e, he, rfl⟩ := List.mem_map.1 hkey
  exact List.length_filter_lt_length_iff_exists.2 ⟨e, he, by simp⟩

namespace Transition

variable {s d : TimedCache κ α} {x : CacheStep κ α} {used : Option κ}

theorem nodup (h : Transition maxSize timeToLive s x used d) (hs : s.cache.keys.Nodup) :
    d.cache.keys.Nodup := by
  obtain ⟨kept, hkept, hused, hkeys⟩ := h.keys_eq
  rw [hkeys, List.nodup_append]
  refine ⟨hs.sublist hkept, by cases used <;> simp, fun a ha b hb => ?_⟩
  rintro rfl
  exact hused a (Option.mem_toList.1 hb) ha

/-- A step makes the cache larger only where there is room. -/
theorem size_le (h : Transition maxSize timeToLive s x used d)
    (hs : (s.cache.size : Int) ≤ max maxSize 0) : (d.cache.size : Int) ≤ max maxSize 0 := by
  cases h with
  | missed hkey => exact hs
  | @expired e =>
    have hle := (length_others s.cache e.key).1
    show ((s.cache.others e.key).length : Int) ≤ max maxSize 0
    omega
  | @found e stored hmem =>
    have hlt := (length_others s.cache e.key).2 (List.mem_map_of_mem hmem)
    simp only [Cache.size, List.length_append, List.length_singleton] at hlt hs ⊢
    omega
  | @stored key value hroom =>
    obtain ⟨hle, hlt⟩ := length_others s.cache key
    simp only [Cache.size, List.length_append, List.length_singleton] at hle hlt hroom hs ⊢
    rcases hroom with hkey | hroom
    · have := hlt hkey
      omega
    · omega
  | replaced hkey hfull hentries =>
    simp only [Cache.size, hentries, List.length_append, List.length_cons, List.length_nil] at hs ⊢
    omega
  | refused hentries hmax => exact hs
  | cleared => exact Int.le_max_right maxSize 0
  | clockSet now => exact hs

/-- Every look-up is counted as a hit or a miss, and a clearing sets the counters back. -/
theorem count (h : Transition maxSize timeToLive s x used d) : d.cache.hits + d.cache.misses =
    if x.isClear then 0 else s.cache.hits + s.cache.misses + if x.isGet then 1 else 0 := by
  cases h with
  | missed hkey => exact (Nat.add_assoc _ _ _).symm
  | expired hmem hstored hold => exact (Nat.add_assoc _ _ _).symm
  | found hmem hstored hnew => exact Nat.add_right_comm _ _ _
  | stored | replaced | refused | cleared | clockSet => rfl

end Transition

/-- **Every step keeps a run sound.** -/
theorem Sound.after {s d : TimedCache κ α} {x : CacheStep κ α} {used : Option κ}
    (hs : Sound maxSize timeToLive now steps s)
    (hrun : s = (start maxSize timeToLive now).run steps)
    (h : Transition maxSize timeToLive s x used d) :
    Sound maxSize timeToLive now (steps ++ [x]) d := by
  refine ⟨h.nodup hs.nodup, h.size_le hs.size_le, ?_, fun e he => ?_⟩
  · rw [h.count, lookups_concat, hs.count]
  · rcases h.mem_entries he with ⟨hmem, hclear, hput⟩ | ⟨rfl, hnow⟩
    · obtain ⟨before, hlatest, hstored⟩ := hs.latest e hmem
      exact ⟨before, hlatest.concat hclear hput, hstored⟩
    · exact ⟨steps, latestPut_concat steps e.key e.value, by rw [hnow, hrun]⟩

/-- **Every run is sound.** -/
theorem sound_run (maxSize timeToLive : Int) (now : Instant) (steps : List (CacheStep κ α)) :
    Sound maxSize timeToLive now steps ((start maxSize timeToLive now).run steps) := by
  induction steps using List.reverseRecOn with
  | nil =>
    refine ⟨List.nodup_nil, ?_, rfl, fun e he => absurd he List.not_mem_nil⟩
    exact Int.le_max_right maxSize 0
  | append_singleton steps x ih =>
    exact ih.after rfl (run_transition maxSize timeToLive now steps x)

/-- A look-up of a sound run gives an answer, and a value only if it is the latest one stored and
not too old. -/
theorem Sound.get {s : TimedCache κ α} (hs : Sound maxSize timeToLive now steps s)
    (hreg : s.Regular maxSize timeToLive) (key : κ) : ∃ found d, s.get key = .ok (found, d) ∧
      ∀ value, found = some value → ∃ before, LatestPut steps key value before ∧
        s.now.Within timeToLive
          ((start maxSize timeToLive now : TimedCache κ α).run before).now := by
  rcases get_cases hreg key with ⟨-, hget⟩ | ⟨e, hmem, stored, rfl, hstored, hcase⟩
  · exact ⟨none, _, hget, by simp⟩
  · rcases hcase with ⟨-, hget⟩ | ⟨⟨age, hage, hle⟩, hget⟩
    · exact ⟨none, _, hget, by simp⟩
    · refine ⟨some e.value, _, hget, ?_⟩
      rintro value ⟨⟩
      -- the entry holds the time of that store and no other
      obtain ⟨before, hlatest, hstored'⟩ := hs.latest e hmem
      exact ⟨before, hlatest, age, by rw [← hstored', hstored]; exact hage, hle⟩

/-- A store fails exactly if the limit leaves room for nothing, and then changes nothing. -/
theorem put_error_iff {s : TimedCache κ α} (hreg : s.Regular maxSize timeToLive)
    (hsize : (s.cache.size : Int) ≤ max maxSize 0) (key : κ) (value : α) :
    ((∃ fault, s.put key value = .error fault) ↔ maxSize ≤ 0) ∧
      ∀ fault, s.put key value = .error fault →
        fault.className = "KeyError" ∧ s.after (.put key value) = s := by
  have hok : ∀ {c}, s.put key value = .ok c → 0 < maxSize →
      ((∃ fault, s.put key value = .error fault) ↔ maxSize ≤ 0) ∧
        ∀ fault, s.put key value = .error fault →
          fault.className = "KeyError" ∧ s.after (.put key value) = s := by
    intro c hput hpos
    rw [hput]
    refine ⟨⟨?_, fun hmax => absurd hpos (by omega)⟩, ?_⟩
    · rintro ⟨fault, hfault⟩
      cases hfault
    · intro fault hfault
      cases hfault
  rcases put_cases hreg key value with ⟨hroom, hput⟩ | ⟨-, -, e, rest, hentries, hput⟩ |
    ⟨-, hmax, hput⟩
  · apply hok hput
    rcases hroom with hkey | hlt
    · have := (length_others s.cache key).2 hkey
      omega
    · omega
  · apply hok hput
    simp only [Cache.size, hentries, List.length_cons] at hsize
    omega
  · refine ⟨⟨fun _ => hmax, fun _ => ⟨_, hput⟩⟩, fun fault hfault => ?_⟩
    obtain rfl := Except.error.inj (hput.symm.trans hfault)
    refine ⟨rfl, ?_⟩
    simp only [TimedCache.after, hput]

/-- **A cache is safe in every run.** After any steps from an empty cache, whatever its size and its
time to live: keys are distinct; the size is at most the limit, and zero if that is negative; hits
and misses add up to the look-ups since the last clearing; a look-up always gives an answer, and a
value only if it is the latest one stored under the key since the last clearing, at a time no
farther back than the time to live; a store fails exactly if the limit is zero or less, with a
missing key, and then changes nothing. -/
theorem run_safe (maxSize timeToLive : Int) (now : Instant) (steps : List (CacheStep κ α)) :
    let s : TimedCache κ α := (start maxSize timeToLive now).run steps
    s.cache.keys.Nodup ∧ (s.cache.size : Int) ≤ max maxSize 0 ∧
    s.cache.hits + s.cache.misses = lookups steps ∧
    (∀ key, ∃ found d, s.get key = .ok (found, d) ∧
      ∀ value, found = some value → ∃ before, LatestPut steps key value before ∧
        s.now.Within timeToLive
          ((start maxSize timeToLive now : TimedCache κ α).run before).now) ∧
    ∀ key value, ((∃ fault, s.put key value = .error fault) ↔ maxSize ≤ 0) ∧
      ∀ fault, s.put key value = .error fault →
        fault.className = "KeyError" ∧ s.after (.put key value) = s := by
  intro s
  have hs : Sound maxSize timeToLive now steps s := sound_run maxSize timeToLive now steps
  have hreg : s.Regular maxSize timeToLive := regular_run maxSize timeToLive now steps
  exact ⟨hs.nodup, hs.size_le, hs.count, hs.get hreg, put_error_iff hreg hs.size_le⟩

end TimedCache

end CodeSurvey
