import Mathlib.Data.Finset.Card
import Mathlib.Data.List.Dedup
import CodeSurvey.Proofs.Cache.Safety

/-!
# What a full cache drops, and what it keeps

The entries of a cache stand in the order in which they were last used: its keys are among the keys
used so far, each taken at its last use. So what makes room for a new key is the entry whose last
use is the oldest, and a value stays as long as fewer other keys than the cache has room for are
used between one use of its key and the next.

* `keys_sublist_uses`: the order of the keys, along every run.
* `exists_last_use`: what the first key in that order says about the uses.
* `mem_after`: a step drops an entry only by clearing, storing its key, finding it too old, or
  evicting it as the first one.
* `retained`: few keys used in between keep an entry in the cache.
* `recent_kept_oldest_evicted`: both together.
-/

namespace CodeSurvey.TimedCache

open CacheStep

variable {κ α : Type} [DecidableEq κ] {maxSize timeToLive : Int} {now : Instant}

/-! ## Keys in the order of their last uses -/

/-- Of a list with one more item, the last occurrences are those of the others and the new item. -/
theorem dedup_concat (l : List κ) (key : κ) :
    (l ++ [key]).dedup = l.dedup.filter (· ≠ key) ++ [key] := by
  induction l with
  | nil => simp
  | cons a l ih =>
    rw [List.cons_append, List.dedup_cons, List.dedup_cons, ih]
    by_cases hmem : a ∈ l
    · simp [hmem]
    · rcases eq_or_ne a key with rfl | hne
      · simp [hmem]
      · simp [hmem, hne]

/-- **The keys of a cache are in the order of their last uses.** -/
theorem keys_sublist_uses (maxSize timeToLive : Int) (now : Instant)
    (steps : List (CacheStep κ α)) :
    let s : TimedCache κ α := start maxSize timeToLive now
    (s.run steps).cache.keys.Sublist (s.uses steps).dedup := by
  intro s
  induction steps using List.reverseRecOn with
  | nil => exact List.nil_sublist _
  | append_singleton steps x ih =>
    obtain ⟨kept, hkept, hused, hkeys⟩ :=
      (run_transition maxSize timeToLive now steps x).keys_eq
    rw [hkeys, uses_concat]
    have hsub := hkept.trans ih
    cases hkey : (s.run steps).used? x with
    | none => simpa [s, hkey] using hsub
    | some key =>
      have hnot : key ∉ kept := hused key hkey
      -- the key is not among those kept, so they are among the others
      have hkept' : kept.filter (· ≠ key) = kept := by
        rw [List.filter_eq_self]
        intro a ha
        have hne : a ≠ key := fun h => hnot (h ▸ ha)
        simpa using hne
      rw [Option.toList_some, dedup_concat, ← hkept']
      exact (hsub.filter _).append (List.Sublist.refl _)

/-- Behind the last use of the first key in such an order, all the others have been used. -/
theorem exists_last_use {l : List κ} {key : κ} {others : List κ}
    (h : (key :: others).Sublist l.dedup) :
    ∃ a b, l = a ++ key :: b ∧ key ∉ b ∧ ∀ k ∈ others, k ∈ b := by
  induction l with
  | nil => simp at h
  | cons x l ih =>
    by_cases hmem : x ∈ l
    · rw [List.dedup_cons_of_mem hmem] at h
      obtain ⟨a, b, rfl, hrest⟩ := ih h
      exact ⟨x :: a, b, rfl, hrest⟩
    · rw [List.dedup_cons_of_notMem hmem] at h
      cases h with
      | cons _ h =>
        obtain ⟨a, b, rfl, hrest⟩ := ih h
        exact ⟨x :: a, b, rfl, hrest⟩
      | cons_cons _ h =>
        exact ⟨[], l, rfl, hmem, fun k hk => List.mem_dedup.1 (h.subset hk)⟩

/-- **The entry that a store evicts is the one whose last use is the oldest**: all other keys of
the cache have been used since. -/
theorem evicted_last_use (steps : List (CacheStep κ α)) {key : κ} {value : α} :
    let s : TimedCache κ α := start maxSize timeToLive now
    key ∉ (s.run steps).cache.keys → ∀ e ∈ (s.run steps).cache.entries,
      e.key ∉ ((s.run steps).after (.put key value)).cache.keys →
      ∃ a b, s.uses steps = a ++ e.key :: b ∧ e.key ∉ b ∧
        ∀ k ∈ (s.run steps).cache.keys, k ≠ e.key → k ∈ b := by
  intro s hkey e he hgone
  have hmem : e.key ∈ (s.run steps).cache.keys := List.mem_map_of_mem he
  have hsub : (s.run steps).cache.keys.Sublist (s.uses steps).dedup :=
    keys_sublist_uses maxSize timeToLive now steps
  have hreg : (s.run steps).Regular maxSize timeToLive :=
    regular_run maxSize timeToLive now steps
  rcases put_cases hreg key value with ⟨-, hput⟩ | ⟨-, -, first, rest, hentries, hput⟩ |
    ⟨-, -, hput⟩
  · -- there was room, so nothing goes
    simp only [after, hput, others_of_notMem hkey, Cache.keys, List.map_append] at hgone
    exact absurd (List.mem_append_left _ hmem) hgone
  · have hkeys : (s.run steps).cache.keys = first.key :: rest.map CacheEntry.key := by
      unfold Cache.keys
      rw [hentries]
      rfl
    simp only [after, hput, Cache.keys, List.map_append] at hgone
    have hfirst : e.key = first.key := by
      rw [hkeys] at hmem
      rcases List.mem_cons.1 hmem with h | h
      · exact h
      · exact absurd (List.mem_append_left _ h) hgone
    rw [hkeys] at hsub ⊢
    obtain ⟨a, b, huses, hnot, hothers⟩ := exists_last_use hsub
    rw [hfirst]
    refine ⟨a, b, huses, hnot, fun k hk hne => ?_⟩
    rcases List.mem_cons.1 hk with h | h
    · exact absurd h hne
    · exact hothers k h
  · simp only [after, hput] at hgone
    exact absurd hmem hgone

/-! ## What stays -/

/-- **A step keeps an entry** unless it clears the cache, stores the key, finds the entry too old,
or evicts it because it is the first one of a full cache. -/
theorem Transition.mem_after {s d : TimedCache κ α} {x : CacheStep κ α} {used : Option κ}
    (h : Transition maxSize timeToLive s x used d) (hnodup : s.cache.keys.Nodup)
    {e : CacheEntry κ α} (he : e ∈ s.cache.entries) {stored : Instant}
    (hstored : e.storedAt = stored.number) (hclear : x ≠ .clear) (hput : ∀ v, x ≠ .put e.key v)
    (hget : x = .get e.key → s.now.Within timeToLive stored)
    (hfirst : ∀ key value, x = .put key value → key ∉ s.cache.keys → maxSize ≤ s.cache.size →
      s.cache.entries.head? ≠ some e) : e ∈ d.cache.entries := by
  have hother : ∀ {key}, e.key ≠ key → e ∈ s.cache.others key := by
    intro key hne
    exact List.mem_filter.2 ⟨he, by simpa using hne⟩
  cases h with
  | missed hkey => exact he
  | @expired e' stored' hmem hstored' hold =>
    by_cases hkey : e.key = e'.key
    · obtain rfl := List.inj_on_of_nodup_map hnodup he hmem hkey
      obtain ⟨age, hage, hle⟩ := hget rfl
      exact absurd ⟨age, by rw [← hstored', hstored]; exact hage, hle⟩ hold
    · exact hother hkey
  | @found e' stored' hmem hstored' hnew =>
    by_cases hkey : e.key = e'.key
    · obtain rfl := List.inj_on_of_nodup_map hnodup he hmem hkey
      exact List.mem_append_right _ (List.mem_singleton.2 rfl)
    · exact List.mem_append_left _ (hother hkey)
  | @stored key value hroom =>
    have hne : e.key ≠ key := fun heq => hput value (by rw [heq])
    exact List.mem_append_left _ (hother hne)
  | @replaced key value first rest hkey hfull hentries =>
    have hhead := hfirst key value rfl hkey hfull
    rw [hentries] at he hhead
    rcases List.mem_cons.1 he with rfl | he
    · exact absurd rfl hhead
    · exact List.mem_append_left _ he
  | refused hentries hmax => exact he
  | cleared => exact absurd rfl hclear
  | clockSet now => exact he

omit [DecidableEq κ] in
/-- Of a list that ends in another one behind a key, what stands behind the last such key is a part
of the other. -/
theorem suffix_of_last {a b l rest : List κ} {key : κ} (h : a ++ key :: b = l ++ key :: rest)
    (hb : key ∉ b) : b <:+ rest := by
  rcases List.append_eq_append_iff.1 h with ⟨c, hl, hc⟩ | ⟨c, -, hc⟩
  · cases c with
    | nil => exact ⟨[], by simpa using hc⟩
    | cons x c =>
      obtain ⟨-, hb'⟩ : key = x ∧ b = c ++ key :: rest := by simpa using hc
      exact absurd (by rw [hb']; simp) hb
  · cases c with
    | nil => exact ⟨[], by simpa using hc.symm⟩
    | cons x c =>
      obtain ⟨-, hrest⟩ : key = x ∧ rest = c ++ key :: b := by simpa using hc
      exact ⟨c ++ [key], by rw [hrest]; simp⟩

/-- The first of distinct keys has fewer others behind it than there are keys in a stretch that
holds them and one more. -/
theorem length_lt_card {others b : List κ} {new : κ} (hnodup : others.Nodup)
    (hothers : ∀ k ∈ others, k ∈ b) (hnew : new ∉ others) :
    others.length < (b ++ [new]).toFinset.card := by
  have hcard : (new :: others).toFinset.card = others.length + 1 :=
    List.toFinset_card_of_nodup (List.nodup_cons.2 ⟨hnew, hnodup⟩)
  have hle : (new :: others).toFinset.card ≤ (b ++ [new]).toFinset.card := by
    apply Finset.card_le_card
    intro k hk
    rw [List.mem_toFinset] at hk ⊢
    rcases List.mem_cons.1 hk with rfl | hk
    · simp
    · exact List.mem_append_left _ (hothers k hk)
  omega

/-- **A stored value stays in the cache** as long as the cache is not cleared, its key is not stored
again nor looked up too late, and fewer other keys than the cache has room for are used between one
use of its key and the next. -/
theorem retained (steps : List (CacheStep κ α)) (key : κ) (value : α)
    (hpos : 1 ≤ maxSize) (mid : List (CacheStep κ α)) :
    let s : TimedCache κ α := (start maxSize timeToLive now).run steps
    let u := s.after (.put key value)
    CacheStep.clear ∉ mid → (∀ v, CacheStep.put key v ∉ mid) →
    (∀ a b, mid = a ++ .get key :: b → (u.run a).now.Within timeToLive s.now) →
    (∀ b, b <:+: u.uses mid → key ∉ b → (b.toFinset.card : Int) < maxSize) →
    ⟨key, value, s.now.number⟩ ∈ (u.run mid).cache.entries := by
  intro s u
  -- the uses of the whole run, up to any of the steps behind the store
  have hrun : ∀ mid, u.run mid = (start maxSize timeToLive now).run
      (steps ++ .put key value :: mid) := by
    intro mid
    rw [run_append]
    rfl
  have hstored : s.used? (.put key value) = some key ∧
      ⟨key, value, s.now.number⟩ ∈ u.cache.entries := by
    rcases put_cases (regular_run maxSize timeToLive now steps) key value with
      ⟨-, hput⟩ | ⟨-, -, e, rest, -, hput⟩ | ⟨-, hmax, -⟩
    · exact ⟨by simp only [used?, s, hput], by simp [u, s, after, hput]⟩
    · exact ⟨by simp only [used?, s, hput], by simp [u, s, after, hput]⟩
    · omega
  have huses : ∀ mid, (start maxSize timeToLive now).uses (steps ++ .put key value :: mid) =
      (start maxSize timeToLive now).uses steps ++ key :: u.uses mid := by
    intro mid
    rw [uses_append]
    simp only [uses]
    rw [hstored.1]
    rfl
  induction mid using List.reverseRecOn with
  | nil => exact fun _ _ _ _ => hstored.2
  | append_singleton mid x ih =>
    intro hclear hput hget hfew
    have hmem := ih (fun h => hclear (List.mem_append_left _ h))
      (fun v h => hput v (List.mem_append_left _ h))
      (fun a b h => hget a (b ++ [x]) (by rw [h]; simp))
      (fun b hb => hfew b (by rw [uses_concat]; exact hb.trans (List.infix_append [] _ _)))
    have hx : x ∈ mid ++ [x] := List.mem_append_right _ (List.mem_singleton.2 rfl)
    have hs := sound_run maxSize timeToLive now (steps ++ .put key value :: mid)
    have hstep := after_transition
      (regular_run maxSize timeToLive now (steps ++ .put key value :: mid)) x
    rw [← hrun mid] at hs hstep
    rw [run_concat]
    refine hstep.mem_after hs.nodup hmem (Eq.refl s.now.number) (fun h => hclear (h ▸ hx))
      (fun v h => hput v (h ▸ hx)) (fun h => hget mid [] (by rw [h])) ?_
    -- were it the first of a full cache, as many keys as there is room for have been used since
    intro new v hnew hkey hfull hhead
    obtain ⟨rest, hentries⟩ := List.head?_eq_some_iff.1 hhead
    have hkeys : (u.run mid).cache.keys = key :: rest.map CacheEntry.key := by
      unfold Cache.keys
      rw [hentries]
      rfl
    have hsub := keys_sublist_uses maxSize timeToLive now (steps ++ .put key value :: mid)
    simp only [← hrun mid, huses mid, hkeys] at hsub
    obtain ⟨a, b, hab, hnot, hothers⟩ := exists_last_use hsub
    have hsuffix := suffix_of_last hab.symm hnot
    have hnodup := hs.nodup
    rw [hkeys] at hnodup hkey
    have hlt := length_lt_card (List.nodup_cons.1 hnodup).2 hothers
      fun h => hkey (List.mem_cons_of_mem _ h)
    have hstretch : b ++ [new] <:+: u.uses (mid ++ [x]) := by
      obtain ⟨c, hc⟩ := hsuffix
      have hused : (u.run mid).used? x = some new := by
        subst hnew
        rcases put_cases (regular_run maxSize timeToLive now (steps ++ .put key value :: mid)) new v
          with ⟨-, hput⟩ | ⟨-, -, _, _, -, hput⟩ | ⟨-, hmax, -⟩
        · simp only [hrun mid, used?, hput]
        · simp only [hrun mid, used?, hput]
        · omega
      rw [uses_concat, hused, ← hc]
      exact ⟨c, [], by simp⟩
    have hfew' := hfew _ hstretch (by
      intro h
      rcases List.mem_append.1 h with h | h
      · exact hnot h
      · rw [List.mem_singleton] at h
        exact hkey (h ▸ List.mem_cons_self))
    simp only [Cache.size, hentries, List.length_cons] at hfull
    rw [List.length_map] at hlt
    omega

/-- An entry that is in the cache and not too old is found. -/
theorem get_of_mem {s : TimedCache κ α} (hs : s.Regular maxSize timeToLive)
    (hnodup : s.cache.keys.Nodup) {e : CacheEntry κ α} (he : e ∈ s.cache.entries)
    {stored : Instant} (hstored : e.storedAt = stored.number)
    (hwithin : s.now.Within timeToLive stored) : ∃ d, s.get e.key = .ok (some e.value, d) := by
  rcases get_cases hs e.key with ⟨hkey, -⟩ | ⟨e', hmem, stored', hkey, hstored', hcase⟩
  · exact absurd (List.mem_map_of_mem he) hkey
  · obtain rfl := List.inj_on_of_nodup_map hnodup hmem he hkey
    rcases hcase with ⟨hold, -⟩ | ⟨-, hget⟩
    · obtain ⟨age, hage, hle⟩ := hwithin
      exact absurd ⟨age, by rw [← hstored', hstored]; exact hage, hle⟩ hold
    · exact ⟨_, hget⟩

/-- **What is used often enough stays, and what goes is what was used longest ago.** For a cache
with room for an entry, any time to live and any run, let a value be stored under a key. First: if
afterwards the cache is not cleared, the key is not stored again and never looked up too late, and
in every stretch of the run without a use of the key fewer keys are used than the cache has room
for, then the next look-up that is not too late gives the value. Second: if the key is new and the
store makes an entry go, then all the other keys have been used since the last use of that entry's
key. -/
theorem recent_kept_oldest_evicted (hpos : 1 ≤ maxSize) (timeToLive : Int) (now : Instant)
    (steps : List (CacheStep κ α)) (key : κ) (value : α) :
    let s : TimedCache κ α := (start maxSize timeToLive now).run steps
    let u := s.after (.put key value)
    (∀ mid, CacheStep.clear ∉ mid → (∀ v, CacheStep.put key v ∉ mid) →
      (∀ a b, mid = a ++ .get key :: b → (u.run a).now.Within timeToLive s.now) →
      (∀ b, b <:+: u.uses mid → key ∉ b → (b.toFinset.card : Int) < maxSize) →
      (u.run mid).now.Within timeToLive s.now →
      ∃ d, (u.run mid).get key = .ok (some value, d)) ∧
    (key ∉ s.cache.keys → ∀ e ∈ s.cache.entries, e.key ∉ u.cache.keys →
      ∃ a b, (start maxSize timeToLive now : TimedCache κ α).uses steps = a ++ e.key :: b ∧
        e.key ∉ b ∧ ∀ k ∈ s.cache.keys, k ≠ e.key → k ∈ b) := by
  intro s u
  refine ⟨fun mid hclear hput hget hfew hwithin => ?_, evicted_last_use steps⟩
  have hmem := retained steps key value hpos mid hclear hput hget hfew
  have hrun : u.run mid = (start maxSize timeToLive now).run (steps ++ .put key value :: mid) := by
    rw [run_append]
    rfl
  have hreg := regular_run maxSize timeToLive now (steps ++ .put key value :: mid)
  have hs := sound_run maxSize timeToLive now (steps ++ .put key value :: mid)
  rw [← hrun] at hreg hs
  exact get_of_mem hreg hs.nodup hmem rfl hwithin

/-- A cache with room for two: the third key takes the place of the first, and its value is found
five seconds later, after a look-up and one more store. -/
theorem recent_kept_oldest_evicted_sample :
    let zero := Instant.ofWhole 0 false ⟨0, 0⟩ (by decide +kernel)
    let five := Instant.ofWhole 5 false ⟨5629499534213120, -50⟩ (by decide +kernel)
    let steps : List (CacheStep String Nat) := [.put "b" 2, .put "c" 3]
    let mid : List (CacheStep String Nat) := [.setClock five, .get "a", .put "d" 4]
    let s : TimedCache String Nat := (start 2 10 zero).run steps
    let u := s.after (.put "a" 1)
    s.cache.keys = ["b", "c"] ∧ u.cache.keys = ["c", "a"] ∧ u.uses mid = ["a", "d"] ∧
      (∃ d, (u.run mid).get "a" = .ok (some 1, d)) ∧
      ∃ a b, (start 2 10 zero : TimedCache String Nat).uses steps = a ++ "b" :: b ∧ "b" ∉ b ∧
        ∀ k ∈ s.cache.keys, k ≠ "b" → k ∈ b := by
  intro zero five steps mid s u
  have hkeys : s.cache.keys = ["b", "c"] := by decide
  have hkeys' : u.cache.keys = ["c", "a"] := by decide
  have huses : u.uses mid = ["a", "d"] := by decide
  have hstart : s.now = zero := by simp only [s, steps, run, List.foldl, after_now]; rfl
  have hwithin : five.Within 10 s.now := by
    rw [hstart]
    exact (Instant.within_iff_of_whole rfl rfl 10).2 (by decide)
  have hnow : (u.run mid).now = five := by simp only [mid, run, List.foldl, after_now]
  obtain ⟨hkept, hevicted⟩ :=
    recent_kept_oldest_evicted (by decide : (1 : Int) ≤ 2) 10 zero steps "a" 1
  refine ⟨hkeys, hkeys', huses, hkept mid (by simp [mid]) (by simp [mid]) ?_ ?_
    (by rw [hnow]; exact hwithin), ?_⟩
  · -- the only look-up of the key comes behind the clock move
    intro a b hsplit
    rcases a with _ | ⟨x, _ | ⟨y, _ | ⟨z, a⟩⟩⟩ <;> simp [mid] at hsplit
    obtain ⟨rfl, -⟩ := hsplit
    exact hwithin
  · intro b hb hnot
    have hsub : b.toFinset ⊆ {"d"} := by
      intro k hk
      rw [List.mem_toFinset] at hk
      have hk' := hb.subset hk
      rw [huses] at hk'
      have hne : k ≠ "a" := fun h => hnot (h ▸ hk)
      simpa [hne] using hk'
    have hcard : b.toFinset.card ≤ 1 := Finset.card_le_card hsub
    omega
  · obtain ⟨e, he, hkey⟩ : ∃ e ∈ s.cache.entries, e.key = "b" := ⟨⟨"b", 2, .int 0⟩, by
      exact List.mem_cons_self, rfl⟩
    have hgone := hevicted (by rw [hkeys]; decide) e he (by rw [hkey, hkeys']; decide)
    rwa [hkey] at hgone

end CodeSurvey.TimedCache
