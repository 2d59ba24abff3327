import CodeSurvey.Proofs.Pattern.Narrow
import CodeSurvey.Proofs.Pattern.Stops

/-!
# Patterns that are found wherever they can be read

A search goes on where the last match stopped, and passes over the places inside the match. If the pattern cannot be
read at any of them, nothing is lost: the matches of a text are its readings at all places, from left to right. They
can then be told place by place, and counted stretch by stretch. If the pattern can be read at every place, no place is
passed over between two matches either.

* `Apart`: no reading starts inside another one.
* `stretch`: the readings at the next places. `stretch_add`: those of two stretches.
* `readings_eq_stretch`, `findAll_eq_stretch`: a pattern whose readings are apart is found wherever it can be read.
* `mem_findAll_iff`: the matches of such a pattern, place by place.
* `flatten_findAll`: a pattern that can be read at every place leaves nothing out.
-/

namespace CodeSurvey.Pattern

variable {limit k j n : Nat} {p : Pattern} {c : Cursor} {m : Match} {t : Text}

/-- **No reading of the pattern starts inside another one.** -/
def Apart (limit : Nat) (p : Pattern) : Prop :=
  ∀ {c m}, p.readAt? limit c = some m → ∀ i, 0 < i → i < m.last - m.first →
    p.readAt? limit (c.advance i) = none

/-- The readings that start at the next `k` places. -/
def stretch (limit : Nat) (p : Pattern) (c : Cursor) (k : Nat) : List Match :=
  (List.range k).filterMap fun i => p.readAt? limit (c.advance i)

/-- The readings of two stretches, one behind the other. -/
theorem stretch_add (limit : Nat) (p : Pattern) (c : Cursor) (k j : Nat) :
    p.stretch limit c (k + j) = p.stretch limit c k ++ p.stretch limit (c.advance k) j := by
  unfold stretch
  rw [List.range_add, List.filterMap_append, List.filterMap_map]
  congr 1
  apply List.filterMap_congr
  intro i _
  rw [Function.comp_apply, Cursor.advance_advance]

theorem stretch_of_quiet (h : Quiet limit p c k) : p.stretch limit c k = [] := by
  unfold stretch
  rw [List.filterMap_eq_nil_iff]
  intro i hi
  exact h i (List.mem_range.1 hi)

theorem stretch_one (limit : Nat) (p : Pattern) (c : Cursor) :
    p.stretch limit c 1 = (p.readAt? limit c).toList := by
  unfold stretch
  rw [List.range_one, List.filterMap_cons, Cursor.advance_zero]
  cases p.readAt? limit c <;> rfl

theorem isSome_readAt?_iff : (p.readAt? limit c).isSome = true ↔ ∃ s, s ∈ p.outcomes limit ⟨c, []⟩ := by
  rw [readAt?_eq, Option.isSome_map, List.isSome_head?]
  constructor
  · intro hne
    exact List.exists_mem_of_ne_nil _ hne
  · rintro ⟨s, hs⟩
    exact List.ne_nil_of_mem hs

/-- A pattern that can be read in one way only, under a condition. -/
theorem readAt?_eq_some_iff {P : Prop} {u : Reading} (h : ∀ s, s ∈ p.outcomes limit ⟨c, []⟩ ↔ P ∧ s = u) :
    p.readAt? limit c = some m ↔ P ∧ m = ⟨c, u.cursor, u.captures⟩ := by
  rw [readAt?_eq, Option.map_eq_some_iff]
  constructor
  · rintro ⟨s, hs, rfl⟩
    obtain ⟨hP, rfl⟩ := (h s).1 (List.mem_of_mem_head? hs)
    exact ⟨hP, rfl⟩
  · rintro ⟨hP, rfl⟩
    obtain ⟨s, l, hl⟩ := List.exists_cons_of_ne_nil (List.ne_nil_of_mem ((h u).2 ⟨hP, rfl⟩))
    obtain ⟨-, rfl⟩ := (h s).1 (hl ▸ List.mem_cons_self)
    exact ⟨s, by rw [hl]; rfl, rfl⟩

/-- **From any cursor on, the matches are the readings at all places.** -/
theorem readings_eq_stretch (hapart : Apart limit p) (hwidth : 0 < p.minWidth) :
    ∀ {n : Nat} {c : Cursor}, c.after.length ≤ limit → c.after.length < n →
      p.readings limit n c = p.stretch limit c (c.after.length + 1) := by
  intro n c hlimit hn
  -- on what is left of the text
  induction hlen : c.after.length using Nat.strongRecOn generalizing n c with
  | ind len ih =>
    subst hlen
    cases hseek : p.seek? limit limit c with
    | none =>
      have hquiet := quiet_of_seek?_eq_none hlimit hseek
      rw [readings_eq_nil hquiet, stretch_of_quiet hquiet]
    | some m =>
      obtain ⟨k, -, hk, hread, hbefore⟩ := seek?_eq_some hseek
      obtain ⟨w, hw, hroom, hfirst, hlast, hstop⟩ := readAt?_places hk hread
      have hinside : Quiet limit p (c.advance (k + 1)) (w - 1) := by
        intro i hi
        have := hapart hread (i + 1) (by omega) (by omega)
        rwa [Cursor.advance_advance, show k + (i + 1) = k + 1 + i by omega, ← Cursor.advance_advance] at this
      have hrest : m.stop.after.length = c.after.length - (k + w) := by
        rw [hstop, Cursor.advance_after, List.length_drop]
      -- the places in front of the match, its own, those inside it, and those behind
      have hplaces : c.after.length + 1 = k + (1 + (w - 1 + (m.stop.after.length + 1))) := by omega
      have hhead : p.stretch limit (c.advance k) 1 = [m] := by
        rw [stretch_one, hread]
        rfl
      have hstretch : p.stretch limit c (c.after.length + 1) = m :: p.stretch limit m.stop (m.stop.after.length + 1) := by
        rw [hplaces, stretch_add, stretch_add limit p (c.advance k), hhead, Cursor.advance_advance,
          stretch_add limit p (c.advance (k + 1)), stretch_of_quiet hbefore, stretch_of_quiet hinside,
          Cursor.advance_advance, show k + 1 + (w - 1) = k + w by omega, ← hstop]
        rfl
      obtain ⟨n, rfl⟩ : ∃ n', n = n' + 1 := ⟨n - 1, by omega⟩
      rw [readings_of_first hlimit hk hbefore hread (by omega), hstretch, ih _ (by omega) (by omega) (by omega) rfl]

/-- **A pattern whose readings are apart is found wherever it can be read.** -/
theorem findAll_eq_stretch (hapart : Apart t.length p) (hwidth : 0 < p.minWidth) :
    p.findAll t = p.stretch t.length (Cursor.ofPlace t 0) (t.length + 1) := by
  have hlen : (Cursor.ofPlace t 0).after.length = t.length := by simp
  rw [findAll, readings_eq_stretch hapart hwidth (by omega) (by omega), hlen]

theorem mem_findAll_iff (hapart : Apart t.length p) (hwidth : 0 < p.minWidth) : m ∈ p.findAll t ↔
    ∃ i ≤ t.length, p.readAt? t.length (Cursor.ofPlace t i) = some m := by
  simp only [findAll_eq_stretch hapart hwidth, stretch, List.mem_filterMap, List.mem_range, Nat.lt_succ_iff,
    Cursor.ofPlace_advance, Nat.zero_add]

/-- Such a pattern is counted place by place. -/
theorem count_eq_countP (hapart : Apart t.length p) (hwidth : 0 < p.minWidth) : p.count t =
    (List.range (t.length + 1)).countP fun i => (p.readAt? t.length (Cursor.ofPlace t i)).isSome := by
  rw [count, findAll_eq_stretch hapart hwidth, stretch, List.length_filterMap_eq_countP]
  simp only [Cursor.ofPlace_advance, Nat.zero_add]

/-! ## No gaps -/

/-- **A pattern that can be read at every place leaves nothing out**: each match starts where the one before has
stopped. -/
theorem flatten_readings (hwidth : 0 < p.minWidth) : ∀ {n : Nat} {c : Cursor}, c.after.length ≤ limit →
    c.after.length < n → (∀ i < c.after.length, (p.readAt? limit (c.advance i)).isSome = true) →
      ((p.readings limit n c).map Match.text).flatten = c.after := by
  intro n
  induction n with
  | zero =>
    intro c _ hn
    omega
  | succ n ih =>
    intro c hlimit hn hread
    rcases Nat.eq_zero_or_pos c.after.length with hend | hpos
    · -- at the end of the text there is no room for a match
      have hquiet : Quiet limit p c (c.after.length + 1) := by
        intro i hi
        rw [Option.eq_none_iff_forall_ne_some]
        intro m hm
        obtain ⟨w, hw, hroom, -⟩ := readAt?_places (by omega) hm
        omega
      rw [readings_eq_nil hquiet, List.length_eq_zero_iff.1 hend]
      rfl
    · obtain ⟨m, hm⟩ := Option.isSome_iff_exists.1 (hread 0 hpos)
      obtain ⟨w, hw, hroom, hfirst, hlast, hstop⟩ := readAt?_places (Nat.zero_le _) hm
      rw [Nat.zero_add] at hroom hlast hstop
      have hstart : m.start = c := by simpa using (readAt?_fits hm).2
      have htext : m.text = c.after.take w := by
        rw [Match.text, hstart, hlast, hfirst, Nat.add_zero, Nat.add_sub_cancel_left]
      have hleft : m.stop.after = c.after.drop w := by rw [hstop, Cursor.advance_after]
      have hlen : m.stop.after.length = c.after.length - w := by rw [hleft, List.length_drop]
      have hrest : ((p.readings limit n m.stop).map Match.text).flatten = m.stop.after := by
        apply ih (by omega) (by omega)
        intro i hi
        rw [hstop, Cursor.advance_advance]
        exact hread (w + i) (by omega)
      rw [readings_of_first hlimit (Nat.zero_le _) (fun i hi => by omega) hm (by omega), List.map_cons,
        List.flatten_cons, hrest, htext, hleft, List.take_append_drop]

theorem flatten_findAll (hwidth : 0 < p.minWidth)
    (h : ∀ i < t.length, (p.readAt? t.length (Cursor.ofPlace t i)).isSome = true) :
    ((p.findAll t).map Match.text).flatten = t := by
  have hlen : (Cursor.ofPlace t 0).after.length = t.length := by simp
  rw [findAll, flatten_readings hwidth (by omega) (by omega)]
  · simp
  · intro i hi
    rw [Cursor.ofPlace_advance, Nat.zero_add]
    exact h i (by omega)

end CodeSurvey.Pattern
