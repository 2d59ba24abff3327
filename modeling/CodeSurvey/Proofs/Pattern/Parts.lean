import CodeSurvey.Proofs.Pattern.Narrow
import CodeSurvey.Proofs.Pattern.Stops

/-!
# Counting matches in the parts of a text

Which matches a search finds depends on nothing but how far the pattern reads at each place. So if a text is cut at a
character that no match holds, and the pattern reads on either side as it would read there alone, then the matches of
the text are those of the two sides.

* `readings_enough`: how many matches are asked for does not matter, once it is enough.
* `widthAt`: how far a pattern reads. `countFrom`: the number of matches from a cursor on.
* `countFrom_cut`: the matches of a stretch, and those behind it.
* `count_append_cons`: the matches on both sides of a character.
-/

namespace CodeSurvey.Pattern

variable {limit limit' k n n' : Nat} {p : Pattern} {c d : Cursor} {m : Match} {u v : Text} {ch : Char}

/-! ## From a cursor on -/

/-- **Asking for more matches than there is room for gives no more.** -/
theorem readings_enough (hwidth : 0 < p.minWidth) (hlimit : c.after.length ≤ limit) (hn : c.after.length < n)
    (hn' : c.after.length < n') : p.readings limit n c = p.readings limit n' c := by
  -- on what is left of the text
  induction hlen : c.after.length using Nat.strongRecOn generalizing n n' c with
  | ind len ih =>
    subst hlen
    cases hseek : p.seek? limit limit c with
    | none =>
      have hquiet := quiet_of_seek?_eq_none hlimit hseek
      rw [readings_eq_nil hquiet, readings_eq_nil hquiet]
    | some m =>
      obtain ⟨k, -, hk, hread, hbefore⟩ := seek?_eq_some hseek
      obtain ⟨w, hw, hroom, hfirst, hlast, hstop⟩ := readAt?_places hk hread
      have hrest : m.stop.after.length = c.after.length - (k + w) := by
        rw [hstop, Cursor.advance_after, List.length_drop]
      obtain ⟨n, rfl⟩ : ∃ i, n = i + 1 := ⟨n - 1, by omega⟩
      obtain ⟨n', rfl⟩ : ∃ i, n' = i + 1 := ⟨n' - 1, by omega⟩
      have hnext : p.readings limit n m.stop = p.readings limit n' m.stop :=
        ih _ (by omega) (by omega) (by omega) (by omega) rfl
      rw [readings_of_first hlimit hk hbefore hread (by omega), readings_of_first hlimit hk hbefore hread (by omega),
        hnext]

/-- The number of matches from a cursor on. -/
def countFrom (limit : Nat) (p : Pattern) (c : Cursor) : Nat :=
  (p.readings limit (c.after.length + 1) c).length

theorem count_eq_countFrom (p : Pattern) (t : Text) :
    p.count t = p.countFrom t.length (Cursor.ofPlace t 0) := by
  simp [count, findAll, countFrom]

theorem countFrom_of_quiet (hwidth : 0 < p.minWidth) (hlimit : c.after.length ≤ limit) (hk : k ≤ c.after.length)
    (hquiet : Quiet limit p c k) : p.countFrom limit c = p.countFrom limit (c.advance k) := by
  have hlen : (c.advance k).after.length = c.after.length - k := by
    rw [Cursor.advance_after, List.length_drop]
  rw [countFrom, countFrom, readings_of_quiet hlimit hk hquiet,
    readings_enough hwidth (by omega) (by omega) (Nat.lt_succ_self _)]

theorem countFrom_of_first (hwidth : 0 < p.minWidth) (hlimit : c.after.length ≤ limit) (hk : k ≤ c.after.length)
    (hquiet : Quiet limit p c k) (hread : p.readAt? limit (c.advance k) = some m) :
    p.countFrom limit c = p.countFrom limit m.stop + 1 := by
  obtain ⟨w, hw, hroom, hfirst, hlast, hstop⟩ := readAt?_places hk hread
  have hrest : m.stop.after.length = c.after.length - (k + w) := by
    rw [hstop, Cursor.advance_after, List.length_drop]
  rw [countFrom, countFrom, readings_of_first hlimit hk hquiet hread (by omega), List.length_cons,
    readings_enough hwidth (by omega) (by omega) (Nat.lt_succ_self _)]

theorem readAt?_of_end (hwidth : 0 < p.minWidth) (hend : c.after = []) : p.readAt? limit c = none := by
  cases hread : p.readAt? limit c with
  | none => rfl
  | some m =>
    rw [← c.advance_zero] at hread
    obtain ⟨w, hw, hroom, -⟩ := readAt?_places (Nat.zero_le _) hread
    rw [hend] at hroom
    simp only [List.length_nil] at hroom
    omega

theorem countFrom_of_end (hwidth : 0 < p.minWidth) (hend : c.after = []) : p.countFrom limit c = 0 := by
  have hquiet : Quiet limit p c (c.after.length + 1) := by
    intro i hi
    rw [hend] at hi
    obtain rfl : i = 0 := by simpa using hi
    rw [Cursor.advance_zero]
    exact readAt?_of_end hwidth hend
  rw [countFrom, readings_eq_nil hquiet, List.length_nil]

/-! ## Parts -/

/-- How far the pattern reads at a cursor, if it can be read there. -/
def widthAt (limit : Nat) (p : Pattern) (c : Cursor) : Option Nat :=
  (p.readAt? limit c).map fun m => m.last - m.first

theorem widthAt_eq_none_iff : p.widthAt limit c = none ↔ p.readAt? limit c = none :=
  Option.map_eq_none_iff

/-- **The matches of a stretch, and those behind it.** The pattern reads at `c` as it does at `d`, as long as there is
something left at `d`. -/
theorem countFrom_cut (limit limit' : Nat) (hwidth : 0 < p.minWidth) (hlimit : c.after.length ≤ limit)
    (hlimit' : d.after.length ≤ limit') (hle : d.after.length ≤ c.after.length)
    (halike : ∀ i < d.after.length, p.widthAt limit (c.advance i) = p.widthAt limit' (d.advance i)) :
    p.countFrom limit c = p.countFrom limit' d + p.countFrom limit (c.advance d.after.length) := by
  -- on what is left at `d`
  induction hlen : d.after.length using Nat.strongRecOn generalizing c d with
  | ind len ih =>
    subst hlen
    cases hseek : p.seek? limit' limit' d with
    | none =>
      have hquiet := quiet_of_seek?_eq_none hlimit' hseek
      have hquiet' : Quiet limit p c d.after.length := by
        intro i hi
        rw [← widthAt_eq_none_iff, halike i hi, widthAt_eq_none_iff]
        exact hquiet i (Nat.lt_succ_of_lt hi)
      have hzero : p.countFrom limit' d = 0 := by
        rw [countFrom, readings_eq_nil hquiet, List.length_nil]
      rw [countFrom_of_quiet hwidth hlimit hle hquiet', hzero, Nat.zero_add]
    | some m =>
      obtain ⟨k, -, hk, hread, hbefore⟩ := seek?_eq_some hseek
      obtain ⟨w, hw, hroom, hfirst, hlast, hstop⟩ := readAt?_places hk hread
      -- the same match at `c`
      obtain ⟨m', hread', hm'⟩ : ∃ m', p.readAt? limit (c.advance k) = some m' ∧ m'.last - m'.first = w := by
        have hsame := halike k (by omega)
        rw [widthAt, widthAt, hread, Option.map_some, Option.map_eq_some_iff] at hsame
        obtain ⟨m', hread', hm'⟩ := hsame
        exact ⟨m', hread', by omega⟩
      obtain ⟨w', hw', hroom', hfirst', hlast', hstop'⟩ := readAt?_places (by omega) hread'
      obtain rfl : w' = w := by omega
      have hbefore' : Quiet limit p c k := by
        intro i hi
        rw [← widthAt_eq_none_iff, halike i (by omega), widthAt_eq_none_iff]
        exact hbefore i hi
      have hrest : m.stop.after.length = d.after.length - (k + w') := by
        rw [hstop, Cursor.advance_after, List.length_drop]
      have hrest' : m'.stop.after.length = c.after.length - (k + w') := by
        rw [hstop', Cursor.advance_after, List.length_drop]
      have hbehind : m'.stop.advance m.stop.after.length = c.advance d.after.length := by
        rw [hstop', Cursor.advance_advance]
        congr 1
        omega
      have hnext := ih m.stop.after.length (by omega) (c := m'.stop) (d := m.stop) (by omega) (by omega) (by omega)
        (fun i hi => by
          rw [hstop, hstop', Cursor.advance_advance, Cursor.advance_advance]
          exact halike _ (by omega)) rfl
      rw [countFrom_of_first hwidth hlimit (by omega) hbefore' hread',
        countFrom_of_first hwidth hlimit' hk hbefore hread, hnext, hbehind]
      omega

/-- **The matches on both sides of a character**, which no match holds. -/
theorem count_append_cons (hwidth : 0 < p.minWidth)
    (hleft : ∀ i < u.length, p.widthAt (u ++ ch :: v).length (Cursor.ofPlace (u ++ ch :: v) i)
      = p.widthAt u.length (Cursor.ofPlace u i))
    (hnone : p.readAt? (u ++ ch :: v).length (Cursor.ofPlace (u ++ ch :: v) u.length) = none)
    (hright : ∀ i < v.length, p.widthAt (u ++ ch :: v).length (Cursor.ofPlace (u ++ ch :: v) (u.length + 1 + i))
      = p.widthAt v.length (Cursor.ofPlace v i)) :
    p.count (u ++ ch :: v) = p.count u + p.count v := by
  have hplaces : ∀ (t : Text) (i : Nat), (Cursor.ofPlace t i).after.length = t.length - i := by
    intro t i
    rw [Cursor.ofPlace_after, List.length_drop]
  have hlength : (u ++ ch :: v).length = u.length + 1 + v.length := by
    rw [List.length_append, List.length_cons]
    omega
  have hfront := countFrom_cut (u ++ ch :: v).length u.length
    (c := Cursor.ofPlace (u ++ ch :: v) 0) (d := Cursor.ofPlace u 0) hwidth (by rw [hplaces]; omega)
    (by rw [hplaces]; omega) (by rw [hplaces, hplaces]; omega) fun i hi => by
      rw [hplaces] at hi
      rw [Cursor.ofPlace_advance, Cursor.ofPlace_advance, Nat.zero_add]
      exact hleft i (by omega)
  have hbehind := countFrom_cut (u ++ ch :: v).length v.length
    (c := Cursor.ofPlace (u ++ ch :: v) (u.length + 1)) (d := Cursor.ofPlace v 0) hwidth (by rw [hplaces]; omega)
    (by rw [hplaces]; omega) (by rw [hplaces, hplaces]; omega) fun i hi => by
      rw [hplaces] at hi
      rw [Cursor.ofPlace_advance, Cursor.ofPlace_advance, Nat.zero_add]
      exact hright i (by omega)
  have hskip : p.countFrom (u ++ ch :: v).length (Cursor.ofPlace (u ++ ch :: v) u.length)
      = p.countFrom (u ++ ch :: v).length (Cursor.ofPlace (u ++ ch :: v) (u.length + 1)) := by
    rw [← Cursor.ofPlace_advance]
    refine countFrom_of_quiet hwidth (by rw [hplaces]; omega) (by rw [hplaces]; omega) ?_
    intro i hi
    obtain rfl : i = 0 := by omega
    rw [Cursor.advance_zero]
    exact hnone
  have hend : p.countFrom (u ++ ch :: v).length (Cursor.ofPlace (u ++ ch :: v) (u.length + 1 + v.length)) = 0 :=
    countFrom_of_end hwidth (by rw [Cursor.ofPlace_after, List.drop_eq_nil_iff]; omega)
  rw [hplaces, Cursor.ofPlace_advance, Nat.zero_add, Nat.sub_zero] at hfront
  rw [hplaces, Cursor.ofPlace_advance, Nat.sub_zero, hend] at hbehind
  rw [count_eq_countFrom, count_eq_countFrom, count_eq_countFrom, hfront, hskip, hbehind, Nat.add_zero]

end CodeSurvey.Pattern
