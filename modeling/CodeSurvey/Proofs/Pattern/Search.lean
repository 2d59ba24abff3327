import Mathlib.Data.Nat.Find
import CodeSurvey.Proofs.Pattern.Width

/-!
# What a search finds

All readings of a pattern in a text, from left to right. Each one starts and stops at places of the
text, takes at least the width of the pattern, and starts where the one before it has stopped or
later.

* `Match.Fits`: a match is where it says it is, and so are its captures.
* `seek?_eq_some`, `seek?_eq_none`: the leftmost reading, and when there is none.
* `foundIn_iff`: a pattern is found if and only if it has an outcome at some place.
* `findAll_fits`, `findAll_pairwise`: every match of a text fits, and none overlaps another.
-/

namespace CodeSurvey

/-- **A match of a pattern in a text is where it says it is.** It takes at least the width of the
pattern, and each of its captures is the text of a group of the pattern inside it. -/
structure Match.Fits (m : Match) (p : Pattern) (t : Text) : Prop where
  start_eq : m.start = Cursor.ofPlace t m.first
  stop_eq : m.stop = Cursor.ofPlace t m.last
  width_le : m.first + p.minWidth ≤ m.last
  last_le : m.last ≤ t.length
  captures : ∀ c ∈ m.captures, ∃ q, (c.label, q) ∈ p.groups ∧
    c.start = Cursor.ofPlace t c.start.place ∧ c.stop = Cursor.ofPlace t c.stop.place ∧
    m.first ≤ c.start.place ∧ c.start.place + q.minWidth ≤ c.stop.place ∧ c.stop.place ≤ m.last

namespace Pattern

variable {limit : Nat} {p : Pattern} {c : Cursor} {m : Match}

/-- A reading at a cursor fits the text of the cursor. -/
theorem readAt?_fits (h : p.readAt? limit c = some m) : m.Fits p c.whole ∧ m.start = c := by
  rw [readAt?_eq, Option.map_eq_some_iff] at h
  obtain ⟨s, hs, rfl⟩ := h
  obtain ⟨k, hk⟩ := exists_moves p _ _ (List.mem_of_mem_head? hs)
  have hplace : ∀ i, i ≤ k → (c.advance i).place = c.place + i := fun i hi =>
    c.advance_place (Nat.le_trans hi hk.le_length)
  have hwhole : ∀ i, c.advance i = Cursor.ofPlace c.whole (c.advance i).place := fun i => by
    conv_lhs => rw [Cursor.eq_ofPlace (c.advance i), Cursor.advance_whole]
  have hcursor : s.cursor = c.advance k := hk.cursor
  refine ⟨⟨c.eq_ofPlace, ?_, ?_, ?_, ?_⟩, rfl⟩
  · simp only [Match.last, hcursor]
    exact hwhole k
  · simp only [Match.last, Match.first, hcursor, hplace k (Nat.le_refl k)]
    exact Nat.add_le_add_left hk.width_le _
  · simp only [Match.last, hcursor]
    rw [← Cursor.advance_whole c k]
    exact Cursor.place_le _
  · intro d hd
    rcases hk.captures d hd with hold | ⟨q, i, j, hq, hstart, hstop, hij, hj⟩
    · simp at hold
    · simp only [Match.last, Match.first, hcursor]
      simp only at hstart hstop
      rw [hstart, hstop, hplace i (by omega), hplace j hj, hplace k (Nat.le_refl k)]
      refine ⟨q, hq, ?_, ?_, by omega, by omega, by omega⟩
      · rw [← hplace i (by omega)]; exact hwhole i
      · rw [← hplace j hj]; exact hwhole j

/-- Where a reading starts and stops, seen from a cursor in front of it. -/
theorem readAt?_places {k : Nat} (hk : k ≤ c.after.length) (h : p.readAt? limit (c.advance k) = some m) :
    ∃ w, p.minWidth ≤ w ∧ k + w ≤ c.after.length ∧ m.first = c.place + k ∧
      m.last = c.place + (k + w) ∧ m.stop = c.advance (k + w) := by
  rw [readAt?_eq, Option.map_eq_some_iff] at h
  obtain ⟨s, hs, rfl⟩ := h
  obtain ⟨w, hw⟩ := exists_moves p _ _ (List.mem_of_mem_head? hs)
  have hroom := hw.le_length
  have hstop : s.cursor = c.advance (k + w) := by
    rw [hw.cursor, Cursor.advance_advance]
  simp only [Cursor.advance_after, List.length_drop] at hroom
  have hle : k + w ≤ c.after.length := by omega
  refine ⟨w, hw.width_le, hle, c.advance_place hk, ?_, hstop⟩
  rw [Match.last, hstop, c.advance_place hle]

/-- The leftmost reading: it starts `k` places on, and none starts before. -/
theorem seek?_eq_some : ∀ {n : Nat} {c : Cursor}, p.seek? limit n c = some m →
    ∃ k, k ≤ n ∧ k ≤ c.after.length ∧ p.readAt? limit (c.advance k) = some m ∧
      ∀ i, i < k → p.readAt? limit (c.advance i) = none := by
  intro n
  induction n with
  | zero =>
    intro c h
    exact ⟨0, Nat.le_refl 0, Nat.zero_le _, by simpa [seek?] using h, fun i hi => by omega⟩
  | succ n ih =>
    intro c h
    unfold seek? at h
    cases hread : p.readAt? limit c with
    | some m' =>
      rw [hread] at h
      exact ⟨0, Nat.zero_le _, Nat.zero_le _, by simpa [hread] using h, fun i hi => by omega⟩
    | none =>
      rw [hread] at h
      simp only [Cursor.next?_eq] at h
      split at h
      · simp at h
      · rename_i hafter
        obtain ⟨k, hkn, hlen, hk, hbefore⟩ := ih (by simpa using h)
        have hpos := List.length_pos_of_ne_nil hafter
        simp only [Cursor.advance_after, List.length_drop] at hlen
        refine ⟨k + 1, by omega, by omega, ?_, ?_⟩
        · rw [Cursor.advance_advance, Nat.add_comm] at hk; exact hk
        · intro i hi
          cases i with
          | zero => simpa using hread
          | succ i =>
            have := hbefore i (by omega)
            rw [Cursor.advance_advance, Nat.add_comm] at this
            exact this

/-- A reading `k` places on, with none before it, is the leftmost one. -/
theorem seek?_of_first : ∀ {k n : Nat} {c : Cursor}, k ≤ n → k ≤ c.after.length →
    p.readAt? limit (c.advance k) = some m →
    (∀ i, i < k → p.readAt? limit (c.advance i) = none) → p.seek? limit n c = some m := by
  intro k
  induction k with
  | zero =>
    intro n c _ _ hread _
    rw [Cursor.advance_zero] at hread
    cases n with
    | zero => exact hread
    | succ n => simp only [seek?, hread]
  | succ k ih =>
    intro n c hn hlen hread hbefore
    obtain ⟨n, rfl⟩ : ∃ n', n = n' + 1 := ⟨n - 1, by omega⟩
    have hfirst : p.readAt? limit c = none := by simpa using hbefore 0 (by omega)
    have hafter : c.after ≠ [] := fun h => by rw [h] at hlen; simp at hlen
    simp only [seek?, hfirst, Cursor.next?_eq, if_neg hafter, Option.bind_some]
    apply ih (by omega) (by simp only [Cursor.advance_after, List.length_drop]; omega)
    · rw [Cursor.advance_advance, Nat.add_comm 1 k]; exact hread
    · intro i hi
      rw [Cursor.advance_advance, Nat.add_comm 1 i]
      exact hbefore (i + 1) (by omega)

/-- There is no leftmost reading where there is none at all. -/
theorem seek?_eq_none {n : Nat}
    (h : ∀ i, i ≤ c.after.length → p.readAt? limit (c.advance i) = none) :
    p.seek? limit n c = none := by
  cases hseek : p.seek? limit n c with
  | none => rfl
  | some m =>
    obtain ⟨k, -, hlen, hk, -⟩ := seek?_eq_some hseek
    rw [h k hlen] at hk
    simp at hk

/-- **A pattern is found if and only if it has an outcome at some place of the text.** -/
theorem foundIn_iff (p : Pattern) (t : Text) : p.foundIn t = true ↔
    ∃ k ≤ t.length, ∃ s, s ∈ p.outcomes t.length ⟨Cursor.ofPlace t k, []⟩ := by
  have hplace : ∀ k, (Cursor.ofPlace t 0).advance k = Cursor.ofPlace t k := by
    intro k
    apply Cursor.eq_of_parts <;> simp
  unfold foundIn search? searchFrom?
  constructor
  · intro h
    obtain ⟨m, hm⟩ := Option.isSome_iff_exists.1 h
    obtain ⟨k, hk, -, hread, -⟩ := seek?_eq_some hm
    rw [hplace, readAt?_eq, Option.map_eq_some_iff] at hread
    obtain ⟨s, hs, -⟩ := hread
    exact ⟨k, hk, s, List.mem_of_mem_head? hs⟩
  · rintro ⟨k, hk, s, hs⟩
    have hsome : (p.readAt? t.length (Cursor.ofPlace t k)).isSome := by
      rw [readAt?_eq, Option.isSome_map, List.isSome_head?]
      exact List.ne_nil_of_mem hs
    -- the first place where it can be read is the one that the search comes to
    have hex : ∃ i, (p.readAt? t.length (Cursor.ofPlace t i)).isSome := ⟨k, hsome⟩
    obtain ⟨m, hm⟩ := Option.isSome_iff_exists.1 (Nat.find_spec hex)
    have hle : Nat.find hex ≤ t.length := Nat.le_trans (Nat.find_min' hex hsome) hk
    have hseek : p.seek? t.length t.length (Cursor.ofPlace t 0) = some m := by
      refine seek?_of_first hle (by simpa using hle) (by rw [hplace]; exact hm) ?_
      intro i hi
      rw [hplace]
      simpa using Nat.find_min hex hi
    rw [hseek]
    rfl

/-- The leftmost reading from a cursor fits its text, and starts there or later. -/
theorem seek?_fits {n : Nat} (h : p.seek? limit n c = some m) :
    m.Fits p c.whole ∧ c.place ≤ m.first := by
  obtain ⟨k, -, hlen, hk, -⟩ := seek?_eq_some h
  obtain ⟨hfits, hstart⟩ := readAt?_fits hk
  rw [Cursor.advance_whole] at hfits
  refine ⟨hfits, ?_⟩
  simp only [Match.first, hstart, c.advance_place hlen]
  omega

theorem readings_succ (limit : Nat) (p : Pattern) (n : Nat) (c : Cursor) :
    p.readings limit (n + 1) c = match p.seek? limit limit c with
      | none => []
      | some m =>
        if m.first < m.last then m :: p.readings limit n m.stop
        else if m.stop.after = [] then [m] else m :: p.readings limit n (m.stop.advance 1) := by
  rw [readings]
  cases p.seek? limit limit c with
  | none => rfl
  | some m =>
    simp only [Cursor.next?_eq]
    by_cases h : m.stop.after = [] <;> simp [h]

/-- What the readings from a cursor are: nothing, or a leftmost one and readings from a cursor of
the same text that is not before its end. -/
theorem readings_cases (limit : Nat) (p : Pattern) (n : Nat) (c : Cursor) :
    p.readings limit n c = [] ∨ ∃ m n' d, p.seek? limit limit c = some m ∧ m.last ≤ d.place ∧
      d.whole = c.whole ∧ n' < n ∧ p.readings limit n c = m :: p.readings limit n' d := by
  cases n with
  | zero => exact Or.inl rfl
  | succ n =>
    rw [readings_succ]
    cases hseek : p.seek? limit limit c with
    | none => exact Or.inl rfl
    | some m =>
      right
      have hwhole : m.stop.whole = c.whole := by
        rw [(seek?_fits hseek).1.stop_eq, Cursor.ofPlace_whole]
      simp only
      split
      · exact ⟨m, n, m.stop, rfl, Nat.le_refl _, hwhole, Nat.lt_succ_self n, rfl⟩
      · split
        · exact ⟨m, 0, m.stop, rfl, Nat.le_refl _, hwhole, Nat.succ_pos n, rfl⟩
        · rename_i hafter
          have hplace := m.stop.advance_place (List.length_pos_of_ne_nil hafter)
          refine ⟨m, n, m.stop.advance 1, rfl, ?_, ?_, Nat.lt_succ_self n, rfl⟩
          · rw [hplace]; exact Nat.le_succ _
          · rw [Cursor.advance_whole, hwhole]

/-- The readings from a cursor fit its text, start there or later, and none overlaps another. -/
theorem readings_fits : ∀ (n : Nat) (c : Cursor),
    (∀ m ∈ p.readings limit n c, m.Fits p c.whole ∧ c.place ≤ m.first) ∧
      (p.readings limit n c).Pairwise fun a b => a.last ≤ b.first := by
  intro n
  induction n using Nat.strongRecOn with
  | ind n ih =>
    intro c
    rcases readings_cases limit p n c with hnil | ⟨m, n', d, hseek, hle, hwhole,
      hn, hcons⟩
    · rw [hnil]; simp
    · obtain ⟨hfits, hfirst⟩ := seek?_fits hseek
      obtain ⟨ihfits, ihpair⟩ := ih n' hn d
      have hlast := hfits.width_le
      rw [hcons]
      constructor
      · intro a ha
        rcases List.mem_cons.1 ha with rfl | ha
        · exact ⟨hfits, hfirst⟩
        · obtain ⟨hafits, hafirst⟩ := ihfits a ha
          exact ⟨hwhole ▸ hafits, by omega⟩
      · rw [List.pairwise_cons]
        exact ⟨fun a ha => Nat.le_trans hle (ihfits a ha).2, ihpair⟩

/-- **Every match of a text fits.** -/
theorem findAll_fits {t : Text} (h : m ∈ p.findAll t) : m.Fits p t := by
  have := ((readings_fits _ _).1 m h).1
  rwa [Cursor.ofPlace_whole] at this

/-- **No match overlaps another**: each starts where the one before has stopped, or later. -/
theorem findAll_pairwise (p : Pattern) (t : Text) :
    (p.findAll t).Pairwise fun a b => a.last ≤ b.first :=
  (readings_fits _ _).2

end Pattern

end CodeSurvey
