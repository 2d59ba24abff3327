import Mathlib.Data.List.Chain
import CodeSurvey.Proofs.Pattern.First

/-!
# A pattern and a wider one

Two patterns that look for the same constructs in one text, where one of them finds others as well. If both
go through the text from left to right, each from where it stopped, the wider one may pass over a place
where the other one would start. It does not if what it reads more leaves no such place inside.

* `readAt?_inside`: the places inside a text at which a pattern cannot start.
* `Narrows`: the wider pattern reads what the narrower one reads, and hides nothing from it.
* `Narrows.orElse`: a further alternative that hides nothing can be added.
* `Narrows.readings`, `Narrows.findAll`: what the wider pattern finds and keeps is what the narrower one
  finds.
-/

namespace CodeSurvey

/-- The places where a match starts and stops. -/
def Match.places (m : Match) : Nat × Nat :=
  (m.first, m.last)

theorem Cursor.lastIs_advance (p : Char → Bool) {c : Cursor} {i : Nat} (hi : i < c.after.length) :
    (c.advance (i + 1)).lastIs p = p c.after[i] := by
  rw [lastIs, advance_before, List.take_succ_eq_append_getElem hi, List.reverse_append]
  rfl

namespace Pattern

variable {limit k : Nat} {p q wide narrow : Pattern} {keep : Match → Bool} {c : Cursor} {m : Match}

/-! ## Quiet places -/

/-- If the leftmost reading is looked for and not found, there is none. -/
theorem quiet_of_seek?_eq_none (hlimit : c.after.length ≤ limit)
    (h : p.seek? limit limit c = none) : Quiet limit p c (c.after.length + 1) := by
  intro i
  induction i using Nat.strongRecOn with
  | ind i ih =>
    intro hi
    cases hread : p.readAt? limit (c.advance i) with
    | none => rfl
    | some m =>
      have hseek := seek?_of_first (n := limit) (by omega) (by omega) hread
        fun j hj => ih j hj (by omega)
      rw [h] at hseek
      cases hseek

/-- Quiet places can be skipped. -/
theorem seek?_of_quiet (hlimit : c.after.length ≤ limit) (hk : k ≤ c.after.length)
    (hquiet : Quiet limit p c k) :
    p.seek? limit limit c = p.seek? limit limit (c.advance k) := by
  have hlen : (c.advance k).after.length = c.after.length - k := by
    rw [Cursor.advance_after, List.length_drop]
  cases hseek : p.seek? limit limit (c.advance k) with
  | none =>
    have hrest := quiet_of_seek?_eq_none (by omega) hseek
    refine seek?_eq_none fun i hi => (hquiet.append hrest) i ?_
    omega
  | some m =>
    obtain ⟨j, -, hj, hread, hbefore⟩ := seek?_eq_some hseek
    rw [Cursor.advance_advance] at hread
    exact seek?_of_first (by omega) (by omega) hread (hquiet.append hbefore)

theorem readings_of_quiet (hlimit : c.after.length ≤ limit) (hk : k ≤ c.after.length)
    (hquiet : Quiet limit p c k) (n : Nat) :
    p.readings limit n c = p.readings limit n (c.advance k) := by
  cases n with
  | zero => rfl
  | succ n => rw [readings_succ, readings_succ, seek?_of_quiet hlimit hk hquiet]

/-- **No place inside a text is readable** if the pattern starts with certain characters only and not
inside a word, and each character of the text stands behind a word character or is none of them. -/
theorem readAt?_inside {starts : Char → Bool} {x y : Text} {i : Nat}
    (hread : ∀ {d m}, p.readAt? limit d = some m →
      d.lastIs Text.isWord = false ∧ d.nextIs starts = true)
    (hx : c.after = x ++ y)
    (hchain : x.IsChain fun a b => Text.isWord a = true ∨ starts b = false)
    (hi : 0 < i) (hix : i < x.length) : p.readAt? limit (c.advance i) = none := by
  obtain ⟨j, rfl⟩ : ∃ j, i = j + 1 := ⟨i - 1, by omega⟩
  have hlen : j + 1 < c.after.length := by
    rw [hx, List.length_append]
    omega
  have hlast : (c.advance (j + 1)).lastIs Text.isWord = Text.isWord x[j] := by
    rw [Cursor.lastIs_advance _ (by omega)]
    simp only [hx, List.getElem_append_left (show j < x.length by omega)]
  have hnext : (c.advance (j + 1)).nextIs starts = starts x[j + 1] := by
    rw [Cursor.nextIs, Cursor.advance_after, List.drop_eq_getElem_cons hlen]
    simp only [hx, List.getElem_append_left hix]
  cases h : p.readAt? limit (c.advance (j + 1)) with
  | none => rfl
  | some m =>
    obtain ⟨hword, hstart⟩ := hread h
    rw [hlast] at hword
    rw [hnext] at hstart
    rcases List.isChain_iff_getElem.1 hchain j hix with hchain | hchain
    · rw [hchain] at hword
      cases hword
    · rw [hchain] at hstart
      cases hstart

/-! ## Narrower patterns -/

/-- **A pattern finds what a narrower one finds, and more.** Where it reads something that is kept, the
narrower one reads as far; where the narrower one can be read, it reads something that is kept; and where it
reads something that is not, the narrower one does not start before the end of that. -/
structure Narrows (limit : Nat) (wide narrow : Pattern) (keep : Match → Bool) : Prop where
  kept : ∀ {c m}, wide.readAt? limit c = some m → keep m = true →
    ∃ m', narrow.readAt? limit c = some m' ∧ m'.stop = m.stop
  reads : ∀ {c m'}, narrow.readAt? limit c = some m' →
    ∃ m, wide.readAt? limit c = some m ∧ keep m = true
  dropped : ∀ {c m}, wide.readAt? limit c = some m → keep m = false →
    Quiet limit narrow c (m.last - m.first)

theorem readAt?_alt (limit : Nat) (p q : Pattern) (c : Cursor) :
    (p <|> q).readAt? limit c = (p.readAt? limit c).or (q.readAt? limit c) := by
  have houtcomes : (p <|> q).outcomes limit ⟨c, []⟩
      = p.outcomes limit ⟨c, []⟩ ++ q.outcomes limit ⟨c, []⟩ := rfl
  rw [readAt?_eq, readAt?_eq, readAt?_eq, houtcomes, List.head?_append]
  cases (p.outcomes limit ⟨c, []⟩).head? <;> rfl

/-- **An alternative can be added** if what it reads is not kept and the narrower pattern does not start
inside it. -/
theorem Narrows.orElse (h : Narrows limit wide narrow keep)
    (hq : ∀ {c m}, q.readAt? limit c = some m → keep m = false ∧
      ∀ i, 0 < i → i < m.last - m.first → narrow.readAt? limit (c.advance i) = none) :
    Narrows limit (wide <|> q) narrow keep := by
  refine ⟨?_, ?_, ?_⟩
  · intro c m hread hkeep
    rw [readAt?_alt, Option.or_eq_some_iff] at hread
    rcases hread with hread | ⟨-, hread⟩
    · exact h.kept hread hkeep
    · rw [(hq hread).1] at hkeep
      cases hkeep
  · intro c m' hread
    obtain ⟨m, hwide, hkeep⟩ := h.reads hread
    refine ⟨m, ?_, hkeep⟩
    rw [readAt?_alt, hwide, Option.some_or]
  · intro c m hread hkeep i hi
    rw [readAt?_alt, Option.or_eq_some_iff] at hread
    rcases hread with hread | ⟨hnone, hread⟩
    · exact h.dropped hread hkeep i hi
    · rcases Nat.eq_zero_or_pos i with rfl | hpos
      · -- where the narrower pattern starts, the alternative is not tried
        rw [Cursor.advance_zero]
        cases hnarrow : narrow.readAt? limit c with
        | none => rfl
        | some m' =>
          obtain ⟨m, hwide, -⟩ := h.reads hnarrow
          rw [hnone] at hwide
          cases hwide
      · exact (hq hread).2 i hpos hi

/-! ## Readings of a text -/

/-- **What the wider pattern reads and keeps is what the narrower one reads**, from any cursor on. -/
theorem Narrows.readings (h : Narrows limit wide narrow keep) (hwidth : 0 < wide.minWidth) :
    ∀ {n n' : Nat} {c : Cursor}, c.after.length ≤ limit → c.after.length < n → c.after.length < n' →
      ((wide.readings limit n c).filter keep).map Match.places
        = (narrow.readings limit n' c).map Match.places := by
  intro n n' c hlimit hn hn'
  -- on what is left of the text
  induction hlen : c.after.length using Nat.strongRecOn generalizing n n' c with
  | ind len ih =>
    subst hlen
    obtain ⟨n, rfl⟩ : ∃ k, n = k + 1 := ⟨n - 1, by omega⟩
    cases hseek : wide.seek? limit limit c with
    | none =>
      have hwide := quiet_of_seek?_eq_none hlimit hseek
      have hnarrow : Quiet limit narrow c (c.after.length + 1) := by
        intro i hi
        cases hread : narrow.readAt? limit (c.advance i) with
        | none => rfl
        | some m' =>
          obtain ⟨m, hm, -⟩ := h.reads hread
          rw [hwide i hi] at hm
          cases hm
      rw [readings_eq_nil hwide, readings_eq_nil hnarrow]
      rfl
    | some m =>
      obtain ⟨k, -, hk, hread, hbefore⟩ := seek?_eq_some hseek
      obtain ⟨w, hw, hroom, hfirst, hlast, hstop⟩ := readAt?_places hk hread
      have hlt : m.first < m.last := by omega
      have hquiet : Quiet limit narrow c k := by
        intro i hi
        cases hnarrow : narrow.readAt? limit (c.advance i) with
        | none => rfl
        | some m' =>
          obtain ⟨m, hm, -⟩ := h.reads hnarrow
          rw [hbefore i hi] at hm
          cases hm
      have hrest : m.stop.after.length = c.after.length - (k + w) := by
        rw [hstop, Cursor.advance_after, List.length_drop]
      have hwide : wide.readings limit (n + 1) c = m :: wide.readings limit n m.stop :=
        readings_of_first hlimit hk hbefore hread hlt
      have hnext : ∀ n' : Nat, m.stop.after.length < n' →
          ((wide.readings limit n m.stop).filter keep).map Match.places
            = (narrow.readings limit n' m.stop).map Match.places :=
        fun _ hn' => ih _ (by omega) (by omega) (by omega) hn' rfl
      rw [hwide, List.filter_cons]
      by_cases hkeep : keep m = true
      · obtain ⟨m', hread', hstop'⟩ := h.kept hread hkeep
        obtain ⟨n', rfl⟩ : ∃ k, n' = k + 1 := ⟨n' - 1, by omega⟩
        have hplaces : m'.places = m.places := by
          have hstart := (readAt?_fits hread).2
          have hstart' := (readAt?_fits hread').2
          rw [Match.places, Match.places, Match.first, Match.first, Match.last, Match.last, hstop',
            hstart', hstart]
        have hlt' : m'.first < m'.last := by
          rw [Match.places, Match.places, Prod.mk.injEq] at hplaces
          omega
        rw [if_pos hkeep, readings_of_first hlimit hk hquiet hread' hlt', List.map_cons,
          List.map_cons, hplaces, hstop', hnext n' (by omega)]
      · -- the narrower pattern is quiet up to where the wider one stops
        have hhidden := h.dropped hread (by simpa using hkeep)
        have hskip := readings_of_quiet hlimit (k := k + (m.last - m.first)) (by omega)
          (hquiet.append hhidden) n'
        rw [if_neg hkeep, hskip, show k + (m.last - m.first) = k + w by omega, ← hstop,
          hnext n' (by omega)]

/-- **What the wider pattern finds and keeps is what the narrower one finds.** -/
theorem Narrows.findAll {t : Text} (h : Narrows t.length wide narrow keep)
    (hwidth : 0 < wide.minWidth) :
    ((wide.findAll t).filter keep).map Match.places = (narrow.findAll t).map Match.places := by
  have hlen : (Cursor.ofPlace t 0).after.length = t.length := by simp
  exact h.readings hwidth (by omega) (by omega) (by omega)

end Pattern

end CodeSurvey
