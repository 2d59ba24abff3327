import Mathlib.Data.List.Forall2
import CodeSurvey.Proofs.Pattern.Settle

/-!
# What is found with one more gap

A search goes through a text and through the text with one more gap. Where readings agree, so do the matches: both
searches find as many, at the same places, and their groups hold the same texts, up to the gap.

* `Text.Spread`: a text, or the text with one more gap.
* `Widening.Pairs`: matches at the same place of the two texts. `Pairs.rel_group?`: what their groups hold.
* `rel_readAt?`, `law_readAt?`: readings of a pattern that settles.
* `forall₂_findAll`: matches of a pattern that cannot be read at the seam.
* `forall₂_findAll_behind`: matches of a pattern that cannot be read behind the gap.
-/

namespace CodeSurvey

/-- The first text is the second one, or the second one with one more gap. -/
def Text.Spread (x y : Text) : Prop :=
  x = y ∨ ∃ w : Widening, x = w.wide ∧ y = w.narrow

namespace Widening

variable {w : Widening} {d c d' c' : Cursor} {m m' : Match}

/-- The text between two places, with the gap and without it. -/
theorem spread_between (h : w.Near d c) (h' : w.Near d' c') :
    Text.Spread (d.after.take (d'.place - d.place)) (c.after.take (c'.place - c.place)) := by
  rw [d.place_eq, c.place_eq, d'.place_eq, c'.place_eq]
  rcases h.cases with ⟨x, y, hfront, hdb, hda, hcb, hca⟩ | ⟨x, y, hback, hdb, hda, hcb, hca⟩
  · rcases h'.cases with ⟨x', y', hfront', hdb', -, hcb', -⟩ | ⟨x', y', hback', hdb', -, hcb', -⟩
    · -- the gap comes behind both places
      have hle : x'.length - x.length ≤ y.length := by
        have hlen := congrArg List.length (hfront.symm.trans hfront')
        simp only [List.length_append, List.length_reverse] at hlen
        omega
      rw [hda, hca, hdb, hcb, hdb', hcb', List.take_append_of_le_length hle, List.take_append_of_le_length hle]
      exact Or.inl rfl
    · -- the gap stands between the two places
      have hlen : w.front.length = x.length + y.length := by
        rw [hfront, List.length_append, List.length_reverse]
      have hwide : d'.before.length - d.before.length = (y ++ w.gap :: x'.reverse).length := by
        simp only [hdb, hdb', List.length_append, List.length_cons, List.length_reverse]
        omega
      have hnarrow : c'.before.length - c.before.length = (y ++ x'.reverse).length := by
        simp only [hcb, hcb', List.length_append, List.length_reverse]
        omega
      refine Or.inr ⟨⟨y, w.gap, x'.reverse, w.isGap_gap, w.isBreak_suffix ⟨x.reverse, hfront.symm⟩⟩, ?_, ?_⟩
      · rw [hwide, hda, hback', ← List.cons_append, ← List.append_assoc, List.take_left]
        rfl
      · rw [hnarrow, hca, hback', ← List.append_assoc, List.take_left]
        rfl
  · rcases h'.cases with ⟨x', y', hfront', hdb', -, hcb', -⟩ | ⟨x', y', hback', hdb', -, hcb', -⟩
    · -- the second place comes first
      have hlen : w.front.length = x'.length + y'.length := by
        rw [hfront', List.length_append, List.length_reverse]
      have hwide : d'.before.length - d.before.length = 0 := by
        simp only [hdb, hdb', List.length_append, List.length_cons, List.length_reverse]
        omega
      have hnarrow : c'.before.length - c.before.length = 0 := by
        simp only [hcb, hcb', List.length_append, List.length_reverse]
        omega
      rw [hwide, hnarrow]
      exact Or.inl rfl
    · have hsame : d'.before.length - d.before.length = c'.before.length - c.before.length := by
        simp only [hdb, hdb', hcb, hcb', List.length_append, List.length_cons]
        omega
      rw [hsame, hda, hca]
      exact Or.inl rfl

/-- Matches at the same place of the two texts, with the same groups. -/
structure Pairs (w : Widening) (m' m : Match) : Prop where
  start : w.Near m'.start m.start
  stop : w.Near m'.stop m.stop
  captures : w.Keeps m'.captures m.captures

/-- The groups of two such matches hold the same texts, up to the gap. -/
theorem Pairs.rel_group? (h : w.Pairs m' m) (role : String) :
    Option.Rel Text.Spread (m'.group? role) (m.group? role) := by
  have hcaptures := h.captures
  unfold Match.group? Match.capture?
  generalize m'.captures = l' at hcaptures
  generalize m.captures = l at hcaptures
  induction hcaptures with
  | nil => exact .none
  | @cons e f l' l hpair _ ih =>
    obtain ⟨hlabel, hstart, hstop⟩ := hpair
    rw [List.find?_cons, List.find?_cons, hlabel]
    by_cases hrole : f.label.role = role
    · rw [decide_eq_true hrole]
      exact .some (spread_between hstart hstop)
    · rw [decide_eq_false hrole]
      exact ih

/-- Both texts start at the same place. -/
theorem near_start (w : Widening) : w.Near (Cursor.ofPlace w.wide 0) (Cursor.ofPlace w.narrow 0) := by
  by_cases hfront : w.front = []
  · refine Or.inr ⟨?_, ?_, ?_, ?_⟩ <;> simp [wide, narrow, hfront]
  · refine Or.inl (.inFront [] w.front hfront ?_ ?_ ?_ ?_ ?_) <;> simp [wide, narrow]

end Widening

namespace Pattern

variable {w : Widening} {limit limit' n n' : Nat} {p : Pattern} {d c : Cursor} {known : Known}

/-- What is read agrees with itself, from the same place. -/
theorem agree_match (h : w.Near d c) : Agree w w.Pairs .even
    (fun r => some ⟨d, r.cursor, r.captures⟩) (fun r => some ⟨c, r.cursor, r.captures⟩) :=
  ⟨fun hlies hkeeps => .some ⟨h, Or.inl hlies, hkeeps⟩, fun hmeets hkeeps => .some ⟨h, Or.inr hmeets, hkeeps⟩⟩

/-- **A pattern that settles is read at the same places, apart from the seam.** -/
theorem rel_readAt? (hlimit' : w.wide.length ≤ limit') (hlimit : w.narrow.length ≤ limit)
    (hsettle : p.settle .even = some known) (h : w.Lies d c) :
    Option.Rel w.Pairs (p.readAt? limit' d) (p.readAt? limit c) :=
  (settle_sound hlimit' hlimit p hsettle (agree_match (Or.inl h))).apart h .nil

theorem law_readAt? (hlimit' : w.wide.length ≤ limit') (hlimit : w.narrow.length ≤ limit)
    (hsettle : p.settle .even = some known) (h : w.Meets d c) :
    known.Law w.Pairs (p.readAt? limit' d) (p.readAt? limit c) :=
  (settle_sound hlimit' hlimit p hsettle (agree_match (Or.inr h))).seam h .nil

/-! ## Searches -/

theorem seek?_succ (limit : Nat) (p : Pattern) (n : Nat) (c : Cursor) : p.seek? limit (n + 1) c
    = (p.readAt? limit c).or (if c.after = [] then none else p.seek? limit n (c.advance 1)) := by
  rw [seek?, Cursor.next?_eq]
  cases p.readAt? limit c with
  | some m => rfl
  | none =>
    by_cases h : c.after = []
    · simp [h]
    · simp [h]

/-- Looking farther changes nothing at the end of the text. -/
theorem seek?_stable : ∀ {n : Nat} {c : Cursor}, c.after.length ≤ n →
    p.seek? limit n c = p.seek? limit (n + 1) c := by
  intro n
  induction n with
  | zero =>
    intro c hc
    rw [seek?_succ, if_pos (List.length_eq_zero_iff.1 (Nat.le_zero.1 hc)), Option.or_none, seek?]
  | succ n ih =>
    intro c hc
    rw [seek?_succ, seek?_succ limit p (n + 1)]
    by_cases h : c.after = []
    · rw [if_pos h, if_pos h]
    · rw [if_neg h, if_neg h, ih (by rw [Cursor.advance_after, List.length_drop]; omega)]

/-- **A search reads here, or goes on one place farther.** -/
theorem seek?_unroll (hc : c.after.length ≤ n) : p.seek? limit n c
    = (p.readAt? limit c).or (if c.after = [] then none else p.seek? limit n (c.advance 1)) :=
  (seek?_stable hc).trans (seek?_succ limit p n c)

/-- A search that finds something ends at a later place. -/
theorem seek?_moves {m : Match} (hwidth : 0 < p.minWidth) (h : p.seek? limit n c = some m) :
    m.first < m.last ∧ m.stop.after.length < c.after.length := by
  obtain ⟨k, -, hk, hread, -⟩ := seek?_eq_some h
  obtain ⟨width, hle, hroom, hfirst, hlast, hstop⟩ := readAt?_places hk hread
  rw [hstop, Cursor.advance_after, List.length_drop]
  omega

/-- **If searches agree from one match to the next, they find the same matches.** -/
theorem forall₂_readings {G : Cursor → Cursor → Prop} (hwidth : 0 < p.minWidth)
    (hseek : ∀ {d c : Cursor}, G d c → Option.Rel (fun m' m => w.Pairs m' m ∧ G m'.stop m.stop)
      (p.seek? limit' limit' d) (p.seek? limit limit c)) :
    ∀ {n' n : Nat} {d c : Cursor}, G d c → d.after.length < n' → c.after.length < n →
      List.Forall₂ w.Pairs (p.readings limit' n' d) (p.readings limit n c) := by
  intro n'
  induction n' with
  | zero =>
    intro n d c _ hn'
    omega
  | succ n' ih =>
    intro n d c hstart hn' hn
    obtain ⟨n, rfl⟩ : ∃ i, n = i + 1 := ⟨n - 1, by omega⟩
    rw [readings_succ, readings_succ]
    rcases Known.rel_cases (hseek hstart) with ⟨hd, hc⟩ | ⟨m', m, hd, hc, hpair, hstop⟩
    · rw [hd, hc]
      exact .nil
    · obtain ⟨hmoves', hshort'⟩ := seek?_moves hwidth hd
      obtain ⟨hmoves, hshort⟩ := seek?_moves hwidth hc
      simp only [hd, hc, if_pos hmoves', if_pos hmoves]
      exact .cons hpair (ih hstop (by omega) (by omega))

/-- A search from the same place, if nothing is read at the seam. -/
theorem rel_seek? (hlimit' : w.wide.length ≤ limit') (hlimit : w.narrow.length ≤ limit)
    (hapart : ∀ {d c : Cursor}, w.Lies d c → Option.Rel w.Pairs (p.readAt? limit' d) (p.readAt? limit c))
    (hseam : ∀ {d c : Cursor}, w.Meets d c → p.readAt? limit' d = none) (h : w.Near d c) :
    Option.Rel w.Pairs (p.seek? limit' limit' d) (p.seek? limit limit c) := by
  induction hlen : d.after.length using Nat.strongRecOn generalizing d c with
  | ind len ih =>
    subst hlen
    have hroom := h.length_le
    rw [seek?_unroll (by omega)]
    rcases h with hlies | hmeets
    · rw [seek?_unroll (n := limit) (by omega)]
      apply Known.rel_or (hapart hlies)
      by_cases hend : d.after = []
      · rw [if_pos hend, if_pos (hlies.after_eq_nil_iff.1 hend)]
        exact .none
      · rw [if_neg hend, if_neg fun h => hend (hlies.after_eq_nil_iff.2 h)]
        have hpos := List.length_pos_of_ne_nil hend
        have hshort : (d.advance 1).after.length < d.after.length := by
          rw [Cursor.advance_after, List.length_drop]
          omega
        exact ih _ hshort (hlies.near_advance hend) rfl
    · have hend : d.after ≠ [] := by rw [hmeets.after_wide]; simp
      have hshort : (d.advance 1).after.length < d.after.length := by simp [hmeets.after_wide]
      rw [hseam hmeets, if_neg hend]
      exact ih _ hshort (Or.inl hmeets.advance) rfl

/-- **A pattern that cannot be read at the seam has the same matches in both texts.** -/
theorem forall₂_findAll (hwidth : 0 < p.minWidth)
    (hapart : ∀ {d c : Cursor}, w.Lies d c →
      Option.Rel w.Pairs (p.readAt? w.wide.length d) (p.readAt? w.narrow.length c))
    (hseam : ∀ {d c : Cursor}, w.Meets d c → p.readAt? w.wide.length d = none) :
    List.Forall₂ w.Pairs (p.findAll w.wide) (p.findAll w.narrow) := by
  refine forall₂_readings (G := w.Near) hwidth ?_ w.near_start (by simp) (by simp)
  intro d c hnear
  rcases Known.rel_cases (rel_seek? (Nat.le_refl _) (Nat.le_refl _) hapart hseam hnear) with
    ⟨hd, hc⟩ | ⟨m', m, hd, hc, hpair⟩
  · rw [hd, hc]
    exact .none
  · rw [hd, hc]
    exact .some ⟨hpair, hpair.stop⟩

/-- A search from the same place, if nothing is read behind the gap. -/
theorem rel_seek?_behind (hlimit' : w.wide.length ≤ limit') (hlimit : w.narrow.length ≤ limit)
    (hapart : ∀ {d c : Cursor}, w.Lies d c → ¬ w.Ends d →
      Option.Rel w.Pairs (p.readAt? limit' d) (p.readAt? limit c))
    (hseam : ∀ {d c : Cursor}, w.Meets d c → Option.Rel w.Pairs (p.readAt? limit' d) (p.readAt? limit c))
    (hbehind : ∀ {d : Cursor}, w.Ends d → p.readAt? limit' d = none) (h : w.Near d c) (hd : ¬ w.Ends d) :
    Option.Rel w.Pairs (p.seek? limit' limit' d) (p.seek? limit limit c) := by
  induction hlen : d.after.length using Nat.strongRecOn generalizing d c with
  | ind len ih =>
    subst hlen
    have hroom := h.length_le
    -- from two cursors apart from the seam, the next places are reached
    have hnext : ∀ {e : Cursor}, w.Lies e c → e.after.length ≤ d.after.length → Option.Rel w.Pairs
        (if e.after = [] then none else p.seek? limit' limit' (e.advance 1))
        (if c.after = [] then none else p.seek? limit limit (c.advance 1)) := by
      intro e hlies hle
      by_cases hend : e.after = []
      · rw [if_pos hend, if_pos (hlies.after_eq_nil_iff.1 hend)]
        exact .none
      · rw [if_neg hend, if_neg fun h => hend (hlies.after_eq_nil_iff.2 h)]
        have hpos := List.length_pos_of_ne_nil hend
        have hshort : (e.advance 1).after.length < d.after.length := by
          rw [Cursor.advance_after, List.length_drop]
          omega
        exact ih _ hshort (hlies.near_advance hend) (hlies.not_ends_advance hend) rfl
    rw [seek?_unroll (by omega), seek?_unroll (n := limit) (by omega)]
    rcases h with hlies | hmeets
    · exact Known.rel_or (hapart hlies hd) (hnext hlies (Nat.le_refl _))
    · have hend : d.after ≠ [] := by rw [hmeets.after_wide]; simp
      have hshort : (d.advance 1).after.length < d.after.length := by simp [hmeets.after_wide]
      rw [if_neg hend, seek?_unroll (n := limit') (by omega), hbehind hmeets.ends_advance]
      exact Known.rel_or (hseam hmeets) (hnext hmeets.advance (by omega))

/-- **A pattern that cannot be read behind the gap has the same matches in both texts**, if none of them ends in a
gap. -/
theorem forall₂_findAll_behind (hwidth : 0 < p.minWidth)
    (hapart : ∀ {d c : Cursor}, w.Lies d c → ¬ w.Ends d →
      Option.Rel w.Pairs (p.readAt? w.wide.length d) (p.readAt? w.narrow.length c))
    (hseam : ∀ {d c : Cursor}, w.Meets d c →
      Option.Rel w.Pairs (p.readAt? w.wide.length d) (p.readAt? w.narrow.length c))
    (hbehind : ∀ {d : Cursor}, w.Ends d → p.readAt? w.wide.length d = none)
    (hstop : ∀ {d : Cursor} {m : Match}, p.readAt? w.wide.length d = some m → m.stop.lastIs isGap = false) :
    List.Forall₂ w.Pairs (p.findAll w.wide) (p.findAll w.narrow) := by
  refine forall₂_readings (G := fun d c => w.Near d c ∧ ¬ w.Ends d) hwidth ?_ ⟨w.near_start, ?_⟩ (by simp) (by simp)
  · rintro d c ⟨hnear, hends⟩
    rcases Known.rel_cases (rel_seek?_behind (Nat.le_refl _) (Nat.le_refl _) hapart hseam hbehind hnear hends) with
      ⟨hd, hc⟩ | ⟨m', m, hd, hc, hpair⟩
    · rw [hd, hc]
      exact .none
    · rw [hd, hc]
      obtain ⟨k, -, -, hread, -⟩ := seek?_eq_some hd
      refine .some ⟨hpair, hpair.stop, fun hends' => ?_⟩
      have hlast := hstop hread
      rw [hends'.lastIs_gap] at hlast
      exact absurd hlast (by simp)
  · simp [Widening.Ends]

/-- **A pattern that settles is found as often with one more gap.** -/
theorem count_widened (hwidth : 0 < p.minWidth) (hsettle : p.settle .even = some .quiet) (w : Widening) :
    p.count w.wide = p.count w.narrow :=
  (forall₂_findAll hwidth (rel_readAt? (Nat.le_refl _) (Nat.le_refl _) hsettle)
    (law_readAt? (Nat.le_refl _) (Nat.le_refl _) hsettle)).length_eq

end Pattern

end CodeSurvey
