import Mathlib.Data.List.TakeWhile
import CodeSurvey.Proofs.Pattern.First

/-!
# Reading an excerpt of a text

A function is cut out of its text and its signature is read once more. What stands in front of the
cut and behind it is then gone, and with it what tests saw there. If a pattern tests nothing but
words and line starts next to the cursor, then its readings in an excerpt are those in the whole
text that stay inside, in the same order.

* `Reading.excerpt`: a reading, seen in the excerpt between two places.
* `reach`, `opensWith`: how far behind its end a pattern looks, and what it tests before it reads.
* `ReadsAlike`: the outcomes of a pattern in an excerpt are its outcomes in the text, shape by shape.
* `outcomes_excerpt`: so it is for local patterns.
* `First.excerpt`: so the outcome that is tried first stays the first.
-/

namespace CodeSurvey

namespace Cursor

/-- A cursor, seen in the excerpt of its text between two places. -/
def excerpt (first last : Nat) (c : Cursor) : Cursor :=
  ⟨c.place - first, c.before.take (c.place - first), c.after.take (last - c.place), by
    rw [List.length_take, ← c.place_eq]; omega⟩

variable {first last n : Nat} {c : Cursor}

/-- Inside the excerpt the cursor moves as it does in the text. -/
theorem excerpt_advance (hc : first ≤ c.place) (hn : n ≤ c.after.length)
    (hlast : c.place + n ≤ last) :
    (c.advance n).excerpt first last = (c.excerpt first last).advance n := by
  have hplace := c.advance_place hn
  have htake : (c.after.take (last - c.place)).take n = c.after.take n := by
    rw [List.take_take, Nat.min_eq_left (by omega)]
  apply eq_of_parts
  · show (c.advance n).before.take ((c.advance n).place - first) = _
    rw [hplace, advance_before, advance_before, excerpt]
    simp only
    rw [htake, List.take_append, List.take_of_length_le, List.length_reverse, List.length_take,
      Nat.min_eq_left hn]
    · congr 2
      omega
    · rw [List.length_reverse, List.length_take]
      omega
  · show (c.advance n).after.take (last - (c.advance n).place) = _
    rw [hplace, advance_after, advance_after, excerpt]
    simp only
    rw [List.drop_take]
    congr 1
    omega

/-- Where the excerpt starts, its cursor is the one at its start. -/
theorem excerpt_ofPlace {t : Text} (h : first ≤ last) (hlast : last ≤ t.length) :
    (ofPlace t first).excerpt first last = ofPlace (Text.slice t first last) 0 := by
  have hplace : (ofPlace t first).place = first := ofPlace_place (by omega)
  apply eq_of_parts
  · simp [excerpt, hplace]
  · simp [excerpt, hplace, Text.slice]

theorem lastIs_excerpt (p : Char → Bool) (h : first < c.place) :
    (c.excerpt first last).lastIs p = c.lastIs p := by
  obtain ⟨place, before, after, hp⟩ := c
  cases before with
  | nil => simp at hp; simp [hp] at h
  | cons x rest =>
    obtain ⟨d, hd⟩ : ∃ d, place - first = d + 1 := ⟨place - first - 1, by simp only at h; omega⟩
    simp [lastIs, excerpt, hd]

theorem nextIs_excerpt (p : Char → Bool) (h : c.place < last) :
    (c.excerpt first last).nextIs p = c.nextIs p := by
  obtain ⟨place, before, after, hp⟩ := c
  obtain ⟨d, hd⟩ : ∃ d, last - place = d + 1 := ⟨last - place - 1, by simp only at h; omega⟩
  cases after <;> simp [nextIs, excerpt, hd]

/-- A span stays where it is, or goes on behind an accepted character. -/
theorem reaches_step (accepts : Char → Bool) (c : Cursor) :
    c.reaches accepts
      = if c.nextIs accepts then (c.advance 1).reaches accepts ++ [c] else [c] := by
  obtain ⟨place, before, after, hp⟩ := c
  by_cases h : nextIs accepts ⟨place, before, after, hp⟩ = true
  · rw [if_pos h]
    cases after with
    | nil => simp [nextIs] at h
    | cons x rest => exact reaches_cons hp h (by simp [hp])
  · rw [if_neg h]
    exact reaches_of_not (by simpa using h)

theorem place_le_of_mem_reaches {accepts : Char → Bool} {d : Cursor}
    (h : d ∈ c.reaches accepts) : c.place ≤ d.place := by
  simp only [reaches, List.mem_map] at h
  obtain ⟨j, -, rfl⟩ := h
  exact Nat.le_add_right _ _

/-- There are so many characters in front of a place. -/
def hasRoom (last k : Nat) (c : Cursor) : Bool :=
  c.place + k ≤ last

theorem hasRoom_excerpt {k : Nat} (hlast : first ≤ last) (hc : first ≤ c.place) :
    (c.excerpt first last).hasRoom (last - first) k = c.hasRoom last k := by
  have hplace : (c.excerpt first last).place = c.place - first := rfl
  unfold hasRoom
  rw [hplace, decide_eq_decide]
  omega

/-- A span in the excerpt stops where it does in the text, if it stops inside. -/
theorem reaches_excerpt (k : Nat) (accepts : Char → Bool) (hlast : first ≤ last) :
    ∀ {c : Cursor}, first ≤ c.place →
      ((c.excerpt first last).reaches accepts).filter (hasRoom (last - first) k)
        = ((c.reaches accepts).filter (hasRoom last k)).map (excerpt first last) := by
  intro c hc
  -- on what is left of the text
  induction hlen : c.after.length using Nat.strongRecOn generalizing c with
  | ind n ih =>
    have hself : [c.excerpt first last].filter (hasRoom (last - first) k)
        = ([c].filter (hasRoom last k)).map (excerpt first last) := by
      by_cases h : c.hasRoom last k = true <;> simp [hasRoom_excerpt hlast hc, h]
    rw [reaches_step accepts c, reaches_step accepts (c.excerpt first last)]
    by_cases hnext : c.nextIs accepts = true
    · have hpos : 1 ≤ c.after.length := by
        cases hafter : c.after with
        | nil => simp [nextIs, hafter] at hnext
        | cons x rest => simp
      have hplace := c.advance_place hpos
      rw [if_pos hnext]
      rcases Nat.lt_or_ge c.place last with hin | hout
      · have hrest := ih _ (by simp only [advance_after, List.length_drop]; omega)
          (c := c.advance 1) (by omega) rfl
        rw [excerpt_advance hc hpos (by omega)] at hrest
        rw [nextIs_excerpt accepts hin, if_pos hnext, List.filter_append, List.filter_append,
          List.map_append, hrest, hself]
      · -- the excerpt ends here, and what the span reaches in the text lies behind it
        have hend : (c.excerpt first last).nextIs accepts = false := by
          simp [nextIs, excerpt, Nat.sub_eq_zero_of_le hout]
        have hnone : ((c.advance 1).reaches accepts).filter (hasRoom last k) = [] := by
          rw [List.filter_eq_nil_iff]
          intro d hd
          have := place_le_of_mem_reaches hd
          simp only [hasRoom, decide_eq_true_eq]
          omega
        rw [hend, List.filter_append, hnone, List.nil_append]
        exact hself
    · have hend : (c.excerpt first last).nextIs accepts ≠ true := by
        rcases Nat.lt_or_ge c.place last with hin | hout
        · rwa [nextIs_excerpt accepts hin]
        · simp [nextIs, excerpt, Nat.sub_eq_zero_of_le hout]
      rw [if_neg hnext, if_neg hend]
      exact hself

end Cursor

/-- A capture, seen in the excerpt between two places. -/
def Capture.excerpt (first last : Nat) (c : Capture) : Capture :=
  ⟨c.label, c.start.excerpt first last, c.stop.excerpt first last⟩

namespace Reading

/-- A reading, seen in the excerpt between two places. -/
def excerpt (first last : Nat) (r : Reading) : Reading :=
  ⟨r.cursor.excerpt first last, r.captures.map (Capture.excerpt first last)⟩

/-- There are so many characters in front of a place. -/
def hasRoom (last k : Nat) (r : Reading) : Bool :=
  r.cursor.hasRoom last k

/-- **The readings of a list that leave room for `k` characters are those of another list, seen in
the excerpt.** -/
def Seen (first last k : Nat) (inside whole : List Reading) : Prop :=
  inside.filter (hasRoom (last - first) k)
    = (whole.filter (hasRoom last k)).map (excerpt first last)

namespace Seen

variable {first last k j : Nat} {r : Reading} {l₁ l₂ l₁' l₂' : List Reading}

theorem singleton (hlast : first ≤ last) (hr : first ≤ r.cursor.place) :
    Seen first last k [r.excerpt first last] [r] := by
  have hroom : (r.excerpt first last).hasRoom (last - first) k = r.hasRoom last k :=
    Cursor.hasRoom_excerpt hlast hr
  unfold Seen
  by_cases h : r.hasRoom last k = true <;> simp [hroom, h]

theorem append (h : Seen first last k l₁ l₂) (h' : Seen first last k l₁' l₂') :
    Seen first last k (l₁ ++ l₁') (l₂ ++ l₂') := by
  unfold Seen at h h' ⊢
  rw [List.filter_append, List.filter_append, List.map_append, h, h']

/-- Where nothing leaves room there is nothing to see. -/
theorem of_no_room (h₁ : ∀ s ∈ l₁, last - first < s.cursor.place + k)
    (h₂ : ∀ s ∈ l₂, last < s.cursor.place + k) : Seen first last k l₁ l₂ := by
  have hnil : ∀ {n : Nat} {l : List Reading}, (∀ s ∈ l, n < s.cursor.place + k) →
      l.filter (hasRoom n k) = [] := by
    intro n l h
    rw [List.filter_eq_nil_iff]
    intro s hs
    have := h s hs
    simp only [hasRoom, Cursor.hasRoom, decide_eq_true_eq]
    omega
  unfold Seen
  rw [hnil h₁, hnil h₂]
  rfl

/-- Characters that are passed if they are the right ones. -/
theorem ite_advance {P P' : Prop} [Decidable P] [Decidable P'] {n : Nat} (hlast : first ≤ last)
    (hr : first ≤ r.cursor.place) (hlen : P → n ≤ r.cursor.after.length)
    (hin : r.cursor.place + n ≤ last → (P' ↔ P))
    (hout : last < r.cursor.place + n → P' → last < r.cursor.place) :
    Seen first last k
      (if P' then [⟨(r.excerpt first last).cursor.advance n, (r.excerpt first last).captures⟩]
        else [])
      (if P then [⟨r.cursor.advance n, r.captures⟩] else []) := by
  rcases Nat.lt_or_ge last (r.cursor.place + n) with hbeyond | hinside
  · refine of_no_room (fun s hs => ?_) fun s hs => ?_
    · split at hs
      · rename_i hP'
        rw [List.mem_singleton] at hs
        have hplace : r.cursor.place - first ≤ s.cursor.place := hs ▸ Nat.le_add_right _ _
        have := hout hbeyond hP'
        omega
      · simp at hs
    · split at hs
      · rename_i hP
        rw [List.mem_singleton] at hs
        rw [hs, r.cursor.advance_place (hlen hP)]
        omega
      · simp at hs
  · simp only [hin hinside]
    split
    · rename_i hP
      have hplace := r.cursor.advance_place (hlen hP)
      have hexcerpt : (⟨(r.excerpt first last).cursor.advance n, (r.excerpt first last).captures⟩
          : Reading) = Reading.excerpt first last ⟨r.cursor.advance n, r.captures⟩ := by
        unfold Reading.excerpt
        rw [Cursor.excerpt_advance hr (hlen hP) hinside]
      rw [hexcerpt]
      exact singleton hlast (by simp only; omega)
    · rfl

/-- A test that comes out alike where it leaves room. -/
theorem ite_test {b b' : Bool} (hlast : first ≤ last) (hr : first ≤ r.cursor.place)
    (hb : r.cursor.place + k ≤ last → b' = b) :
    Seen first last k (if b' then [r.excerpt first last] else []) (if b then [r] else []) := by
  rcases Nat.lt_or_ge last (r.cursor.place + k) with hbeyond | hinside
  · have hplace : (r.excerpt first last).cursor.place = r.cursor.place - first := rfl
    refine of_no_room (fun s hs => ?_) fun s hs => ?_
    · cases b' <;> simp at hs
      subst hs
      omega
    · cases b <;> simp at hs
      subst hs
      exact hbeyond
  · rw [hb hinside]
    cases b
    · rfl
    · exact singleton hlast hr

theorem flatMap_filter {α β : Type} {p : α → Bool} {f : α → List β} {l : List α}
    (h : ∀ a ∈ l, p a = false → f a = []) : (l.filter p).flatMap f = l.flatMap f := by
  induction l with
  | nil => rfl
  | cons a l ih =>
    have ih := ih fun b hb => h b (List.mem_cons_of_mem _ hb)
    by_cases ha : p a = true
    · rw [List.filter_cons_of_pos ha, List.flatMap_cons, List.flatMap_cons, ih]
    · have hnil := h a List.mem_cons_self (by simpa using ha)
      rw [List.filter_cons_of_neg ha, List.flatMap_cons, ih, hnil, List.nil_append]

/-- One list of readings after another: those of the first that leave no room for `j` characters
lead to none that leave room for `k`. -/
theorem flatMap {f g : Reading → List Reading} (h : Seen first last j l₁ l₂)
    (hf : ∀ s, ∀ u ∈ f s, s.cursor.place + j ≤ u.cursor.place + k)
    (hg : ∀ s, ∀ u ∈ g s, s.cursor.place + j ≤ u.cursor.place + k)
    (hfg : ∀ s ∈ l₂, Seen first last k (f (s.excerpt first last)) (g s)) :
    Seen first last k (l₁.flatMap f) (l₂.flatMap g) := by
  have hdrop : ∀ {n : Nat} {e : Reading → List Reading} {l : List Reading},
      (∀ s, ∀ u ∈ e s, s.cursor.place + j ≤ u.cursor.place + k) →
      (l.filter (hasRoom n j)).flatMap (fun s => (e s).filter (hasRoom n k))
        = l.flatMap fun s => (e s).filter (hasRoom n k) := by
    intro n e l he
    refine flatMap_filter fun s _ hs => ?_
    rw [List.filter_eq_nil_iff]
    intro u hu
    have := he s u hu
    simp only [hasRoom, Cursor.hasRoom, decide_eq_false_iff_not, decide_eq_true_eq] at hs ⊢
    omega
  unfold Seen at h ⊢
  rw [List.filter_flatMap, List.filter_flatMap, ← hdrop hf, ← hdrop hg, h, List.flatMap_map,
    List.map_flatMap]
  refine List.flatMap_congr fun s hs => ?_
  exact hfg s (List.mem_of_mem_filter hs)

end Seen

end Reading

namespace Pattern

open Reading (Seen)

variable {first last k : Nat} {r s : Reading}

/-- How many characters behind its end a reading looks at. -/
def reach : Pattern → Nat
  | .edge => 1
  | .seq p q => max q.reach (p.reach - q.minWidth)
  | .alt p q => max p.reach q.reach
  | .many _ p => p.reach
  | .group _ p => p.reach
  | _ => 0

/-- Whether a test of a kind may be made before any character is read. -/
def opensWith (test : Pattern → Bool) : Pattern → Bool
  | .seq p q => p.opensWith test || (p.minWidth == 0 && q.opensWith test)
  | .alt p q => p.opensWith test || q.opensWith test
  | .many _ p => p.opensWith test
  | .group _ p => p.opensWith test
  | p => test p

def isEdge : Pattern → Bool
  | .edge => true
  | _ => false

def isLineStart : Pattern → Bool
  | .lineStart => true
  | _ => false

/-- A pattern that tests only for words and line starts next to the cursor, and repeats nothing
empty. -/
def isLocal : Pattern → Bool
  | .seq p q => p.isLocal && q.isLocal
  | .alt p q => p.isLocal && q.isLocal
  | .many _ p => p.isLocal && 0 < p.minWidth
  | .group _ p => p.isLocal
  | .again _ | .ahead _ | .notAhead _ | .behind _ | .notBehind _ | .lineEnd | .textEnd => false
  | _ => true

/-- Where an excerpt starts, the tests that a pattern opens with come out as in the text. -/
structure OpensAlike (first : Nat) (p : Pattern) (c : Cursor) : Prop where
  edge : p.opensWith isEdge = true → c.place = first → c.lastIs Text.isWord = false
  lineStart : p.opensWith isLineStart = true → c.place = first → c.atLineStart = true

namespace OpensAlike

variable {p q : Pattern} {c : Cursor}

theorem altLeft (h : OpensAlike first (.alt p q) c) : OpensAlike first p c :=
  ⟨fun ht => h.edge (by simp [opensWith, ht]), fun ht => h.lineStart (by simp [opensWith, ht])⟩

theorem altRight (h : OpensAlike first (.alt p q) c) : OpensAlike first q c :=
  ⟨fun ht => h.edge (by simp [opensWith, ht]), fun ht => h.lineStart (by simp [opensWith, ht])⟩

theorem seqLeft (h : OpensAlike first (.seq p q) c) : OpensAlike first p c :=
  ⟨fun ht => h.edge (by simp [opensWith, ht]), fun ht => h.lineStart (by simp [opensWith, ht])⟩

/-- Behind the start of the excerpt there is nothing to compare. -/
theorem of_lt (h : first < c.place) : OpensAlike first p c :=
  ⟨fun _ hc => by omega, fun _ hc => by omega⟩

/-- The second shape opens the sequence only where the first has read nothing. -/
theorem seqRight {limit : Nat} (h : OpensAlike first (.seq p q) r.cursor)
    (hr : first ≤ r.cursor.place) (hs : s ∈ p.outcomes limit r) : OpensAlike first q s.cursor := by
  obtain ⟨j, hj⟩ := exists_moves p r s hs
  have hplace := r.cursor.advance_place hj.le_length
  have hwidth := hj.width_le
  rcases Nat.eq_zero_or_pos j with rfl | hpos
  · have hzero : (p.minWidth == 0) = true := by
      rw [beq_iff_eq]
      omega
    rw [hj.cursor, Cursor.advance_zero]
    exact ⟨fun ht => h.edge (by simp [opensWith, ht, hzero]),
      fun ht => h.lineStart (by simp [opensWith, ht, hzero])⟩
  · rw [hj.cursor]
    exact of_lt (by omega)

end OpensAlike

/-- The readings of a repetition that makes its step at least once. -/
def further (order : Order) (step : Reading → List Reading) : Nat → Reading → List Reading
  | 0, _ => []
  | n + 1, r => (step r).flatMap (repeated order step n)

theorem repeated_eq (order : Order) (step : Reading → List Reading) (n : Nat) (r : Reading) :
    repeated order step n r = match order with
      | .longest => further order step n r ++ [r]
      | .shortest => [r] ++ further order step n r := by
  cases n <;> cases order <;> rfl

theorem outcomes_one (limit : Nat) (accepts : Char → Bool) (r : Reading) :
    (one accepts).outcomes limit r = if r.cursor.nextIs accepts = true
      then [⟨r.cursor.advance 1, r.captures⟩] else [] := by
  rw [outcomes, Cursor.pass?_eq]
  split <;> rfl

theorem outcomes_text (limit : Nat) (chars : Text) (r : Reading) :
    (text chars).outcomes limit r = if chars <+: r.cursor.after
      then [⟨r.cursor.advance chars.length, r.captures⟩] else [] := by
  rw [outcomes, Cursor.passText?_eq]
  split <;> rfl

theorem place_of_mem_outcomes {limit : Nat} {p : Pattern} (hs : s ∈ p.outcomes limit r) :
    r.cursor.place + p.minWidth ≤ s.cursor.place := by
  obtain ⟨j, hj⟩ := exists_moves p r s hs
  have hplace := r.cursor.advance_place hj.le_length
  have hwidth := hj.width_le
  rw [hj.cursor]
  omega

theorem place_le_of_mem_repeated {order : Order} {step : Reading → List Reading}
    (hstep : ∀ r, ∀ s ∈ step r, r.cursor.place < s.cursor.place) :
    ∀ n r, ∀ s ∈ repeated order step n r, r.cursor.place ≤ s.cursor.place := by
  intro n
  induction n with
  | zero =>
    intro r s hs
    rw [repeated, List.mem_singleton] at hs
    rw [hs]
  | succ n ih =>
    intro r s hs
    rcases mem_repeated_succ hs with rfl | ⟨u, hu, hs⟩
    · exact Nat.le_refl _
    · exact Nat.le_trans (Nat.le_of_lt (hstep r u hu)) (ih u s hs)

theorem place_lt_of_mem_further {order : Order} {step : Reading → List Reading} {n : Nat}
    (hstep : ∀ r, ∀ s ∈ step r, r.cursor.place < s.cursor.place)
    (hs : s ∈ further order step n r) : r.cursor.place < s.cursor.place := by
  cases n with
  | zero => simp [further] at hs
  | succ n =>
    rw [further, List.mem_flatMap] at hs
    obtain ⟨u, hu, hs⟩ := hs
    exact Nat.lt_of_lt_of_le (hstep r u hu) (place_le_of_mem_repeated hstep n u s hs)

theorem seen_repeated {order : Order} {inside whole : Reading → List Reading} {n n' : Nat}
    (hlast : first ≤ last) (hr : first ≤ r.cursor.place)
    (h : Seen first last k (further order inside n' (r.excerpt first last))
      (further order whole n r)) :
    Seen first last k (repeated order inside n' (r.excerpt first last))
      (repeated order whole n r) := by
  rw [repeated_eq, repeated_eq]
  cases order with
  | longest => exact h.append (Seen.singleton hlast hr)
  | shortest => exact (Seen.singleton hlast hr).append h

/-- A repetition in the excerpt, from its step. -/
theorem repeated_excerpt {order : Order} {inside whole : Reading → List Reading}
    {P : Reading → Prop} (hlast : first ≤ last)
    (hinside : ∀ r, ∀ s ∈ inside r, r.cursor.place < s.cursor.place)
    (hwhole : ∀ r, ∀ s ∈ whole r, ∃ j, 0 < j ∧ j ≤ r.cursor.after.length ∧
      s.cursor = r.cursor.advance j)
    (hP : ∀ r, P r → first ≤ r.cursor.place ∧ ∀ s ∈ whole r, P s)
    (hstep : ∀ r, P r → Seen first last k (inside (r.excerpt first last)) (whole r)) :
    ∀ n n' r, P r → r.cursor.after.length ≤ n → last - r.cursor.place ≤ n' →
      Seen first last k (repeated order inside n' (r.excerpt first last))
        (repeated order whole n r) := by
  have hmoves : ∀ r, ∀ s ∈ whole r, r.cursor.place < s.cursor.place := by
    intro r s hs
    obtain ⟨j, hj, hlen, hs⟩ := hwhole r s hs
    rw [hs, r.cursor.advance_place hlen]
    omega
  have hbehind : ∀ n' s, ∀ u ∈ repeated order inside n' s,
      s.cursor.place + k ≤ u.cursor.place + k := fun n' s u hu =>
    Nat.add_le_add_right (place_le_of_mem_repeated hinside n' s u hu) k
  intro n
  induction n with
  | zero =>
    intro n' r hr hlen hlimit
    have hnil : whole r = [] := by
      rw [List.eq_nil_iff_forall_not_mem]
      intro s hs
      obtain ⟨j, hj, hlen', -⟩ := hwhole r s hs
      omega
    refine seen_repeated hlast (hP r hr).1 ?_
    cases n' with
    | zero => rfl
    | succ n' =>
      have h := (hstep r hr).flatMap (g := fun _ => []) (hbehind n') (by simp) (by simp [hnil])
      rwa [hnil] at h
  | succ n ih =>
    intro n' r hr hlen hlimit
    refine seen_repeated hlast (hP r hr).1 ?_
    cases n' with
    | zero =>
      -- the excerpt has ended
      refine Seen.of_no_room (by simp [further]) fun s hs => ?_
      have := place_lt_of_mem_further hmoves hs
      omega
    | succ n' =>
      refine (hstep r hr).flatMap (hbehind n') (fun s u hu => ?_) fun s hs => ?_
      · exact Nat.add_le_add_right (place_le_of_mem_repeated hmoves n s u hu) k
      · obtain ⟨j, hj, hlen', hcursor⟩ := hwhole r s hs
        have hplace := r.cursor.advance_place hlen'
        refine ih n' s ((hP r hr).2 s hs) ?_ ?_
        · rw [hcursor, Cursor.advance_after, List.length_drop]
          omega
        · rw [hcursor]
          omega

/-- **A pattern reads alike in an excerpt and in the text**: its outcomes in the excerpt are those in the
text, in the same order, as far as they leave room for what the pattern looks at behind them. -/
def ReadsAlike (first last : Nat) (p : Pattern) : Prop :=
  ∀ ⦃k limit limit' : Nat⦄ ⦃r : Reading⦄, p.reach ≤ k → OpensAlike first p r.cursor →
    first ≤ r.cursor.place → r.cursor.after.length ≤ limit → last - r.cursor.place ≤ limit' →
      Seen first last k (p.outcomes limit' (r.excerpt first last)) (p.outcomes limit r)

namespace ReadsAlike

variable {p q : Pattern}

theorem empty (hlast : first ≤ last) : ReadsAlike first last .empty := by
  intro k limit limit' r _ _ hr _ _
  exact Seen.singleton hlast hr

theorem one (hlast : first ≤ last) (accepts : Char → Bool) :
    ReadsAlike first last (.one accepts) := by
  intro k limit limit' r _ _ hr _ _
  rw [outcomes_one, outcomes_one]
  refine Seen.ite_advance hlast hr ?_ ?_ ?_
  · intro hnext
    cases hafter : r.cursor.after with
    | nil => simp [Cursor.nextIs, hafter] at hnext
    | cons x rest => simp
  · intro hin
    rw [Reading.excerpt, Cursor.nextIs_excerpt accepts (by omega)]
  · intro hout hnext
    simp [Reading.excerpt, Cursor.excerpt, Cursor.nextIs, Nat.sub_eq_zero_of_le
      (Nat.le_of_lt_succ hout)] at hnext

theorem text (hlast : first ≤ last) (chars : Text) : ReadsAlike first last (.text chars) := by
  intro k limit limit' r _ _ hr _ _
  have hpre : chars <+: (r.excerpt first last).cursor.after ↔
      chars <+: r.cursor.after ∧ chars.length ≤ last - r.cursor.place := List.prefix_take_iff
  rw [outcomes_text, outcomes_text]
  refine Seen.ite_advance hlast hr List.IsPrefix.length_le ?_ ?_
  · intro hin
    rw [hpre]
    exact and_iff_left (by omega)
  · intro hout h
    have := (hpre.1 h).2
    omega

/-- The first shape leaves room for the second one as well. -/
theorem seq (hp : ReadsAlike first last p) (hq : ReadsAlike first last q) :
    ReadsAlike first last (.seq p q) := by
  intro k limit limit' r hreach hopens hr hlimit hlimit'
  simp only [reach] at hreach
  have hseen := hp (k := k + q.minWidth) (by omega) hopens.seqLeft hr hlimit hlimit'
  refine hseen.flatMap (fun s u hu => ?_) (fun s u hu => ?_) fun s hs => ?_
  · have := place_of_mem_outcomes hu
    omega
  · have := place_of_mem_outcomes hu
    omega
  · obtain ⟨j, hj⟩ := exists_moves p r s hs
    have hplace := r.cursor.advance_place hj.le_length
    have hafter : s.cursor.after.length ≤ r.cursor.after.length := by
      rw [hj.cursor, Cursor.advance_after, List.length_drop]
      omega
    have hopens' := hopens.seqRight hr hs
    have hcursor := hj.cursor
    exact hq (by omega) hopens' (by rw [hcursor]; omega) (by omega) (by rw [hcursor]; omega)

theorem alt (hp : ReadsAlike first last p) (hq : ReadsAlike first last q) :
    ReadsAlike first last (.alt p q) := by
  intro k limit limit' r hreach hopens hr hlimit hlimit'
  simp only [reach] at hreach
  have hseen := hp (k := k) (by omega) hopens.altLeft hr hlimit hlimit'
  have hseen' := hq (k := k) (by omega) hopens.altRight hr hlimit hlimit'
  exact hseen.append hseen'

theorem span (hlast : first ≤ last) (accepts : Char → Bool) :
    ReadsAlike first last (.span accepts) := by
  intro k limit limit' r _ _ hr _ _
  have h := Cursor.reaches_excerpt k accepts hlast hr
  unfold Seen
  rw [outcomes, outcomes, List.filter_map, List.filter_map, List.map_map]
  have hcomp : ∀ (n : Nat) (l : List Capture), Reading.hasRoom n k ∘ (fun c => ⟨c, l⟩)
      = Cursor.hasRoom n k := fun n l => rfl
  rw [hcomp, hcomp]
  show List.map _ (((r.cursor.excerpt first last).reaches accepts).filter _) = _
  rw [h, List.map_map]
  rfl

theorem many (hlast : first ≤ last) {order : Order} (hp : ReadsAlike first last p)
    (hwidth : 0 < p.minWidth) : ReadsAlike first last (.many order p) := by
  intro k limit limit' r hreach hopens hr hlimit hlimit'
  have hwhole : ∀ r, ∀ s ∈ p.outcomes limit r, ∃ j, 0 < j ∧ j ≤ r.cursor.after.length ∧
      s.cursor = r.cursor.advance j := by
    intro r s hs
    obtain ⟨j, hj⟩ := exists_moves p r s hs
    exact ⟨j, Nat.lt_of_lt_of_le hwidth hj.width_le, hj.le_length, hj.cursor⟩
  -- every step starts inside the excerpt, and all but the first behind its start
  let P : Reading → Prop := fun r => OpensAlike first p r.cursor ∧ first ≤ r.cursor.place ∧
    r.cursor.after.length ≤ limit ∧ last - r.cursor.place ≤ limit'
  refine repeated_excerpt (P := P) hlast (fun r s hs => ?_) hwhole (fun r hr => ⟨hr.2.1, ?_⟩)
    (fun r hr => hp hreach hr.1 hr.2.1 hr.2.2.1 hr.2.2.2) limit limit' r
    ⟨⟨hopens.edge, hopens.lineStart⟩, hr, hlimit, hlimit'⟩ hlimit hlimit'
  · have := place_of_mem_outcomes hs
    omega
  · intro s hs
    obtain ⟨-, hr, hlimit, hlimit'⟩ := hr
    obtain ⟨j, hj, hlen, hcursor⟩ := hwhole r s hs
    have hplace := r.cursor.advance_place hlen
    have hafter : s.cursor.after.length = r.cursor.after.length - j := by
      rw [hcursor, Cursor.advance_after, List.length_drop]
    rw [← hcursor] at hplace
    exact ⟨OpensAlike.of_lt (by omega), by omega, by omega, by omega⟩

/-- The group is added to the same readings on both sides. -/
theorem group {label : Label} (hp : ReadsAlike first last p) :
    ReadsAlike first last (.group label p) := by
  intro k limit limit' r hreach hopens hr hlimit hlimit'
  have h := hp hreach ⟨hopens.edge, hopens.lineStart⟩ hr hlimit hlimit'
  unfold Seen at h ⊢
  rw [outcomes, outcomes, List.filter_map, List.filter_map, List.map_map]
  show List.map _ ((p.outcomes limit' (r.excerpt first last)).filter
    (Reading.hasRoom (last - first) k)) = _
  rw [h, List.map_map]
  rfl

theorem edge (hlast : first ≤ last) : ReadsAlike first last .edge := by
  intro k limit limit' r hreach hopens hr _ _
  refine Seen.ite_test hlast hr fun hroom => ?_
  have hreach : 1 ≤ k := hreach
  have hbehind : (r.cursor.excerpt first last).lastIs Text.isWord
      = r.cursor.lastIs Text.isWord := by
    rcases Nat.lt_or_eq_of_le hr with hlt | heq
    · exact Cursor.lastIs_excerpt _ hlt
    · rw [hopens.edge rfl heq.symm]
      simp [Cursor.lastIs, Cursor.excerpt, heq]
  show (r.cursor.excerpt first last).atEdge = _
  rw [Cursor.atEdge, Cursor.atEdge, hbehind, Cursor.nextIs_excerpt _ (by omega)]

theorem lineStart (hlast : first ≤ last) : ReadsAlike first last .lineStart := by
  intro k limit limit' r _ hopens hr _ _
  refine Seen.ite_test hlast hr fun _ => ?_
  show (r.cursor.excerpt first last).atLineStart = _
  rcases Nat.lt_or_eq_of_le hr with hlt | heq
  · have hbefore : ∀ c : Cursor, 0 < c.place → c.before.isEmpty = false := by
      intro c hc
      rw [c.place_eq] at hc
      simpa [List.isEmpty_iff] using List.ne_nil_of_length_pos hc
    have hplace : (r.cursor.excerpt first last).place = r.cursor.place - first := rfl
    rw [Cursor.atLineStart, Cursor.atLineStart, hbefore _ (by omega), hbefore _ (by omega),
      Cursor.lastIs_excerpt _ hlt]
  · rw [hopens.lineStart rfl heq.symm]
    simp [Cursor.atLineStart, Cursor.excerpt, heq]

end ReadsAlike

/-- **Local patterns read alike**, by the shapes they are made of. -/
theorem outcomes_excerpt (hlast : first ≤ last) {p : Pattern} (hlocal : p.isLocal = true) :
    ReadsAlike first last p := by
  induction p with
  | empty => exact .empty hlast
  | one accepts => exact .one hlast accepts
  | text chars => exact .text hlast chars
  | seq p q ihp ihq =>
    rw [isLocal, Bool.and_eq_true] at hlocal
    exact .seq (ihp hlocal.1) (ihq hlocal.2)
  | alt p q ihp ihq =>
    rw [isLocal, Bool.and_eq_true] at hlocal
    exact .alt (ihp hlocal.1) (ihq hlocal.2)
  | span accepts => exact .span hlast accepts
  | many order p ih =>
    rw [isLocal, Bool.and_eq_true, decide_eq_true_eq] at hlocal
    exact .many hlast (ih hlocal.1) hlocal.2
  | group label p ih => exact .group (ih hlocal)
  | edge => exact .edge hlast
  | lineStart => exact .lineStart hlast
  | again label | ahead p _ | notAhead p _ | behind a | notBehind a | lineEnd | textEnd =>
    cases hlocal

/-! ## The first outcome -/

/-- A pattern whose readings can be told without what stands behind them. -/
def isContained (p : Pattern) : Bool :=
  p.isLocal && p.reach == 0

/-- A reading inside the excerpt, with limits that are enough for the text and for the excerpt. -/
structure Inside (first last limit limit' : Nat) (r : Reading) : Prop where
  first_le : first ≤ r.cursor.place
  le_last : r.cursor.place ≤ last
  limit_le : r.cursor.after.length ≤ limit
  limit_le' : last - r.cursor.place ≤ limit'

variable {limit limit' : Nat} {p a : Pattern}

theorem Inside.of_mem (h : Inside first last limit limit' r) (hs : s ∈ p.outcomes limit r)
    (hlast : s.cursor.place ≤ last) : Inside first last limit limit' s := by
  obtain ⟨j, hj⟩ := exists_moves p r s hs
  have hplace := r.cursor.advance_place hj.le_length
  have hafter : s.cursor.after.length = r.cursor.after.length - j := by
    rw [hj.cursor, Cursor.advance_after, List.length_drop]
  rw [← hj.cursor] at hplace
  obtain ⟨h1, h2, h3, h4⟩ := h
  exact ⟨by omega, hlast, by omega, by omega⟩

/-- Inside the excerpt the outcomes are those that end there. -/
theorem outcomes_inside (h : Inside first last limit limit' r) (hp : p.isContained = true)
    (hopens : OpensAlike first p r.cursor) :
    p.outcomes limit' (r.excerpt first last)
      = ((p.outcomes limit r).filter (Reading.hasRoom last 0)).map
          (Reading.excerpt first last) := by
  simp only [isContained, Bool.and_eq_true, beq_iff_eq] at hp
  have hle := Nat.le_trans h.first_le h.le_last
  have hseen := outcomes_excerpt hle hp.1 (k := 0) (by omega) hopens h.first_le h.limit_le
    h.limit_le'
  have hall : ∀ s ∈ p.outcomes limit' (r.excerpt first last),
      s.hasRoom (last - first) 0 = true := by
    intro s hs
    obtain ⟨j, hj⟩ := exists_moves p _ s hs
    have hplace := (r.excerpt first last).cursor.advance_place hj.le_length
    have hstart : (r.excerpt first last).cursor.place = r.cursor.place - first := rfl
    have hlen : (r.excerpt first last).cursor.after.length ≤ last - r.cursor.place :=
      List.length_take_le _ _
    have hj' := hj.le_length
    have hin := h.le_last
    have hfirst := h.first_le
    simp only [Reading.hasRoom, Cursor.hasRoom, decide_eq_true_eq]
    rw [hj.cursor]
    omega
  unfold Seen at hseen
  rwa [List.filter_eq_self.2 hall] at hseen

/-- What is the first to satisfy a condition is also the first to satisfy a narrower one that it
satisfies. -/
theorem head?_filter_of_imp {α : Type} {P Q : α → Bool} {l : List α} {x : α}
    (h : (l.filter P).head? = some x) (himp : ∀ y ∈ l, Q y = true → P y = true)
    (hx : Q x = true) : (l.filter Q).head? = some x := by
  induction l with
  | nil => simp at h
  | cons y l ih =>
    have ih := fun h => ih h fun z hz => himp z (List.mem_cons_of_mem _ hz)
    by_cases hP : P y = true
    · rw [List.filter_cons_of_pos hP, List.head?_cons, Option.some.injEq] at h
      rw [h, List.filter_cons_of_pos hx, List.head?_cons]
    · rw [List.filter_cons_of_neg hP] at h
      rw [List.filter_cons_of_neg fun hQ => hP (himp y List.mem_cons_self hQ)]
      exact ih h

/-- **The outcome that is tried first is the first in the excerpt too.** -/
theorem First.excerpt (h : First limit p r s) (hr : Inside first last limit limit' r)
    (hp : p.isContained = true) (hopens : OpensAlike first p r.cursor)
    (hs : s.cursor.place ≤ last) :
    First limit' p (r.excerpt first last) (s.excerpt first last) := by
  have hall : (p.outcomes limit r).filter (fun _ => true) = p.outcomes limit r :=
    List.filter_eq_self.2 fun _ _ => rfl
  unfold First at h ⊢
  rw [outcomes_inside hr hp hopens, List.head?_map]
  rw [← hall] at h
  rw [head?_filter_of_imp h (fun _ _ _ => rfl) (by simpa [Reading.hasRoom, Cursor.hasRoom])]
  rfl

theorem outcomes_ahead (limit : Nat) (p a : Pattern) (r : Reading) :
    (p ++ ahead a).outcomes limit r
      = (p.outcomes limit r).filter fun s => !(a.outcomes limit s).isEmpty := by
  rw [outcomes_append]
  induction p.outcomes limit r with
  | nil => rfl
  | cons s l ih =>
    rw [List.flatMap_cons, ih, outcomes]
    cases h : (a.outcomes limit s).isEmpty
    · rw [List.filter_cons_of_pos (by simp [h])]
      rfl
    · rw [List.filter_cons_of_neg (by simp [h])]
      rfl

/-- So it is for a pattern that looks ahead, if what it sees there is in the excerpt. -/
theorem First.excerpt_ahead (h : First limit (p ++ ahead a) r s)
    (hr : Inside first last limit limit' r) (hp : p.isContained = true)
    (hopens : OpensAlike first p r.cursor) (ha : a.isContained = true)
    (haopens : ∀ c, OpensAlike first a c)
    (hseen : ∃ u ∈ a.outcomes limit s, u.cursor.place ≤ last) :
    First limit' (p ++ ahead a) (r.excerpt first last) (s.excerpt first last) := by
  unfold First at h ⊢
  rw [outcomes_ahead] at h ⊢
  -- what can be read ahead of an outcome in the excerpt can be read there in the text
  have hahead : ∀ y ∈ p.outcomes limit r, y.cursor.place ≤ last →
      a.outcomes limit' (y.excerpt first last)
        = ((a.outcomes limit y).filter (Reading.hasRoom last 0)).map
            (Reading.excerpt first last) :=
    fun y hy hlast => outcomes_inside (hr.of_mem hy hlast) ha (haopens _)
  rw [outcomes_inside hr hp hopens, List.filter_map, List.filter_filter, List.head?_map,
    head?_filter_of_imp h ?_ ?_]
  · rfl
  · intro y hy hroom
    simp only [Bool.and_eq_true, Function.comp_apply, Bool.not_eq_true', Reading.hasRoom,
      Cursor.hasRoom, decide_eq_true_eq] at hroom
    rw [hahead y hy hroom.2] at hroom
    cases hnil : a.outcomes limit y with
    | nil => simp [hnil] at hroom
    | cons u l => rfl
  · obtain ⟨u, hu, hlast⟩ := hseen
    have hmem : s ∈ p.outcomes limit r :=
      List.mem_of_mem_filter (List.mem_of_mem_head? h)
    have hplace := place_of_mem_outcomes hu
    have hroom : u ∈ (a.outcomes limit s).filter (Reading.hasRoom last 0) := by
      rw [List.mem_filter]
      exact ⟨hu, by simpa [Reading.hasRoom, Cursor.hasRoom] using hlast⟩
    simp only [Bool.and_eq_true, Function.comp_apply, Bool.not_eq_true', Reading.hasRoom,
      Cursor.hasRoom, decide_eq_true_eq]
    refine ⟨?_, by omega⟩
    rw [hahead s hmem (by omega)]
    simpa [List.isEmpty_eq_false_iff] using List.ne_nil_of_mem hroom

/-! ## Matches -/

/-- Every outcome stands behind the text that it has passed. -/
theorem exists_spelled_place (hs : s ∈ p.outcomes limit r) : ∃ x, p.Spelled x ∧
    r.cursor.after = x ++ s.cursor.after ∧ s.cursor.place = r.cursor.place + x.length := by
  obtain ⟨x, hx, hafter⟩ := exists_spelled p r s hs
  obtain ⟨k, hk⟩ := exists_moves p r s hs
  refine ⟨x, hx, hafter, ?_⟩
  have hplace := r.cursor.advance_place hk.le_length
  have hle := hk.le_length
  have hlen := congrArg List.length hafter
  rw [hk.cursor, Cursor.advance_after, List.length_append, List.length_drop] at hlen
  rw [hk.cursor]
  omega

/-- What is read at a cursor is the first outcome there. -/
theorem first_of_readAt? {c : Cursor} {m : Match} (h : p.readAt? limit c = some m) :
    First limit p ⟨m.start, []⟩ ⟨m.stop, m.captures⟩ := by
  rw [readAt?_eq, Option.map_eq_some_iff] at h
  obtain ⟨s, hs, rfl⟩ := h
  exact hs

/-- Every reading of a text is the first outcome where it starts. -/
theorem first_of_mem_readings {m : Match} : ∀ n c, m ∈ p.readings limit n c →
    First limit p ⟨m.start, []⟩ ⟨m.stop, m.captures⟩ := by
  intro n
  induction n using Nat.strongRecOn with
  | ind n ih =>
    intro c hm
    rcases readings_cases limit p n c with hnil | ⟨m', n', d, hseek, -, -, hn, hcons⟩
    · rw [hnil] at hm
      simp at hm
    · rw [hcons] at hm
      rcases List.mem_cons.1 hm with rfl | hm
      · obtain ⟨k, -, -, hread, -⟩ := seek?_eq_some hseek
        exact first_of_readAt? hread
      · exact ih n' hn d hm

/-- A first outcome at the start of a text is the first of its matches. -/
theorem findAll_of_first {t : Text} (h : First t.length p ⟨Cursor.ofPlace t 0, []⟩ s)
    (hwidth : 0 < p.minWidth) : ∃ rest,
      p.findAll t = ⟨Cursor.ofPlace t 0, s.cursor, s.captures⟩ :: rest := by
  have hplace := place_of_mem_outcomes (List.mem_of_mem_head? h)
  have hlt : (⟨Cursor.ofPlace t 0, s.cursor, s.captures⟩ : Match).first
      < (⟨Cursor.ofPlace t 0, s.cursor, s.captures⟩ : Match).last := by
    simp only [Match.first, Match.last] at hplace ⊢
    omega
  refine ⟨_, readings_of_first (k := 0) ?_ (Nat.zero_le _) (fun i hi => by omega) ?_ hlt⟩
  · exact Nat.le_of_eq (by simp)
  · rw [Cursor.advance_zero]
    exact readAt?_of_first h

end Pattern

/-- A capture that lies in the excerpt has the same text there. -/
theorem Capture.text_excerpt {first last : Nat} {c : Capture} (hfirst : first ≤ c.start.place)
    (hle : c.start.place ≤ c.stop.place) (hlast : c.stop.place ≤ last) :
    (c.excerpt first last).text = c.text := by
  show (c.start.after.take (last - c.start.place)).take
    ((c.stop.place - first) - (c.start.place - first)) = c.start.after.take _
  rw [List.take_take]
  congr 1
  omega

/-- A match, seen in the excerpt between two places. -/
def Match.excerpt (first last : Nat) (m : Match) : Match :=
  ⟨m.start.excerpt first last, m.stop.excerpt first last,
    m.captures.map (Capture.excerpt first last)⟩

/-- **The groups of a match have the same texts in the excerpt.** -/
theorem Match.group?_excerpt {first last : Nat} {m : Match} {p : Pattern} {t : Text}
    (h : m.Fits p t) (hfirst : first ≤ m.first) (hlast : m.last ≤ last) (role : String) :
    (m.excerpt first last).group? role = m.group? role := by
  have hcapture : (m.excerpt first last).capture? role
      = (m.capture? role).map (Capture.excerpt first last) := by
    unfold Match.capture? Match.excerpt
    rw [List.find?_map]
    rfl
  unfold Match.group?
  rw [hcapture, Option.map_map]
  cases hc : m.capture? role with
  | none => rfl
  | some c =>
    obtain ⟨q, -, -, -, h1, h2, h3⟩ := h.captures c (List.mem_of_find?_eq_some hc)
    simp only [Option.map_some, Function.comp_apply]
    rw [Capture.text_excerpt (by omega) (by omega) (by omega)]

end CodeSurvey
