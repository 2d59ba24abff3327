import CodeSurvey.Proofs.Pattern.Search
import CodeSurvey.Proofs.Pattern.Spelling

/-!
# The first outcome

Where the text in front of a pattern leaves it only one way that matters, the first outcome can be
told shape by shape: a text is passed, a span runs up to the first character it does not accept, an
option that cannot start is skipped. A match is the first outcome of the whole pattern, and the
readings of a text are such matches with nothing readable between them.

* `First`: the outcome that is tried first.
* `First.seq`, `First.text`, `First.span`, `First.group`, `First.skip`, `First.stay`: shape by shape.
* `Quiet`: nothing can be read at the next places.
* `readings_of_first`, `readings_eq_nil`: from matches to the list of all readings.
-/

namespace CodeSurvey

namespace Reading

/-- The reading behind a text, with no group more. -/
def past (r : Reading) (x : Text) : Reading :=
  ⟨r.cursor.advance x.length, r.captures⟩

/-- The reading behind a text that a group remembers. -/
def mark (r : Reading) (label : Label) (x : Text) : Reading :=
  ⟨r.cursor.advance x.length, ⟨label, r.cursor, r.cursor.advance x.length⟩ :: r.captures⟩

variable {r : Reading} {x y : Text}

@[simp] theorem past_nil (r : Reading) : r.past [] = r := by
  simp [past]

theorem past_past (r : Reading) (x y : Text) : (r.past x).past y = r.past (x ++ y) := by
  simp [past, Cursor.advance_advance]

theorem past_after (h : r.cursor.after = x ++ y) : (r.past x).cursor.after = y := by
  simp [past, h]

theorem mark_after (label : Label) (h : r.cursor.after = x ++ y) :
    (r.mark label x).cursor.after = y := by
  simp [mark, h]

end Reading

namespace Pattern

variable {limit : Nat} {p q : Pattern} {r s u : Reading} {x y : Text} {c : Cursor} {ch : Char}

/-- The outcome that is tried first. -/
def First (limit : Nat) (p : Pattern) (r s : Reading) : Prop :=
  (p.outcomes limit r).head? = some s

/-! ## Shapes -/

theorem head?_flatMap {α β : Type} {l : List α} {f : α → List β} {a : α} {b : β}
    (h : l.head? = some a) (hf : (f a).head? = some b) : (l.flatMap f).head? = some b := by
  cases l with
  | nil => simp at h
  | cons a' l =>
    obtain rfl : a' = a := by simpa using h
    rw [List.flatMap_cons, List.head?_append, hf]
    rfl

theorem First.seq (h : First limit p r s) (h' : First limit q s u) : First limit (p ++ q) r u :=
  head?_flatMap h h'

theorem First.altLeft (h : First limit p r s) : First limit (p <|> q) r s := by
  have : (p <|> q).outcomes limit r = p.outcomes limit r ++ q.outcomes limit r := rfl
  unfold First at h ⊢
  rw [this, List.head?_append, h]
  rfl

/-- An option that cannot be read is skipped. -/
theorem First.skip (h : p.outcomes limit r = []) : First limit (opt p) r r := by
  have : (opt p).outcomes limit r = p.outcomes limit r ++ [r] := rfl
  unfold First
  rw [this, h]
  rfl

theorem First.text (limit : Nat) (h : r.cursor.after = x ++ y) :
    First limit (text x) r (r.past x) := by
  unfold First
  rw [outcomes, Cursor.passText?_eq, if_pos ⟨y, h.symm⟩]
  rfl

theorem First.lit (limit : Nat) {string : String} (h : r.cursor.after = x ++ y)
    (hx : string.toList = x) : First limit (lit string) r (r.past x) := by
  subst hx
  exact First.text limit h

theorem First.one (limit : Nat) {accepts : Char → Bool} (h : r.cursor.after = ch :: y)
    (hc : accepts ch = true) : First limit (one accepts) r (r.past [ch]) := by
  have hnext : r.cursor.nextIs accepts = true := by
    unfold Cursor.nextIs
    rw [h]
    exact hc
  unfold First
  rw [outcomes, Cursor.pass?_eq, if_pos hnext]
  rfl

/-- A span runs up to the first character that it does not accept. -/
theorem First.span (limit : Nat) {accepts : Char → Bool} (h : r.cursor.after = x ++ y)
    (hx : ∀ c ∈ x, accepts c = true) (hy : ∀ c ∈ y.head?, accepts c = false) :
    First limit (span accepts) r (r.past x) := by
  have hwhile : y.takeWhile accepts = [] := by
    cases y with
    | nil => rfl
    | cons c y => simp [hy c (by simp)]
  have hlen : (r.cursor.after.takeWhile accepts).length = x.length := by
    rw [h, List.takeWhile_append_of_pos hx, hwhile, List.append_nil]
  unfold First
  rw [outcomes, Cursor.reaches, hlen, List.range_succ, List.reverse_append]
  rfl

/-- A span that does not accept what comes next stays where it is. -/
theorem First.span_nil (limit : Nat) {accepts : Char → Bool} (h : r.cursor.after = ch :: y)
    (hc : accepts ch = false) : First limit (Pattern.span accepts) r r := by
  simpa using First.span limit (x := []) h (by simp) (by simpa using hc)

/-- A character of one kind and a span of another. -/
theorem First.one_span (limit : Nat) {starts accepts : Char → Bool} {first : Char} {rest : Text}
    (h : r.cursor.after = first :: rest ++ y) (hfirst : starts first = true)
    (hrest : ∀ c ∈ rest, accepts c = true) (hy : ∀ c ∈ y.head?, accepts c = false) :
    First limit (Pattern.one starts ++ Pattern.span accepts) r (r.past (first :: rest)) := by
  have hone := First.one limit h hfirst
  have hspan := First.span limit (Reading.past_after (x := [first]) h) hrest hy
  rw [Reading.past_past] at hspan
  exact hone.seq hspan

theorem First.group (label : Label) (h : First limit p r (r.past x)) :
    First limit (group label p) r (r.mark label x) := by
  unfold First at h ⊢
  rw [outcomes, List.head?_map, h]
  rfl

/-- A repetition that cannot make its step stays where it is. -/
theorem First.stay (order : Order) (h : p.outcomes limit r = []) : First limit (many order p) r r := by
  unfold First
  rw [outcomes]
  cases limit with
  | zero => rfl
  | succ n =>
    cases order <;> simp [repeated, h]

theorem First.look (h : ∃ s, s ∈ p.outcomes limit r) : First limit (ahead p) r r := by
  obtain ⟨s, hs⟩ := h
  have hne : (p.outcomes limit r).isEmpty = false := by
    rw [List.isEmpty_eq_false_iff]
    exact List.ne_nil_of_mem hs
  unfold First
  rw [outcomes, hne]
  rfl

theorem First.edge (limit : Nat) (h : r.cursor.atEdge = true) : First limit edge r r := by
  unfold First
  rw [outcomes, if_pos h]
  rfl

theorem First.lineStart (limit : Nat) (h : r.cursor.atLineStart = true) :
    First limit lineStart r r := by
  unfold First
  rw [outcomes, if_pos h]
  rfl

/-- A pattern has no outcome where it cannot start. -/
theorem outcomes_eq_nil (h : r.cursor.after = ch :: y) (hstart : p.mayStart ch = false)
    (hwidth : 0 < p.minWidth) : p.outcomes limit r = [] := by
  rw [List.eq_nil_iff_forall_not_mem]
  intro s hs
  obtain ⟨x, hx, hafter⟩ := exists_spelled p r s hs
  cases x with
  | nil =>
    have := minWidth_le_length hx
    simp at this
    omega
  | cons d x =>
    obtain ⟨rfl, -⟩ : ch = d ∧ y = x ++ s.cursor.after := by simpa [h] using hafter
    rw [mayStart_of_spelled hx] at hstart
    exact absurd hstart (by simp)

/-! ## Readings of a text -/

theorem readAt?_of_first (h : First limit p ⟨c, []⟩ s) :
    p.readAt? limit c = some ⟨c, s.cursor, s.captures⟩ := by
  rw [readAt?_eq, show (p.outcomes limit ⟨c, []⟩).head? = some s from h]
  rfl

/-- The pattern can be read at none of the next `k` places. -/
def Quiet (limit : Nat) (p : Pattern) (c : Cursor) (k : Nat) : Prop :=
  ∀ i, i < k → p.readAt? limit (c.advance i) = none

theorem Quiet.append {k j : Nat} (h : Quiet limit p c k) (h' : Quiet limit p (c.advance k) j) :
    Quiet limit p c (k + j) := by
  intro i hi
  rcases Nat.lt_or_ge i k with hik | hik
  · exact h i hik
  · have := h' (i - k) (by omega)
    rwa [Cursor.advance_advance, Nat.add_sub_cancel' hik] at this

/-- A match behind quiet places is the first reading, and the others follow it. -/
theorem readings_of_first {k n : Nat} {m : Match} (hlimit : c.after.length ≤ limit)
    (hk : k ≤ c.after.length) (hquiet : Quiet limit p c k)
    (hread : p.readAt? limit (c.advance k) = some m) (hm : m.first < m.last) :
    p.readings limit (n + 1) c = m :: p.readings limit n m.stop := by
  have hseek := seek?_of_first (n := limit) (by omega) hk hread hquiet
  rw [readings_succ, hseek]
  simp only [if_pos hm]

/-- There are no readings where all places are quiet. -/
theorem readings_eq_nil {n : Nat} (h : Quiet limit p c (c.after.length + 1)) :
    p.readings limit n c = [] := by
  cases n with
  | zero => rfl
  | succ n => rw [readings_succ, seek?_eq_none fun i hi => h i (by omega)]

end Pattern

end CodeSurvey
