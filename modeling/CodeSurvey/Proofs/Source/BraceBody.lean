import CodeSurvey.Proofs.Source.Block

/-!
# The body between braces

Which part of a text is the body behind a signature, told without the search for it: by the braces
that a stretch of text opens and closes, by the first brace or semicolon behind the signature, and by
the arrow that may stand there.

* `Closes`: a closing brace up to which as many braces close as open. `matchingBrace?_eq_some_iff`,
  `matchingBrace?_eq_none_iff`: the brace found is the first such place.
* `BraceWord`: a text in which every closing brace has its opening one.
  `closes_first_iff`: between an opening brace and the one found stands a brace word.
* `IsEnclosed`, `IsBodiless`, `IsExpression`: the three kinds of body.
* `braced_cases`: every body is of one of them, and the text behind the signature tells which.
* `braced_exact`: the facts together.
-/

namespace CodeSurvey.Block

variable {t : Text} {i j n p place stop : Nat}

/-! ## Braces opened and closed -/

/-- How many more braces a text opens than it closes. -/
def balance (x : Text) : Int :=
  x.count '{' - x.count '}'

theorem balance_append (x y : Text) : balance (x ++ y) = balance x + balance y := by
  unfold balance
  rw [List.count_append, List.count_append]
  omega

theorem balance_cons (c : Char) (x : Text) : balance (c :: x) = balance [c] + balance x :=
  balance_append [c] x

theorem balance_eq_zero_iff (x : Text) : balance x = 0 ↔ x.count '{' = x.count '}' := by
  unfold balance
  omega

theorem balance_singleton (c : Char) :
    balance [c] = if c = '{' then 1 else if c = '}' then -1 else 0 := by
  unfold balance
  by_cases hopen : c = '{'
  · subst hopen
    decide
  · by_cases hclose : c = '}'
    · subst hclose
      decide
    · rw [if_neg hopen, if_neg hclose, List.count_eq_zero.2 (by simpa using Ne.symm hopen),
        List.count_eq_zero.2 (by simpa using Ne.symm hclose)]
      rfl

theorem balance_take_succ {x : Text} {c : Char} (h : x[n]? = some c) :
    balance (x.take (n + 1)) = balance (x.take n) + balance [c] := by
  rw [List.take_add_one, h, Option.toList_some, balance_append]

/-! ## The brace that closes -/

/-- A closing brace that brings the balance to zero, given the balance so far. -/
def ClosesFrom (depth : Int) (x : Text) (k : Nat) : Prop :=
  x[k]? = some '}' ∧ depth + balance (x.take (k + 1)) = 0

theorem closesFrom_zero {depth : Int} {c : Char} {x : Text} :
    ClosesFrom depth (c :: x) 0 ↔ c = '}' ∧ depth = 1 := by
  unfold ClosesFrom
  simp only [List.getElem?_cons_zero, Option.some.injEq, Nat.zero_add, List.take_succ_cons,
    List.take_zero]
  constructor
  · rintro ⟨rfl, h⟩
    rw [balance_singleton] at h
    exact ⟨rfl, by simp at h; omega⟩
  · rintro ⟨rfl, rfl⟩
    exact ⟨rfl, by decide⟩

theorem closesFrom_succ {depth : Int} {c : Char} {x : Text} {k : Nat} :
    ClosesFrom depth (c :: x) (k + 1) ↔ ClosesFrom (depth + balance [c]) x k := by
  unfold ClosesFrom
  rw [List.getElem?_cons_succ, List.take_succ_cons, balance_cons, Int.add_assoc]

/-- The search goes on with the new balance unless this very brace closes. -/
theorem closeFrom?_cons (depth : Int) (place : Nat) (c : Char) (x : Text) :
    closeFrom? depth place (c :: x) = if c = '}' ∧ depth = 1 then some place
      else closeFrom? (depth + balance [c]) (place + 1) x := by
  rw [closeFrom?, balance_singleton]
  by_cases hopen : c = '{'
  · subst hopen
    simp
  · by_cases hclose : c = '}'
    · subst hclose
      by_cases hdepth : depth = 1
      · simp [hdepth]
      · have hne : ¬ depth + -1 = 0 := by omega
        simp [hdepth, hne, Int.sub_eq_add_neg]
    · simp [hopen, hclose]

/-- **The search finds the first brace that closes.** -/
theorem closeFrom?_eq_some_iff : ∀ {x : Text} {depth : Int} {place j : Nat},
    closeFrom? depth place x = some j ↔ ∃ k, j = place + k ∧ ClosesFrom depth x k ∧
      ∀ n, n < k → ¬ ClosesFrom depth x n := by
  intro x
  induction x with
  | nil =>
    intro depth place j
    simp [closeFrom?, ClosesFrom]
  | cons c x ih =>
    intro depth place j
    rw [closeFrom?_cons]
    by_cases hhere : c = '}' ∧ depth = 1
    · rw [if_pos hhere]
      constructor
      · intro h
        have := Option.some.inj h
        exact ⟨0, by omega, closesFrom_zero.2 hhere, fun n hn => by omega⟩
      · rintro ⟨k, rfl, -, hbefore⟩
        rcases Nat.eq_zero_or_pos k with rfl | hpos
        · rfl
        · exact absurd (closesFrom_zero.2 hhere) (hbefore 0 hpos)
    · rw [if_neg hhere, ih]
      constructor
      · rintro ⟨k, rfl, hk, hbefore⟩
        refine ⟨k + 1, by omega, closesFrom_succ.2 hk, fun n hn => ?_⟩
        cases n with
        | zero => exact fun h => hhere (closesFrom_zero.1 h)
        | succ n => exact fun h => hbefore n (by omega) (closesFrom_succ.1 h)
      · rintro ⟨k, rfl, hk, hbefore⟩
        cases k with
        | zero => exact absurd (closesFrom_zero.1 hk) hhere
        | succ k =>
          refine ⟨k, by omega, closesFrom_succ.1 hk, fun n hn h => ?_⟩
          exact hbefore (n + 1) (by omega) (closesFrom_succ.2 h)

/-- The search finds nothing only where no brace closes. -/
theorem not_closesFrom_of_none : ∀ {x : Text} {depth : Int} {place : Nat},
    closeFrom? depth place x = none → ∀ k, ¬ ClosesFrom depth x k := by
  intro x
  induction x with
  | nil =>
    intro depth place _ k
    simp [ClosesFrom]
  | cons c x ih =>
    intro depth place h k
    rw [closeFrom?_cons] at h
    split at h
    · simp at h
    · rename_i hhere
      cases k with
      | zero => exact fun hk => hhere (closesFrom_zero.1 hk)
      | succ k => exact fun hk => ih h k (closesFrom_succ.1 hk)

/-- **A place that closes**: a closing brace stands there, and from `i` up to it, that brace included,
as many braces close as open. -/
def Closes (t : Text) (i j : Nat) : Prop :=
  i ≤ j ∧ t[j]? = some '}' ∧
    (Text.slice t i (j + 1)).count '{' = (Text.slice t i (j + 1)).count '}'

theorem closes_add_iff (t : Text) (i k : Nat) :
    Closes t i (i + k) ↔ ClosesFrom 0 (t.drop i) k := by
  unfold Closes ClosesFrom
  have hslice : Text.slice t i (i + k + 1) = (t.drop i).take (k + 1) := by
    rw [Text.slice, Nat.add_assoc, Nat.add_sub_cancel_left]
  rw [hslice, ← balance_eq_zero_iff, List.getElem?_drop, Int.zero_add]
  simp

/-- **The matching brace is the first place that closes.** -/
theorem matchingBrace?_eq_some_iff (t : Text) (i j : Nat) :
    matchingBrace? t i = some j ↔ Closes t i j ∧ ∀ k, k < j → ¬ Closes t i k := by
  unfold matchingBrace?
  rw [closeFrom?_eq_some_iff]
  constructor
  · rintro ⟨k, rfl, hk, hbefore⟩
    refine ⟨(closes_add_iff t i k).2 hk, fun n hn hcloses => ?_⟩
    obtain ⟨m, rfl⟩ := Nat.exists_eq_add_of_le hcloses.1
    exact hbefore m (by omega) ((closes_add_iff t i m).1 hcloses)
  · rintro ⟨hj, hbefore⟩
    obtain ⟨k, rfl⟩ := Nat.exists_eq_add_of_le hj.1
    refine ⟨k, rfl, (closes_add_iff t i k).1 hj, fun n hn h => ?_⟩
    exact hbefore (i + n) (by omega) ((closes_add_iff t i n).2 h)

/-- **There is no matching brace exactly if no place closes.** -/
theorem matchingBrace?_eq_none_iff (t : Text) (i : Nat) :
    matchingBrace? t i = none ↔ ∀ j, ¬ Closes t i j := by
  constructor
  · intro h j hj
    obtain ⟨k, rfl⟩ := Nat.exists_eq_add_of_le hj.1
    exact not_closesFrom_of_none h k ((closes_add_iff t i k).1 hj)
  · intro h
    cases hmatch : matchingBrace? t i with
    | none => rfl
    | some j => exact absurd ((matchingBrace?_eq_some_iff t i j).1 hmatch).1 (h j)

/-! ## Brace words -/

/-- **A brace word**: every closing brace has its opening one in front of it, and none is left open. -/
structure BraceWord (x : Text) : Prop where
  prefixes : ∀ y, y <+: x → y.count '}' ≤ y.count '{'
  total : x.count '{' = x.count '}'

theorem braceWord_iff (x : Text) :
    BraceWord x ↔ balance x = 0 ∧ ∀ n, n ≤ x.length → 0 ≤ balance (x.take n) := by
  constructor
  · rintro ⟨hprefixes, htotal⟩
    refine ⟨(balance_eq_zero_iff x).2 htotal, fun n _ => ?_⟩
    have := hprefixes _ ( List.take_prefix n x)
    unfold balance
    omega
  · rintro ⟨htotal, hprefixes⟩
    refine ⟨fun y hy => ?_, (balance_eq_zero_iff x).1 htotal⟩
    have := hprefixes y.length hy.length_le
    rw [← List.prefix_iff_eq_take.1 hy] at this
    unfold balance at this
    omega

/-- Behind an opening brace, a place closes if the text between is balanced. -/
theorem closes_open_iff (hopen : t[i]? = some '{') :
    Closes t i (i + 1 + n) ↔
      (t.drop (i + 1))[n]? = some '}' ∧ balance ((t.drop (i + 1)).take n) = 0 := by
  have hdrop : t.drop i = '{' :: t.drop (i + 1) := by
    obtain ⟨hlt, hget⟩ := List.getElem?_eq_some_iff.1 hopen
    rw [List.drop_eq_getElem_cons hlt, hget]
  have hbrace : balance ['{'] = 1 := by decide
  rw [Nat.add_assoc, closes_add_iff, hdrop, Nat.add_comm 1 n, closesFrom_succ, ClosesFrom]
  refine and_congr_right fun hclose => ?_
  have hclosing : balance ['}'] = -1 := by decide
  rw [balance_take_succ hclose, hbrace, hclosing]
  omega

/-- **Between an opening brace and the first place that closes stands a brace word**, and behind a brace
word the first place that closes comes next. -/
theorem closes_first_iff (hopen : t[i]? = some '{') :
    (Closes t i j ∧ ∀ k, k < j → ¬ Closes t i k) ↔
      i < j ∧ t[j]? = some '}' ∧ BraceWord (Text.slice t (i + 1) j) := by
  have hword : ∀ n, Text.slice t (i + 1) (i + 1 + n) = (t.drop (i + 1)).take n := by
    intro n
    rw [Text.slice, Nat.add_sub_cancel_left]
  constructor
  · rintro ⟨hj, hbefore⟩
    have hne : j ≠ i := by
      rintro rfl
      rw [hj.2.1] at hopen
      exact absurd hopen (by decide)
    have hle := hj.1
    obtain ⟨n, rfl⟩ := Nat.exists_eq_add_of_le (show i + 1 ≤ j by omega)
    obtain ⟨hclose, hzero⟩ := (closes_open_iff hopen).1 hj
    refine ⟨by omega, hj.2.1, ?_⟩
    rw [hword, braceWord_iff]
    refine ⟨hzero, ?_⟩
    -- the balance falls by steps of one, and where it would fall below zero a place closes
    intro m
    induction m with
    | zero => intro _; simp [balance]
    | succ m ih =>
      intro hm
      rw [List.length_take] at hm
      have hm' := ih (by rw [List.length_take]; omega)
      rw [List.take_take, Nat.min_eq_left (by omega)] at hm' ⊢
      have hlt : m < (t.drop (i + 1)).length := by omega
      have hget := List.getElem?_eq_getElem hlt
      rw [balance_take_succ hget, balance_singleton]
      split
      · omega
      · split
        · rename_i hc
          rw [hc] at hget
          have hnot : balance ((t.drop (i + 1)).take m) ≠ 0 := fun hz =>
            hbefore (i + 1 + m) (by omega) ((closes_open_iff hopen).2 ⟨hget, hz⟩)
          omega
        · omega
  · rintro ⟨hij, hclose, hbody⟩
    obtain ⟨n, rfl⟩ := Nat.exists_eq_add_of_le (show i + 1 ≤ j by omega)
    rw [hword, braceWord_iff] at hbody
    obtain ⟨hzero, hprefixes⟩ := hbody
    have hclose' : (t.drop (i + 1))[n]? = some '}' := by rw [List.getElem?_drop]; exact hclose
    have hn := (List.getElem?_eq_some_iff.1 hclose').1
    refine ⟨(closes_open_iff hopen).2 ⟨hclose', hzero⟩, fun k hk hcloses => ?_⟩
    have hne : k ≠ i := by
      rintro rfl
      rw [hcloses.2.1] at hopen
      exact absurd hopen (by decide)
    have hle := hcloses.1
    obtain ⟨m, rfl⟩ := Nat.exists_eq_add_of_le (show i + 1 ≤ k by omega)
    obtain ⟨hbrace, hm⟩ := (closes_open_iff hopen).1 hcloses
    have hbelow := hprefixes (m + 1) (by rw [List.length_take]; omega)
    rw [List.take_take, Nat.min_eq_left (by omega), balance_take_succ hbrace, hm] at hbelow
    exact absurd hbelow (by decide)

/-! ## What stands behind a signature -/

theorem standsAt_singleton (c : Char) (t : Text) (i : Nat) :
    standsAt [c] t i = true ↔ t[i]? = some c := by
  unfold standsAt
  rw [List.isPrefixOf_iff_prefix, ← List.head?_drop]
  cases t.drop i with
  | nil => simp
  | cons d x => simp [eq_comm]

/-- An arrow stands at a place. -/
def ArrowAt (t : Text) (i : Nat) : Prop :=
  t[i]? = some '=' ∧ t[i + 1]? = some '>'

theorem standsAt_arrow (t : Text) (i : Nat) : standsAt ['=', '>'] t i = true ↔ ArrowAt t i := by
  unfold standsAt ArrowAt
  rw [List.isPrefixOf_iff_prefix, ← List.head?_drop, ← List.getElem?_drop]
  match t.drop i with
  | [] => simp
  | [c] => simp
  | c :: d :: x => simp [eq_comm]

/-- The arrow that ends a signature is inside it. -/
theorem slice_eq_arrow_iff (t : Text) (start stop : Nat) :
    Text.slice t (max start (stop - 2)) stop = ['=', '>'] ↔
      start + 2 ≤ stop ∧ ArrowAt t (stop - 2) := by
  constructor
  · intro h
    have hlen := congrArg List.length h
    have hle : (Text.slice t (max start (stop - 2)) stop).length ≤ stop - max start (stop - 2) :=
      List.length_take_le _ _
    simp only [List.length_cons, List.length_nil] at hlen
    have hmax : max start (stop - 2) = stop - 2 := by omega
    rw [hmax] at h
    refine ⟨by omega, ?_, ?_⟩
    · have := Text.getElem?_slice (t := t) (show stop - 2 + 0 < stop by omega)
      rw [h] at this
      exact this.symm
    · have := Text.getElem?_slice (t := t) (show stop - 2 + 1 < stop by omega)
      rw [h] at this
      exact this.symm
  · rintro ⟨hle, harrow⟩
    rw [Nat.max_eq_right (by omega), Text.slice, show stop - (stop - 2) = 2 by omega]
    rw [← standsAt_arrow, standsAt, List.isPrefixOf_iff_prefix, List.prefix_iff_eq_take] at harrow
    exact harrow.symm

/-- The first place from `i` on that holds no blank. -/
structure SolidFrom (t : Text) (i p : Nat) : Prop where
  le : i ≤ p
  inside : p ≤ max i t.length
  blank : ∀ c ∈ Text.slice t i p, Text.isBlank c = true
  solid : ∀ c, t[p]? = some c → Text.isBlank c = false

theorem solidFrom_skipBlanks (t : Text) (i : Nat) : SolidFrom t i (skipBlanks t i) := by
  obtain ⟨x, y, hx, hy, hdrop, hskip⟩ : ∃ x y : Text, (∀ c ∈ x, Text.isBlank c = true) ∧
      (∀ c, y.head? = some c → Text.isBlank c = false) ∧ t.drop i = x ++ y ∧
      skipBlanks t i = i + x.length := by
    refine ⟨(t.drop i).takeWhile Text.isBlank, (t.drop i).dropWhile Text.isBlank,
      fun c hc => List.mem_takeWhile_imp hc, fun c hc => ?_, ?_, rfl⟩
    · have := List.head?_dropWhile_not Text.isBlank (t.drop i)
      rwa [hc] at this
    · exact (List.takeWhile_append_dropWhile).symm
  have hlen := congrArg List.length hdrop
  rw [List.length_append, List.length_drop] at hlen
  rw [hskip]
  refine ⟨Nat.le_add_right _ _, by omega, fun c hc => ?_, fun c hc => ?_⟩
  · rw [Text.slice, Nat.add_sub_cancel_left, hdrop, List.take_left] at hc
    exact hx c hc
  · rw [← List.getElem?_drop, hdrop, List.getElem?_append_right (Nat.le_refl _), Nat.sub_self,
      ← List.head?_eq_getElem?] at hc
    exact hy c hc

/-- There is only one such place. -/
theorem SolidFrom.eq_skipBlanks (h : SolidFrom t i p) : p = skipBlanks t i := by
  have hskip := solidFrom_skipBlanks t i
  -- the one that comes first would hold a blank for the other
  rcases Nat.lt_trichotomy p (skipBlanks t i) with hlt | heq | hgt
  · have hin := hskip.inside
    have hle := h.le
    have hget := List.getElem?_eq_getElem (l := t) (show p < t.length by omega)
    have hblank := hskip.blank _ (Text.mem_slice_iff.2 ⟨p, hle, hlt, hget⟩)
    rw [h.solid _ hget] at hblank
    cases hblank
  · exact heq
  · have hin := h.inside
    have hle := hskip.le
    have hget := List.getElem?_eq_getElem (l := t) (show skipBlanks t i < t.length by omega)
    have hblank := h.blank _ (Text.mem_slice_iff.2 ⟨_, hle, hgt, hget⟩)
    rw [hskip.solid _ hget] at hblank
    cases hblank

/-- **The body is an expression behind an arrow.** Either the arrow stands behind the signature, or it ends
the signature; in both cases what follows, at `place`, is no opening brace. -/
inductive ArrowExpression (t : Text) (start stop place : Nat) : Prop
  | behind {arrow : Nat} (harrow : SolidFrom t stop arrow) (hat : ArrowAt t arrow)
      (hplace : SolidFrom t (arrow + 2) place) (hopen : t[place]? ≠ some '{')
  | within (hle : start + 2 ≤ stop) (hat : ArrowAt t (stop - 2)) (hplace : SolidFrom t stop place)
      (hnot : ¬ ArrowAt t place) (hopen : t[place]? ≠ some '{')

/-! ## The three kinds of body -/

/-- **A body between braces**, behind a signature that ends at `stop`: from the first opening brace, with no
semicolon before it, over a brace word to a closing brace; or, if no closing brace has a brace word in front
of it, to the end of the text. -/
structure IsEnclosed (b : Block) (t : Text) (stop : Nat) : Prop where
  stop_lt : stop < b.bodyStart
  opener : t[b.bodyStart - 1]? = some '{'
  between : ∀ c ∈ Text.slice t stop (b.bodyStart - 1), c ≠ '{' ∧ c ≠ ';'
  close : (b.bodyStart ≤ b.bodyEnd ∧ t[b.bodyEnd]? = some '}' ∧ b.stop = b.bodyEnd + 1 ∧
      BraceWord (Text.slice t b.bodyStart b.bodyEnd)) ∨
    ((∀ j, b.bodyStart ≤ j → t[j]? = some '}' → ¬ BraceWord (Text.slice t b.bodyStart j)) ∧
      b.bodyEnd = t.length ∧ b.stop = t.length)

/-- **No body**: every opening brace comes behind a semicolon. -/
structure IsBodiless (b : Block) (t : Text) (stop : Nat) : Prop where
  eq : b = ⟨stop, stop, stop⟩
  semicolon : ∀ i, stop ≤ i → t[i]? = some '{' → ';' ∈ Text.slice t stop i

/-- **A body that is an expression**: from `place` on, as far as there is neither a semicolon nor a line
end. A semicolon behind it belongs to the block. -/
structure IsExpression (b : Block) (t : Text) (place : Nat) : Prop where
  start_eq : b.bodyStart = place
  start_le : b.bodyStart ≤ b.bodyEnd
  inside : ∀ c ∈ Text.slice t b.bodyStart b.bodyEnd, c ≠ ';' ∧ c ≠ '\n'
  maximal : ∀ j, b.bodyEnd < j → j ≤ t.length →
    ∃ c ∈ Text.slice t b.bodyStart j, c = ';' ∨ c = '\n'
  stop_eq : b.stop = if t[b.bodyEnd]? = some ';' then b.bodyEnd + 1 else b.bodyEnd

theorem openBrace?_eq_some_iff : openBrace? t stop = some i ↔
    stop ≤ i ∧ t[i]? = some '{' ∧ ∀ c ∈ Text.slice t stop i, c ≠ '{' ∧ c ≠ ';' := by
  unfold openBrace?
  rw [Option.filter_eq_some_iff, Text.indexFrom?_eq_some_iff, standsAt_singleton]
  simp only [Bool.or_eq_false_iff, beq_eq_false_iff_ne]
  constructor
  · rintro ⟨⟨hle, -, hbefore⟩, hopen⟩
    exact ⟨hle, hopen, hbefore⟩
  · rintro ⟨hle, hopen, hbefore⟩
    exact ⟨⟨hle, ⟨'{', hopen, by decide⟩, hbefore⟩, hopen⟩

theorem semicolon_of_openBrace?_eq_none (h : openBrace? t stop = none) (hle : stop ≤ i)
    (hopen : t[i]? = some '{') : ';' ∈ Text.slice t stop i := by
  unfold openBrace? at h
  cases hindex : Text.indexFrom? (fun c => c == '{' || c == ';') t stop with
  | none =>
    have := Text.indexFrom?_eq_none_iff.1 hindex i '{' hle hopen
    simp at this
  | some j =>
    rw [hindex, Option.filter_some] at h
    obtain ⟨hstop, ⟨c, hc, hacc⟩, hbefore⟩ := Text.indexFrom?_eq_some_iff.1 hindex
    have hnot : standsAt ['{'] t j ≠ true := fun hs => by rw [if_pos hs] at h; simp at h
    rw [Ne, standsAt_singleton] at hnot
    -- the first of the two characters is a semicolon, and so the brace comes behind it
    have hsemi : t[j]? = some ';' := by
      rcases Bool.or_eq_true _ _ ▸ hacc with hacc | hacc
      · exact absurd (beq_iff_eq.1 hacc ▸ hc) hnot
      · exact beq_iff_eq.1 hacc ▸ hc
    have hne : j ≠ i := fun heq => by rw [heq] at hnot; exact hnot hopen
    have hji : j < i := by
      by_contra hge
      have hmem : '{' ∈ Text.slice t stop j := Text.mem_slice_iff.2 ⟨i, hle, by omega, hopen⟩
      simpa using hbefore _ hmem
    exact Text.mem_slice_iff.2 ⟨j, hstop, hji, hsemi⟩

/-- **Without an arrow expression the body is between braces, or there is none.** -/
theorem enclosed_cases (t : Text) (stop : Nat) :
    (enclosed t stop).IsEnclosed t stop ∨ (enclosed t stop).IsBodiless t stop := by
  unfold enclosed
  cases hopen : openBrace? t stop with
  | none =>
    exact Or.inr ⟨rfl, fun i hle hi => semicolon_of_openBrace?_eq_none hopen hle hi⟩
  | some i =>
    obtain ⟨hle, hbrace, hbefore⟩ := openBrace?_eq_some_iff.1 hopen
    left
    simp only
    cases hmatch : matchingBrace? t i with
    | none =>
      refine ⟨Nat.lt_succ_of_le hle, hbrace, hbefore, Or.inr ⟨fun j hj hclose hword => ?_, rfl, rfl⟩⟩
      have hfirst := (closes_first_iff hbrace).2 ⟨hj, hclose, hword⟩
      exact (matchingBrace?_eq_none_iff t i).1 hmatch j hfirst.1
    | some j =>
      obtain ⟨hij, hclose, hword⟩ :=
        (closes_first_iff hbrace).1 ((matchingBrace?_eq_some_iff t i j).1 hmatch)
      exact ⟨Nat.lt_succ_of_le hle, hbrace, hbefore, Or.inl ⟨hij, hclose, rfl, hword⟩⟩

theorem expression_isExpression (h : place ≤ t.length) :
    (expression t place).IsExpression t place := by
  unfold expression
  cases hindex : Text.indexFrom? (fun c => c == ';' || c == '\n') t place with
  | none =>
    have hnone := Text.indexFrom?_eq_none_iff.1 hindex
    refine ⟨rfl, h, fun c hc => ?_, fun j hj hle => ?_, ?_⟩
    · obtain ⟨k, hk, -, hget⟩ := Text.mem_slice_iff.1 hc
      simpa using hnone k c hk hget
    · exact absurd hle (Nat.not_le.2 hj)
    · simp only [Option.getD_none, standsAt_singleton]
  | some j =>
    obtain ⟨hle, ⟨c, hc, hacc⟩, hbefore⟩ := Text.indexFrom?_eq_some_iff.1 hindex
    refine ⟨rfl, hle, fun d hd => by simpa using hbefore d hd, fun k hk _ => ?_, ?_⟩
    · exact ⟨c, Text.mem_slice_iff.2 ⟨j, hle, hk, hc⟩, by simpa using hacc⟩
    · simp only [Option.getD_some, standsAt_singleton]

/-- **Every body is of one of the three kinds**, and the text behind the signature tells of which. -/
theorem braced_cases (t : Text) (start stop : Nat) :
    (∃ place, ArrowExpression t start stop place ∧ (braced t start stop).IsExpression t place) ∨
      (∀ place, ¬ ArrowExpression t start stop place) ∧
        ((braced t start stop).IsEnclosed t stop ∨ (braced t start stop).IsBodiless t stop) := by
  have hsolid := solidFrom_skipBlanks t stop
  have hinside : ∀ {place : Nat}, ArrowAt t place → place + 2 ≤ t.length := by
    intro place hat
    have := (List.getElem?_eq_some_iff.1 hat.2).1
    omega
  unfold braced
  simp only
  by_cases hat : ArrowAt t (skipBlanks t stop)
  · have hbehind := solidFrom_skipBlanks t (skipBlanks t stop + 2)
    rw [if_pos ((standsAt_arrow _ _).2 hat)]
    by_cases hopen : t[skipBlanks t (skipBlanks t stop + 2)]? = some '{'
    · rw [if_pos ((standsAt_singleton _ _ _).2 hopen)]
      refine Or.inr ⟨fun place harrow => ?_, enclosed_cases t stop⟩
      cases harrow with
      | behind harrow _ hplace hnot =>
        rw [harrow.eq_skipBlanks] at hplace
        rw [hplace.eq_skipBlanks] at hnot
        exact hnot hopen
      | within _ _ hplace hnot _ =>
        rw [hplace.eq_skipBlanks] at hnot
        exact hnot hat
    · rw [if_neg fun h => hopen ((standsAt_singleton _ _ _).1 h)]
      refine Or.inl ⟨_, .behind hsolid hat hbehind hopen, expression_isExpression ?_⟩
      have := hbehind.inside
      have := hinside hat
      omega
  · rw [if_neg fun h => hat ((standsAt_arrow _ _).1 h)]
    have hcond : (Text.slice t (max start (stop - 2)) stop == ['=', '>'] &&
        !standsAt ['{'] t (skipBlanks t stop)) = true ↔
          (start + 2 ≤ stop ∧ ArrowAt t (stop - 2)) ∧ t[skipBlanks t stop]? ≠ some '{' := by
      rw [Bool.and_eq_true, beq_iff_eq, slice_eq_arrow_iff, Bool.not_eq_true',
        ← Bool.not_eq_true, standsAt_singleton]
    by_cases hwithin : (start + 2 ≤ stop ∧ ArrowAt t (stop - 2)) ∧ t[skipBlanks t stop]? ≠ some '{'
    · rw [if_pos (hcond.2 hwithin)]
      obtain ⟨⟨hle, hend⟩, hopen⟩ := hwithin
      refine Or.inl ⟨_, .within hle hend hsolid hat hopen, expression_isExpression ?_⟩
      have := hsolid.inside
      have := hinside hend
      omega
    · rw [if_neg fun h => hwithin (hcond.1 h)]
      refine Or.inr ⟨fun place harrow => ?_, enclosed_cases t stop⟩
      cases harrow with
      | behind harrow harrowAt _ _ =>
        rw [harrow.eq_skipBlanks] at harrowAt
        exact hat harrowAt
      | within hle hend hplace _ hopen =>
        rw [hplace.eq_skipBlanks] at hopen
        exact hwithin ⟨⟨hle, hend⟩, hopen⟩

/-- **The body behind a signature is exact.** For every text and every signature in it: if an arrow
expression follows, the body is that expression, up to a semicolon or a line end. If not, the body runs from
the first opening brace over a brace word to its closing brace, or to the end of the text if there is no such
brace; and there is no body if a semicolon comes before every opening brace. The search for the closing brace
gives, from any place, the first place that closes, and nothing exactly if none does. -/
theorem braced_exact (t : Text) (start stop : Nat) :
    ((∃ place, ArrowExpression t start stop place ∧ (braced t start stop).IsExpression t place) ∨
      (∀ place, ¬ ArrowExpression t start stop place) ∧
        ((braced t start stop).IsEnclosed t stop ∨ (braced t start stop).IsBodiless t stop)) ∧
    (∀ i j, matchingBrace? t i = some j ↔ Closes t i j ∧ ∀ k, k < j → ¬ Closes t i k) ∧
    (∀ i, matchingBrace? t i = none ↔ ∀ j, ¬ Closes t i j) ∧
    ∀ i j, t[i]? = some '{' → (matchingBrace? t i = some j ↔
      i < j ∧ t[j]? = some '}' ∧ BraceWord (Text.slice t (i + 1) j)) := by
  refine ⟨braced_cases t start stop, matchingBrace?_eq_some_iff t, matchingBrace?_eq_none_iff t,
    fun i j hopen => ?_⟩
  rw [matchingBrace?_eq_some_iff, closes_first_iff hopen]

end CodeSurvey.Block
