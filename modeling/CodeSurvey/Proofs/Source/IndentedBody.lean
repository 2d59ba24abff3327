import CodeSurvey.Proofs.Source.Block
import CodeSurvey.Proofs.Text.LineCut

/-!
# The body told by indentation

Which lines are the body behind a signature, told without the search for them: by the first line that is not
blank, by the first one that is indented less, and by the last one in front of that which is not blank.

* `SolidAt`: a line that is not blank, with its indentation.
* `FirstSolid`, `DeepUntil`, `LastSolid`: the three lines that tell a body.
* `BodyLines`, `NoBodyLines`: lines that hold a body, and lines that hold none.
* `contentEnd?_cases`: the search ends where the body does.
* `indented_stop`: where a block ends, by the numbers of lines.
* `indented_exact`: the body behind a signature is made of the lines of its body.
-/

namespace CodeSurvey.Block

variable {t l : Text} {ls : List Text} {outer width i j k m v w place start stop : Nat} {last : Option Nat}

/-! ## Lines that are not blank -/

/-- Line `i` is not blank, and its indentation is `width`. -/
def SolidAt (ls : List Text) (i width : Nat) : Prop :=
  ∃ l, ls[i]? = some l ∧ isBlankLine l = false ∧ Text.indentWidth l = width

theorem solidAt_zero : SolidAt (l :: ls) 0 v ↔ isBlankLine l = false ∧ Text.indentWidth l = v := by
  unfold SolidAt
  simp

theorem solidAt_succ : SolidAt (l :: ls) (i + 1) v ↔ SolidAt ls i v := by
  unfold SolidAt
  simp

theorem solidAt_drop (n : Nat) : SolidAt (ls.drop n) i v ↔ SolidAt ls (n + i) v := by
  unfold SolidAt
  simp

/-- Behind a blank line, the lines that are not blank are those that follow. -/
theorem SolidAt.exists_of_blank (hl : isBlankLine l = true) (h : SolidAt (l :: ls) i v) :
    ∃ n, i = n + 1 ∧ SolidAt ls n v := by
  cases i with
  | zero =>
    rw [solidAt_zero, hl] at h
    cases h.1
  | succ n => exact ⟨n, rfl, solidAt_succ.1 h⟩

theorem SolidAt.lt (h : SolidAt ls i v) : i < ls.length := by
  obtain ⟨l, hl, -⟩ := h
  exact (List.getElem?_eq_some_iff.1 hl).1

theorem SolidAt.unique (h : SolidAt ls i v) (h' : SolidAt ls i w) : v = w := by
  obtain ⟨l, hl, -, rfl⟩ := h
  obtain ⟨l', hl', -, rfl⟩ := h'
  rw [hl] at hl'
  cases hl'
  rfl

/-- Line `k`, with this indentation, is the first that is not blank. -/
structure FirstSolid (ls : List Text) (k width : Nat) : Prop where
  solid : SolidAt ls k width
  before : ∀ i v, i < k → ¬ SolidAt ls i v

/-- Line `m` is the first that is not blank and is indented by less than `width`; or there is none, and `m` is
the number of all lines. -/
structure DeepUntil (width : Nat) (ls : List Text) (m : Nat) : Prop where
  deep : ∀ i v, i < m → SolidAt ls i v → width ≤ v
  stop : m = ls.length ∨ ∃ v, v < width ∧ SolidAt ls m v

/-- Line `j` is the last in front of line `m` that is not blank. -/
structure LastSolid (ls : List Text) (m j : Nat) : Prop where
  lt : j < m
  solid : ∃ v, SolidAt ls j v
  behind : ∀ i v, j < i → i < m → ¬ SolidAt ls i v

/-- **Lines that hold a body**, up to line `j`: the first line that is not blank is indented deeper than `outer`,
and `j` is the last line that is not blank before one is indented less than the first. -/
structure BodyLines (outer : Nat) (ls : List Text) (width k m j : Nat) : Prop where
  first : FirstSolid ls k width
  deeper : outer < width
  deepUntil : DeepUntil width ls m
  last : LastSolid ls m j

/-- **Lines that hold no body**: all are blank, or the first that is not is indented no deeper than `outer`. -/
def NoBodyLines (outer : Nat) (ls : List Text) : Prop :=
  (∀ i v, ¬ SolidAt ls i v) ∨ ∃ k width, FirstSolid ls k width ∧ width ≤ outer

theorem FirstSolid.unique (h : FirstSolid ls k v) (h' : FirstSolid ls m w) : v = w := by
  rcases Nat.lt_trichotomy k m with hlt | rfl | hgt
  · exact absurd h.solid (h'.before k v hlt)
  · exact h.solid.unique h'.solid
  · exact absurd h'.solid (h.before m w hgt)

/-- Lines that hold a body do not hold none. -/
theorem BodyLines.not_noBodyLines (h : BodyLines outer ls width k m j) : ¬ NoBodyLines outer ls := by
  rintro (hblank | ⟨k', width', hfirst, hle⟩)
  · exact hblank k width h.first.solid
  · have hwidth := h.first.unique hfirst
    have hdeeper := h.deeper
    omega

/-! ## One line more in front -/

theorem FirstSolid.cons (hl : isBlankLine l = true) (h : FirstSolid ls k width) :
    FirstSolid (l :: ls) (k + 1) width := by
  refine ⟨solidAt_succ.2 h.solid, fun i v hi hsolid => ?_⟩
  obtain ⟨n, rfl, hsolid⟩ := hsolid.exists_of_blank hl
  exact h.before n v (by omega) hsolid

theorem DeepUntil.cons (hl : isBlankLine l = false → width ≤ Text.indentWidth l)
    (h : DeepUntil width ls m) : DeepUntil width (l :: ls) (m + 1) := by
  refine ⟨fun i v hi hsolid => ?_, ?_⟩
  · cases i with
    | zero =>
      obtain ⟨hblank, rfl⟩ := solidAt_zero.1 hsolid
      exact hl hblank
    | succ i => exact h.deep i v (by omega) (solidAt_succ.1 hsolid)
  · rcases h.stop with rfl | ⟨v, hv, hsolid⟩
    · exact Or.inl rfl
    · exact Or.inr ⟨v, hv, solidAt_succ.2 hsolid⟩

theorem LastSolid.cons (l : Text) (h : LastSolid ls m j) : LastSolid (l :: ls) (m + 1) (j + 1) := by
  obtain ⟨v, hsolid⟩ := h.solid
  refine ⟨Nat.succ_lt_succ h.lt, ⟨v, solidAt_succ.2 hsolid⟩, fun i v hj hi hsolid => ?_⟩
  cases i with
  | zero => omega
  | succ i => exact h.behind i v (by omega) (by omega) (solidAt_succ.1 hsolid)

theorem NoBodyLines.cons (hl : isBlankLine l = true) (h : NoBodyLines outer ls) :
    NoBodyLines outer (l :: ls) := by
  rcases h with hblank | ⟨k, width, hfirst, hle⟩
  · refine Or.inl fun i v hsolid => ?_
    obtain ⟨n, rfl, hsolid⟩ := hsolid.exists_of_blank hl
    exact hblank n v hsolid
  · exact Or.inr ⟨k + 1, width, hfirst.cons hl, hle⟩

/-! ## Where the search ends -/

/-- Where line `j` ends, if the first line starts at `place`. -/
def reach (place : Nat) (ls : List Text) (j : Nat) : Nat :=
  place + (Text.joinLines (ls.take (j + 1))).length

theorem reach_zero (place : Nat) (l : Text) (ls : List Text) : reach place (l :: ls) 0 = place + l.length := by
  simp [reach, Text.joinLines, Text.join_singleton]

theorem reach_succ (place : Nat) (l : Text) (hj : j < ls.length) :
    reach place (l :: ls) (j + 1) = reach (place + l.length + 1) ls j := by
  have hne : ls.take (j + 1) ≠ [] := by
    rw [Ne, List.take_eq_nil_iff, not_or]
    exact ⟨Nat.succ_ne_zero j, List.ne_nil_of_length_pos (by omega)⟩
  rw [reach, reach, List.take_succ_cons, Text.joinLines_cons l hne, List.length_append, List.length_cons]
  omega

/-- **What the search finds behind the first line of a body**, with `last` the end of the body so far: the end
of the last line that is not blank, if there is one in front of line `m`. -/
def Finds (ls : List Text) (m place : Nat) (last found : Option Nat) : Prop :=
  (∀ i v, i < m → ¬ SolidAt ls i v) ∧ found = last ∨
    ∃ j, LastSolid ls m j ∧ found = some (reach place ls j)

/-- A blank line in front changes nothing. -/
theorem Finds.blank {found : Option Nat} (hl : isBlankLine l = true)
    (h : Finds ls m (place + l.length + 1) last found) : Finds (l :: ls) (m + 1) place last found := by
  rcases h with ⟨hnone, heq⟩ | ⟨j, hlast, heq⟩
  · refine Or.inl ⟨fun i v hi hsolid => ?_, heq⟩
    obtain ⟨n, rfl, hsolid⟩ := hsolid.exists_of_blank hl
    exact hnone n v (by omega) hsolid
  · obtain ⟨v, hsolid⟩ := hlast.solid
    exact Or.inr ⟨j + 1, hlast.cons l, by rw [heq, reach_succ place l hsolid.lt]⟩

/-- A line in front that is not blank is the last one if no other follows. -/
theorem Finds.solid {found : Option Nat} (hl : isBlankLine l = false)
    (h : Finds ls m (place + l.length + 1) (some (place + l.length)) found) :
    ∃ j, LastSolid (l :: ls) (m + 1) j ∧ found = some (reach place (l :: ls) j) := by
  rcases h with ⟨hnone, heq⟩ | ⟨j, hlast, heq⟩
  · refine ⟨0, ⟨Nat.succ_pos m, ⟨_, solidAt_zero.2 ⟨hl, rfl⟩⟩, fun i v hi him hsolid => ?_⟩, ?_⟩
    · obtain ⟨n, rfl⟩ : ∃ n, i = n + 1 := ⟨i - 1, by omega⟩
      exact hnone n v (by omega) (solidAt_succ.1 hsolid)
    · rw [heq, reach_zero]
  · obtain ⟨v, hsolid⟩ := hlast.solid
    exact ⟨j + 1, hlast.cons l, by rw [heq, reach_succ place l hsolid.lt]⟩

/-- Behind the first line of a body, the search runs to the first line that is indented less. -/
theorem contentEnd?_behind (outer width : Nat) (ls : List Text) : ∀ (last : Option Nat) (place : Nat),
    ∃ m, DeepUntil width ls m ∧ Finds ls m place last (contentEnd? outer (some width) last place ls) := by
  induction ls with
  | nil =>
    intro last place
    exact ⟨0, ⟨fun i v hi _ => by omega, Or.inl rfl⟩, Or.inl ⟨fun i v hi _ => by omega, rfl⟩⟩
  | cons l ls ih =>
    intro last place
    by_cases hblank : isBlankLine l = true
    · rw [contentEnd?, if_pos hblank]
      obtain ⟨m, hdeep, hfinds⟩ := ih last (place + l.length + 1)
      refine ⟨m + 1, hdeep.cons fun h => ?_, hfinds.blank hblank⟩
      rw [hblank] at h
      cases h
    · rw [contentEnd?, if_neg hblank]
      rw [Bool.not_eq_true] at hblank
      simp only
      by_cases hless : Text.indentWidth l < width
      · -- the body has ended in front of this line
        rw [if_pos hless]
        refine ⟨0, ⟨fun i v hi _ => by omega, Or.inr ⟨_, hless, solidAt_zero.2 ⟨hblank, rfl⟩⟩⟩, ?_⟩
        exact Or.inl ⟨fun i v hi _ => by omega, rfl⟩
      · rw [if_neg hless]
        obtain ⟨m, hdeep, hfinds⟩ := ih (some (place + l.length)) (place + l.length + 1)
        exact ⟨m + 1, hdeep.cons fun _ => Nat.le_of_not_lt hless, Or.inr (hfinds.solid hblank)⟩

/-- **The search ends where the body does**, and finds nothing where there is none. -/
theorem contentEnd?_cases (outer : Nat) (ls : List Text) : ∀ place,
    NoBodyLines outer ls ∧ contentEnd? outer none none place ls = none ∨
      ∃ width k m j, BodyLines outer ls width k m j ∧
        contentEnd? outer none none place ls = some (reach place ls j) := by
  induction ls with
  | nil =>
    intro place
    refine Or.inl ⟨Or.inl fun i v hsolid => ?_, rfl⟩
    exact absurd hsolid.lt (Nat.not_lt_zero i)
  | cons l ls ih =>
    intro place
    by_cases hblank : isBlankLine l = true
    · rw [contentEnd?, if_pos hblank]
      rcases ih (place + l.length + 1) with ⟨hnone, heq⟩ | ⟨width, k, m, j, hbody, heq⟩
      · exact Or.inl ⟨hnone.cons hblank, heq⟩
      · obtain ⟨v, hsolid⟩ := hbody.last.solid
        refine Or.inr ⟨width, k + 1, m + 1, j + 1, ?_, by rw [heq, reach_succ place l hsolid.lt]⟩
        refine ⟨hbody.first.cons hblank, hbody.deeper, hbody.deepUntil.cons fun h => ?_, hbody.last.cons l⟩
        rw [hblank] at h
        cases h
    · rw [contentEnd?, if_neg hblank]
      rw [Bool.not_eq_true] at hblank
      simp only
      have hfirst : FirstSolid (l :: ls) 0 (Text.indentWidth l) :=
        ⟨solidAt_zero.2 ⟨hblank, rfl⟩, fun i v hi _ => by omega⟩
      by_cases hle : Text.indentWidth l ≤ outer
      · rw [if_pos hle]
        exact Or.inl ⟨Or.inr ⟨0, _, hfirst, hle⟩, rfl⟩
      · rw [if_neg hle]
        obtain ⟨m, hdeep, hfinds⟩ := contentEnd?_behind outer (Text.indentWidth l) ls
          (some (place + l.length)) (place + l.length + 1)
        obtain ⟨j, hlast, heq⟩ := hfinds.solid hblank
        refine Or.inr ⟨_, 0, m + 1, j, ⟨hfirst, by omega, hdeep.cons fun _ => Nat.le_refl _, hlast⟩, heq⟩

/-! ## The block behind a signature -/

/-- The search does not tell a text that ends with a line from one that goes on with an empty line. -/
theorem contentEnd?_lines_joinLines (outer place : Nat) (hls : ∀ l ∈ ls, '\n' ∉ l) :
    contentEnd? outer none none place (Text.lines (Text.joinLines ls))
      = contentEnd? outer none none place ls := by
  cases ls with
  | nil => rfl
  | cons l ls => rw [Text.lines_joinLines (by simp) hls]

/-- Nothing but a comment stands on the rest of a line. -/
def Bare (rest : Text) : Prop :=
  isBlankLine rest = true ∨ ∃ x, Text.trim rest = '#' :: x

theorem bare_iff (rest : Text) :
    Bare rest ↔ ¬ (!(Text.trim rest).isEmpty && !standsAt ['#'] (Text.trim rest) 0) = true := by
  unfold Bare isBlankLine standsAt
  cases Text.trim rest with
  | nil => simp
  | cons c x =>
    by_cases hc : c = '#'
    · simp [hc]
    · simp [hc, Ne.symm hc]

/-- A block whose body stands on the line of the signature ends with the line. -/
theorem indented_stop_of_not_bare (hrest : ¬ Bare (Text.slice t stop (Text.lineEnd t stop))) :
    (indented t start stop).stop = Text.lineEnd t stop := by
  rw [bare_iff, Classical.not_not] at hrest
  simp only [indented]
  rw [if_pos hrest]

/-- With nothing behind the signature on its line, the body is made of lines behind it, or there is none. -/
theorem indented_cases (hstart : start ≤ t.length) (hstop : stop ≤ t.length)
    (hbare : Bare (Text.slice t stop (Text.lineEnd t stop))) :
    let outer := Text.indentWidth (Text.lineAt t start)
    let behind := Text.linesBehind t stop
    let first := Text.lineEnd t stop + 1
    NoBodyLines outer behind ∧ indented t start stop = ⟨stop, stop, Text.lineEnd t stop⟩ ∨
      ∃ width k m j, BodyLines outer behind width k m j ∧
        indented t start stop = ⟨first, reach first behind j, reach first behind j⟩ := by
  intro outer behind first
  have hends : ∀ l ∈ behind, '\n' ∉ l := fun l hl =>
    Text.no_end_of_mem_lines t l ((List.drop_sublist _ _).subset hl)
  rw [bare_iff] at hbare
  simp only [indented, Text.slice_line hstart]
  rw [if_neg hbare, Text.drop_lineEnd hstop, contentEnd?_lines_joinLines _ _ hends]
  rcases contentEnd?_cases outer behind first with ⟨hnone, hend⟩ | ⟨width, k, m, j, hbody, hend⟩
  · exact Or.inl ⟨hnone, by rw [hend]⟩
  · exact Or.inr ⟨width, k, m, j, hbody, by rw [hend]⟩

/-- **Where a block told by indentation ends**, by the numbers of lines: with the line of the signature, or with
the last line of the body. -/
theorem indented_stop (hstart : start ≤ t.length) (hstop : stop ≤ t.length) :
    (indented t start stop).stop = Text.lineStop t (Text.lineNumber t stop) ∨
      ∃ width k m j,
        BodyLines (Text.indentWidth (Text.lineAt t start)) (Text.linesBehind t stop) width k m j ∧
          (indented t start stop).bodyStart = Text.lineStop t (Text.lineNumber t stop) + 1 ∧
          (indented t start stop).stop = Text.lineStop t (Text.lineNumber t stop + (j + 1)) := by
  rw [← Text.lineEnd_eq_lineStop hstop]
  by_cases hbare : Bare (Text.slice t stop (Text.lineEnd t stop))
  · rcases indented_cases hstart hstop hbare with ⟨-, heq⟩ | ⟨width, k, m, j, hbody, heq⟩
    · exact Or.inl (by rw [heq])
    · obtain ⟨v, hsolid⟩ := hbody.last.solid
      have hlast := Text.lineStop_add hstop hsolid.lt
      exact Or.inr ⟨width, k, m, j, hbody, by rw [heq], by rw [heq, hlast, reach]⟩
  · exact Or.inl (indented_stop_of_not_bare hbare)

/-- **The body told by indentation is exact.** For every text and every signature in it with nothing but a comment
behind it on its line: if the lines behind that line hold no body, the body is empty and the block ends with the
line. Otherwise the body is made of all of them up to the last line of the body, and the block ends with it. -/
theorem indented_exact (hspan : start ≤ stop) (hstop : stop ≤ t.length)
    (hbare : Bare (Text.slice t stop (Text.lineEnd t stop))) :
    let outer := Text.indentWidth (Text.lineAt t start)
    let behind := Text.linesBehind t stop
    let eol := Text.lineEnd t stop
    (NoBodyLines outer behind → indented t start stop = ⟨stop, stop, eol⟩) ∧
      (¬ NoBodyLines outer behind →
        ∃ width k m j, BodyLines outer behind width k m j ∧ ∃ e, indented t start stop = ⟨eol + 1, e, e⟩ ∧
          Text.slice t (eol + 1) e = Text.joinLines (behind.take (j + 1)) ∧
          e = eol + 1 + (Text.joinLines (behind.take (j + 1))).length) := by
  intro outer behind eol
  rcases indented_cases (Nat.le_trans hspan hstop) hstop hbare with
    ⟨hnone, heq⟩ | ⟨width, k, m, j, hbody, heq⟩
  · exact ⟨fun _ => heq, fun h => absurd hnone h⟩
  · refine ⟨fun h => absurd h hbody.not_noBodyLines, fun _ => ⟨width, k, m, j, hbody, _, heq, ?_, rfl⟩⟩
    have hprefix : Text.joinLines (behind.take (j + 1)) <+: t.drop (eol + 1) := by
      have := Text.prefix_joinLines (behind.take (j + 1)) (behind.drop (j + 1))
      rwa [List.take_append_drop, ← Text.drop_lineEnd hstop] at this
    rw [reach, Text.slice, Nat.add_sub_cancel_left]
    exact (List.prefix_iff_eq_take.1 hprefix).symm

/-- A signature of two lines with a comment behind it; in front of the body, in it and behind it are blank lines,
some of which hold blanks. -/
theorem indented_exact_commented :
    let t := "  def f(a,\nb): # c\n\n    x\n \t\n      y\n \n  z".toList
    Bare (Text.slice t 14 (Text.lineEnd t 14)) ∧
      ∃ width k m j, BodyLines 2 (Text.linesBehind t 14) width k m j ∧
        indented t 0 14 = ⟨19, 36, 36⟩ ∧
        Text.joinLines ((Text.linesBehind t 14).take (j + 1)) = "\n    x\n \t\n      y".toList := by
  intro t
  have hbare : Bare (Text.slice t 14 (Text.lineEnd t 14)) := Or.inr ⟨" c".toList, by decide⟩
  have hspan : 0 ≤ 14 := by decide
  have hstop : 14 ≤ t.length := by decide
  have hblock : indented t 0 14 = ⟨19, 36, 36⟩ := by decide
  obtain ⟨hempty, hfull⟩ := indented_exact hspan hstop hbare
  have hnot : ¬ NoBodyLines (Text.indentWidth (Text.lineAt t 0)) (Text.linesBehind t 14) := by
    intro hnone
    exact absurd (hempty hnone) (by decide)
  obtain ⟨width, k, m, j, hbody, e, heq, hslice, -⟩ := hfull hnot
  refine ⟨hbare, width, k, m, j, hbody, hblock, ?_⟩
  obtain rfl : 36 = e := by
    rw [hblock] at heq
    exact congrArg Block.stop heq
  rw [← hslice]
  decide

end CodeSurvey.Block
