import Mathlib.Data.List.Basic
import CodeSurvey.Source.Brackets

/-!
# Bracket depth of texts put together

Depth, top-level places and top-level pieces of a text are those of its parts, the second part read
from the depth and the character at which the first one ends. The character in front matters only
where it can make an angle part of an arrow.

* `finalDepth_append`, `indexFrom?_append`: two parts.
* `finalDepth_fresh`, `indexFrom?_fresh`: the character in front does not matter.
* `index?_append_mark`: no place is made where two texts meet.
* `splitFrom_append`: the last piece of the first part and the first one of the second are one piece.
* `split_of_depth_zero`: a comma at depth zero cuts between the pieces of its two sides.
-/

namespace CodeSurvey.Brackets

/-- The last character of a text, or the one in front of it. -/
def lastOf (previous : Option Char) : Text → Option Char
  | [] => previous
  | c :: rest => lastOf (some c) rest

/-- A character in front that does not make an angle behind it part of an arrow, nor an equals sign
part of a comparison. -/
def Fresh (previous : Option Char) : Prop :=
  ∀ c ∈ ['=', '-', '!', '<', '>'], previous ≠ some c

/-- A character that is no bracket. -/
abbrev Plain (c : Char) : Prop :=
  c ∉ ['(', '[', '{', '<', ')', ']', '}', '>']

variable {previous : Option Char} {depth place : Nat} {accepts : PlaceTest} {a b t : Text}

theorem fresh_some {x : Char} (h : x ∉ ['=', '-', '!', '<', '>']) : Fresh (some x) := by
  rintro c hc ⟨⟩
  exact h hc

theorem lastOf_append (a b : Text) : ∀ previous,
    lastOf previous (a ++ b) = lastOf (lastOf previous a) b := by
  induction a with
  | nil => intro previous; rfl
  | cons c rest ih => intro previous; exact ih _

theorem finalDepth_append (a b : Text) : ∀ previous depth,
    finalDepth previous depth (a ++ b)
      = finalDepth (lastOf previous a) (finalDepth previous depth a) b := by
  induction a with
  | nil => intro previous depth; rfl
  | cons c rest ih => intro previous depth; exact ih _ _

/-- A first accepted place of two parts is one of the first part or else one of the second. The test
must not see the second part from the first. -/
theorem indexFrom?_append (hb : ∀ p c, accepts p c b.head? = accepts p c none) (a : Text) :
    ∀ previous depth place, indexFrom? accepts previous depth place (a ++ b)
      = (indexFrom? accepts previous depth place a).or
          (indexFrom? accepts (lastOf previous a) (finalDepth previous depth a)
            (place + a.length) b) := by
  induction a with
  | nil => intro previous depth place; simp [indexFrom?, lastOf, finalDepth]
  | cons c rest ih =>
    intro previous depth place
    have hhead : accepts previous c (rest ++ b).head? = accepts previous c rest.head? := by
      cases rest with
      | nil => exact hb _ _
      | cons x xs => rfl
    simp only [List.cons_append, indexFrom?, hhead]
    split
    · rfl
    · rw [ih, lastOf, finalDepth, List.length_cons]
      congr 2
      omega

theorem Fresh.isCloser_eq (h : Fresh previous) (c : Char) :
    isCloser previous c = isCloser none c := by
  have h1 : (previous == some '=') = false := by simpa using h '=' (by simp)
  have h2 : (previous == some '-') = false := by simpa using h '-' (by simp)
  simp [isCloser, h1, h2]

theorem Fresh.isAssignment_eq (h : Fresh previous) (c : Char) (next : Option Char) :
    isAssignment previous c next = isAssignment none c next := by
  have h1 : (previous == some '=') = false := by simpa using h '=' (by simp)
  have h2 : (previous == some '!') = false := by simpa using h '!' (by simp)
  have h3 : (previous == some '<') = false := by simpa using h '<' (by simp)
  have h4 : (previous == some '>') = false := by simpa using h '>' (by simp)
  simp [isAssignment, h1, h2, h3, h4]

theorem Fresh.depthAfter_eq (h : Fresh previous) (depth : Nat) (c : Char) :
    depthAfter previous depth c = depthAfter none depth c := by
  simp only [depthAfter, h.isCloser_eq]

theorem finalDepth_fresh (h : Fresh previous) (depth : Nat) (t : Text) :
    finalDepth previous depth t = finalDepth none depth t := by
  cases t with
  | nil => rfl
  | cons c rest => simp only [finalDepth, h.depthAfter_eq]

theorem indexFrom?_fresh (h : Fresh previous)
    (haccepts : ∀ c next, accepts previous c next = accepts none c next) (depth place : Nat)
    (t : Text) :
    indexFrom? accepts previous depth place t = indexFrom? accepts none depth place t := by
  cases t with
  | nil => rfl
  | cons c rest => simp only [indexFrom?, h.isCloser_eq, h.depthAfter_eq, haccepts]

/-- Where the place is counted from does not matter to whether there is one. -/
theorem indexFrom?_place_none (t : Text) : ∀ {previous depth place} (place' : Nat),
    indexFrom? accepts previous depth place t = none →
      indexFrom? accepts previous depth place' t = none := by
  induction t with
  | nil => intro previous depth place place' _; rfl
  | cons c rest ih =>
    intro previous depth place place' h
    unfold indexFrom? at h ⊢
    split at h
    · simp at h
    · rename_i hc
      rw [if_neg hc]
      exact ih _ h

theorem Plain.depthAfter_eq {c : Char} (h : Plain c) (previous : Option Char) (depth : Nat) :
    depthAfter previous depth c = depth := by
  simp only [Plain, List.mem_cons, List.not_mem_nil, or_false, not_or] at h
  simp [depthAfter, isOpener, isCloser, h]

/-- Characters that are no brackets keep the depth. -/
theorem finalDepth_of_plain (h : ∀ c ∈ t, Plain c) :
    ∀ previous depth, finalDepth previous depth t = depth := by
  induction t with
  | nil => intro previous depth; rfl
  | cons c rest ih =>
    intro previous depth
    simp only [finalDepth, (h c List.mem_cons_self).depthAfter_eq]
    exact ih (fun x hx => h x (List.mem_cons_of_mem _ hx)) _ _

theorem indexFrom?_of_forall (h : ∀ c ∈ t, ∀ p n, accepts p c n = false) :
    ∀ previous depth place, indexFrom? accepts previous depth place t = none := by
  induction t with
  | nil => intro previous depth place; rfl
  | cons c rest ih =>
    intro previous depth place
    unfold indexFrom?
    simp only [h c List.mem_cons_self, Bool.and_false, Bool.false_eq_true, if_false]
    exact ih (fun x hx => h x (List.mem_cons_of_mem _ hx)) _ _ _

/-- A stretch without brackets and without accepted characters is passed over. -/
theorem indexFrom?_skip (h : ∀ c ∈ a, Plain c ∧ ∀ p n, accepts p c n = false) (b : Text) :
    ∀ previous depth place, indexFrom? accepts previous depth place (a ++ b)
      = indexFrom? accepts (lastOf previous a) depth (place + a.length) b := by
  induction a with
  | nil => intro previous depth place; rfl
  | cons c rest ih =>
    intro previous depth place
    obtain ⟨hplain, hrefused⟩ := h c List.mem_cons_self
    rw [List.cons_append, indexFrom?, hplain.depthAfter_eq]
    simp only [hrefused, Bool.and_false, Bool.false_eq_true, if_false]
    rw [ih fun x hx => h x (List.mem_cons_of_mem _ hx)]
    simp only [lastOf, List.length_cons]
    congr 1
    omega

/-- **A mark between two texts without an accepted place makes none**, if it ends in a space and holds no
bracket and nothing that is accepted. The test must see the mark from the first text, and the space
from the second, as it sees nothing. -/
theorem index?_append_mark (mark : Text)
    (hmark : ∀ c ∈ mark ++ [' '], Plain c ∧ ∀ p n, accepts p c n = false)
    (hnext : ∀ p c, accepts p c (mark ++ [' ']).head? = accepts p c none)
    (hspace : ∀ c n, accepts (some ' ') c n = accepts none c n) (hdepth : finalDepth none 0 a = 0)
    (ha : index? accepts a = none) (hb : index? accepts b = none) :
    index? accepts (a ++ (mark ++ ' ' :: b)) = none := by
  have hjoin : a ++ (mark ++ ' ' :: b) = a ++ (mark ++ [' '] ++ b) := by simp
  have hseen : ∀ p c, accepts p c (mark ++ [' '] ++ b).head? = accepts p c none := by
    rw [List.head?_append_of_ne_nil _ (by simp)]
    exact hnext
  have hlast : lastOf (lastOf none a) (mark ++ [' ']) = some ' ' := by
    rw [lastOf_append]
    rfl
  unfold index? at ha hb ⊢
  rw [hjoin, indexFrom?_append hseen, ha, Option.none_or, hdepth, indexFrom?_skip hmark, hlast,
    indexFrom?_fresh (fresh_some (by decide)) hspace]
  exact indexFrom?_place_none b _ hb

/-! ## Splitting -/

/-- A comma. -/
def isComma : PlaceTest := fun _ c _ => c == ','

theorem splitFrom_ne_nil (separator : Char) (t : Text) : ∀ previous depth,
    splitFrom separator previous depth t ≠ [] := by
  cases t with
  | nil => intro previous depth; simp [splitFrom]
  | cons c rest =>
    intro previous depth
    unfold splitFrom
    simp only
    split
    · simp
    · split <;> simp

/-- One character more in front separates, or it goes to the first piece. -/
theorem splitFrom_cons (separator : Char) (previous : Option Char) (depth : Nat) (c : Char) (rest : Text) :
    splitFrom separator previous depth (c :: rest) =
      if c = separator ∧ depthAfter previous depth c = 0 then
        [] :: splitFrom separator (some c) (depthAfter previous depth c) rest
      else (splitFrom separator (some c) (depthAfter previous depth c) rest).modifyHead (c :: ·) := by
  rw [splitFrom]
  cases hsplit : splitFrom separator (some c) (depthAfter previous depth c) rest with
  | nil => exact absurd hsplit (splitFrom_ne_nil _ _ _ _)
  | cons piece pieces => simp only [Bool.and_eq_true, beq_iff_eq, List.modifyHead_cons]

/-- **The pieces of two parts**: the last one of the first part and the first one of the second are one piece. -/
theorem splitFrom_append (separator : Char) (a b : Text) : ∀ previous depth, ∃ front x y back,
    splitFrom separator previous depth a = front ++ [x] ∧
    splitFrom separator (lastOf previous a) (finalDepth previous depth a) b = y :: back ∧
    splitFrom separator previous depth (a ++ b) = front ++ (x ++ y) :: back := by
  induction a with
  | nil =>
    intro previous depth
    obtain ⟨y, back, hb⟩ := List.exists_cons_of_ne_nil (splitFrom_ne_nil separator b previous depth)
    exact ⟨[], [], y, back, rfl, hb, hb⟩
  | cons c rest ih =>
    intro previous depth
    obtain ⟨front, x, y, back, hrest, hb, hjoined⟩ := ih (some c) (depthAfter previous depth c)
    rw [List.cons_append, splitFrom_cons, splitFrom_cons, hrest, hjoined]
    split
    · exact ⟨[] :: front, x, y, back, rfl, hb, rfl⟩
    · -- the character goes to the first piece, which is the last one as well if there is no other
      cases front with
      | nil => exact ⟨[], c :: x, y, back, rfl, hb, rfl⟩
      | cons piece front => exact ⟨(c :: piece) :: front, x, y, back, rfl, hb, rfl⟩

/-- What follows a comma is split as if nothing stood in front of it. -/
theorem splitFrom_fresh (h : Fresh previous) (separator : Char) (depth : Nat) (t : Text) :
    splitFrom separator previous depth t = splitFrom separator none depth t := by
  cases t with
  | nil => rfl
  | cons c rest => simp only [splitFrom, h.depthAfter_eq]

/-- A comma separates at depth zero, and goes to the first piece otherwise. -/
theorem splitFrom_comma_cons (previous : Option Char) (depth : Nat) (b : Text) :
    splitFrom ',' previous depth (',' :: b) = if depth = 0 then [] :: splitFrom ',' none depth b
      else (splitFrom ',' none depth b).modifyHead (',' :: ·) := by
  have hcomma : depthAfter previous depth ',' = depth := Plain.depthAfter_eq (by decide) _ _
  have hfresh : Fresh (some ',') := fresh_some (by decide)
  rw [splitFrom_cons, hcomma, splitFrom_fresh hfresh]
  simp only [true_and]

/-- **A comma at depth zero cuts**, whatever stands on its two sides. -/
theorem split_of_depth_zero (hdepth : finalDepth none 0 a = 0) (b : Text) :
    split ',' (a ++ ',' :: b) = split ',' a ++ split ',' b := by
  obtain ⟨front, x, y, back, ha, hb, hjoined⟩ := splitFrom_append ',' a (',' :: b) none 0
  rw [hdepth, splitFrom_comma_cons, if_pos rfl, List.cons.injEq] at hb
  unfold split
  rw [hjoined, ha, ← hb.1, hb.2, List.append_nil, List.append_assoc]
  rfl

/-- A text without a top-level comma is one piece. -/
theorem splitFrom_comma (a : Text) : ∀ {previous depth place},
    indexFrom? isComma previous depth place a = none → splitFrom ',' previous depth a = [a] := by
  induction a with
  | nil => exact fun _ => rfl
  | cons c rest ih =>
    intro previous depth place hnone
    unfold indexFrom? at hnone
    split at hnone
    · simp at hnone
    · rename_i hc
      -- the first character is no comma at depth zero
      have hcut : ¬ (c = ',' ∧ depthAfter previous depth c = 0) := by
        rintro ⟨rfl, hdepth⟩
        rw [Plain.depthAfter_eq (by decide)] at hdepth
        simp [isOpener, isCloser, isComma, hdepth] at hc
      rw [splitFrom_cons, ih hnone, if_neg hcut]
      rfl

/-- Up to the first comma at depth zero there is one piece. -/
theorem split_append (hnone : index? isComma a = none) (hdepth : finalDepth none 0 a = 0)
    (b : Text) :
    split ',' (a ++ ',' :: b) = a :: split ',' b := by
  have hone : split ',' a = [a] := splitFrom_comma a hnone
  rw [split_of_depth_zero hdepth, hone]
  rfl

end CodeSurvey.Brackets
