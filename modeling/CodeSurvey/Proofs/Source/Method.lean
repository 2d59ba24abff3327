import CodeSurvey.Grammar.Typed
import CodeSurvey.Proofs.Pattern.Excerpt
import CodeSurvey.Proofs.Source.Block
import CodeSurvey.Proofs.Text.NameChars

/-!
# Methods that are cut out

The signature of a method starts with modifiers, each at the edge of a word. If a text is cut in the
middle of a word, then the rest of the word stands at an edge, and may be a modifier that was none
before: in `1static f(x)` the signature is `static f(x)`, with a type called `static`.

No harm comes of it. The text already starts with a type, a name and a parameter list, and to take
the type for a modifier leaves the name alone in the place of both.

* `Text.eq_of_append_eq`: a run of accepted characters is told by the text.
* `Typed.Declares`: a text that starts with a type, a name and a parameter list.
* `Typed.not_declares`: behind a modifier, such a text does not start so once more.
* `Typed.MethodShape.first_excerpt`: a method that is cut out is read as in its text.
* `Typed.javaShape`, `Typed.csharpShape`: the two languages have such methods.
-/

namespace CodeSurvey

namespace Text

variable {accepts : Char → Bool} {x x' y y' : Text}

/-- Two ways to split a text behind a run of accepted characters are one. -/
theorem eq_of_append_eq (h : x ++ y = x' ++ y') (hx : ∀ c ∈ x, accepts c = true)
    (hx' : ∀ c ∈ x', accepts c = true) (hy : ∀ c ∈ y.head?, accepts c = false)
    (hy' : ∀ c ∈ y'.head?, accepts c = false) : x = x' ∧ y = y' := by
  have hxx : x = x' := by rw [← takeWhile_append_eq hx hy, h, takeWhile_append_eq hx' hy']
  subst hxx
  exact ⟨rfl, List.append_cancel_left h⟩

/-- What stands behind the angle that closes the first one, given how many are open. -/
def behindAngles : Nat → Text → Text
  | _, [] => []
  | depth, c :: rest =>
    if c = '<' then behindAngles (depth + 1) rest
    else if c = '>' then if depth ≤ 1 then rest else behindAngles (depth - 1) rest
    else behindAngles depth rest

theorem behindAngles_append (h : ∀ c ∈ x, c ≠ '<' ∧ c ≠ '>') (depth : Nat) (y : Text) :
    behindAngles depth (x ++ y) = behindAngles depth y := by
  induction x with
  | nil => rfl
  | cons c x ih =>
    obtain ⟨hopen, hclose⟩ := h c List.mem_cons_self
    rw [List.cons_append, behindAngles, if_neg hopen, if_neg hclose]
    exact ih fun d hd => h d (List.mem_cons_of_mem _ hd)

end Text

namespace Pattern

variable {x y y' g g' : Text}

/-- Type arguments end where their angles are balanced. -/
theorem behindAngles_generics (h : generics.Spelled g) (y : Text) :
    Text.behindAngles 0 (g ++ y) = y := by
  obtain ⟨_, _, ⟨_, _, ⟨_, p, rfl, hp, rfl⟩, ⟨pieces, hpieces, rfl⟩, rfl⟩, rfl, rfl⟩ := h
  have hplain : ∀ {z : Text}, (∀ c ∈ z, (!"<>()".toList.contains c) = true) →
      ∀ c ∈ z, c ≠ '<' ∧ c ≠ '>' := by
    intro z hz c hc
    refine ⟨?_, ?_⟩ <;> rintro rfl <;> exact absurd (hz _ hc) (by decide)
  have hflat : ∀ v, Text.behindAngles 1 (pieces.flatten ++ v) = Text.behindAngles 1 v := by
    intro v
    induction pieces with
    | nil => rfl
    | cons piece pieces ih =>
      obtain ⟨_, q', ⟨_, _, ⟨_, q, rfl, hq, rfl⟩, rfl, rfl⟩, hq', rfl⟩ :=
        hpieces piece List.mem_cons_self
      -- a piece opens one angle more and closes it
      calc Text.behindAngles 1 ((("<".toList ++ q ++ ">".toList ++ q') :: pieces).flatten ++ v)
          = Text.behindAngles 1 ('<' :: (q ++ '>' :: (q' ++ (pieces.flatten ++ v)))) := by
            congr 1
            simp
        _ = Text.behindAngles 2 (q ++ '>' :: (q' ++ (pieces.flatten ++ v))) := rfl
        _ = Text.behindAngles 2 ('>' :: (q' ++ (pieces.flatten ++ v))) :=
            Text.behindAngles_append (hplain hq) 2 _
        _ = Text.behindAngles 1 (q' ++ (pieces.flatten ++ v)) := rfl
        _ = Text.behindAngles 1 (pieces.flatten ++ v) := Text.behindAngles_append (hplain hq') 1 _
        _ = Text.behindAngles 1 v := ih fun z hz => hpieces z (List.mem_cons_of_mem _ hz)
  calc Text.behindAngles 0 ("<".toList ++ p ++ pieces.flatten ++ ">".toList ++ y)
      = Text.behindAngles 0 ('<' :: (p ++ (pieces.flatten ++ '>' :: y))) := by
        congr 1
        simp
    _ = Text.behindAngles 1 (p ++ (pieces.flatten ++ '>' :: y)) := rfl
    _ = Text.behindAngles 1 (pieces.flatten ++ '>' :: y) :=
        Text.behindAngles_append (hplain hp) 1 _
    _ = Text.behindAngles 1 ('>' :: y) := hflat _
    _ = y := rfl

/-- Two ways to split a text behind type arguments are one. -/
theorem eq_of_generics_append (hg : generics.Spelled g) (hg' : generics.Spelled g')
    (h : g ++ y = g' ++ y') : y = y' := by
  rw [← behindAngles_generics hg y, h, behindAngles_generics hg']

theorem generics_head (h : generics.Spelled g) : ∃ rest, g = '<' :: rest := by
  obtain ⟨_, _, ⟨_, _, ⟨_, p, rfl, -, rfl⟩, -, rfl⟩, -, rfl⟩ := h
  exact ⟨_, rfl⟩

theorem outcomes_append_eq (limit : Nat) (p q : Pattern) :
    (p ++ q).outcomes limit = fun r => (p.outcomes limit r).flatMap (q.outcomes limit) := rfl

theorem outcomes_append_assoc (limit : Nat) (p q q' : Pattern) (r : Reading) :
    (p ++ q ++ q').outcomes limit r = (p ++ (q ++ q')).outcomes limit r :=
  List.flatMap_assoc

/-- No word starts in the middle of a word. -/
theorem edge_eq_nil {limit : Nat} {p : Pattern} {r : Reading}
    (hp : ∀ x, p.Spelled x → ∃ c rest, x = c :: rest ∧ Text.isWord c = true)
    (hword : r.cursor.lastIs Text.isWord = true) : (edge ++ p).outcomes limit r = [] := by
  rw [List.eq_nil_iff_forall_not_mem]
  intro s hs
  rw [outcomes_append, List.mem_flatMap] at hs
  obtain ⟨u, hu, hs⟩ := hs
  rw [outcomes] at hu
  split at hu
  · rename_i hedge
    obtain rfl := List.mem_singleton.1 hu
    -- there would be word characters on both sides
    obtain ⟨x, hx, hafter⟩ := exists_spelled _ _ _ hs
    obtain ⟨c, rest, rfl, hc⟩ := hp x hx
    have hnext : u.cursor.nextIs Text.isWord = true := by
      rw [Cursor.nextIs, hafter]
      exact hc
    simp [Cursor.atEdge, hword, hnext] at hedge
  · simp at hu

/-- One of several words is spelled by one of them. -/
theorem exists_mem_of_words : ∀ {l : List String}, l ≠ [] → (words l).Spelled x →
    ∃ s ∈ l, x = s.toList
  | [], hl, _ => absurd rfl hl
  | [s], _, hx => ⟨s, List.mem_cons_self, hx⟩
  | s :: s' :: l, _, hx => by
    rcases hx with hx | hx
    · exact ⟨s, List.mem_cons_self, hx⟩
    · obtain ⟨u, hu, rfl⟩ := exists_mem_of_words (by simp) hx
      exact ⟨u, List.mem_cons_of_mem _ hu, rfl⟩

/-- A repetition that makes its step has passed one piece or more. -/
theorem exists_of_mem_further {order : Order} {step : Reading → List Reading} {S : Text → Prop}
    {n : Nat} {r s : Reading}
    (hstep : ∀ r s, s ∈ step r → ∃ x, S x ∧ r.cursor.after = x ++ s.cursor.after)
    (hs : s ∈ further order step n r) : ∃ piece pieces, (∀ y ∈ piece :: pieces, S y) ∧
      r.cursor.after = (piece ++ List.flatten pieces) ++ s.cursor.after := by
  cases n with
  | zero => simp [further] at hs
  | succ n =>
    rw [further, List.mem_flatMap] at hs
    obtain ⟨u, hu, hs⟩ := hs
    obtain ⟨piece, hpiece, hafter⟩ := hstep r u hu
    obtain ⟨pieces, hpieces, hrest⟩ := repeated_spelled hstep n u s hs
    refine ⟨piece, pieces, fun y hy => ?_, by rw [hafter, hrest, List.append_assoc]⟩
    rcases List.mem_cons.1 hy with rfl | hy
    · exact hpiece
    · exact hpieces y hy

/-- Whether all of these are words of letters and underscores. -/
def areWords (l : List String) : Bool :=
  l.all fun s => !s.toList.isEmpty && s.toList.all isNameStart

/-- One of several words starts as a name does and goes on so. -/
theorem exists_of_areWords {l : List String} (hl : areWords l = true) (hne : l ≠ [])
    (hx : (words l).Spelled x) :
    ∃ c rest, x = c :: rest ∧ isNameStart c = true ∧ ∀ d ∈ rest, isNameStart d = true := by
  obtain ⟨s, hs, rfl⟩ := exists_mem_of_words hne hx
  have hword := List.all_eq_true.1 hl s hs
  simp only [Bool.and_eq_true, Bool.not_eq_true', List.isEmpty_eq_false_iff] at hword
  have hall := List.all_eq_true.1 hword.2
  obtain ⟨c, rest, hcons⟩ := List.exists_cons_of_ne_nil hword.1
  rw [hcons] at hall ⊢
  exact ⟨c, rest, rfl, hall c List.mem_cons_self, fun d hd => hall d (List.mem_cons_of_mem _ hd)⟩

end Pattern

namespace Typed

open Pattern

variable {w gap m nm x z : Text}

/-- A dotted name: a letter or underscore, then word characters and points. -/
def Dotted (x : Text) : Prop :=
  ∃ c rest, x = c :: rest ∧ isNameStart c = true ∧ ∀ d ∈ rest, isDottedRest d = true

/-- A text that goes on with a parameter list, or with type arguments and a parameter list. -/
def ListFollows (z : Text) : Prop :=
  ∃ b v, (∀ c ∈ b, Text.isBlank c = true) ∧ z = b ++ v ∧
    ((∃ rest, v = '(' :: rest) ∨
      ∃ g b' rest, generics.Spelled g ∧ (∀ c ∈ b', Text.isBlank c = true) ∧
        v = g ++ (b' ++ '(' :: rest))

/-- **A text that starts with a type, a name and a parameter list.** -/
def Declares (x : Text) : Prop :=
  ∃ ty gap nm z, typeName.Spelled ty ∧ someGap.Spelled gap ∧ name.Spelled nm ∧ ListFollows z ∧
    x = ty ++ (gap ++ (nm ++ z))

theorem Dotted.all (h : Dotted x) : ∀ c ∈ x, isDottedRest c = true := by
  obtain ⟨c, rest, rfl, hc, hrest⟩ := h
  intro d hd
  rcases List.mem_cons.1 hd with rfl | hd
  · exact isDottedRest_of_isNameStart hc
  · exact hrest d hd

theorem dotted_of_name (h : name.Spelled nm) : Dotted nm := by
  obtain ⟨_, rest, ⟨c, hc, rfl⟩, hrest, rfl⟩ := h
  refine ⟨c, rest, rfl, hc, fun d hd => ?_⟩
  simp [isDottedRest, hrest d hd]

/-- A type is a dotted name, type arguments if any, and marks if any. -/
theorem exists_of_typeName {ty : Text} (h : typeName.Spelled ty) : ∃ d g m, Dotted d ∧
    (g = [] ∨ generics.Spelled g) ∧ (∀ c ∈ m.head?, c = '[' ∨ c = '?') ∧ ty = d ++ (g ++ m) := by
  obtain ⟨_, q, ⟨_, _, ⟨_, g, ⟨_, rest, ⟨c, hc, rfl⟩, hrest, rfl⟩, hg, rfl⟩, ⟨pieces, hpieces, rfl⟩,
    rfl⟩, hq, rfl⟩ := h
  refine ⟨c :: rest, g, pieces.flatten ++ q, ⟨c, rest, rfl, hc, hrest⟩, hg.symm, ?_, by simp⟩
  cases pieces with
  | nil =>
    rcases hq with rfl | rfl
    · simp
    · simp
  | cons piece pieces =>
    obtain rfl : piece = "[]".toList := hpieces piece List.mem_cons_self
    simp

/-- A text that starts as a name does. -/
def StartsName (x : Text) : Prop :=
  ∃ c rest, x = c :: rest ∧ isNameStart c = true

theorem Dotted.startsName (h : Dotted x) (y : Text) : StartsName (x ++ y) := by
  obtain ⟨c, rest, rfl, hc, -⟩ := h
  exact ⟨c, rest ++ y, rfl, hc⟩

theorem Declares.startsName (h : Declares x) : StartsName x := by
  obtain ⟨ty, gap, nm, z, hty, -, -, -, rfl⟩ := h
  obtain ⟨d, g, m, hd, -, -, rfl⟩ := exists_of_typeName hty
  rw [List.append_assoc]
  exact hd.startsName _

/-- The start of a name is no blank. -/
theorem StartsName.not_blank (h : StartsName x) : ∀ c ∈ x.head?, Text.isBlank c = false := by
  obtain ⟨c, rest, rfl, hc⟩ := h
  simp only [List.head?_cons, Option.mem_some_iff, forall_eq']
  by_contra hblank
  have := isDottedRest_of_isBlank (by simpa using hblank : Text.isBlank c = true)
  rw [isDottedRest_of_isNameStart hc] at this
  simp at this

theorem all_of_someGap (h : someGap.Spelled gap) : ∀ c ∈ gap, isGap c = true := by
  obtain ⟨_, rest, ⟨c, hc, rfl⟩, hrest, rfl⟩ := h
  intro d hd
  rcases List.mem_cons.1 hd with rfl | hd
  · exact hc
  · exact hrest d hd

theorem head_of_someGap (h : someGap.Spelled gap) : ∀ c ∈ (gap ++ x).head?, isGap c = true := by
  obtain ⟨_, rest, ⟨c, hc, rfl⟩, -, rfl⟩ := h
  simpa using hc

/-- Behind blanks, a bracket or an angle opens the list that follows. -/
theorem ListFollows.exists_head (h : ListFollows z) : ∃ b c v,
    (∀ d ∈ b, Text.isBlank d = true) ∧ z = b ++ c :: v ∧ (c = '(' ∨ c = '<') := by
  obtain ⟨b, v, hb, rfl, ⟨rest, rfl⟩ | ⟨g, b', rest, hg, -, rfl⟩⟩ := h
  · exact ⟨b, '(', rest, hb, rfl, Or.inl rfl⟩
  · obtain ⟨rest', rfl⟩ := generics_head hg
    exact ⟨b, '<', _, hb, rfl, Or.inr rfl⟩

theorem ListFollows.head (h : ListFollows z) :
    ∀ c ∈ z.head?, Text.isBlank c = true ∨ c = '(' ∨ c = '<' := by
  obtain ⟨b, c, v, hb, rfl, hc⟩ := h.exists_head
  cases b with
  | nil => simpa using Or.inr hc
  | cons d b => simpa using Or.inl (hb d List.mem_cons_self)

theorem ListFollows.not_dotted (h : ListFollows z) : ∀ c ∈ z.head?, isDottedRest c = false := by
  intro c hc
  rcases h.head c hc with hblank | rfl | rfl
  · exact isDottedRest_of_isBlank hblank
  · decide
  · decide

/-- No name stands where a list follows. -/
theorem ListFollows.ne_name (hz : ListFollows z) (hm : ∀ c ∈ m.head?, c = '[' ∨ c = '?')
    (hgap : someGap.Spelled gap) (hx : StartsName x) : z ≠ m ++ (gap ++ x) := by
  rintro rfl
  cases m with
  | cons d m =>
    have hhead := hz.head d (by simp)
    rcases hm d (by simp) with rfl | rfl <;> exact absurd hhead (by decide)
  | nil =>
    obtain ⟨b, c, v, hb, heq, hc⟩ := hz.exists_head
    rw [List.nil_append] at heq
    have hnot : ∀ d ∈ (c :: v).head?, Text.isBlank d = false := by
      simp only [List.head?_cons, Option.mem_some_iff, forall_eq']
      rcases hc with rfl | rfl <;> decide
    obtain ⟨-, rfl⟩ := Text.eq_of_append_eq heq
      (fun d hd => isBlank_of_isGap (all_of_someGap hgap d hd)) hb hx.not_blank hnot
    obtain ⟨d, rest, hcons, hd⟩ := hx
    obtain ⟨rfl, -⟩ := List.cons.inj hcons
    rcases hc with rfl | rfl <;> exact absurd hd (by decide)

/-- Behind a dotted name a type has no more of it. -/
theorem type_rest_not_dotted {g y : Text} (hg : g = [] ∨ generics.Spelled g)
    (hm : ∀ c ∈ m.head?, c = '[' ∨ c = '?') (hgap : someGap.Spelled gap) :
    ∀ c ∈ (g ++ (m ++ (gap ++ y))).head?, isDottedRest c = false := by
  intro c hc
  rcases hg with rfl | hg
  · cases m with
    | nil => exact isDottedRest_of_isBlank (isBlank_of_isGap (head_of_someGap hgap c hc))
    | cons d m =>
      obtain rfl : d = c := by simpa using hc
      rcases hm d (by simp) with rfl | rfl <;> decide
  · obtain ⟨rest, rfl⟩ := generics_head hg
    obtain rfl : '<' = c := by simpa using hc
    decide

/-- If the type of a declaration is taken for a modifier, its name and the list are left. -/
theorem Declares.behind (h : Declares (w ++ (gap ++ x))) (hw : Dotted w)
    (hgap : someGap.Spelled gap) (hx : StartsName x) :
    ∃ nm z, Dotted nm ∧ ListFollows z ∧ x = nm ++ z := by
  obtain ⟨ty, gap', nm, z, hty, hgap', hnm, hz, heq⟩ := h
  obtain ⟨d, g, m, hd, hg, hm, rfl⟩ := exists_of_typeName hty
  have hnm := dotted_of_name hnm
  have hgap_head : ∀ c ∈ (gap ++ x).head?, isGap c = true := head_of_someGap hgap
  rw [List.append_assoc, List.append_assoc] at heq
  obtain ⟨-, hrest⟩ := Text.eq_of_append_eq heq hw.all hd.all
    (fun c hc => isDottedRest_of_isBlank (isBlank_of_isGap (hgap_head c hc)))
    (type_rest_not_dotted hg hm hgap')
  -- what follows the modifier is a gap, so there are no arguments and no marks
  obtain rfl : g = [] := by
    rcases hg with hg | hg
    · exact hg
    · obtain ⟨rest, rfl⟩ := generics_head hg
      rw [hrest] at hgap_head
      exact absurd (hgap_head '<' (by simp)) (by decide)
  obtain rfl : m = [] := by
    cases m with
    | nil => rfl
    | cons d m =>
      rw [hrest] at hgap_head
      have hd' := hgap_head d (by simp)
      rcases hm d (by simp) with rfl | rfl <;> exact absurd hd' (by decide)
  rw [List.nil_append, List.nil_append] at hrest
  have hnot_gap : ∀ {y : Text}, StartsName y → ∀ c ∈ y.head?, isGap c = false := by
    intro y hy c hc
    by_contra hc'
    have hblank := isBlank_of_isGap (by simpa using hc' : isGap c = true)
    simp [hy.not_blank c hc] at hblank
  obtain ⟨-, hxz⟩ := Text.eq_of_append_eq hrest (all_of_someGap hgap) (all_of_someGap hgap')
    (hnot_gap hx) (hnot_gap (hnm.startsName z))
  exact ⟨nm, z, hnm, hz, hxz⟩

/-- A name in front of a list is not also a type in front of a name. -/
theorem not_declares_name (hnm : Dotted nm) (hz : ListFollows z) : ¬ Declares (nm ++ z) := by
  rintro ⟨ty, gap, nm', z', hty, hgap, hnm', hz', heq⟩
  obtain ⟨d, g, m, hd, hg, hm, rfl⟩ := exists_of_typeName hty
  have hname := (dotted_of_name hnm').startsName z'
  rw [List.append_assoc, List.append_assoc] at heq
  obtain ⟨-, rfl⟩ := Text.eq_of_append_eq heq hnm.all hd.all hz.not_dotted
    (type_rest_not_dotted hg hm hgap)
  rcases hg with rfl | hg
  · exact hz.ne_name hm hgap hname rfl
  · -- the arguments of the type are those in front of the list, and end at the same place
    obtain ⟨b, v, hb, heq', hv⟩ := hz
    obtain ⟨rest, hrest⟩ := generics_head hg
    obtain rfl : b = [] := by
      cases b with
      | nil => rfl
      | cons c b =>
        rw [hrest] at heq'
        obtain ⟨rfl, -⟩ := List.cons.inj heq'
        exact absurd (hb _ List.mem_cons_self) (by decide)
    rw [List.nil_append] at heq'
    obtain ⟨rest', rfl⟩ | ⟨g', b', rest', hg', hb', rfl⟩ := hv
    · rw [hrest] at heq'
      simp at heq'
    · have hlist : ListFollows (b' ++ '(' :: rest') := ⟨b', _, hb', rfl, Or.inl ⟨rest', rfl⟩⟩
      exact hlist.ne_name hm hgap hname (eq_of_generics_append hg' hg heq'.symm)

/-- A modifier: a word and the gap behind it. -/
def IsModifier (x : Text) : Prop :=
  ∃ w gap, Dotted w ∧ someGap.Spelled gap ∧ x = w ++ gap

/-- **Behind a modifier, a text that starts with a type, a name and a list does not start with a
type, a name and a list once more.** -/
theorem not_declares {piece : Text} {pieces : List Text}
    (hpieces : ∀ y ∈ piece :: pieces, IsModifier y)
    (h : Declares (piece ++ (pieces.flatten ++ x))) : ¬ Declares x := by
  intro hx
  obtain ⟨w, gap, hw, hgap, rfl⟩ := hpieces piece List.mem_cons_self
  rw [List.append_assoc] at h
  cases pieces with
  | nil =>
    obtain ⟨nm, z, hnm, hz, rfl⟩ := h.behind hw hgap hx.startsName
    exact not_declares_name hnm hz hx
  | cons piece pieces =>
    -- the name would be a second modifier, with a gap and a name behind it
    obtain ⟨w', gap', hw', hgap', rfl⟩ := hpieces piece (by simp)
    have hname : StartsName (pieces.flatten ++ x) := by
      cases pieces with
      | nil => exact hx.startsName
      | cons piece pieces =>
        obtain ⟨w, gap, hw, -, rfl⟩ := hpieces piece (by simp)
        simp only [List.flatten_cons, List.append_assoc]
        exact hw.startsName _
    rw [List.flatten_cons, List.append_assoc, List.append_assoc] at h
    obtain ⟨nm, z, hnm, hz, heq⟩ := h.behind hw hgap (hw'.startsName _)
    obtain ⟨-, hrest⟩ := Text.eq_of_append_eq heq hw'.all hnm.all
      (fun c hc => isDottedRest_of_isBlank (isBlank_of_isGap (head_of_someGap hgap' c hc)))
      hz.not_dotted
    exact hz.ne_name (m := []) (by simp) hgap' hname hrest.symm

/-! ## Methods -/

open Grammar.Typed

variable {limit limit' first last : Nat} {r s : Reading} {l : List String} {tail body : Pattern}

/-- The type and the name of a method. -/
def methodHead : Pattern :=
  group ⟨"rtype", "_a"⟩ typeName ++ (someGap ++ group ⟨"name", "_a"⟩ name)

/-- A method: modifiers, a type and a name, what comes behind them, and a look at the body. -/
def method (l : List String) (tail body : Pattern) : Pattern :=
  modifiers l ++ ((methodHead ++ tail) ++ ahead body)

/-- One modifier. -/
def modifier (l : List String) : Pattern :=
  edge ++ words l ++ someGap

theorem outcomes_method (limit : Nat) (r : Reading) : (method l tail body).outcomes limit r
    = (further .longest ((modifier l).outcomes limit) limit r).flatMap
        (((methodHead ++ tail) ++ ahead body).outcomes limit)
      ++ ((methodHead ++ tail) ++ ahead body).outcomes limit r := by
  have hmods : (modifiers l).outcomes limit r
      = further .longest ((modifier l).outcomes limit) limit r ++ [r] := by
    show repeated .longest ((modifier l).outcomes limit) limit r = _
    rw [repeated_eq]
  rw [method, outcomes_append, hmods, List.flatMap_append, List.flatMap_singleton]

theorem outcomes_method_ahead (limit : Nat) (r : Reading) :
    (method l tail body).outcomes limit r
      = ((modifiers l ++ (methodHead ++ tail)) ++ ahead body).outcomes limit r :=
  (outcomes_append_assoc limit _ _ _ r).symm

/-- Where a method is read, its body can be seen ahead. -/
theorem exists_body (h : First limit (method l tail body) r s) :
    ∃ u, u ∈ body.outcomes limit s := by
  have hmem := List.mem_of_mem_head? h
  rw [outcomes_method_ahead, outcomes_ahead, List.mem_filter] at hmem
  exact List.exists_mem_of_ne_nil _ (by simpa [List.isEmpty_iff] using hmem.2)

/-- **What the method patterns of the two languages have in common**: modifiers are words, a
parameter list comes behind the name, and nothing is tested but the edges of the modifiers. -/
structure MethodShape (l : List String) (tail body : Pattern) : Prop where
  ne_nil : l ≠ []
  areWords : areWords l = true
  contained : (modifiers l ++ (methodHead ++ tail)).isContained = true
  lineStart : (modifiers l ++ (methodHead ++ tail)).opensWith isLineStart = false
  signature : (methodHead ++ tail).isContained = true
  signature_edge : (methodHead ++ tail).opensWith isEdge = false
  signature_lineStart : (methodHead ++ tail).opensWith isLineStart = false
  body_contained : body.isContained = true
  body_edge : body.opensWith isEdge = false
  body_lineStart : body.opensWith isLineStart = false
  body_opens : ∀ x, body.Spelled x → Block.Opener x
  list : ∀ z y, tail.Spelled z → ListFollows (z ++ y)

namespace MethodShape

variable (hm : MethodShape l tail body)
include hm

theorem dotted_of_words (h : (words l).Spelled x) : Dotted x := by
  obtain ⟨c, rest, rfl, hc, hrest⟩ := exists_of_areWords hm.areWords hm.ne_nil h
  exact ⟨c, rest, rfl, hc, fun d hd => isDottedRest_of_isNameStart (hrest d hd)⟩

theorem isModifier (h : (modifier l).Spelled x) : IsModifier x := by
  obtain ⟨u, gap, ⟨e, w, rfl, hw, hu⟩, hgap, rfl⟩ := h
  rw [List.nil_append] at hu
  exact ⟨u, gap, hm.dotted_of_words (hu ▸ hw), hgap, rfl⟩

/-- Inside a word there is no modifier. -/
theorem modifier_eq_nil (hword : r.cursor.lastIs Text.isWord = true) :
    (modifier l).outcomes limit r = [] := by
  have hedge : (edge ++ words l).outcomes limit r = [] := by
    refine edge_eq_nil (fun x hx => ?_) hword
    obtain ⟨c, rest, rfl, hc, -⟩ := hm.dotted_of_words hx
    exact ⟨c, rest, rfl, isWord_of_isNameStart hc⟩
  rw [modifier, outcomes_append, hedge]
  rfl

theorem declares_of_mem (hs : s ∈ (methodHead ++ tail).outcomes limit r) :
    Declares r.cursor.after := by
  obtain ⟨x, hx, hafter⟩ := exists_spelled _ _ _ hs
  obtain ⟨_, z, ⟨ty, _, hty, ⟨gap, nm, hgap, hnm, rfl⟩, rfl⟩, hz, rfl⟩ := hx
  refine ⟨ty, gap, nm, z ++ s.cursor.after, hty, hgap, hnm, hm.list z _ hz, ?_⟩
  rw [hafter]
  simp only [List.append_assoc]

/-- Where a signature can be read, none can be read behind a modifier. -/
theorem method_eq (h : (methodHead ++ tail).outcomes limit r ≠ []) :
    (method l tail body).outcomes limit r
      = ((methodHead ++ tail) ++ ahead body).outcomes limit r := by
  obtain ⟨v, hv⟩ := List.exists_mem_of_ne_nil _ h
  have hdeclares := hm.declares_of_mem hv
  have hnone : (further .longest ((modifier l).outcomes limit) limit r).flatMap
      (((methodHead ++ tail) ++ ahead body).outcomes limit) = [] := by
    rw [List.flatMap_eq_nil_iff]
    intro u hu
    rw [outcomes_append, List.flatMap_eq_nil_iff]
    intro s hs
    exfalso
    obtain ⟨piece, pieces, hpieces, hafter⟩ := exists_of_mem_further
      (fun r s hs => exists_spelled (modifier l) r s hs) hu
    rw [hafter, List.append_assoc] at hdeclares
    exact not_declares (fun y hy => hm.isModifier (hpieces y hy)) hdeclares
      (hm.declares_of_mem hs)
  rw [outcomes_method, hnone, List.nil_append]

/-- Inside a word there is a signature without modifiers, or none. -/
theorem method_eq_of_word (hword : r.cursor.lastIs Text.isWord = true) :
    (method l tail body).outcomes limit r
      = ((methodHead ++ tail) ++ ahead body).outcomes limit r := by
  have hfurther : further .longest ((modifier l).outcomes limit) limit r = [] := by
    cases limit with
    | zero => rfl
    | succ n => rw [further, hm.modifier_eq_nil hword, List.flatMap_nil]
  rw [outcomes_method, hfurther, List.flatMap_nil, List.nil_append]

/-- What a method has ahead is in its block. -/
theorem exists_seen {t : Text} (h : First limit (method l tail body) r s)
    (hs : s.cursor.after = t.drop s.cursor.place) (start : Nat) :
    ∃ u ∈ body.outcomes limit s, u.cursor.place ≤ (Block.braced t start s.cursor.place).stop := by
  obtain ⟨u, hu⟩ := exists_body h
  obtain ⟨x, hx, hafter, hplace⟩ := exists_spelled_place hu
  rw [hs] at hafter
  have hle := Block.opener_le_stop (hm.body_opens x hx) start hafter
  exact ⟨u, hu, by omega⟩

/-- **A method that is cut out is read as in its text**, whatever stands in front of it, if what its
pattern looks ahead at is in the cut. -/
theorem first_excerpt (h : First limit (method l tail body) r s)
    (hr : Inside first last limit limit' r)
    (hseen : ∃ u ∈ body.outcomes limit s, u.cursor.place ≤ last) :
    First limit' (method l tail body) (r.excerpt first last) (s.excerpt first last) := by
  have hbody : ∀ c, OpensAlike first body c := fun c =>
    ⟨fun ht => by simp [hm.body_edge] at ht, fun ht => by simp [hm.body_lineStart] at ht⟩
  by_cases hword : r.cursor.lastIs Text.isWord = true
  · -- the cut runs through a word, and a modifier may be found that was none before
    have hopens : OpensAlike first (methodHead ++ tail) r.cursor :=
      ⟨fun ht => by simp [hm.signature_edge] at ht,
        fun ht => by simp [hm.signature_lineStart] at ht⟩
    unfold First at h
    rw [hm.method_eq_of_word hword] at h
    have hcut := First.excerpt_ahead h hr hm.signature hopens hm.body_contained hbody hseen
    unfold First at hcut ⊢
    rw [hm.method_eq, hcut]
    have hmem := List.mem_of_mem_head? hcut
    rw [outcomes_ahead] at hmem
    exact List.ne_nil_of_mem (List.mem_of_mem_filter hmem)
  · have hopens : OpensAlike first (modifiers l ++ (methodHead ++ tail)) r.cursor :=
      ⟨fun _ _ => by simpa using hword, fun ht => by simp [hm.lineStart] at ht⟩
    unfold First at h ⊢
    rw [outcomes_method_ahead] at h ⊢
    exact First.excerpt_ahead h hr hm.contained hopens hm.body_contained hbody hseen

end MethodShape

/-! ## The two languages -/

/-- What comes behind the name of a method in the first language. -/
def javaTail : Pattern :=
  blanks ++ (lit "(" ++ (group ⟨"params", "_a"⟩ paramText ++ (lit ")"
    ++ opt (blanks ++ lit "throws" ++ someBlanks
      ++ plusFew (one fun c => isDottedRest c || c == ',' || Text.isBlank c)))))

/-- What comes behind the name of a method in the second language. -/
def csharpTail : Pattern :=
  blanks ++ (opt generics ++ (blanks ++ (lit "(" ++ (group ⟨"params", "_a"⟩ paramText ++ (lit ")"
    ++ opt (blanks ++ lit "where" ++ someBlanks ++ plusFew (noneOf "\x7b=")))))))

def javaModifiers : List String :=
  ["public", "private", "protected", "static", "final", "abstract", "synchronized", "native",
    "default"]

def csharpModifiers : List String :=
  ["public", "private", "protected", "internal", "static", "virtual", "override", "abstract",
    "sealed", "async", "extern", "unsafe", "partial", "new"]

def javaBody : Pattern :=
  blanks ++ lit "\x7b"

def csharpBody : Pattern :=
  blanks ++ (lit "\x7b" <|> lit "=>")

theorem outcomes_javaFunction (limit : Nat) (r : Reading) :
    javaFunction.outcomes limit r
      = (method javaModifiers javaTail javaBody).outcomes limit r := by
  unfold javaFunction method methodHead javaTail javaModifiers javaBody
  simp only [outcomes_append_eq, List.flatMap_assoc]

theorem outcomes_csharpFunction (limit : Nat) (r : Reading) :
    csharpFunction.outcomes limit r
      = (method csharpModifiers csharpTail csharpBody).outcomes limit r := by
  unfold csharpFunction method methodHead csharpTail csharpModifiers csharpBody
  simp only [outcomes_append_eq, List.flatMap_assoc]

theorem javaShape : MethodShape javaModifiers javaTail javaBody where
  ne_nil := by decide
  areWords := by decide
  contained := by decide
  lineStart := by decide
  signature := by decide
  signature_edge := by decide
  signature_lineStart := by decide
  body_contained := by decide
  body_edge := by decide
  body_lineStart := by decide
  body_opens := by
    rintro _ ⟨b, _, hb, rfl, rfl⟩
    exact ⟨b, hb, Or.inl rfl⟩
  list := by
    rintro z y ⟨b, _, hb, ⟨_, v, rfl, -, rfl⟩, rfl⟩
    refine ⟨b, '(' :: (v ++ y), hb, ?_, Or.inl ⟨_, rfl⟩⟩
    rw [List.append_assoc]
    rfl

theorem csharpShape : MethodShape csharpModifiers csharpTail csharpBody where
  ne_nil := by decide
  areWords := by decide
  contained := by decide
  lineStart := by decide
  signature := by decide
  signature_edge := by decide
  signature_lineStart := by decide
  body_contained := by decide
  body_edge := by decide
  body_lineStart := by decide
  body_opens := by
    rintro _ ⟨b, _, hb, rfl | rfl, rfl⟩
    · exact ⟨b, hb, Or.inl rfl⟩
    · exact ⟨b, hb, Or.inr rfl⟩
  list := by
    rintro z y ⟨b, _, hb, ⟨g, _, hg, ⟨b', _, hb', ⟨_, v, rfl, -, rfl⟩, rfl⟩, rfl⟩, rfl⟩
    rcases hg with hg | rfl
    · refine ⟨b, g ++ (b' ++ '(' :: (v ++ y)), hb, ?_, Or.inr ⟨g, b', v ++ y, hg, hb', rfl⟩⟩
      simp only [List.append_assoc]
      rfl
    · refine ⟨b ++ b', '(' :: (v ++ y), ?_, ?_, Or.inl ⟨_, rfl⟩⟩
      · intro c hc
        rcases List.mem_append.1 hc with hc | hc
        · exact hb c hc
        · exact hb' c hc
      · simp only [List.append_assoc]
        rfl

end Typed

end CodeSurvey
