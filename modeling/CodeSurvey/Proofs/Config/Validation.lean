import CodeSurvey.Config.Running

/-!
# Validated values

What is expected of a loader is what the one that runs does: a value that is given is allowed, one
that is not given is the standard one, and every given name is the name of a field.

* `Values.All.imp`: what holds of all values, by what holds of one.
* `Setting.valuesOf_all`: the values of some fields are the values of each of them.
* `Loader.running_lawful`: the loader that runs is as expected.
-/

namespace CodeSurvey

namespace Values

variable {p q : (f : Field) → f.kind.Value → Prop} {fields : List Field}

theorem All.imp {values : Values fields} (himp : ∀ f ∈ fields, ∀ value, p f value → q f value)
    (h : All p fields values) : All q fields values := by
  induction fields with
  | nil => trivial
  | cons f rest ih =>
    obtain ⟨value, values⟩ := values
    have hrest := ih (fun g hg => himp g (List.mem_cons_of_mem f hg)) h.2
    exact ⟨himp f List.mem_cons_self value h.1, hrest⟩

theorem All.and {values : Values fields} (hp : All p fields values) (hq : All q fields values) :
    All (fun f value => p f value ∧ q f value) fields values := by
  induction fields with
  | nil => trivial
  | cons f rest ih =>
    obtain ⟨value, values⟩ := values
    exact ⟨⟨hp.1, hq.1⟩, ih hp.2 hq.2⟩

end Values

namespace Setting

variable {settings : Named} {entries : List (Symbols × Setting)} {fields : List Field}

/-- **The values of some fields are the values of each of them.** -/
theorem valuesOf_all {values : Values fields} (h : valuesOf settings fields = .ok values) :
    Values.All (fun f value => valueOf settings f = .ok value) fields values := by
  induction fields with
  | nil => trivial
  | cons f rest ih =>
    unfold valuesOf at h
    split at h
    case _ value more hvalue hmore =>
      cases h
      exact ⟨hvalue, ih hmore⟩
    all_goals cases h

/-- A value that a setting gives is allowed. -/
theorem allows_of_valueFor {name : Text} {s : Setting} {k : FieldKind} {value : k.Value}
    (h : s.valueFor name k = .ok value) : k.Allows value := by
  cases k with
  | strings => trivial
  | number standard least =>
    unfold valueFor toIntFrom at h
    cases hint : s.toInt with
    | error flaw => simp [hint] at h
    | ok n =>
      by_cases hleast : n < least
      · simp [hint, hleast] at h
      · simp only [hint, hleast, if_false] at h
        obtain rfl := Except.ok.inj h
        exact Int.not_lt.1 hleast

/-- Names that have a form in bytes are kept as they are. -/
theorem ofText_of_toText? {s : Symbols} {t : Text} (h : s.toText? = some t) :
    s = Symbols.ofText t := by
  induction s generalizing t with
  | nil =>
    obtain rfl : t = [] := by simpa [Symbols.toText?] using h.symm
    rfl
  | cons x s ih =>
    simp only [Symbols.toText?, List.mapM_cons, Option.bind_eq_bind, Option.bind_eq_some_iff,
      Option.pure_def, Option.some.injEq] at h
    obtain ⟨c, hc, rest, hrest, rfl⟩ := h
    cases x with
    | half n => cases hc
    | char d =>
      obtain rfl := Option.some.inj hc
      rw [ih hrest]
      rfl

theorem entries_of_named? (h : named? entries = some settings) :
    entries = settings.map fun s => (Symbols.ofText s.1, s.2) := by
  induction entries generalizing settings with
  | nil =>
    cases h
    rfl
  | cons e rest ih =>
    unfold named? at h
    split at h
    case _ name more hname hmore =>
      cases h
      rw [List.map_cons, ← ih hmore, ← ofText_of_toText? hname]
    case _ => cases h

theorem ofText_injective {s t : Text} (h : Symbols.ofText s = Symbols.ofText t) : s = t := by
  exact (List.map_inj_right fun c d hcd => Symbol.char.inj hcd).1 h

/-- A setting is found exactly for the fields that are given. -/
theorem isGiven_iff (h : named? entries = some settings) (f : Field) :
    f.IsGiven entries ↔ (settings.lookup f.name.toList).isSome := by
  rw [List.lookup_isSome_iff]
  rw [entries_of_named? h]
  unfold Field.IsGiven
  simp only [List.mem_map]
  constructor
  · rintro ⟨e, ⟨s, hs, rfl⟩, hname⟩
    exact ⟨s, hs, by simpa using (ofText_injective hname).symm⟩
  · rintro ⟨s, hs, hname⟩
    exact ⟨_, ⟨s, hs, rfl⟩, by rw [eq_of_beq hname]⟩

/-- What a validation that succeeds has found. -/
theorem validate_ok {values : Values fields} (h : validate fields entries = .ok values) :
    ∃ settings, named? entries = some settings ∧ valuesOf settings fields = .ok values ∧
      unknownNames fields settings = [] := by
  unfold validate at h
  cases hnamed : named? entries with
  | none => simp [hnamed] at h
  | some settings =>
    simp only [hnamed] at h
    split at h
    case _ found hvalues hunknown =>
      cases h
      exact ⟨settings, rfl, hvalues, hunknown⟩
    all_goals cases h

end Setting

open Setting in
/-- **The loader that runs is as expected.** -/
theorem Loader.running_lawful (depth : Nat) : (Loader.running depth).Lawful where
  read_fault content fault := Or.inl rfl
  allowed fields entries values h := by
    obtain ⟨settings, hnamed, hvalues, -⟩ := validate_ok h
    refine (valuesOf_all hvalues).imp fun f _ value hvalue hgiven => ?_
    unfold valueOf at hvalue
    cases hlookup : settings.lookup f.name.toList with
    | none =>
      have hfound := (isGiven_iff hnamed f).1 hgiven
      rw [hlookup] at hfound
      cases hfound
    | some s =>
      rw [hlookup] at hvalue
      exact allows_of_valueFor hvalue
  standard fields entries values h := by
    obtain ⟨settings, hnamed, hvalues, -⟩ := validate_ok h
    refine (valuesOf_all hvalues).imp fun f _ value hvalue hgiven => ?_
    unfold valueOf at hvalue
    cases hlookup : settings.lookup f.name.toList with
    | none =>
      rw [hlookup] at hvalue
      exact (Except.ok.inj hvalue).symm
    | some s => exact absurd ((isGiven_iff hnamed f).2 (by rw [hlookup]; rfl)) hgiven
  declared fields entries values h := by
    obtain ⟨settings, hnamed, -, hunknown⟩ := validate_ok h
    rw [entries_of_named? hnamed]
    intro e he
    obtain ⟨s, hs, rfl⟩ := List.mem_map.1 he
    have hknown := List.filter_eq_nil_iff.1 (List.map_eq_nil_iff.1 hunknown) s hs
    simp only [Bool.not_eq_true', Bool.not_eq_false, List.contains_iff_mem, List.mem_map] at hknown
    obtain ⟨f, hf, hname⟩ := hknown
    exact ⟨f, hf, by rw [hname]⟩

end CodeSurvey
