import CodeSurvey.Proofs.Source.ParamText

/-!
# Parameters can be read back in every language

Some languages write the type of a parameter behind its name and a colon, others in front of the
name. Where it stands in front, nothing but blanks tells the two apart: the name is the last word,
and the words before it are put together again with single spaces. So a type comes back as it was
written if its own words have single spaces between them.

* `printed`, `printedAll`: how a language writes parameters.
* `Printable`: the parameters that can be told from what their language writes.
* `words_typedHead`: the words in front of the default value are those of the type, and the name.
* `parseAll_printedAll`: the parameters read are the parameters written.
-/

namespace CodeSurvey.Param

/-- The type of a parameter, and its name. -/
def typedHead (p : Param) : Text :=
  p.type.elim [] (fun ty => ty ++ [' ']) ++ p.name

/-- A parameter as a language writes it. -/
def printed (language : Language) (p : Param) : Text :=
  (if language.typeFirst then p.typedHead else p.head)
    ++ p.defaultValue.elim [] fun d => ' ' :: '=' :: ' ' :: d

/-- Parameters as a language writes them, with commas between. -/
def printedAll (language : Language) (ps : List Param) : Text :=
  Text.join [',', ' '] (ps.map (printed language))

/-- A parameter that can be told from what its language writes. -/
structure Printable (language : Language) (p : Param) : Prop extends Writable language p where
  spaced : language.typeFirst = true → ∀ ty ∈ p.type, Text.singleSpaced ty = ty

instance (language : Language) (p : Param) : Decidable (Printable language p) :=
  decidable_of_iff (Writable language p ∧
      (language.typeFirst = true → ∀ ty ∈ p.type, Text.singleSpaced ty = ty))
    ⟨fun ⟨h1, h2⟩ => ⟨h1, h2⟩, fun h => ⟨h.1, h.2⟩⟩

variable {language : Language} {p : Param}

/-! ## Types in front of names -/

theorem Writable.typedHead_level (h : Writable language p) : Level p.typedHead := by
  unfold typedHead
  cases hty : p.type with
  | none => simpa using h.name_level
  | some ty =>
    rw [Option.elim_some, List.append_assoc]
    exact Level.append [] (by simp [Brackets.Plain]) (h.type ty hty).1.level h.name_level

theorem Writable.typedHead_assignment (h : Writable language p) :
    Brackets.index? Brackets.isAssignment p.typedHead = none := by
  unfold typedHead
  cases hty : p.type with
  | none => simpa using h.name_assignment
  | some ty =>
    obtain ⟨hfrag, hassign⟩ := h.type ty hty
    rw [Option.elim_some, List.append_assoc]
    exact assignment_append [] (by simp [Brackets.Plain]) hfrag.level hassign h.name_assignment

theorem Writable.typedHead_trimmed (h : Writable language p) :
    Text.trim p.typedHead = p.typedHead ∧ p.typedHead ≠ [] := by
  unfold typedHead
  refine ⟨?_, by simp [h.name_ne_nil]⟩
  cases hty : p.type with
  | none => simpa using h.name_trimmed
  | some ty =>
    have hfrag := (h.type ty hty).1
    rw [Option.elim_some, List.append_assoc]
    exact Text.trim_between hfrag.trimmed h.name_trimmed hfrag.ne_nil h.name_ne_nil [' ']

/-- **The words in front of the default value are those of the type, and the name.** -/
theorem Writable.words_typedHead (h : Writable language p) :
    Text.words p.typedHead = p.type.elim [] Text.words ++ [p.name] := by
  have hname : Text.words p.name = [p.name] :=
    Text.words_of_no_blank h.name_ne_nil fun c hc => (isNameChar_spec (h.name c hc)).1
  unfold typedHead
  cases p.type with
  | none => simpa using hname
  | some ty =>
    rw [Option.elim_some, Option.elim_some, List.append_assoc, List.singleton_append,
      Text.words_append (by decide), hname]

/-- The type is put together again from its words. -/
theorem Printable.type_words (h : Printable language p) (hfirst : language.typeFirst = true) :
    nonEmpty? (Text.join [' '] (p.type.elim [] Text.words)) = p.type := by
  cases hty : p.type with
  | none => rfl
  | some ty =>
    have hne := (h.type ty hty).1.ne_nil
    have hjoin : Text.join [' '] (Text.words ty) = ty := h.spaced hfirst ty hty
    rw [Option.elim_some, hjoin, nonEmpty?, if_neg (by simpa using hne)]

theorem ofTypeFirst?_printed (hfirst : language.typeFirst = true) (h : Printable language p) :
    ofTypeFirst? (p.printed language) = some p := by
  have hcut := cutDefault_append h.typedHead_level h.typedHead_assignment h.defaultValue
  -- the cut leaves the space in front of the equals sign, which is in no word
  have hwords : Text.words (p.typedHead ++ p.defaultValue.elim [] fun _ => [' '])
      = p.type.elim [] Text.words ++ [p.name] := by
    rw [← h.words_typedHead]
    cases p.defaultValue with
    | none => rw [Option.elim_none, List.append_nil]
    | some d =>
      rw [Option.elim_some, Text.words_append (by decide)]
      exact List.append_nil _
  unfold ofTypeFirst? printed
  rw [if_pos hfirst, hcut]
  simp only [hwords, List.reverse_append, List.reverse_singleton, List.singleton_append,
    List.reverse_reverse, h.type_words hfirst]

/-! ## Every language -/

theorem printed_of_nameFirst (hfirst : language.typeFirst = false) (p : Param) :
    p.printed language = p.written := by
  simp [printed, written, hfirst]

theorem Printable.printed_level (h : Printable language p) : Level (p.printed language) := by
  unfold printed
  split
  · exact h.typedHead_level.withDefault h.defaultValue
  · exact h.head_level.withDefault h.defaultValue

/-- **A parameter reads back as itself from what its language writes.** -/
theorem ofPart?_printed (h : Printable language p) :
    ofPart? language (p.printed language) = some p := by
  cases hfirst : language.typeFirst with
  | false =>
    rw [printed_of_nameFirst hfirst]
    exact ofPart?_written hfirst h.toWritable
  | true =>
    have hread := ofTypeFirst?_printed hfirst h
    obtain ⟨htrim, hne⟩ :=
      trim_withDefault h.typedHead_trimmed.1 h.typedHead_trimmed.2 h.defaultValue
    have hprinted : p.printed language
        = p.typedHead ++ p.defaultValue.elim [] fun d => ' ' :: '=' :: ' ' :: d := by
      rw [printed, if_pos hfirst]
    rw [← hprinted] at htrim hne
    unfold ofPart?
    simp [htrim, hne, hfirst, hread, h.receiver]

/-- **In every language, the parameters read are the parameters written.** -/
theorem parseAll_printedAll (language : Language) (ps : List Param)
    (h : ∀ p ∈ ps, Printable language p) : parseAll language (printedAll language ps) = ps :=
  parseAll_pieces language (printed language) ps
    fun p hp => ⟨(h p hp).printed_level, ofPart?_printed (h p hp)⟩

/-- A type of several words with a comma in angles, and a default value with an arrow and a
comparison behind it. -/
def sharpParams : List Param :=
  [⟨"t".toList, some "ref Map<K, int[]>".toList, none⟩,
    ⟨"f".toList, none, some "x => x > 0".toList⟩]

/-- An arrow for a type and a literal object for a default value, and a name alone. -/
def scriptParams : List Param :=
  [⟨"go".toList, some "(a: T, b: U[]) => void".toList, some "\x7b a: 1, b: [2] \x7d".toList⟩,
    ⟨"$rest".toList, none, none⟩]

theorem parseAll_printedAll_samples :
    ((∀ p ∈ sharpParams, Printable .csharp p) ∧
      printedAll .csharp sharpParams = "ref Map<K, int[]> t, f = x => x > 0".toList ∧
      parseAll .csharp (printedAll .csharp sharpParams) = sharpParams) ∧
    (∀ p ∈ scriptParams, Printable .typescript p) ∧
      printedAll .typescript scriptParams
        = "go: (a: T, b: U[]) => void = \x7b a: 1, b: [2] \x7d, $rest".toList ∧
      parseAll .typescript (printedAll .typescript scriptParams) = scriptParams :=
  have hsharp : ∀ p ∈ sharpParams, Printable .csharp p := by decide +kernel
  have hscript : ∀ p ∈ scriptParams, Printable .typescript p := by decide +kernel
  ⟨⟨hsharp, by decide +kernel, parseAll_printedAll .csharp _ hsharp⟩, hscript, by decide +kernel,
    parseAll_printedAll .typescript _ hscript⟩

end CodeSurvey.Param
