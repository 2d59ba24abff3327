import CodeSurvey.Text.CaseTable

/-!
# Upper and lower case

Case change for whole texts: each letter by its table entry, with one rule that looks around, for
the sigma at the end of a word.
-/

namespace CodeSurvey.Text

/-- The partner of a character in the run that holds it. -/
def shiftCase (runs : List CaseRun) (c : Char) : Char :=
  let n := c.toNat
  match runs.find? fun r => r.first ≤ n && n ≤ r.last && (n - r.first) % r.stride == 0 with
  | some r => Char.ofNat (Int.toNat (n + r.shift))
  | none => c

/-- A character in the other case, by the long forms first and the runs otherwise. -/
def changeCase (long : List (Nat × List Nat)) (runs : List CaseRun) (c : Char) : Text :=
  match long.lookup c.toNat with
  | some form => form.map Char.ofNat
  | none => [shiftCase runs c]

/-- A letter that has a case. -/
def isCased (c : Char) : Bool :=
  inRuns casedBounds c.toNat

/-- A mark that is passed over when the case of its word is judged. -/
def isIgnorable (c : Char) : Bool :=
  inRuns ignorableBounds c.toNat

/-- Whether the first character that is not passed over has a case. -/
def startsCased (t : Text) : Bool :=
  match t.dropWhile isIgnorable with
  | [] => false
  | c :: _ => isCased c

/-- Lower case, given the characters in front, nearest first. A capital sigma becomes the final form
when a cased letter stands before it and none after it. -/
def lowerFrom : Text → Text → Text
  | _, [] => []
  | before, c :: rest =>
    let form :=
      if c.toNat = 0x3A3 then
        [if startsCased before && !startsCased rest then Char.ofNat 0x3C2 else Char.ofNat 0x3C3]
      else changeCase lowerLong lowerRuns c
    form ++ lowerFrom (c :: before) rest

/-- The text in lower case. -/
def lower (t : Text) : Text :=
  lowerFrom [] t

/-- The text in upper case. -/
def upper (t : Text) : Text :=
  t.flatMap (changeCase upperLong upperRuns)

end CodeSurvey.Text
