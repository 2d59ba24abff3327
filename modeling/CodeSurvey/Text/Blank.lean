import CodeSurvey.Text.Basic

/-!
# Blanks

White space of every script, and the trimming and word splitting built on it.
-/

namespace CodeSurvey.Text

/-- The code points where the property "white space" changes: controls from tab to carriage return
and from the file separator to the space, next line, no-break space, and the Unicode spaces. -/
def blankBounds : List Nat :=
  [0x9, 0xE, 0x1C, 0x21, 0x85, 0x86, 0xA0, 0xA1, 0x1680, 0x1681, 0x2000, 0x200B, 0x2028, 0x202A,
    0x202F, 0x2030, 0x205F, 0x2060, 0x3000, 0x3001]

/-- White space. -/
def isBlank (c : Char) : Bool :=
  inRuns blankBounds c.toNat

/-- Without the blanks in front. -/
def trimLeft (t : Text) : Text :=
  t.dropWhile isBlank

/-- Without the blanks behind. -/
def trimRight (t : Text) : Text :=
  (t.reverse.dropWhile isBlank).reverse

/-- Without the blanks on either side. -/
def trim (t : Text) : Text :=
  trimRight (trimLeft t)

/-- The maximal runs of characters that are not blank. -/
def words (t : Text) : List Text :=
  (splitWhen isBlank t).filter (!·.isEmpty)

/-- The words with one space between neighbours. -/
def singleSpaced (t : Text) : Text :=
  join [' '] (words t)

end CodeSurvey.Text
