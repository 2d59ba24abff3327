import CodeSurvey.Text.Basic

/-!
# Bytes in text

Bytes are written six bits to a character, four characters for three bytes, with padding behind an
incomplete group. Reading passes over all other characters and ends with the padding that completes
a group.
-/

namespace CodeSurvey.Text

/-- The six bits of a character. -/
def sixBits? (c : Char) : Option Nat :=
  if c.isUpper then some (c.toNat - 'A'.toNat)
  else if c.isLower then some (c.toNat - 'a'.toNat + 26)
  else if c.isDigit then some (c.toNat - '0'.toNat + 52)
  else if c == '+' then some 62
  else if c == '/' then some 63
  else none

/-- A group of four characters that is being read: how many are there, the bits that do not fill a
byte yet, and how many signs of padding came last. -/
structure ByteGroup where
  count : Nat
  bits : Nat
  padding : Nat
deriving DecidableEq, Repr

namespace ByteGroup

/-- A group of which nothing has been read. -/
def empty : ByteGroup :=
  ⟨0, 0, 0⟩

/-- Whether one more sign of padding completes the group. -/
def endsWithPadding (g : ByteGroup) : Bool :=
  2 ≤ g.count && 4 ≤ g.count + g.padding + 1

/-- The group behind a sign of padding that does not complete it. Padding counts only behind two
characters. -/
def pad (g : ByteGroup) : ByteGroup :=
  if 2 ≤ g.count then { g with padding := g.padding + 1 } else g

/-- The group with six more bits, and the byte they complete. -/
def add (g : ByteGroup) (six : Nat) : ByteGroup × List UInt8 :=
  match g.count with
  | 0 => (⟨1, six, 0⟩, [])
  | 1 => (⟨2, six % 16, 0⟩, [UInt8.ofNat (g.bits * 4 + six / 16)])
  | 2 => (⟨3, six % 4, 0⟩, [UInt8.ofNat (g.bits * 16 + six / 4)])
  | _ => (empty, [UInt8.ofNat (g.bits * 64 + six)])

end ByteGroup

/-- The bytes of a text, behind a group that is being read; none if the last group is incomplete. -/
def bytesFrom? (g : ByteGroup) : Text → Option (List UInt8)
  | [] => if g.count = 0 then some [] else none
  | c :: rest =>
    if c == '=' then
      if g.endsWithPadding then some [] else bytesFrom? g.pad rest
    else
      match sixBits? c with
      | none => bytesFrom? g rest
      | some six => (bytesFrom? (g.add six).1 rest).map ((g.add six).2 ++ ·)

/-- The bytes that a text stands for. -/
def bytes? (t : Text) : Option (List UInt8) :=
  bytesFrom? .empty t

/-- The text that bytes encode. -/
def ofBytes? (bytes : List UInt8) : Option Text :=
  (String.fromUTF8? (ByteArray.mk bytes.toArray)).map String.toList

end CodeSurvey.Text
