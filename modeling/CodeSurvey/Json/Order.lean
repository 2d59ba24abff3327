import CodeSurvey.Json.Basic
import CodeSurvey.Number.Amount

/-!
# The order of documents

Numbers are in an order, a truth value counting as one or zero, and so are texts, and lists by the
first item in which they differ. Other documents are in no order, nor are those of different kinds.
-/

namespace CodeSurvey

/-- A comparison of two values. -/
inductive Relation where
  | less
  | atMost
  | more
  | atLeast
deriving DecidableEq, Repr

namespace Relation

/-- The sign of a comparison. -/
def sign : Relation → String
  | less => "<"
  | atMost => "<="
  | more => ">"
  | atLeast => ">="

/-- Whether two amounts compare so. -/
def holds : Relation → Amount → Amount → Bool
  | less, a, b => a.less b
  | atMost, a, b => a.atMost b
  | more, a, b => b.less a
  | atLeast, a, b => b.atMost a

/-- Whether two natural numbers compare so. -/
def holdsNat (r : Relation) (m n : Nat) : Bool :=
  r.holds (.whole m) (.whole n)

/-- Whether two texts compare so. The first character in which they differ decides, and then the
length. -/
def holdsText (r : Relation) : Text → Text → Bool
  | c :: s, d :: t => if c = d then r.holdsText s t else r.holdsNat c.toNat d.toNat
  | s, t => r.holdsNat s.length t.length

end Relation

/-- Why two documents cannot be compared or subtracted. The words are their kinds. -/
inductive OperandFault where
  /-- They are in no order. -/
  | unordered (relation : Relation) (first second : String)
  /-- They have no difference. -/
  | noDifference (first second : String)
  /-- One of them is beyond double precision. -/
  | tooLarge
deriving DecidableEq, Repr

namespace OperandFault

/-- The class of a fault. -/
def className : OperandFault → String
  | unordered .. => "TypeError"
  | noDifference .. => "TypeError"
  | tooLarge => "OverflowError"

/-- The message of a fault. -/
def message : OperandFault → String
  | unordered r first second =>
    s!"'{r.sign}' not supported between instances of '{first}' and '{second}'"
  | noDifference first second => s!"unsupported operand type(s) for -: '{first}' and '{second}'"
  | tooLarge => "int too large to convert to float"

end OperandFault

namespace Json

/-- The amount that a document stands for. -/
def amount? : Json → Option Amount
  | bool b => some (.whole (if b then 1 else 0))
  | int n => some (.whole n)
  | real x => some (.real x)
  | _ => none

/-- An amount as a document. -/
def ofAmount : Amount → Json
  | .whole n => int n
  | .real x => real x

/-- Whether two plain documents are equal. What is no number is the same as itself. -/
def samePlain (a b : Json) : Bool :=
  match a, b with
  | null, null => true
  | str s, str t => s == t
  | real .notNumber, real .notNumber => true
  | a, b =>
    match a.amount?, b.amount? with
    | some x, some y => x.same y
    | _, _ => false

mutual

/-- Whether two documents are the same: lists item by item, objects whatever the order of their
fields. -/
def same : Json → Json → Bool
  | arr l, arr m => sameItems l m
  | obj l, obj m => l.length == m.length && sameFields l m
  | a, b => samePlain a b

/-- Whether two lists are the same. -/
def sameItems : List Json → List Json → Bool
  | [], [] => true
  | a :: l, b :: m => same a b && sameItems l m
  | _, _ => false

/-- Whether fields are among others. -/
def sameFields : List (String × Json) → List (String × Json) → Bool
  | [], _ => true
  | f :: l, m => (m.lookup f.1).any (same f.2) && sameFields l m

end

/-- Whether two documents are equal. What is no number is equal to nothing. -/
def equal (a b : Json) : Bool :=
  match a with
  | real .notNumber => false
  | a => same a b

/-- Compares two plain documents. -/
def comparePlain (r : Relation) (a b : Json) : Except OperandFault Bool :=
  match a, b, a.amount?, b.amount? with
  | str s, str t, _, _ => .ok (r.holdsText s.toList t.toList)
  | _, _, some x, some y => .ok (r.holds x y)
  | a, b, _, _ => .error (.unordered r a.kindName b.kindName)

mutual

/-- Compares two documents. -/
def compare (r : Relation) : Json → Json → Except OperandFault Bool
  | arr l, arr m => compareItems r l m
  | a, b => comparePlain r a b

/-- Compares two lists. The first item in which they differ decides, and then the length. -/
def compareItems (r : Relation) : List Json → List Json → Except OperandFault Bool
  | a :: l, b :: m => if same a b then compareItems r l m else compare r a b
  | l, m => .ok (r.holdsNat l.length m.length)

end

/-- The difference of two documents. -/
def minus (a b : Json) : Except OperandFault Json :=
  match a.amount?, b.amount? with
  | some x, some y =>
    match x.sub? y with
    | some z => .ok (ofAmount z)
    | none => .error .tooLarge
  | _, _ => .error (.noDifference a.kindName b.kindName)

end Json

end CodeSurvey
