import CodeSurvey.Json.Order

/-!
# Sorted documents

`Json.sorted` puts documents in order, or says which two of them are in none. A run in front that is
already in order, or falls throughout and is turned around, stays as it is; every further document
is placed behind those that are not above it, by halving.
-/

namespace CodeSurvey.Json

/-- Whether a document is less than another. -/
def isLess (a b : Json) : Except OperandFault Bool :=
  compare .less a b

/-- How many documents carry a run on: each below the one in front of it if the run falls, none of
them if it does not. -/
def runLength (falling : Bool) (last : Json) : List Json → Except OperandFault Nat
  | [] => .ok 0
  | a :: rest =>
    match isLess a last with
    | .error fault => .error fault
    | .ok b => if b = falling then (runLength falling a rest).map (· + 1) else .ok 0

/-- Where a document belongs between two places of a list in order. -/
def placeBetween (a : Json) (l : List Json) : Nat → Nat → Nat → Except OperandFault Nat
  | 0, low, _ => .ok low
  | fuel + 1, low, high =>
    let middle := low + (high - low) / 2
    match (l.take high).drop middle with
    | [] => .ok low
    | b :: _ =>
      match isLess a b with
      | .error fault => .error fault
      | .ok true => placeBetween a l fuel low middle
      | .ok false => placeBetween a l fuel (middle + 1) high

/-- Places documents in a list in order, one after the other. -/
def placeAll (l : List Json) : List Json → Except OperandFault (List Json)
  | [] => .ok l
  | a :: rest =>
    match placeBetween a l (l.length + 1) 0 l.length with
    | .error fault => .error fault
    | .ok n => placeAll (l.take n ++ a :: l.drop n) rest

/-- Documents in order. -/
def sorted : List Json → Except OperandFault (List Json)
  | a :: b :: rest =>
    match isLess b a with
    | .error fault => .error fault
    | .ok falling =>
      match runLength falling b rest with
      | .error fault => .error fault
      | .ok n =>
        let run := a :: b :: rest.take n
        placeAll (if falling then run.reverse else run) (rest.drop n)
  | l => .ok l

end CodeSurvey.Json
