import Reckoner.Datum.Basic

/-!
# Equality of data

Numbers and truth values are equal by value, sequences item by item and only
with sequences of their own kind, closures if they are the same closure.  A NaN
equals nothing; but items and keys are compared by identity first, so there a
NaN matches itself.
-/

namespace Reckoner

namespace Datum

variable {H : Type}

def isSameNaN : Datum H -> Datum H -> Bool
  | .nan a, .nan b => a == b
  | _, _ => false

mutual

/-- Whether two data are equal. A NaN is not equal to itself. -/
def equal [DecidableEq H] : Datum H -> Datum H -> Bool
  | .number a, b =>
      match b.numeric? with
      | some n => a.equal n
      | none => false
  | .bool a, b =>
      match b.numeric? with
      | some n => (Number.int (if a then 1 else 0)).equal n
      | none => false
  | .text a, .text b => a == b
  | .absent, .absent => true
  | .nil, .nil => true
  | .symbol a, .symbol b => a == b
  | .combination as, .combination bs => equalAll as bs
  | .list as, .list bs => equalAll as bs
  | .closure a _ _ _, .closure b _ _ _ => a == b
  | .function f, .function g => f == g
  | _, _ => false

def equalAll [DecidableEq H] : List (Datum H) -> List (Datum H) -> Bool
  | [], [] => true
  | a :: as, b :: bs => (isSameNaN a b || equal a b) && equalAll as bs
  | _, _ => false

end

/-- Whether two data match as items or keys: they are the same NaN, or equal. -/
def matchesKey [DecidableEq H] (a b : Datum H) : Bool :=
  isSameNaN a b || equal a b

end Datum

end Reckoner
