import Reckoner.Calculator.Operand

/-!
# Counting arrangements and selections

Factorials, ordered selections and unordered selections of whole numbers, as
exact integers.
-/

namespace Reckoner

namespace Calculator

/-- The product of the `count` integers from `n` downwards. -/
def descending (n : Nat) : Nat -> Nat
  | 0 => 1
  | count + 1 => descending n count * (n - count)

def choose (n r : Nat) : Nat :=
  descending n r / descending r r

def factorial (a : Operand) : Except Fault Number := do
  let whole <- whole? a
  match whole with
  | none => throw .notWhole
  | some n =>
      if n < 0 then throw .negative
      else if (Fault.countLimit : Int) < n then throw .factorialRange
      else return .int (descending n.toNat n.toNat)

def selectionSize (a : Operand) : Except Fault Int := do
  let whole <- whole? a
  match whole with
  | none => throw .selectionNotWhole
  | some n => return n

/--
The two sizes of a selection: how many things there are, and how many are taken.

The sizes are judged one after the other, so a first one that is not whole hides
anything wrong with the second.
-/
def selection (a b : Operand) : Except Fault (Nat × Nat) := do
  let n <- selectionSize a
  let r <- selectionSize b
  if n < 0 || r < 0 then throw .selectionNegative
  else if n < r then throw .selectionTooMany
  else if (Fault.countLimit : Int) < r then throw .selectionRange
  else return (n.toNat, r.toNat)

def arrangements (a b : Operand) : Except Fault Number := do
  let (n, r) <- selection a b
  return .int (descending n r)

/-- The number of unordered selections; it is defined where ordered ones are. -/
def combinations (a b : Operand) : Except Fault Number := do
  let (n, r) <- selection a b
  return .int (choose n r)

end Calculator

end Reckoner
