import Reckoner.Binary64.Basic

/-!
# The fewest digits that read back

A decimal is a coefficient and a power of ten.  `shortest` gives, for a positive
count of quanta, the decimal with the fewest digits that reads back as the same
double; of two such decimals it takes the nearer, and of two equally near the
one with the even coefficient.
-/

namespace Reckoner

/-- The number `coefficient * 10 ^ exponent`. -/
structure Decimal where
  coefficient : Nat
  exponent : Int
deriving DecidableEq, Repr

namespace Decimal

def digits (d : Decimal) : List Char :=
  Nat.toDigits 10 d.coefficient

/-- Where the decimal point falls, counted from before the first digit. -/
def point (d : Decimal) : Int :=
  d.digits.length + d.exponent

def nearestQuanta (d : Decimal) : Nat :=
  match d.exponent with
  | .ofNat k => Binary64.nearestQuanta (d.coefficient * tenTo k) 1
  | .negSucc k => Binary64.nearestQuanta d.coefficient (tenTo (k + 1))

def trim (d : Decimal) : Decimal :=
  let zeros := (d.digits.reverse.takeWhile (· == '0')).length
  ⟨d.coefficient / tenTo zeros, d.exponent + zeros⟩

/--
Where the decimal point of a count of quanta falls.

Four hundred places bring the smallest double above one, so that its digits can
be counted in a whole number.
-/
def pointOf (quanta : Nat) : Int :=
  (Nat.toDigits 10 (quanta * tenTo 400 / Binary64.quantaPerUnit)).length - 400

def inUnits (quanta : Nat) (exponent : Int) : Nat × Nat :=
  match exponent with
  | .ofNat k => (quanta, Binary64.quantaPerUnit * tenTo k)
  | .negSucc k => (quanta * tenTo (k + 1), Binary64.quantaPerUnit)

/--
The decimal on the grid `10 ^ exponent` that reads back as the given quanta.

Only the two neighbours of the value need a trial: if any point of the grid
reads back, so does one of them.
-/
def onGrid? (quanta : Nat) (exponent : Int) : Option Decimal :=
  let (num, den) := inUnits quanta exponent
  let below : Decimal := ⟨num / den, exponent⟩
  let above : Decimal := ⟨num / den + 1, exponent⟩
  let rest := num % den
  let belowReads := below.nearestQuanta == quanta
  let aboveReads := above.nearestQuanta == quanta
  if belowReads && aboveReads then
    if 2 * rest < den || (2 * rest == den && below.coefficient % 2 == 0) then some below
    else some above
  else if belowReads then some below
  else if aboveReads then some above
  else none

/-- The value itself: every count of quanta is a whole number of `10^-1074`. -/
def exact (quanta : Nat) : Decimal :=
  ⟨quanta * Nat.pow 5 Binary64.quantumHalvings, -Binary64.quantumHalvings⟩

/-- The shortest decimal that reads back as the given quanta; seventeen digits always do. -/
def shortest (quanta : Nat) : Decimal :=
  let point := pointOf quanta
  let found := (List.range 17).findSome? fun i => onGrid? quanta (point - (i + 1 : Nat))
  (found.getD (exact quanta)).trim

end Decimal

end Reckoner
