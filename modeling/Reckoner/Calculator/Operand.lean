import Reckoner.Number
import Reckoner.Calculator.Fault

/-!
# Operands

What the calculator sees of the values handed to it: numbers, truth values, and
things it can do nothing with.
-/

namespace Reckoner

namespace Calculator

inductive Operand where
  | number (n : Number)
  | truth (b : Bool)
  | other
deriving DecidableEq

/-- The numbers among the operands, provided that every operand is one. -/
def numbers (operation : String) : List Operand -> Except Fault (List Number)
  | [] => .ok []
  | .number n :: rest =>
      match numbers operation rest with
      | .ok ns => .ok (n :: ns)
      | .error fault => .error fault
  | .truth _ :: _ => .error (.notNumbers operation)
  | .other :: _ => .error (.notNumbers operation)

def number (operation : String) : Operand -> Except Fault Number
  | .number n => .ok n
  | .truth _ => .error (.notNumbers operation)
  | .other => .error (.notNumbers operation)

def toFloat : Number -> Except Fault Float
  | .float x => .ok x
  | .int n => (Binary64.ofInt? n).elim (.error .integerTooLarge) .ok

def wholeOfQuanta? (negative : Bool) (quanta : Nat) : Option Int :=
  if quanta % Binary64.quantaPerUnit = 0 then
    some (signed negative (quanta / Binary64.quantaPerUnit))
  else none

def wholeOfFloat? (x : Float) : Option Int :=
  match Binary64.view x with
  | .finite negative quanta => wholeOfQuanta? negative quanta
  | _ => none

/--
The whole number that an operand is, if it is one.

Truth values count as zero and one here.  An integer is judged by its nearest
double, so one that has none is a fault.
-/
def whole? : Operand -> Except Fault (Option Int)
  | .number (.int n) =>
      (Binary64.ofInt? n).elim (.error .integerTooLarge) fun _ => .ok (some n)
  | .number (.float x) => .ok (wholeOfFloat? x)
  | .truth b => .ok (some (if b then 1 else 0))
  | .other => .ok none

end Calculator

end Reckoner
