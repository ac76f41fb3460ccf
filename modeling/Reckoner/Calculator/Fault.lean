import Reckoner.Power

/-!
# Faults of the calculator

Why a calculator function gives no number.  Each cause has a kind and a message;
the wording lives here alone.
-/

namespace Reckoner

namespace Calculator

inductive Fault where
  /-- An operand of the operation is not a number. -/
  | notNumbers (operation : String)
  /-- Neither one nor two operands to subtract. -/
  | subtractionCount
  /-- Other than two operands to divide. -/
  | divisionCount
  /-- A statistic of no numbers. -/
  | emptySample (operation : String)
  /-- A function of fixed parameters called with another number of operands. -/
  | operandCount (function : String) (parameters : List String) (given : Nat)
  | divisionByZero
  | fractionalPower
  | negativeRoot
  /-- A factorial of something that is not a whole number. -/
  | notWhole
  /-- A factorial of a negative number. -/
  | negative
  /-- A selection of or from something that is not a whole number. -/
  | selectionNotWhole
  /-- A selection of or from a negative number. -/
  | selectionNegative
  /-- A selection of more than there is. -/
  | selectionTooMany
  /-- A factorial beyond the machine's counting range. -/
  | factorialRange
  /-- A selection of more items than the machine's counting range. -/
  | selectionRange
  /-- An integer that no finite double is near. -/
  | integerTooLarge
  /-- A quotient of integers that no finite double is near. -/
  | quotientTooLarge
  | infinityToInteger
  | nanToInteger
  /-- A power of finite numbers that is not finite. -/
  | powerRange
  /-- An argument at which the function has no value. -/
  | domain
deriving DecidableEq, Repr

namespace Fault

def countLimit : Nat :=
  twoTo 63 - 1

def pluralized (count : Nat) (noun : String) : String :=
  if count = 1 then noun else noun ++ "s"

def countMessage (function : String) (parameters : List String) (given : Nat) : String :=
  let expected := parameters.length
  if expected < given then
    function ++ "() takes " ++ toString expected ++ " " ++ pluralized expected "positional argument"
      ++ " but " ++ toString given ++ " were given"
  else
    let missing := parameters.drop given
    function ++ "() missing " ++ toString missing.length ++ " required "
      ++ pluralized missing.length "positional argument" ++ ": "
      ++ " and ".intercalate (missing.map fun name => "'" ++ name ++ "'")

def kind : Fault -> String
  | .notNumbers _ | .fractionalPower | .negativeRoot | .notWhole | .negative
  | .selectionNotWhole | .selectionNegative | .selectionTooMany => "SigmaTypeError"
  | .subtractionCount | .divisionCount | .emptySample _ => "SigmaArityError"
  | .operandCount _ _ _ => "TypeError"
  | .divisionByZero => "ZeroDivisionError"
  | .factorialRange | .selectionRange | .integerTooLarge | .quotientTooLarge
  | .infinityToInteger | .powerRange => "OverflowError"
  | .nanToInteger | .domain => "ValueError"

def message : Fault -> String
  | .notNumbers operation => "all arguments to " ++ operation ++ " must be numbers"
  | .subtractionCount => "- requires 1 or 2 arguments"
  | .divisionCount => "/ requires exactly 2 arguments"
  | .emptySample operation => operation ++ " requires at least 1 argument"
  | .operandCount function parameters given => countMessage function parameters given
  | .divisionByZero => "division by zero"
  | .fractionalPower => "pow of a negative number to a fractional power"
  | .negativeRoot => "sqrt of a negative number"
  | .notWhole => "n must be an integer"
  | .negative => "n must be positive"
  | .selectionNotWhole => "n and r must be integers"
  | .selectionNegative => "n and r must be positive"
  | .selectionTooMany => "r must be less than or equal to n"
  | .factorialRange => "factorial() argument should not exceed " ++ toString countLimit
  | .selectionRange => "k must not exceed " ++ toString countLimit
  | .integerTooLarge => "int too large to convert to float"
  | .quotientTooLarge => "integer division result too large for a float"
  | .infinityToInteger => "cannot convert float infinity to integer"
  | .nanToInteger => "cannot convert float NaN to integer"
  | .powerRange => "math range error"
  | .domain => "math domain error"

end Fault

end Calculator

end Reckoner
