import Reckoner.Calculator.Operand

/-!
# Arithmetic

Integers add, subtract and multiply exactly.  As soon as a double takes part,
the other operand is brought to the nearest double first.  A quotient of
integers is the double nearest to the exact quotient.
-/

namespace Reckoner

namespace Calculator

/-- Combines two numbers exactly if both are integers and as doubles otherwise. -/
def combine (exact : Int -> Int -> Int) (rounded : Float -> Float -> Float) :
    Number -> Number -> Except Fault Number
  | .int a, .int b => .ok (.int (exact a b))
  | a, b => do
      let x <- toFloat a
      let y <- toFloat b
      return .float (rounded x y)

def add : Number -> Number -> Except Fault Number :=
  combine (· + ·) (· + ·)

def sub : Number -> Number -> Except Fault Number :=
  combine (· - ·) (· - ·)

def mul : Number -> Number -> Except Fault Number :=
  combine (· * ·) (· * ·)

def accumulate (step : Number -> Number -> Except Fault Number) :
    Number -> List Number -> Except Fault Number
  | acc, [] => .ok acc
  | acc, n :: rest =>
      match step acc n with
      | .ok next => accumulate step next rest
      | .error fault => .error fault

def sum (operands : List Operand) : Except Fault Number := do
  let ns <- numbers "+" operands
  accumulate add (.int 0) ns

def product (operands : List Operand) : Except Fault Number := do
  let ns <- numbers "*" operands
  accumulate mul (.int 1) ns

def negate : Number -> Number
  | .int n => .int (-n)
  | .float x => .float (-x)

/-- One number negated, or the difference of two. -/
def difference (operands : List Operand) : Except Fault Number := do
  let ns <- numbers "-" operands
  match ns with
  | [a] => return negate a
  | [a, b] => sub a b
  | _ => throw .subtractionCount

def divide : Number -> Number -> Except Fault Number
  | .int a, .int b =>
      (Binary64.ofQuotient? a b).elim (.error .quotientTooLarge) fun x => .ok (.float x)
  | a, b => do
      let x <- toFloat a
      let y <- toFloat b
      return .float (x / y)

/-- The quotient of exactly two numbers. Their count is judged before their kind. -/
def quotient (operands : List Operand) : Except Fault Number :=
  match operands with
  | [a, b] => do
      let dividend <- number "/" a
      let divisor <- number "/" b
      if divisor.isZero then throw .divisionByZero else divide dividend divisor
  | _ => .error .divisionCount

/-- The exact integer that a rounding rule on quanta gives for a number. -/
def roundWith (rule : Int -> Int) : Number -> Except Fault Number
  | .int n => .ok (.int n)
  | .float x =>
      match Binary64.view x with
      | .nan => .error .nanToInteger
      | .infinite _ => .error .infinityToInteger
      | .finite negative quanta => .ok (.int (rule (signed negative quanta)))

def floor (a : Operand) : Except Fault Number := do
  let n <- number "floor" a
  roundWith (fun quanta => quanta.fdiv Binary64.quantaPerUnit) n

def ceil (a : Operand) : Except Fault Number := do
  let n <- number "ceil" a
  roundWith (fun quanta => -((-quanta).fdiv Binary64.quantaPerUnit)) n

/-- A power of doubles. Only finite operands can leave its range. -/
def powFloat (x y : Float) : Except Fault Number :=
  let result := Float.pow x y
  if x.isFinite && y.isFinite && !result.isFinite then
    if result.isNaN || x == 0 then .error .domain else .error .powerRange
  else .ok (.float result)

def realPower (base exponent : Number) : Except Fault Bool :=
  if base.isNegative then do
    let y <- toFloat exponent
    return (wholeOfFloat? y).isSome
  else .ok true

/-- A power. A negative base takes whole exponents only, so that the result is real. -/
def power (a b : Operand) : Except Fault Number := do
  let base <- number "pow" a
  let exponent <- number "pow" b
  let isReal <- realPower base exponent
  if isReal then
    let x <- toFloat base
    let y <- toFloat exponent
    powFloat x y
  else throw .fractionalPower

def sqrt (a : Operand) : Except Fault Number := do
  let radicand <- number "sqrt" a
  if radicand.isNegative then throw .negativeRoot
  else
    let x <- toFloat radicand
    return .float (Float.sqrt x)

/-- A function of angles, which has no value at the infinities. -/
def ofAngle (operation : String) (f : Float -> Float) (a : Operand) : Except Fault Number := do
  let n <- number operation a
  let angle <- toFloat n
  if angle.isInf then throw .domain else return .float (f angle)

end Calculator

end Reckoner
