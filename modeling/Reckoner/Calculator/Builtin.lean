import Reckoner.Calculator.Arithmetic
import Reckoner.Calculator.Combinatorics
import Reckoner.Calculator.Statistics

/-!
# The calculator's functions

The seventeen functions of the default table, each with the name it is bound to,
the name it shows, and its meaning on operands.
-/

namespace Reckoner

open Calculator

inductive Builtin where
  | add | sub | mul | div
  | floor | ceil | pow | sqrt | sin | cos | tan
  | factorial | npr | ncr
  | mean | variance | stddev
deriving DecidableEq, Repr

namespace Builtin

def all : List Builtin :=
  [.add, .sub, .mul, .div, .floor, .ceil, .pow, .sqrt, .sin, .cos, .tan, .factorial, .npr, .ncr,
    .mean, .variance, .stddev]

def symbol : Builtin -> String
  | .add => "+"
  | .sub => "-"
  | .mul => "*"
  | .div => "/"
  | .floor => "floor"
  | .ceil => "ceil"
  | .pow => "pow"
  | .sqrt => "sqrt"
  | .sin => "sin"
  | .cos => "cos"
  | .tan => "tan"
  | .factorial => "factorial"
  | .npr => "npr"
  | .ncr => "ncr"
  | .mean => "mean"
  | .variance => "variance"
  | .stddev => "stddev"

/-- The name a function shows; operators are spelled out. -/
def title : Builtin -> String
  | .add => "add"
  | .sub => "sub"
  | .mul => "mul"
  | .div => "div"
  | .pow => "power"
  | b => b.symbol

def label (b : Builtin) : String :=
  "<function " ++ b.title ++ ">"

def ofSymbol? (name : String) : Option Builtin :=
  all.find? fun b => b.symbol == name

def unary (b : Builtin) (parameter : String) (f : Operand -> Except Fault Number) :
    List Operand -> Except Fault Number
  | [x] => f x
  | operands => .error (.operandCount b.title [parameter] operands.length)

def binary (b : Builtin) (first second : String)
    (f : Operand -> Operand -> Except Fault Number) :
    List Operand -> Except Fault Number
  | [x, y] => f x y
  | operands => .error (.operandCount b.title [first, second] operands.length)

def apply : Builtin -> List Operand -> Except Fault Number
  | .add => Calculator.sum
  | .sub => difference
  | .mul => Calculator.product
  | .div => quotient
  | .floor => unary .floor "a" Calculator.floor
  | .ceil => unary .ceil "a" Calculator.ceil
  | .pow => binary .pow "a" "b" power
  | .sqrt => unary .sqrt "a" Calculator.sqrt
  | .sin => unary .sin "a" (ofAngle "sin" Float.sin)
  | .cos => unary .cos "a" (ofAngle "cos" Float.cos)
  | .tan => unary .tan "a" (ofAngle "tan" Float.tan)
  | .factorial => unary .factorial "n" Calculator.factorial
  | .npr => binary .npr "n" "r" arrangements
  | .ncr => binary .ncr "n" "r" combinations
  | .mean => Calculator.mean
  | .variance => Calculator.variance
  | .stddev => Calculator.stddev

end Builtin

end Reckoner
