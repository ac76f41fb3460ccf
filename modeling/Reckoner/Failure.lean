import Reckoner.Number
import Reckoner.Calculator.Fault

/-!
# Failures

Why reading, evaluating or calling gives no value.  Every failure has a kind and
a message; the wording lives here and in the calculator's faults.
-/

namespace Reckoner

/-- A cause of failure. Data in a message are kept as the text they show. -/
inductive Failure where
  /-- The tokens end inside an expression. -/
  | endOfInput
  /-- A token that can neither start nor close anything. -/
  | unexpectedToken (token : String)
  /-- Tokens are left after a whole expression. -/
  | surplusTokens
  /-- An integer numeral of too many digits. -/
  | numeralTooLong (characters : Nat)
  | undefinedVariable (name : String)
  /-- A binding to something that is not an identifier. -/
  | invalidIdentifier (name : String)
  /-- A definition without exactly a name and a value. -/
  | definitionShape (given : Nat)
  /-- A definition of something that is not an identifier. -/
  | definitionTarget (shown : String)
  /-- A lambda without exactly parameters and a body. -/
  | lambdaShape (given : Nat)
  | lambdaParameters (shown : String)
  | lambdaParameter (shown : String)
  | repeatedParameter
  | notCallable (shown : String)
  | emptyCombination
  | arityMismatch (expected given : Nat)
  /-- A host function that returned nothing. -/
  | noValue (function : String)
  /-- A list used as a key. -/
  | unhashable
  /-- Text of an integer that has too many digits to be written. -/
  | digitLimit
  /-- Nesting deeper than the bound on activations. -/
  | depthExceeded
  | calculation (fault : Calculator.Fault)
  /-- A failure of a host function's own; a fatal one ends the host program. -/
  | raised (kind message : String) (fatal : Bool)
deriving DecidableEq, Repr

namespace Failure

def kind : Failure -> String
  | .endOfInput | .unexpectedToken _ | .surplusTokens | .numeralTooLong _ => "SigmaSyntaxError"
  | .undefinedVariable _ => "SigmaUndefinedVariable"
  | .invalidIdentifier _ => "SigmaInvalidIdentifier"
  | .definitionShape _ | .definitionTarget _ => "SigmaInvalidDefinition"
  | .lambdaShape _ | .lambdaParameters _ | .lambdaParameter _ | .repeatedParameter =>
      "SigmaInvalidLambda"
  | .notCallable _ | .emptyCombination => "SigmaNotCallable"
  | .arityMismatch _ _ => "SigmaArityError"
  | .noValue _ => "SigmaTypeError"
  | .unhashable => "TypeError"
  | .digitLimit => "ValueError"
  | .depthExceeded => "RecursionError"
  | .calculation fault => fault.kind
  | .raised kind _ _ => kind

/-- The message of a failure; it may be empty only where a host function chose so. -/
def message : Failure -> String
  | .endOfInput => "unexpected end of input"
  | .unexpectedToken token => "unexpected token: " ++ token
  | .surplusTokens => "unexpected tokens at end of input"
  | .numeralTooLong characters =>
      "numeric literal too long: " ++ toString characters ++ " characters"
  | .undefinedVariable name => "undefined variable: " ++ name
  | .invalidIdentifier name => "invalid identifier: " ++ name
  | .definitionShape given =>
      "define requires a name and a value, got " ++ toString given ++ " arguments"
  | .definitionTarget shown => "define target must be a symbol, got " ++ shown
  | .lambdaShape given =>
      "lambda requires a parameter list and a single body, got " ++ toString given ++ " arguments"
  | .lambdaParameters shown => "lambda parameters must be a list, got " ++ shown
  | .lambdaParameter shown => "lambda parameter must be a symbol, got " ++ shown
  | .repeatedParameter => "lambda parameters must be distinct"
  | .notCallable shown => "not callable: " ++ shown
  | .emptyCombination => "not callable: empty combination"
  | .arityMismatch expected given =>
      "arity mismatch: expected " ++ toString expected ++ " arguments, got " ++ toString given
  | .noValue function => "host function returned no value: " ++ function
  | .unhashable => "unhashable type: 'list'"
  | .digitLimit =>
      "Exceeds the limit (" ++ toString Number.digitLimit ++ " digits) for integer string conversion; "
        ++ "use sys.set_int_max_str_digits() to increase the limit"
  | .depthExceeded => "maximum recursion depth exceeded"
  | .calculation fault => fault.message
  | .raised _ message _ => message

/-- What is reported of a failure: its message, or its kind if the message is empty. -/
def report (failure : Failure) : String :=
  if failure.message.isEmpty then failure.kind else failure.message

/-- Whether a failure ends the host program instead of being reported. -/
def isFatal : Failure -> Bool
  | .raised _ _ fatal => fatal
  | _ => false

end Failure

end Reckoner
