import Reckoner.Machine

/-!
# Evaluation

Symbols are looked up, keywords head special forms, other combinations are
applications, and everything else stands for itself.  An evaluation may fail, and
then the machine keeps what was done before.  Every activation of the evaluator
counts against a bound on nesting, which makes the evaluator total.
-/

namespace Reckoner

inductive Keyword where
  | define
  | begin
  | lambda
deriving DecidableEq, Repr

namespace Keyword

def all : List Keyword :=
  [.define, .begin, .lambda]

def name : Keyword -> String
  | .define => "define"
  | .begin => "begin"
  | .lambda => "lambda"

def ofName? (name : String) : Option Keyword :=
  all.find? fun keyword => keyword.name == name

def ofDatum? {H : Type} : Datum H -> Option Keyword
  | .symbol name => ofName? name
  | _ => none

end Keyword

namespace Evaluation

variable {H : Type}

def lookup (scope : Nat) (name : String) : Action H (Datum H) := fun machine =>
  match machine.store.lookup? scope name with
  | some value => .ok value machine
  | none => .error (.undefinedVariable name) machine

def define [Host H] (scope : Nat) (target value : Datum H) : Action H Unit := fun machine =>
  match target.identifier? with
  | some name =>
      .ok () { machine with
        store := machine.store.bind scope name value
        events := .bound scope name value :: machine.events }
  | none => .error (target.blameDisplayed .invalidIdentifier) machine

def newScope (outer : Option Nat) : Action H Nat := fun machine =>
  let (scope, store) := machine.store.create outer
  .ok scope { machine with store := store, events := .opened outer :: machine.events }

def newClosure (parameters : List (Datum H)) (body : Datum H) (scope : Nat) :
    Action H (Datum H) := fun machine =>
  .ok (.closure machine.births parameters body scope)
    { machine with births := machine.births + 1 }

/-- Takes over what a host function returned. A NaN that is new is given its birth. -/
def adopt (value : Datum H) : Action H (Datum H) := fun machine =>
  if value.isNewNaN then
    .ok (.nan machine.births) { machine with births := machine.births + 1 }
  else .ok value machine

/-- Calls a host function. To return nothing is a failure. -/
def callHost [Host H] (function : H) (operands : List (Datum H)) : Action H (Datum H) :=
  fun machine =>
    let outcome := Host.call function operands
    let after := { machine with events := .called function operands outcome :: machine.events }
    match outcome with
    | .error failure => .error failure after
    | .ok .absent => .error (.noValue (Host.title function)) after
    | .ok value => adopt value after

def bindAll [Host H] (scope : Nat) : List (Datum H × Datum H) -> Action H Unit
  | [] => pure ()
  | (target, value) :: rest => do
      define scope target value
      bindAll scope rest

/--
Opens the scope of one call of a closure, inside the scope that the closure was
made in.

Strictly, there must be as many operands as parameters; else surplus operands
are dropped and parameters without an operand stay unbound.
-/
def extend [Host H] (strict : Bool) (parameters : List (Datum H)) (outer : Nat)
    (operands : List (Datum H)) : Action H Nat :=
  if strict && operands.length != parameters.length then
    throw (.arityMismatch parameters.length operands.length)
  else do
    let scope <- newScope (some outer)
    bindAll scope (parameters.zip operands)
    return scope

/-- Evaluates an expression in a scope; how deep it may go is settled elsewhere. -/
abbrev Evaluator (H : Type) :=
  Nat -> Datum H -> Action H (Datum H)

def apply [Host H] (strict : Bool) (recur : Evaluator H) (head : Datum H)
    (operands : List (Datum H)) : Action H (Datum H) :=
  match head with
  | .closure _ parameters body scope => do
      let inner <- extend strict parameters scope operands
      recur inner body
  | .function f => callHost f operands
  | _ => throw (head.blame .notCallable)

def evaluateAll (recur : Datum H -> Action H (Datum H)) :
    List (Datum H) -> Action H (List (Datum H))
  | [] => pure []
  | expression :: rest => do
      let value <- recur expression
      let values <- evaluateAll recur rest
      return value :: values

def evaluateLast (recur : Datum H -> Action H (Datum H)) (last : Datum H) :
    List (Datum H) -> Action H (Datum H)
  | [] => pure last
  | expression :: rest => do
      let value <- recur expression
      evaluateLast recur value rest

/-- A definition: an identifier and an expression, whose value is bound and returned. -/
def evaluateDefine [Host H] (recur : Evaluator H) (scope : Nat) :
    List (Datum H) -> Action H (Datum H)
  | [target, expression] =>
      match target.identifier? with
      | none => throw (target.blame .definitionTarget)
      | some _ => do
          let value <- recur scope expression
          define scope target value
          return value
  | tail => throw (.definitionShape tail.length)

/-- A lambda: a sequence of distinct identifiers and one body. -/
def evaluateLambda [Host H] (scope : Nat) : List (Datum H) -> Action H (Datum H)
  | [parameters, body] =>
      match parameters.items? with
      | none => throw (parameters.blame .lambdaParameters)
      | some items =>
          match items.find? fun item => item.identifier?.isNone with
          | some item => throw (item.blame .lambdaParameter)
          | none =>
              if (items.filterMap Datum.identifier?).Nodup then newClosure items body scope
              else throw .repeatedParameter
  | tail => throw (.lambdaShape tail.length)

def evaluateForm [Host H] (recur : Evaluator H) (scope : Nat) (keyword : Keyword)
    (tail : List (Datum H)) : Action H (Datum H) :=
  match keyword with
  | .define => evaluateDefine recur scope tail
  | .begin => evaluateLast (recur scope) .nil tail
  | .lambda => evaluateLambda scope tail

/-- An application. The operator is judged before any operand is evaluated. -/
def evaluateCall [Host H] (strict : Bool) (recur : Evaluator H) (scope : Nat)
    (operator : Datum H) (operands : List (Datum H)) : Action H (Datum H) := do
  let head <- recur scope operator
  if head.isCallable then
    let values <- evaluateAll (recur scope) operands
    apply strict recur head values
  else throw (head.blame .notCallable)

def evaluateItems [Host H] (strict : Bool) (recur : Evaluator H) (scope : Nat) :
    List (Datum H) -> Action H (Datum H)
  | [] => throw .emptyCombination
  | operator :: operands =>
      match Keyword.ofDatum? operator with
      | some keyword => evaluateForm recur scope keyword operands
      | none => evaluateCall strict recur scope operator operands

/-- One activation of the evaluator; nested ones are left to `recur`. -/
def activate [Host H] (strict : Bool) (recur : Evaluator H) : Evaluator H := fun scope expression =>
  match expression with
  | .symbol name => lookup scope name
  | .combination items => evaluateItems strict recur scope items
  | .list items => evaluateItems strict recur scope items
  | atom => pure atom

end Evaluation

/-- Evaluates an expression in a scope with at most `depth` nested activations. -/
def evaluate {H : Type} [Host H] (strict : Bool) : Nat -> Evaluation.Evaluator H
  | 0 => fun _ _ => throw .depthExceeded
  | depth + 1 => Evaluation.activate strict (evaluate strict depth)

theorem evaluate_succ {H : Type} [Host H] (strict : Bool) (depth : Nat) :
    (evaluate strict (depth + 1) : Evaluation.Evaluator H) =
      Evaluation.activate strict (evaluate strict depth) :=
  rfl

end Reckoner
