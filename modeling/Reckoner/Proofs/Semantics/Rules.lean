import Reckoner.Machine

/-!
# Rules of evaluation

The meaning of expressions as an inductive relation, one rule for each way in
which an evaluation can go.  A rule relates an expression in a scope and the
memory before to an outcome, the memory after and the calls of host functions in
between, each with the store as the host finds it.  Failures end an evaluation at
the first step that fails; nothing here bounds how deep an evaluation may go.
-/

namespace Reckoner

variable {H : Type}

/-- What an evaluation reads and changes: the scopes, and the count of births. -/
structure Memory (H : Type) where
  store : Store H
  births : Nat

/-- A name has a value in the nearest scope, from one outwards, that binds it itself. -/
inductive Store.Sees (store : Store H) (name : String) (value : Datum H) : Nat -> Prop where
  | own {scope : Nat} {frame : Frame H} (hframe : store.frame? scope = some frame)
      (hvalue : frame.get? name = some value) : Sees store name value scope
  | outer {scope outer : Nat} {frame : Frame H} (hframe : store.frame? scope = some frame)
      (hnone : frame.get? name = none) (houter : frame.outer = some outer)
      (hseen : Sees store name value outer) : Sees store name value scope

/-- The text of a datum would need an integer of more digits than can be written. -/
inductive Datum.ShowsOverlong : Datum H -> Prop where
  | int {n : Int} (h : tenTo Number.digitLimit ≤ n.natAbs) : ShowsOverlong (.number (.int n))
  | item {d item : Datum H} {items : List (Datum H)} (hitems : d.items? = some items)
      (hmem : item ∈ items) (h : ShowsOverlong item) : ShowsOverlong d
  | parameter {birth scope : Nat} {item body : Datum H} {parameters : List (Datum H)}
      (hmem : item ∈ parameters) (h : ShowsOverlong item) :
      ShowsOverlong (.closure birth parameters body scope)

/-- The failure whose message shows a datum in a style, unless the datum cannot be shown. -/
inductive Blames [Host H] (style : Datum.Style) (cause : String -> Failure) (d : Datum H) :
    Failure -> Prop where
  | shown (h : ¬ d.ShowsOverlong) : Blames style cause d (cause (d.write style))
  | overlong (h : d.ShowsOverlong) : Blames style cause d .digitLimit

/-- Binding pairs one after the other in a scope; the first target that is no identifier ends it. -/
inductive Binds [Host H] (scope : Nat) :
    List (Datum H × Datum H) -> Store H -> Except Failure Unit -> Store H -> Prop where
  | nil {store : Store H} : Binds scope [] store (.ok ()) store
  | bound {target value : Datum H} {name : String} {rest : List (Datum H × Datum H)}
      {store after : Store H} {outcome : Except Failure Unit}
      (hname : target.identifier? = some name)
      (hrest : Binds scope rest (store.bind scope name value) outcome after) :
      Binds scope ((target, value) :: rest) store outcome after
  | refused {target value : Datum H} {rest : List (Datum H × Datum H)} {store : Store H}
      {failure : Failure} (hname : target.identifier? = none)
      (hblame : Blames .displayed .invalidIdentifier target failure) :
      Binds scope ((target, value) :: rest) store (.error failure) store

mutual

inductive Evaluates [Host H] (strict : Bool) : Nat -> Datum H -> Memory H ->
    Except Failure (Datum H) -> Memory H -> List (Call H) -> Prop where
  | atom {scope : Nat} {expression : Datum H} {memory : Memory H}
      (hitems : expression.items? = none) (hsymbol : ∀ name, expression ≠ .symbol name) :
      Evaluates strict scope expression memory (.ok expression) memory []
  | symbol {scope : Nat} {name : String} {value : Datum H} {memory : Memory H}
      (hseen : memory.store.Sees name value scope) :
      Evaluates strict scope (.symbol name) memory (.ok value) memory []
  | undefinedVariable {scope : Nat} {name : String} {memory : Memory H}
      (hunseen : ∀ value, ¬ memory.store.Sees name value scope) :
      Evaluates strict scope (.symbol name) memory (.error (.undefinedVariable name)) memory []
  | emptyCombination {scope : Nat} {expression : Datum H} {memory : Memory H}
      (hitems : expression.items? = some []) :
      Evaluates strict scope expression memory (.error .emptyCombination) memory []
  -- Definitions
  | define {scope : Nat} {expression target form value : Datum H} {name : String}
      {memory after : Memory H} {calls : List (Call H)}
      (hitems : expression.items? = some [.symbol "define", target, form])
      (hname : target.identifier? = some name)
      (hform : Evaluates strict scope form memory (.ok value) after calls) :
      Evaluates strict scope expression memory (.ok value)
        ⟨after.store.bind scope name value, after.births⟩ calls
  | defineFailed {scope : Nat} {expression target form : Datum H} {name : String}
      {failure : Failure} {memory after : Memory H} {calls : List (Call H)}
      (hitems : expression.items? = some [.symbol "define", target, form])
      (hname : target.identifier? = some name)
      (hform : Evaluates strict scope form memory (.error failure) after calls) :
      Evaluates strict scope expression memory (.error failure) after calls
  | definitionTarget {scope : Nat} {expression target form : Datum H} {failure : Failure}
      {memory : Memory H} (hitems : expression.items? = some [.symbol "define", target, form])
      (hname : target.identifier? = none)
      (hblame : Blames .inspected .definitionTarget target failure) :
      Evaluates strict scope expression memory (.error failure) memory []
  | definitionShape {scope : Nat} {expression : Datum H} {tail : List (Datum H)}
      {memory : Memory H} (hitems : expression.items? = some (.symbol "define" :: tail))
      (hlength : tail.length ≠ 2) :
      Evaluates strict scope expression memory (.error (.definitionShape tail.length)) memory []
  -- Sequences
  | begin {scope : Nat} {expression : Datum H} {forms values : List (Datum H)}
      {memory after : Memory H} {calls : List (Call H)}
      (hitems : expression.items? = some (.symbol "begin" :: forms))
      (hforms : EvaluatesAll strict scope forms memory (.ok values) after calls) :
      Evaluates strict scope expression memory (.ok (values.getLastD .nil)) after calls
  | beginFailed {scope : Nat} {expression : Datum H} {forms : List (Datum H)} {failure : Failure}
      {memory after : Memory H} {calls : List (Call H)}
      (hitems : expression.items? = some (.symbol "begin" :: forms))
      (hforms : EvaluatesAll strict scope forms memory (.error failure) after calls) :
      Evaluates strict scope expression memory (.error failure) after calls
  -- Closures
  | lambda {scope : Nat} {expression parameters body : Datum H} {items : List (Datum H)}
      {names : List String} {memory : Memory H}
      (hitems : expression.items? = some [.symbol "lambda", parameters, body])
      (hparameters : parameters.items? = some items)
      (hnames : items.map Datum.identifier? = names.map some) (hdistinct : names.Nodup) :
      Evaluates strict scope expression memory (.ok (.closure memory.births items body scope))
        ⟨memory.store, memory.births + 1⟩ []
  | repeatedParameter {scope : Nat} {expression parameters body : Datum H}
      {items : List (Datum H)} {names : List String} {memory : Memory H}
      (hitems : expression.items? = some [.symbol "lambda", parameters, body])
      (hparameters : parameters.items? = some items)
      (hnames : items.map Datum.identifier? = names.map some) (hrepeated : ¬ names.Nodup) :
      Evaluates strict scope expression memory (.error .repeatedParameter) memory []
  | lambdaParameter {scope : Nat} {expression parameters body item : Datum H}
      {good rest : List (Datum H)} {names : List String} {failure : Failure} {memory : Memory H}
      (hitems : expression.items? = some [.symbol "lambda", parameters, body])
      (hparameters : parameters.items? = some (good ++ item :: rest))
      (hgood : good.map Datum.identifier? = names.map some) (hitem : item.identifier? = none)
      (hblame : Blames .inspected .lambdaParameter item failure) :
      Evaluates strict scope expression memory (.error failure) memory []
  | lambdaParameters {scope : Nat} {expression parameters body : Datum H} {failure : Failure}
      {memory : Memory H}
      (hitems : expression.items? = some [.symbol "lambda", parameters, body])
      (hparameters : parameters.items? = none)
      (hblame : Blames .inspected .lambdaParameters parameters failure) :
      Evaluates strict scope expression memory (.error failure) memory []
  | lambdaShape {scope : Nat} {expression : Datum H} {tail : List (Datum H)} {memory : Memory H}
      (hitems : expression.items? = some (.symbol "lambda" :: tail)) (hlength : tail.length ≠ 2) :
      Evaluates strict scope expression memory (.error (.lambdaShape tail.length)) memory []
  -- Applications: the operator is judged before any operand is evaluated
  | operatorFailed {scope : Nat} {expression operator : Datum H} {operands : List (Datum H)}
      {failure : Failure} {memory after : Memory H} {calls : List (Call H)}
      (hitems : expression.items? = some (operator :: operands))
      (hhead : ∀ word ∈ ["define", "begin", "lambda"], operator ≠ .symbol word)
      (hoperator : Evaluates strict scope operator memory (.error failure) after calls) :
      Evaluates strict scope expression memory (.error failure) after calls
  | notCallable {scope : Nat} {expression operator head : Datum H} {operands : List (Datum H)}
      {failure : Failure} {memory after : Memory H} {calls : List (Call H)}
      (hitems : expression.items? = some (operator :: operands))
      (hhead : ∀ word ∈ ["define", "begin", "lambda"], operator ≠ .symbol word)
      (hoperator : Evaluates strict scope operator memory (.ok head) after calls)
      (hcallable : head.isCallable = false) (hblame : Blames .inspected .notCallable head failure) :
      Evaluates strict scope expression memory (.error failure) after calls
  | operandFailed {scope : Nat} {expression operator head : Datum H} {operands : List (Datum H)}
      {failure : Failure} {memory middle after : Memory H} {first second : List (Call H)}
      (hitems : expression.items? = some (operator :: operands))
      (hhead : ∀ word ∈ ["define", "begin", "lambda"], operator ≠ .symbol word)
      (hoperator : Evaluates strict scope operator memory (.ok head) middle first)
      (hcallable : head.isCallable = true)
      (hoperands : EvaluatesAll strict scope operands middle (.error failure) after second) :
      Evaluates strict scope expression memory (.error failure) after (first ++ second)
  | application {scope : Nat} {expression operator head : Datum H}
      {operands values : List (Datum H)} {outcome : Except Failure (Datum H)}
      {memory middle ready after : Memory H} {first second third : List (Call H)}
      (hitems : expression.items? = some (operator :: operands))
      (hhead : ∀ word ∈ ["define", "begin", "lambda"], operator ≠ .symbol word)
      (hoperator : Evaluates strict scope operator memory (.ok head) middle first)
      (hcallable : head.isCallable = true)
      (hoperands : EvaluatesAll strict scope operands middle (.ok values) ready second)
      (happly : Applies strict head values ready outcome after third) :
      Evaluates strict scope expression memory outcome after (first ++ (second ++ third))

inductive EvaluatesAll [Host H] (strict : Bool) : Nat -> List (Datum H) -> Memory H ->
    Except Failure (List (Datum H)) -> Memory H -> List (Call H) -> Prop where
  | nil {scope : Nat} {memory : Memory H} :
      EvaluatesAll strict scope [] memory (.ok []) memory []
  | failed {scope : Nat} {expression : Datum H} {rest : List (Datum H)} {failure : Failure}
      {memory after : Memory H} {calls : List (Call H)}
      (hfirst : Evaluates strict scope expression memory (.error failure) after calls) :
      EvaluatesAll strict scope (expression :: rest) memory (.error failure) after calls
  | restFailed {scope : Nat} {expression value : Datum H} {rest : List (Datum H)}
      {failure : Failure} {memory middle after : Memory H} {first second : List (Call H)}
      (hfirst : Evaluates strict scope expression memory (.ok value) middle first)
      (hrest : EvaluatesAll strict scope rest middle (.error failure) after second) :
      EvaluatesAll strict scope (expression :: rest) memory (.error failure) after (first ++ second)
  | cons {scope : Nat} {expression value : Datum H} {rest values : List (Datum H)}
      {memory middle after : Memory H} {first second : List (Call H)}
      (hfirst : Evaluates strict scope expression memory (.ok value) middle first)
      (hrest : EvaluatesAll strict scope rest middle (.ok values) after second) :
      EvaluatesAll strict scope (expression :: rest) memory (.ok (value :: values)) after
        (first ++ second)

inductive Applies [Host H] (strict : Bool) : Datum H -> List (Datum H) -> Memory H ->
    Except Failure (Datum H) -> Memory H -> List (Call H) -> Prop where
  | arityMismatch {birth outer : Nat} {parameters operands : List (Datum H)} {body : Datum H}
      {memory : Memory H} (hstrict : strict = true)
      (hlength : operands.length ≠ parameters.length) :
      Applies strict (.closure birth parameters body outer) operands memory
        (.error (.arityMismatch parameters.length operands.length)) memory []
  | parameterRefused {birth outer : Nat} {parameters operands : List (Datum H)} {body : Datum H}
      {failure : Failure} {memory : Memory H} {store : Store H}
      (hlength : strict = true -> operands.length = parameters.length)
      (hbinds : Binds memory.store.frames.size (parameters.zip operands)
        (memory.store.create (some outer)).2 (.error failure) store) :
      Applies strict (.closure birth parameters body outer) operands memory
        (.error failure) ⟨store, memory.births⟩ []
  | body {birth outer : Nat} {parameters operands : List (Datum H)} {body : Datum H}
      {outcome : Except Failure (Datum H)} {memory after : Memory H} {store : Store H}
      {calls : List (Call H)} (hlength : strict = true -> operands.length = parameters.length)
      (hbinds : Binds memory.store.frames.size (parameters.zip operands)
        (memory.store.create (some outer)).2 (.ok ()) store)
      (hbody : Evaluates strict memory.store.frames.size body ⟨store, memory.births⟩
        outcome after calls) :
      Applies strict (.closure birth parameters body outer) operands memory outcome after calls
  | raised {function : H} {operands : List (Datum H)} {failure : Failure} {memory : Memory H}
      (hcall : Host.call function operands = .error failure) :
      Applies strict (.function function) operands memory (.error failure) memory
        [⟨function, operands, memory.store⟩]
  | noValue {function : H} {operands : List (Datum H)} {memory : Memory H}
      (hcall : Host.call function operands = .ok .absent) :
      Applies strict (.function function) operands memory
        (.error (.noValue (Host.title function))) memory [⟨function, operands, memory.store⟩]
  | returned {function : H} {operands : List (Datum H)} {value : Datum H} {memory : Memory H}
      (hcall : Host.call function operands = .ok value) (hvalue : value ≠ .absent)
      (hnan : value.isNewNaN = false) :
      Applies strict (.function function) operands memory (.ok value) memory
        [⟨function, operands, memory.store⟩]
  | returnedNaN {function : H} {operands : List (Datum H)} {value : Datum H} {memory : Memory H}
      (hcall : Host.call function operands = .ok value) (hnan : value.isNewNaN = true) :
      Applies strict (.function function) operands memory (.ok (.nan memory.births))
        ⟨memory.store, memory.births + 1⟩ [⟨function, operands, memory.store⟩]

end

end Reckoner
