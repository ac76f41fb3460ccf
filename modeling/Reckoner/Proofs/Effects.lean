import Reckoner.Evaluation

/-!
# What an evaluation does to the machine

An evaluation in a scope is, for the machine, a sequence of births, calls,
bindings in that scope, and whole evaluations inside scopes that are new.
`Effects` says this once; that it is all an evaluation does is `evaluate_does`,
for every outcome and every bound on nesting.  What evaluations leave alone, and
what their record tells, follows by induction over effects.
-/

namespace Reckoner

namespace Action

variable {H α β : Type}

def final : EStateM.Result Failure (Machine H) α -> Machine H
  | .ok _ machine => machine
  | .error _ machine => machine

def outcome : EStateM.Result Failure (Machine H) α -> Except Failure α
  | .ok value _ => .ok value
  | .error failure _ => .error failure

theorem bind_of_ok {action : Action H α} {next : α -> Action H β} {machine after : Machine H}
    {value : α} (h : action machine = .ok value after) :
    (action >>= next) machine = next value after := by
  simp only [bind, EStateM.bind, h]

theorem bind_of_error {action : Action H α} {next : α -> Action H β} {machine after : Machine H}
    {failure : Failure} (h : action machine = .error failure after) :
    (action >>= next) machine = .error failure after := by
  simp only [bind, EStateM.bind, h]

end Action

namespace Machine

variable {H : Type}

/-- Lets an event happen: the store changes as the event says, and the record grows by it. -/
def record (machine : Machine H) (event : Event H) : Machine H :=
  ⟨machine.store.after event, machine.births, event :: machine.events⟩

def bear (machine : Machine H) : Machine H :=
  ⟨machine.store, machine.births + 1, machine.events⟩

end Machine

variable {H : Type}

/-! ## Effects -/

/-- What an evaluation in a scope may do to the machine. -/
inductive Effects : Nat -> Machine H -> Machine H -> Prop where
  | refl {scope : Nat} {machine : Machine H} : Effects scope machine machine
  | trans {scope : Nat} {first second third : Machine H} :
      Effects scope first second -> Effects scope second third -> Effects scope first third
  | born {scope : Nat} {machine : Machine H} : Effects scope machine machine.bear
  | called {scope : Nat} {machine : Machine H} (function : H) (operands : List (Datum H))
      (outcome : Except Failure (Datum H)) :
      Effects scope machine (machine.record (.called function operands outcome))
  | bound {scope : Nat} {machine : Machine H} (name : String) (value : Datum H) :
      Effects scope machine (machine.record (.bound scope name value))
  /-- A new scope is opened, and everything else happens in it. -/
  | within {scope : Nat} {machine after : Machine H} (outer : Option Nat) :
      Effects machine.store.frames.size (machine.record (.opened outer)) after ->
        Effects scope machine after

/-- An action has no other effects than those of evaluations in a scope. -/
def Does {α : Type} (scope : Nat) (action : Action H α) : Prop :=
  ∀ machine, Effects scope machine (Action.final (action machine))

namespace Does

variable {α β : Type}

theorem pure (scope : Nat) (value : α) : Does scope (pure value : Action H α) :=
  fun _ => .refl

theorem throw (scope : Nat) (failure : Failure) : Does scope (throw failure : Action H α) :=
  fun _ => .refl

theorem bind {scope : Nat} {action : Action H α} {next : α -> Action H β}
    (haction : Does scope action) (hnext : ∀ value, Does scope (next value)) :
    Does scope (action >>= next) := by
  intro machine
  have hfirst := haction machine
  cases h : action machine with
  | ok value after =>
      rw [Action.bind_of_ok h]
      rw [h] at hfirst
      exact hfirst.trans (hnext value after)
  | error failure after =>
      rw [Action.bind_of_error h]
      rwa [h] at hfirst

end Does

/-! ## Every activation -/

namespace Evaluation

theorem lookup_does (scope inner : Nat) (name : String) :
    Does scope (lookup inner name : Action H (Datum H)) := by
  intro machine
  unfold lookup
  split <;> exact .refl

theorem define_does [Host H] (scope : Nat) (target value : Datum H) :
    Does scope (define scope target value) := by
  intro machine
  unfold define
  split
  · exact .bound _ value
  · exact .refl

theorem newClosure_does (scope inner : Nat) (parameters : List (Datum H)) (body : Datum H) :
    Does scope (newClosure parameters body inner) :=
  fun _ => .born

theorem adopt_does (scope : Nat) (value : Datum H) : Does scope (adopt value) := by
  intro machine
  unfold adopt
  split
  · exact .born
  · exact .refl

theorem callHost_does [Host H] (scope : Nat) (function : H) (operands : List (Datum H)) :
    Does scope (callHost function operands) := by
  intro machine
  have hcall : Effects scope machine
      (machine.record (.called function operands (Host.call function operands))) :=
    .called function operands _
  unfold callHost
  dsimp only
  split
  · exact hcall
  · exact hcall
  · exact hcall.trans (adopt_does scope _ _)

theorem bindAll_does [Host H] (scope : Nat) (pairs : List (Datum H × Datum H)) :
    Does scope (bindAll scope pairs) := by
  induction pairs with
  | nil => exact .pure scope ()
  | cons pair rest ih => exact .bind (define_does scope pair.1 pair.2) fun _ => ih

/-- A closure that is called with a fitting number of operands runs in a new scope. -/
theorem apply_closure [Host H] (strict : Bool) (recur : Evaluator H) (birth : Nat)
    (parameters : List (Datum H)) (body : Datum H) (outer : Nat) (operands : List (Datum H))
    (machine : Machine H) :
    apply strict recur (.closure birth parameters body outer) operands machine =
      if strict && operands.length != parameters.length then
        .error (.arityMismatch parameters.length operands.length) machine
      else
        (bindAll machine.store.frames.size (parameters.zip operands) >>= fun _ =>
          recur machine.store.frames.size body) (machine.record (.opened (some outer))) := by
  simp only [apply, extend]
  split
  · rfl
  · simp only [bind_assoc, pure_bind]
    rfl

/-- Whatever a call does happens in a new scope, so it is an effect of any scope. -/
theorem apply_does [Host H] (strict : Bool) {recur : Evaluator H}
    (hrecur : ∀ scope expression, Does scope (recur scope expression)) (scope : Nat)
    (head : Datum H) (operands : List (Datum H)) :
    Does scope (apply strict recur head operands) := by
  intro machine
  cases head with
  | closure birth parameters body outer =>
      rw [apply_closure]
      split
      · exact .refl
      · have hinner : Does machine.store.frames.size
            (bindAll machine.store.frames.size (parameters.zip operands) >>= fun _ =>
              recur machine.store.frames.size body) :=
          .bind (bindAll_does _ _) fun _ => hrecur _ body
        exact .within (some outer) (hinner _)
  | function f => exact callHost_does scope f operands machine
  | _ => exact .refl

theorem evaluateAll_does {scope : Nat} {recur : Datum H -> Action H (Datum H)}
    (hrecur : ∀ expression, Does scope (recur expression)) (expressions : List (Datum H)) :
    Does scope (evaluateAll recur expressions) := by
  induction expressions with
  | nil => exact .pure scope []
  | cons expression rest ih =>
      exact .bind (hrecur expression) fun _ => .bind ih fun _ => .pure scope _

theorem evaluateLast_does {scope : Nat} {recur : Datum H -> Action H (Datum H)}
    (hrecur : ∀ expression, Does scope (recur expression)) (last : Datum H)
    (expressions : List (Datum H)) : Does scope (evaluateLast recur last expressions) := by
  induction expressions generalizing last with
  | nil => exact .pure scope last
  | cons expression rest ih => exact .bind (hrecur expression) fun value => ih value

theorem evaluateDefine_does [Host H] {recur : Evaluator H}
    (hrecur : ∀ scope expression, Does scope (recur scope expression)) (scope : Nat)
    (tail : List (Datum H)) : Does scope (evaluateDefine recur scope tail) := by
  unfold evaluateDefine
  split
  · split
    · exact .throw scope _
    · exact .bind (hrecur scope _) fun value =>
        .bind (define_does scope _ value) fun _ => .pure scope value
  · exact .throw scope _

theorem evaluateLambda_does [Host H] (scope inner : Nat) (tail : List (Datum H)) :
    Does scope (evaluateLambda inner tail) := by
  unfold evaluateLambda
  split
  · split
    · exact .throw scope _
    · split
      · exact .throw scope _
      · split
        · exact newClosure_does scope inner _ _
        · exact .throw scope _
  · exact .throw scope _

theorem evaluateCall_does [Host H] (strict : Bool) {recur : Evaluator H}
    (hrecur : ∀ scope expression, Does scope (recur scope expression)) (scope : Nat)
    (operator : Datum H) (operands : List (Datum H)) :
    Does scope (evaluateCall strict recur scope operator operands) := by
  refine .bind (hrecur scope operator) fun head => ?_
  split
  · exact .bind (evaluateAll_does (hrecur scope) operands) fun values =>
      apply_does strict hrecur scope head values
  · exact .throw scope _

theorem evaluateItems_does [Host H] (strict : Bool) {recur : Evaluator H}
    (hrecur : ∀ scope expression, Does scope (recur scope expression)) (scope : Nat)
    (items : List (Datum H)) : Does scope (evaluateItems strict recur scope items) := by
  unfold evaluateItems
  split
  · exact .throw scope _
  · split
    · rename_i keyword _
      cases keyword with
      | define => exact evaluateDefine_does hrecur scope _
      | begin => exact evaluateLast_does (hrecur scope) _ _
      | lambda => exact evaluateLambda_does scope scope _
    · exact evaluateCall_does strict hrecur scope _ _

theorem activate_does [Host H] (strict : Bool) {recur : Evaluator H}
    (hrecur : ∀ scope expression, Does scope (recur scope expression)) (scope : Nat)
    (expression : Datum H) : Does scope (activate strict recur scope expression) := by
  unfold activate
  split
  · exact lookup_does scope scope _
  · exact evaluateItems_does strict hrecur scope _
  · exact evaluateItems_does strict hrecur scope _
  · exact .pure scope _

end Evaluation

theorem evaluate_does [Host H] (strict : Bool) (depth scope : Nat) (expression : Datum H) :
    Does scope (evaluate strict depth scope expression) := by
  induction depth generalizing scope expression with
  | zero => exact .throw scope _
  | succ depth ih => exact Evaluation.activate_does strict ih scope expression

end Reckoner
