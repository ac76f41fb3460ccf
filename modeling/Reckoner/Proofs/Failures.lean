import Reckoner.Proofs.Correspondence.Arity
import Reckoner.Proofs.Correspondence.Contents
import Reckoner.Proofs.Record

/-!
# Failures

Nothing in the evaluator catches a failure, so a failure ends every activation around it.
`Activation.Stops` tells where an evaluation fails: activations enter others, each after
what comes before it has succeeded, down to one that refuses to go on by itself.  A run
fails in exactly this way, and the machine that it leaves is the one on which that last
activation refused.  In particular a host function that fails is called last, and its
failure is the outcome, however deep the call lies.
-/

namespace Reckoner

open Evaluation

variable {H α β : Type}

/-! ## Failing actions -/

namespace Action

variable {machine after : Machine H} {failure : Failure}

theorem bind_eq_error_iff {action : Action H α} {next : α -> Action H β} :
    (action >>= next) machine = .error failure after ↔
      action machine = .error failure after ∨
        ∃ value middle, action machine = .ok value middle ∧
          next value middle = .error failure after := by
  cases h : action machine with
  | ok value middle => simp [bind_of_ok h]
  | error other middle => simp [bind_of_error h]

theorem bind_eq_ok_iff {action : Action H α} {next : α -> Action H β} {result : β} :
    (action >>= next) machine = .ok result after ↔
      ∃ value middle, action machine = .ok value middle ∧ next value middle = .ok result after := by
  cases h : action machine with
  | ok value middle => simp [bind_of_ok h]
  | error other middle => simp [bind_of_error h]

end Action

theorem Keyword.ofDatum?_eq_some_iff {d : Datum H} {keyword : Keyword} :
    Keyword.ofDatum? d = some keyword ↔ d = .symbol keyword.name := by
  constructor
  · intro h
    cases d with
    | symbol name =>
        have hname := List.find?_some (p := fun keyword => Keyword.name keyword == name) h
        rw [beq_iff_eq.mp hname]
    | _ => cases h
  · rintro rfl
    cases keyword <;> rfl

namespace Evaluation

variable {machine after : Machine H} {failure : Failure}

theorem evaluateAll_append_of_ok {recur : Datum H -> Action H (Datum H)}
    {front values : List (Datum H)} {middle : Machine H}
    (h : evaluateAll recur front machine = .ok values middle) (back : List (Datum H)) :
    evaluateAll recur (front ++ back) machine =
      (evaluateAll recur back >>= fun rest => pure (values ++ rest)) middle := by
  induction front generalizing machine values with
  | nil =>
      cases h
      rw [List.nil_append]
      simp
  | cons e front ih =>
      obtain ⟨value, next, hfirst, hrest⟩ := Action.bind_eq_ok_iff.mp h
      obtain ⟨others, last, hothers, hpure⟩ := Action.bind_eq_ok_iff.mp hrest
      cases hpure
      rw [List.cons_append, evaluateAll, Action.bind_of_ok hfirst]
      have hwhole := ih hothers
      cases hback : evaluateAll recur back middle with
      | ok rest final =>
          rw [Action.bind_of_ok hback] at hwhole ⊢
          exact Action.bind_of_ok hwhole
      | error failure final =>
          rw [Action.bind_of_error hback] at hwhole ⊢
          exact Action.bind_of_error hwhole

/-- Expressions fail at the first that fails, after those before it. -/
theorem evaluateAll_eq_error_iff {recur : Datum H -> Action H (Datum H)} {es : List (Datum H)} :
    evaluateAll recur es machine = .error failure after ↔
      ∃ front e back values middle, es = front ++ e :: back ∧
        evaluateAll recur front machine = .ok values middle ∧
        recur e middle = .error failure after := by
  constructor
  · intro h
    induction es generalizing machine with
    | nil => cases h
    | cons first rest ih =>
        obtain hfirst | ⟨value, middle, hfirst, hrest⟩ := Action.bind_eq_error_iff.mp h
        · exact ⟨[], first, rest, [], machine, rfl, rfl, hfirst⟩
        · obtain hrest | ⟨values, ready, -, hpure⟩ := Action.bind_eq_error_iff.mp hrest
          · obtain ⟨front, e, back, values, ready, rfl, hfront, hfails⟩ := ih hrest
            refine ⟨first :: front, e, back, value :: values, ready, rfl, ?_, hfails⟩
            rw [evaluateAll, Action.bind_of_ok hfirst, Action.bind_of_ok hfront]
            rfl
          · cases hpure
  · rintro ⟨front, e, back, values, middle, rfl, hfront, hfails⟩
    rw [evaluateAll_append_of_ok hfront]
    exact Action.bind_of_error (Action.bind_of_error hfails)

variable [Host H] {recur : Evaluator H} {scope : Nat}

theorem evaluateDefine_of_identifier {target : Datum H} {name : String}
    (hname : target.identifier? = some name) (form : Datum H) :
    evaluateDefine recur scope [target, form] machine = .error failure after ↔
      recur scope form machine = .error failure after := by
  have hdefine : evaluateDefine recur scope [target, form] =
      recur scope form >>= fun value => define scope target value >>= fun _ => pure value := by
    simp only [evaluateDefine, hname]
  rw [hdefine, Action.bind_eq_error_iff]
  refine or_iff_left ?_
  rintro ⟨value, middle, -, hrest⟩
  have hbound : define scope target value middle =
      .ok () (middle.record (.bound scope name value)) := by
    simp only [define, hname]
    rfl
  rw [Action.bind_of_ok hbound] at hrest
  cases hrest

theorem evaluateDefine_refused {target : Datum H} (hname : target.identifier? = none)
    (form : Datum H) :
    evaluateDefine recur scope [target, form] = throw (target.blame .definitionTarget) := by
  simp only [evaluateDefine, hname]

theorem evaluateLambda_cases (scope : Nat) (tail : List (Datum H)) :
    (∃ failure, evaluateLambda scope tail = throw failure) ∨
      ∃ parameters body, evaluateLambda scope tail = newClosure parameters body scope := by
  unfold evaluateLambda
  split
  · split
    · exact .inl ⟨_, rfl⟩
    · split
      · exact .inl ⟨_, rfl⟩
      · split
        · exact .inr ⟨_, _, rfl⟩
        · exact .inl ⟨_, rfl⟩
  · exact .inl ⟨_, rfl⟩

theorem eq_of_evaluateLambda_eq_error {tail : List (Datum H)}
    (h : evaluateLambda scope tail machine = .error failure after) : after = machine := by
  obtain ⟨other, hthrow⟩ | ⟨parameters, body, hclosure⟩ := evaluateLambda_cases scope tail
  · rw [hthrow] at h
    cases h
    rfl
  · rw [hclosure] at h
    cases h

theorem callHost_eq_error_iff {f : H} {operands : List (Datum H)} :
    callHost f operands machine = .error failure after ↔
      (Host.call f operands = .error failure ∧
        after = machine.record (.called f operands (.error failure))) ∨
      (Host.call f operands = .ok .absent ∧ failure = .noValue (Host.title f) ∧
        after = machine.record (.called f operands (.ok .absent))) := by
  cases hcall : Host.call f operands with
  | error other =>
      have hresult : callHost f operands machine =
          .error other (machine.record (.called f operands (.error other))) := by
        simp only [callHost, hcall]
        rfl
      rw [hresult]
      grind
  | ok value =>
      by_cases hvalue : value = .absent
      · subst hvalue
        have hresult : callHost f operands machine = .error (.noValue (Host.title f))
            (machine.record (.called f operands (.ok .absent))) := by
          simp only [callHost, hcall]
          rfl
        rw [hresult]
        grind
      · rw [callHost_of_ok hcall hvalue, adopt]
        split <;> simp [hvalue]

end Evaluation

/-! ## Activations -/

structure Activation (H : Type) where
  depth : Nat
  scope : Nat
  expression : Datum H
  machine : Machine H

namespace Activation

variable [Host H] (strict : Bool)

def run (a : Activation H) : EStateM.Result Failure (Machine H) (Datum H) :=
  evaluate strict a.depth a.scope a.expression a.machine

/-- An application whose operator gave a callable head, and whose operands gave values. -/
inductive Prepares : Activation H -> Datum H -> List (Datum H) -> Machine H -> Prop where
  | intro {depth scope : Nat} {e operator head : Datum H} {operands values : List (Datum H)}
      {machine middle ready : Machine H} (hitems : e.items? = some (operator :: operands))
      (hkeyword : Keyword.ofDatum? operator = none)
      (hoperator : evaluate strict depth scope operator machine = .ok head middle)
      (hcallable : head.isCallable = true)
      (hoperands : evaluateAll (evaluate strict depth scope) operands middle = .ok values ready) :
      Prepares ⟨depth + 1, scope, e, machine⟩ head values ready

/-- One activation begins another, after all that comes before it has succeeded. -/
inductive Enters : Activation H -> Activation H -> Prop where
  | definition {depth scope : Nat} {e target form : Datum H} {name : String} {machine : Machine H}
      (hitems : e.items? = some [.symbol "define", target, form])
      (hname : target.identifier? = some name) :
      Enters ⟨depth + 1, scope, e, machine⟩ ⟨depth, scope, form, machine⟩
  | sequence {depth scope : Nat} {e form : Datum H} {front back values : List (Datum H)}
      {machine middle : Machine H}
      (hitems : e.items? = some (.symbol "begin" :: (front ++ form :: back)))
      (hfront : evaluateAll (evaluate strict depth scope) front machine = .ok values middle) :
      Enters ⟨depth + 1, scope, e, machine⟩ ⟨depth, scope, form, middle⟩
  | operator {depth scope : Nat} {e operator : Datum H} {operands : List (Datum H)}
      {machine : Machine H} (hitems : e.items? = some (operator :: operands))
      (hkeyword : Keyword.ofDatum? operator = none) :
      Enters ⟨depth + 1, scope, e, machine⟩ ⟨depth, scope, operator, machine⟩
  | operand {depth scope : Nat} {e operator head operand : Datum H}
      {front back values : List (Datum H)} {machine middle ready : Machine H}
      (hitems : e.items? = some (operator :: (front ++ operand :: back)))
      (hkeyword : Keyword.ofDatum? operator = none)
      (hoperator : evaluate strict depth scope operator machine = .ok head middle)
      (hcallable : head.isCallable = true)
      (hfront : evaluateAll (evaluate strict depth scope) front middle = .ok values ready) :
      Enters ⟨depth + 1, scope, e, machine⟩ ⟨depth, scope, operand, ready⟩
  | body {depth scope birth outer inner : Nat} {e body : Datum H}
      {parameters values : List (Datum H)} {machine ready opened : Machine H}
      (hprepares : Prepares strict ⟨depth + 1, scope, e, machine⟩
        (.closure birth parameters body outer) values ready)
      (hextend : extend strict parameters outer values ready = .ok inner opened) :
      Enters ⟨depth + 1, scope, e, machine⟩ ⟨depth, inner, body, opened⟩

/--
An activation fails by itself.  What it evaluated before has succeeded, and nothing is
added to the machine but the call that failed, or the parameters that were bound before
one that is no identifier.
-/
inductive Refuses : Activation H -> Failure -> Machine H -> Prop where
  | depthExceeded {scope : Nat} {e : Datum H} {machine : Machine H} :
      Refuses ⟨0, scope, e, machine⟩ .depthExceeded machine
  | undefinedVariable {depth scope : Nat} {name : String} {machine : Machine H}
      (hlookup : machine.store.lookup? scope name = none) :
      Refuses ⟨depth + 1, scope, .symbol name, machine⟩ (.undefinedVariable name) machine
  | emptyCombination {depth scope : Nat} {e : Datum H} {machine : Machine H}
      (hitems : e.items? = some []) :
      Refuses ⟨depth + 1, scope, e, machine⟩ .emptyCombination machine
  | definitionTarget {depth scope : Nat} {e target form : Datum H} {machine : Machine H}
      (hitems : e.items? = some [.symbol "define", target, form])
      (hname : target.identifier? = none) :
      Refuses ⟨depth + 1, scope, e, machine⟩ (target.blame .definitionTarget) machine
  | definitionShape {depth scope : Nat} {e : Datum H} {tail : List (Datum H)} {machine : Machine H}
      (hitems : e.items? = some (.symbol "define" :: tail)) (hlength : tail.length ≠ 2) :
      Refuses ⟨depth + 1, scope, e, machine⟩ (.definitionShape tail.length) machine
  | lambda {depth scope : Nat} {e : Datum H} {tail : List (Datum H)} {failure : Failure}
      {machine : Machine H} (hitems : e.items? = some (.symbol "lambda" :: tail))
      (hlambda : evaluateLambda scope tail machine = .error failure machine) :
      Refuses ⟨depth + 1, scope, e, machine⟩ failure machine
  | notCallable {depth scope : Nat} {e operator head : Datum H} {operands : List (Datum H)}
      {machine middle : Machine H} (hitems : e.items? = some (operator :: operands))
      (hkeyword : Keyword.ofDatum? operator = none)
      (hoperator : evaluate strict depth scope operator machine = .ok head middle)
      (hcallable : head.isCallable = false) :
      Refuses ⟨depth + 1, scope, e, machine⟩ (head.blame .notCallable) middle
  | operands {a : Activation H} {birth outer : Nat} {body : Datum H}
      {parameters values : List (Datum H)} {failure : Failure} {ready after : Machine H}
      (hprepares : Prepares strict a (.closure birth parameters body outer) values ready)
      (hextend : extend strict parameters outer values ready = .error failure after) :
      Refuses a failure after
  | raised {a : Activation H} {f : H} {values : List (Datum H)} {failure : Failure}
      {ready : Machine H} (hprepares : Prepares strict a (.function f) values ready)
      (hcall : Host.call f values = .error failure) :
      Refuses a failure (ready.record (.called f values (.error failure)))
  | noValue {a : Activation H} {f : H} {values : List (Datum H)} {ready : Machine H}
      (hprepares : Prepares strict a (.function f) values ready)
      (hcall : Host.call f values = .ok .absent) :
      Refuses a (.noValue (Host.title f)) (ready.record (.called f values (.ok .absent)))

/-- An activation fails by itself, or in one that it begins. -/
inductive Stops : Activation H -> Failure -> Machine H -> Prop where
  | itself {a : Activation H} {failure : Failure} {after : Machine H}
      (h : Refuses strict a failure after) : Stops a failure after
  | inside {a b : Activation H} {failure : Failure} {after : Machine H}
      (henters : Enters strict a b) (hstops : Stops b failure after) : Stops a failure after

variable {strict} {depth scope : Nat} {e operator head : Datum H}
  {items operands values : List (Datum H)} {machine middle ready after : Machine H}
  {failure : Failure}

theorem run_of_items (hitems : e.items? = some items) :
    run strict ⟨depth + 1, scope, e, machine⟩ =
      evaluateItems strict (evaluate strict depth) scope items machine := by
  rw [run, evaluate_succ, activate_of_items _ _ hitems]

theorem run_of_operator (hitems : e.items? = some (operator :: operands))
    (hkeyword : Keyword.ofDatum? operator = none) :
    run strict ⟨depth + 1, scope, e, machine⟩ =
      evaluateCall strict (evaluate strict depth) scope operator operands machine := by
  simp only [run_of_items hitems, evaluateItems, hkeyword]

/-- Once the operator has given a callable head, the operands are evaluated and it is applied. -/
theorem run_of_head (hitems : e.items? = some (operator :: operands))
    (hkeyword : Keyword.ofDatum? operator = none)
    (hoperator : evaluate strict depth scope operator machine = .ok head middle)
    (hcallable : head.isCallable = true) :
    run strict ⟨depth + 1, scope, e, machine⟩ =
      (evaluateAll (evaluate strict depth scope) operands >>=
        apply strict (evaluate strict depth) head) middle := by
  rw [run_of_operator hitems hkeyword, evaluateCall, Action.bind_of_ok hoperator, if_pos hcallable]

theorem Prepares.run_eq {a : Activation H} (h : Prepares strict a head values ready) :
    a.run strict = apply strict (evaluate strict (a.depth - 1)) head values ready := by
  cases h with
  | intro hitems hkeyword hoperator hcallable hoperands =>
      rw [run_of_head hitems hkeyword hoperator hcallable, Action.bind_of_ok hoperands]
      rfl

theorem Enters.depth_eq {a b : Activation H} (h : Enters strict a b) : a.depth = b.depth + 1 := by
  cases h <;> rfl

/-- What an activation enters fails the activation. -/
theorem Enters.run_eq_error {a b : Activation H} (h : Enters strict a b)
    (hfails : b.run strict = .error failure after) : a.run strict = .error failure after := by
  cases h with
  | definition hitems hname =>
      rw [run_of_items hitems, evaluateItems_define, evaluateDefine_of_identifier hname]
      exact hfails
  | sequence hitems hfront =>
      rw [run_of_items hitems, evaluateItems_begin, evaluateLast_eq]
      exact Action.bind_of_error (evaluateAll_eq_error_iff.mpr ⟨_, _, _, _, _, rfl, hfront, hfails⟩)
  | operator hitems hkeyword =>
      rw [run_of_operator hitems hkeyword]
      exact Action.bind_of_error hfails
  | operand hitems hkeyword hoperator hcallable hfront =>
      rw [run_of_head hitems hkeyword hoperator hcallable]
      exact Action.bind_of_error (evaluateAll_eq_error_iff.mpr ⟨_, _, _, _, _, rfl, hfront, hfails⟩)
  | body hprepares hextend =>
      rw [hprepares.run_eq]
      exact (Action.bind_of_ok hextend).trans hfails

theorem Refuses.run_eq_error {a : Activation H} (h : Refuses strict a failure after) :
    a.run strict = .error failure after := by
  cases h with
  | depthExceeded => rfl
  | undefinedVariable hlookup =>
      rw [run, evaluate_succ]
      simp only [activate, lookup, hlookup]
  | emptyCombination hitems =>
      rw [run_of_items hitems]
      rfl
  | definitionTarget hitems hname =>
      rw [run_of_items hitems, evaluateItems_define, evaluateDefine_refused hname]
      rfl
  | definitionShape hitems hlength =>
      rw [run_of_items hitems, evaluateItems_define, evaluateDefine_shape _ _ hlength]
      rfl
  | lambda hitems hlambda =>
      rw [run_of_items hitems]
      exact hlambda
  | notCallable hitems hkeyword hoperator hcallable =>
      rw [run_of_operator hitems hkeyword, evaluateCall, Action.bind_of_ok hoperator, hcallable]
      rfl
  | operands hprepares hextend =>
      rw [hprepares.run_eq]
      exact Action.bind_of_error hextend
  | raised hprepares hcall =>
      rw [hprepares.run_eq]
      exact callHost_eq_error_iff.mpr (.inl ⟨hcall, rfl⟩)
  | noValue hprepares hcall =>
      rw [hprepares.run_eq]
      exact callHost_eq_error_iff.mpr (.inr ⟨hcall, rfl, rfl⟩)

def Breaks (strict : Bool) (a : Activation H) (failure : Failure) (after : Machine H) : Prop :=
  Refuses strict a failure after ∨ ∃ b, Enters strict a b ∧ b.run strict = .error failure after

theorem Prepares.breaks (h : Prepares strict ⟨depth + 1, scope, e, machine⟩ head values ready)
    (hfails : apply strict (evaluate strict depth) head values ready = .error failure after) :
    Breaks strict ⟨depth + 1, scope, e, machine⟩ failure after := by
  cases head with
  | closure birth parameters body outer =>
      obtain hextend | ⟨inner, opened, hextend, hbody⟩ := Action.bind_eq_error_iff.mp hfails
      · exact .inl (.operands h hextend)
      · exact .inr ⟨_, .body h hextend, hbody⟩
  | function f =>
      obtain ⟨hcall, rfl⟩ | ⟨hcall, rfl, rfl⟩ := callHost_eq_error_iff.mp hfails
      · exact .inl (.raised h hcall)
      · exact .inl (.noValue h hcall)
  | _ =>
      cases h
      contradiction

theorem breaks_of_lookup {name : String}
    (hfails : lookup scope name machine = .error failure after) :
    Breaks strict ⟨depth + 1, scope, .symbol name, machine⟩ failure after := by
  unfold lookup at hfails
  split at hfails
  · cases hfails
  · rename_i hlookup
    cases hfails
    exact .inl (.undefinedVariable hlookup)

theorem breaks_of_form {keyword : Keyword}
    (hitems : e.items? = some (.symbol keyword.name :: operands))
    (hfails : evaluateForm (evaluate strict depth) scope keyword operands machine =
      .error failure after) : Breaks strict ⟨depth + 1, scope, e, machine⟩ failure after := by
  cases keyword with
  | define =>
      by_cases hlength : operands.length = 2
      · obtain ⟨target, form, rfl⟩ := List.length_eq_two.mp hlength
        cases hname : target.identifier? with
        | none =>
            rw [evaluateForm, evaluateDefine_refused hname] at hfails
            cases hfails
            exact .inl (.definitionTarget hitems hname)
        | some name =>
            exact .inr ⟨_, .definition hitems hname,
              (evaluateDefine_of_identifier hname form).mp hfails⟩
      · rw [evaluateForm, evaluateDefine_shape _ _ hlength] at hfails
        cases hfails
        exact .inl (.definitionShape hitems hlength)
  | begin =>
      rw [evaluateForm, evaluateLast_eq] at hfails
      obtain hforms | ⟨values, last, -, hpure⟩ := Action.bind_eq_error_iff.mp hfails
      · obtain ⟨front, form, back, values, middle, rfl, hfront, hform⟩ :=
          evaluateAll_eq_error_iff.mp hforms
        exact .inr ⟨_, .sequence hitems hfront, hform⟩
      · cases hpure
  | lambda =>
      obtain rfl := eq_of_evaluateLambda_eq_error hfails
      exact .inl (.lambda hitems hfails)

theorem breaks_of_call (hitems : e.items? = some (operator :: operands))
    (hkeyword : Keyword.ofDatum? operator = none)
    (hfails : evaluateCall strict (evaluate strict depth) scope operator operands machine =
      .error failure after) : Breaks strict ⟨depth + 1, scope, e, machine⟩ failure after := by
  obtain hoperator | ⟨head, middle, hoperator, hrest⟩ := Action.bind_eq_error_iff.mp hfails
  · exact .inr ⟨_, .operator hitems hkeyword, hoperator⟩
  · split at hrest
    · rename_i hcallable
      obtain hoperands | ⟨values, ready, hoperands, happly⟩ := Action.bind_eq_error_iff.mp hrest
      · obtain ⟨front, operand, back, values, ready, rfl, hfront, hoperand⟩ :=
          evaluateAll_eq_error_iff.mp hoperands
        exact .inr ⟨_, .operand hitems hkeyword hoperator hcallable hfront, hoperand⟩
      · exact Prepares.breaks (.intro hitems hkeyword hoperator hcallable hoperands) happly
    · rename_i hcallable
      cases hrest
      exact .inl (.notCallable hitems hkeyword hoperator (eq_false_of_ne_true hcallable))

theorem breaks_of_run_eq_error {a : Activation H} (h : a.run strict = .error failure after) :
    Breaks strict a failure after := by
  rcases a with ⟨depth, scope, e, machine⟩
  cases depth with
  | zero =>
      cases h
      exact .inl .depthExceeded
  | succ depth =>
      cases hitems : e.items? with
      | none =>
          by_cases hsymbol : ∃ name, e = .symbol name
          · obtain ⟨name, rfl⟩ := hsymbol
            exact breaks_of_lookup h
          · rw [run, evaluate_succ, activate_of_atom _ _ hitems (not_exists.mp hsymbol)] at h
            cases h
      | some items =>
          rw [run_of_items hitems] at h
          cases items with
          | nil =>
              cases h
              exact .inl (.emptyCombination hitems)
          | cons operator operands =>
              cases hkeyword : Keyword.ofDatum? operator with
              | none =>
                  simp only [evaluateItems, hkeyword] at h
                  exact breaks_of_call hitems hkeyword h
              | some keyword =>
                  simp only [evaluateItems, hkeyword] at h
                  obtain rfl := Keyword.ofDatum?_eq_some_iff.mp hkeyword
                  exact breaks_of_form hitems h

/-- A run fails exactly where the activations that it enters lead to one that refuses. -/
theorem run_eq_error_iff_stops (a : Activation H) :
    a.run strict = .error failure after ↔ Stops strict a failure after := by
  constructor
  · intro h
    -- What an activation enters may go less deep than it.
    induction hdepth : a.depth using Nat.strong_induction_on generalizing a with
    | _ depth ih =>
        obtain hrefuses | ⟨b, henters, hfails⟩ := breaks_of_run_eq_error h
        · exact .itself hrefuses
        · have hless : b.depth < depth := by
            rw [← hdepth, henters.depth_eq]
            exact Nat.lt_succ_self _
          exact .inside henters (ih _ hless b hfails rfl)
  · intro h
    induction h with
    | itself hrefuses => exact hrefuses.run_eq_error
    | inside henters _ ih => exact henters.run_eq_error ih

end Activation

/-! ## Calls that fail -/

def Event.Genuine [Host H] : Event H -> Prop
  | .called function operands outcome => outcome = Host.call function operands
  | .opened _ => True
  | .bound _ _ _ => True

theorem Event.genuine_called [Host H] {function : H} {operands : List (Datum H)}
    {outcome : Except Failure (Datum H)} (h : Host.call function operands = outcome) :
    (Event.called function operands outcome).Genuine :=
  h.symm

/-- A history with an outcome: a call that failed is the last event, and its failure the outcome. -/
structure Halts [Host H] (start machine : Machine H) (outcome : Except Failure α)
    (history : List (Event H)) : Prop where
  recorded : start.Recorded machine history
  genuine : ∀ event ∈ history, event.Genuine
  last : ∀ past function operands failure later,
    history = past ++ .called function operands (.error failure) :: later ->
      later = [] ∧ outcome = .error failure

namespace Machine

variable [Host H] {start machine : Machine H}

def Unbroken (start machine : Machine H) : Prop :=
  ∃ history, start.Recorded machine history ∧
    ∀ event ∈ history, event.Genuine ∧ event.isFailedCall = false

namespace Unbroken

theorem refl (start : Machine H) : start.Unbroken start :=
  ⟨[], .refl start, by simp⟩

theorem bear (h : start.Unbroken machine) : start.Unbroken machine.bear := by
  obtain ⟨history, hrecorded, hevents⟩ := h
  exact ⟨history, hrecorded.bear, hevents⟩

theorem record (h : start.Unbroken machine) {event : Event H} (hgenuine : event.Genuine)
    (hreturned : event.isFailedCall = false) : start.Unbroken (machine.record event) := by
  obtain ⟨history, hrecorded, hevents⟩ := h
  refine ⟨history ++ [event], hrecorded.record event, ?_⟩
  exact List.forall_mem_append.mpr ⟨hevents, List.forall_mem_singleton.mpr ⟨hgenuine, hreturned⟩⟩

theorem halts (h : start.Unbroken machine) (outcome : Except Failure α) :
    ∃ history, Halts start machine outcome history := by
  obtain ⟨history, hrecorded, hevents⟩ := h
  refine ⟨history, hrecorded, fun event hmem => (hevents event hmem).1, ?_⟩
  rintro past function operands failure later rfl
  cases (hevents _ (by simp : Event.called function operands (.error failure) ∈ _)).2

theorem halts_raised (h : start.Unbroken machine) {function : H} {operands : List (Datum H)}
    {failure : Failure} (hcall : Host.call function operands = .error failure) :
    ∃ history, Halts start (machine.record (.called function operands (.error failure)))
      (.error failure : Except Failure α) history := by
  obtain ⟨history, hrecorded, hevents⟩ := h
  have hgenuine := List.forall_mem_singleton.mpr (Event.genuine_called hcall)
  refine ⟨_, hrecorded.record _,
    List.forall_mem_append.mpr ⟨fun event hmem => (hevents event hmem).1, hgenuine⟩, ?_⟩
  intro past other others failure' later hsplit
  have hnew : Event.called other others (.error failure') ∉ history := fun hmem => by
    cases (hevents _ hmem).2
  obtain ⟨rfl, hsame⟩ := last_of_split hsplit hnew
  cases hsame
  exact ⟨rfl, rfl⟩

end Unbroken

end Machine

def haltingSimulation [Host H] (start : Machine H) (strict : Bool) :
    Simulation H strict strict where
  move := .identity
  Machines a b := b = a ∧ start.Unbroken a
  Value _ _ := True
  Code _ _ _ := True
  Ended failure a _ := ∃ history, Halts start a (.error failure : Except Failure (Datum H)) history
  Excused _ _ := False
  stricter := Bool.le_refl strict
  value_later _ _ := trivial
  code_later _ _ := trivial
  ended h _ _ := h.2.halts _
  mismatch _ hne _ := hne rfl
  value_nil := trivial
  atom _ _ _ := trivial
  operator _ _ _ := trivial
  operand _ _ _ _ := trivial
  lambda _ _ _ _ _ _ := trivial
  lookup h _ := by
    obtain ⟨rfl, -⟩ := h
    exact ⟨(Datum.option_map_rename_identity _).symm, fun _ _ => trivial⟩
  bound h _ _ := by
    obtain ⟨rfl, hunbroken⟩ := h
    exact ⟨by rw [Event.rename_identity], hunbroken.record trivial rfl⟩
  born h := by
    obtain ⟨rfl, hunbroken⟩ := h
    exact ⟨rfl, rfl, hunbroken.bear⟩
  nan _ := trivial
  opened h _ := by
    obtain ⟨rfl, hunbroken⟩ := h
    exact ⟨rfl, ⟨by rw [Event.rename_identity], hunbroken.record trivial rfl⟩, trivial⟩
  refused h _ _ _ := h.2.halts _
  call_rename := Datum.call_rename_identity
  raised h _ hcall := h.2.halts_raised hcall
  absent h _ hcall := (h.2.record (Event.genuine_called hcall) rfl).halts _
  returned h _ hcall _ := by
    obtain ⟨rfl, hunbroken⟩ := h
    refine ⟨⟨by rw [Event.rename_identity], ?_⟩, fun _ => trivial⟩
    exact hunbroken.record (Event.genuine_called hcall) rfl

theorem exists_halts_evaluate [Host H] (strict : Bool) (depth scope : Nat) (e : Datum H)
    (machine : Machine H) :
    ∃ history, Halts machine (Action.final (evaluate strict depth scope e machine))
      (Action.outcome (evaluate strict depth scope e machine)) history := by
  have hagree := (haltingSimulation machine strict).agree_of_identity rfl depth scope (e := e)
    trivial ⟨rfl, .refl machine⟩
  revert hagree
  generalize evaluate strict depth scope e machine = ended
  rintro (⟨-, ⟨-, hunbroken⟩, -⟩ | hhalts | hexcused)
  · exact hunbroken.halts _
  · exact hhalts
  · exact hexcused.elim

theorem exists_halts_interpret [Host H] (strict : Bool) (depth : Nat) (machine : Machine H)
    (table : Table H) (source : String) :
    let interpretation := interpret depth strict machine table source
    ∃ history, Halts (machine.withRoot table) interpretation.machine interpretation.result
      history := by
  cases hparse : (parse depth source : Except Failure (Datum H)) with
  | error failure =>
      rw [interpret_of_error hparse]
      exact (Machine.Unbroken.refl _).halts _
  | ok e =>
      rw [interpret_of_ok hparse]
      exact exists_halts_evaluate strict depth _ e _

/--
Failures pass through an evaluation untouched and stop it.  A host function that fails is
called last, whatever evaluation, closure or sequence it is called from, and its failure is
the outcome; a host is told its message, or its kind if the message is empty, unless the
failure is fatal and passes through to the host as well.  Every failing evaluation stops
at an activation that refuses to go on, and leaves the machine on which that activation
refused; so a definition whose value fails binds nothing.
-/
theorem failure_ends_evaluation [Host H] (strict : Bool) (depth : Nat) :
    (∀ (scope : Nat) (e : Datum H) (machine : Machine H),
      let ended := evaluate strict depth scope e machine
      ∃ history, Halts machine (Action.final ended) (Action.outcome ended) history) ∧
    (∀ (machine : Machine H) (table : Table H) (source : String),
      let interpretation := interpret depth strict machine table source
      ∃ history,
        Halts (machine.withRoot table) interpretation.machine interpretation.result history ∧
        ∀ past function operands failure later,
          history = past ++ .called function operands (.error failure) :: later ->
            interpretation.outcome =
              if failure.isFatal then .escaped failure
              else .error (if failure.message = "" then failure.kind else failure.message)) ∧
    (∀ (scope : Nat) (e : Datum H) (machine : Machine H) (failure : Failure) (after : Machine H),
      evaluate strict depth scope e machine = .error failure after ↔
        Activation.Stops strict ⟨depth, scope, e, machine⟩ failure after) ∧
    (∀ (scope : Nat) (e target form : Datum H) (name : String) (machine : Machine H)
      (failure : Failure) (after : Machine H),
      e.items? = some [.symbol "define", target, form] -> target.identifier? = some name ->
        evaluate strict depth scope form machine = .error failure after ->
          evaluate strict (depth + 1) scope e machine = .error failure after) := by
  refine ⟨exists_halts_evaluate strict depth, fun machine table source => ?_,
    fun scope e machine _ _ => Activation.run_eq_error_iff_stops ⟨depth, scope, e, machine⟩,
    fun scope e target form name machine failure after hitems hname hform =>
      (Activation.Enters.definition hitems hname).run_eq_error hform⟩
  obtain ⟨history, hhalts⟩ := exists_halts_interpret strict depth machine table source
  refine ⟨history, hhalts, fun past function operands failure later hsplit => ?_⟩
  rw [Interpretation.outcome, (hhalts.last past function operands failure later hsplit).2]
  simp only [Failure.report, String.isEmpty_iff]

/-! ## Functions that fail -/

structure Raiser where
  kind : String
  message : String
  fatal : Bool

namespace Raiser

def failure (f : Raiser) : Failure :=
  .raised f.kind f.message f.fatal

instance : Host Raiser where
  call f _ := .error f.failure
  title f := f.kind
  label f := "<host " ++ f.kind ++ ">"

def boom : Raiser :=
  ⟨"RuntimeError", "host failure", false⟩

def exit : Raiser :=
  ⟨"SystemExit", "3", true⟩

def table : Table Raiser :=
  [(.text "boom", .function boom), (.text "exit", .function exit)]

/-- A call in the value of a definition, in the body of a closure, in another definition. -/
def nested : String :=
  "(begin (define f (lambda (x) (define y (boom x)))) (define z (f f)))"

theorem parse_nested :
    parse 9 nested = .ok (.combination [.symbol "begin",
      .combination [.symbol "define", .symbol "f", .combination [.symbol "lambda",
        .combination [.symbol "x"],
        .combination [.symbol "define", .symbol "y",
          .combination [.symbol "boom", .symbol "x"]]]],
      .combination [.symbol "define", .symbol "z",
        .combination [.symbol "f", .symbol "f"]]] : Datum Raiser) := by
  rfl

def closure : Datum Raiser :=
  .closure 0 [.symbol "x"]
    (.combination [.symbol "define", .symbol "y", .combination [.symbol "boom", .symbol "x"]]) 0

theorem history_nested :
    (interpret 9 true .empty table nested).machine.history =
      [.bound 0 "f" closure, .opened (some 0), .bound 1 "x" closure] ++
        .called boom [closure] (.error boom.failure) :: [] := by
  rw [interpret_of_ok parse_nested]
  rfl

end Raiser

/-- Neither `y` nor `z` is bound, and the host is told the message. -/
theorem nested_call_ends_evaluation :
    (interpret 9 true .empty Raiser.table Raiser.nested).machine.history =
      [.bound 0 "f" Raiser.closure, .opened (some 0), .bound 1 "x" Raiser.closure,
        .called .boom [Raiser.closure] (.error Raiser.boom.failure)] ∧
    (interpret 9 true .empty Raiser.table Raiser.nested).result = .error Raiser.boom.failure ∧
    (interpret 9 true .empty Raiser.table Raiser.nested).outcome = .error "host failure" := by
  obtain ⟨history, hhalts, houtcome⟩ :=
    (failure_ends_evaluation true 9).2.1 .empty Raiser.table Raiser.nested
  have hhistory : history = _ := hhalts.recorded.history_eq.symm.trans Raiser.history_nested
  exact ⟨Raiser.history_nested, (hhalts.last _ _ _ _ _ hhistory).2, houtcome _ _ _ _ _ hhistory⟩

/-- A fatal failure passes through, so the host is not told its message. -/
theorem exit_is_not_reported :
    (interpret 3 true .empty Raiser.table "(exit)").machine.history =
      [.called .exit [] (.error Raiser.exit.failure)] ∧
    Raiser.exit.failure.message = "3" ∧
    (interpret 3 true .empty Raiser.table "(exit)").outcome = .escaped Raiser.exit.failure ∧
    (interpret 3 true .empty Raiser.table "(exit)").outcome ≠ .error "3" := by
  have hparse : parse 3 "(exit)" = .ok (.combination [.symbol "exit"] : Datum Raiser) := by rfl
  have houtcome : (interpret 3 true .empty Raiser.table "(exit)").outcome =
      .escaped Raiser.exit.failure := by
    rw [interpret_of_ok hparse]
    rfl
  refine ⟨?_, rfl, houtcome, ?_⟩
  · rw [interpret_of_ok hparse]
    rfl
  · rw [houtcome]
    rintro ⟨⟩

end Reckoner
