import Reckoner.Proofs.Semantics.Steps

/-!
# Couplings

Two evaluations run side by side: what corresponds on the two sides depends on a
`World`, which grows as they go on, and which knows the machine on each side.  A
`Coupling` says what the two sides make of corresponding expressions and of
corresponding values in operator position.  It speaks of one activation at a time;
that whole evaluations then correspond, for every bound on nesting and whatever their
outcomes, is `Coupling.related_evaluate`.
-/

namespace Reckoner

open Evaluation

variable {H α β γ δ : Type}

/-- What corresponds on two sides. -/
structure Pairing (H : Type) where
  World : Type
  first : World -> Machine H
  second : World -> Machine H
  /-- A world that an evaluation may lead to. -/
  Later : World -> World -> Prop
  later_refl : ∀ world, Later world world
  later_trans : ∀ {before middle after}, Later before middle -> Later middle after ->
    Later before after
  /-- Values that have been computed. -/
  Value : World -> Datum H -> Datum H -> Prop
  /-- Expressions, each with the scope it may be evaluated in. -/
  Code : World -> Nat -> Nat -> Datum H -> Datum H -> Prop
  /-- Failures of both sides. -/
  Ended : Failure -> Machine H -> Failure -> Machine H -> Prop
  /-- Failures of the first side that the second need not share. -/
  Excused : Failure -> Machine H -> Prop

namespace Pairing

variable (P : Pairing H)

/-! ## Results -/

inductive Agree (before : P.World) (Good : P.World -> α -> β -> Prop) :
    EStateM.Result Failure (Machine H) α -> EStateM.Result Failure (Machine H) β -> Prop where
  | returned {after : P.World} {v : α} {v' : β} (hlater : P.Later before after)
      (hgood : Good after v v') : Agree before Good (.ok v (P.first after)) (.ok v' (P.second after))
  | failed {failure failure' : Failure} {a b : Machine H} (hended : P.Ended failure a failure' b) :
      Agree before Good (.error failure a) (.error failure' b)
  | excused {failure : Failure} {a : Machine H} {result : EStateM.Result Failure (Machine H) β}
      (hexcused : P.Excused failure a) : Agree before Good (.error failure a) result

def Related (world : P.World) (Good : P.World -> α -> β -> Prop) (action : Action H α)
    (action' : Action H β) : Prop :=
  P.Agree world Good (action (P.first world)) (action' (P.second world))

variable {P}

theorem Agree.mono {before after : P.World} {Good : P.World -> α -> β -> Prop}
    {result : EStateM.Result Failure (Machine H) α}
    {result' : EStateM.Result Failure (Machine H) β} (hlater : P.Later before after)
    (h : P.Agree after Good result result') : P.Agree before Good result result' := by
  cases h with
  | returned hafter hgood => exact .returned (P.later_trans hlater hafter) hgood
  | failed hended => exact .failed hended
  | excused hexcused => exact .excused hexcused

namespace Related

theorem pure {world : P.World} {Good : P.World -> α -> β -> Prop} {v : α} {v' : β}
    (h : Good world v v') : P.Related world Good (pure v) (pure v') :=
  .returned (P.later_refl world) h

theorem throw {world : P.World} {Good : P.World -> α -> β -> Prop} {failure failure' : Failure}
    (h : P.Ended failure (P.first world) failure' (P.second world)) :
    P.Related world Good (throw failure) (throw failure') :=
  .failed h

theorem bind {world : P.World} {Good : P.World -> α -> β -> Prop}
    {Next : P.World -> γ -> δ -> Prop} {action : Action H α} {action' : Action H β}
    {next : α -> Action H γ} {next' : β -> Action H δ}
    (hfirst : P.Related world Good action action')
    (hnext : ∀ after v v', P.Later world after -> Good after v v' ->
      P.Related after Next (next v) (next' v')) :
    P.Related world Next (action >>= next) (action' >>= next') := by
  unfold Related at hfirst ⊢
  cases hleft : action (P.first world) with
  | ok v a =>
      cases hright : action' (P.second world) with
      | ok v' b =>
          rw [hleft, hright] at hfirst
          rw [Action.bind_of_ok hleft, Action.bind_of_ok hright]
          cases hfirst with
          | returned hlater hgood => exact (hnext _ v v' hlater hgood).mono hlater
      | error failure' b =>
          rw [hleft, hright] at hfirst
          cases hfirst
  | error failure a =>
      rw [hleft] at hfirst
      rw [Action.bind_of_error hleft]
      cases hright : action' (P.second world) with
      | ok v' b =>
          rw [hright] at hfirst
          cases hfirst with
          | excused hexcused => exact .excused hexcused
      | error failure' b =>
          rw [hright] at hfirst
          rw [Action.bind_of_error hright]
          cases hfirst with
          | failed hended => exact .failed hended
          | excused hexcused => exact .excused hexcused

end Related

/-! ## One activation -/

variable (P) [Host H] (strict lax : Bool)

inductive Shape (world : P.World) (scope scope' : Nat) : Datum H -> Datum H -> Prop where
  /-- No other expression has to be evaluated. -/
  | settled {e e' : Datum H}
      (h : ∀ recur recur' : Evaluator H, P.Related world P.Value (activate strict recur scope e)
        (activate lax recur' scope' e')) : Shape world scope scope' e e'
  | definition {e e' operator operator' target target' form form' : Datum H} {name name' : String}
      (hitems : e.items? = some [operator, target, form])
      (hitems' : e'.items? = some [operator', target', form'])
      (hkeyword : Keyword.ofDatum? operator = some .define)
      (hkeyword' : Keyword.ofDatum? operator' = some .define)
      (hname : target.identifier? = some name) (hname' : target'.identifier? = some name')
      (hform : P.Code world scope scope' form form')
      (hbound : ∀ {after v v'}, P.Later world after -> P.Value after v v' ->
        P.Related after (fun _ _ _ => True) (define scope target v) (define scope' target' v')) :
      Shape world scope scope' e e'
  | sequence {e e' operator operator' : Datum H} {forms forms' : List (Datum H)}
      (hitems : e.items? = some (operator :: forms))
      (hitems' : e'.items? = some (operator' :: forms'))
      (hkeyword : Keyword.ofDatum? operator = some .begin)
      (hkeyword' : Keyword.ofDatum? operator' = some .begin)
      (hforms : List.Forall₂ (P.Code world scope scope') forms forms') :
      Shape world scope scope' e e'
  | application {e e' operator operator' : Datum H} {operands operands' : List (Datum H)}
      (hitems : e.items? = some (operator :: operands))
      (hitems' : e'.items? = some (operator' :: operands'))
      (hkeyword : Keyword.ofDatum? operator = none) (hkeyword' : Keyword.ofDatum? operator' = none)
      (hoperator : P.Code world scope scope' operator operator')
      (hoperands : List.Forall₂ (P.Code world scope scope') operands operands') :
      Shape world scope scope' e e'

inductive Head (world : P.World) : Datum H -> Datum H -> Prop where
  | function {f f' : H}
      (h : ∀ {operands operands'}, List.Forall₂ (P.Value world) operands operands' ->
        P.Related world P.Value (callHost f operands) (callHost f' operands')) :
      Head world (.function f) (.function f')
  | closure {birth birth' scope scope' : Nat} {parameters parameters' : List (Datum H)}
      {body body' : Datum H}
      (h : ∀ {operands operands'}, List.Forall₂ (P.Value world) operands operands' ->
        P.Related world (fun after inner inner' => P.Code after inner inner' body body')
          (extend strict parameters scope operands) (extend lax parameters' scope' operands')) :
      Head world (.closure birth parameters body scope) (.closure birth' parameters' body' scope')
  | refused {v v' : Datum H} (hv : v.isCallable = false) (hv' : v'.isCallable = false)
      (hended : P.Ended (v.blame .notCallable) (P.first world)
        (v'.blame .notCallable) (P.second world)) : Head world v v'

variable {P strict lax}

theorem Head.isCallable_eq {world : P.World} {v v' : Datum H} (h : P.Head strict lax world v v') :
    v'.isCallable = v.isCallable := by
  cases h with
  | function => rfl
  | closure => rfl
  | refused hv hv' => rw [hv, hv']

end Pairing

/-- A correspondence that every activation keeps. -/
structure Coupling (H : Type) [Host H] (strict lax : Bool) extends Pairing H where
  value_later : ∀ {before after v v'}, Later before after -> Value before v v' -> Value after v v'
  code_later : ∀ {before after scope scope' e e'}, Later before after ->
    Code before scope scope' e e' -> Code after scope scope' e e'
  value_nil : ∀ world, Value world .nil .nil
  exhausted : ∀ world, Ended .depthExceeded (first world) .depthExceeded (second world)
  shape : ∀ {world scope scope' e e'}, Code world scope scope' e e' ->
    toPairing.Shape strict lax world scope scope' e e'
  head : ∀ {world v v'}, Value world v v' -> toPairing.Head strict lax world v v'

namespace Coupling

open Pairing

variable [Host H] {strict lax : Bool} (C : Coupling H strict lax)

def Evaluators (recur recur' : Evaluator H) : Prop :=
  ∀ {world scope scope' e e'}, C.Code world scope scope' e e' ->
    C.Related world C.Value (recur scope e) (recur' scope' e')

variable {C} {recur recur' : Evaluator H} {world : C.World} {scope scope' : Nat}

theorem related_evaluateAll (hrecur : C.Evaluators recur recur') {forms forms' : List (Datum H)}
    (hforms : List.Forall₂ (C.Code world scope scope') forms forms') :
    C.Related world (fun after => List.Forall₂ (C.Value after)) (evaluateAll (recur scope) forms)
      (evaluateAll (recur' scope') forms') := by
  induction forms generalizing world forms' with
  | nil =>
      cases hforms
      exact .pure .nil
  | cons form forms ih =>
      cases hforms with
      | cons hform hforms =>
          refine .bind (hrecur hform) fun middle v v' hlater hvalue => ?_
          have hrest := hforms.imp fun _ _ => C.code_later hlater
          refine .bind (ih hrest) fun after vs vs' hlater' hvalues => ?_
          exact .pure (.cons (C.value_later hlater' hvalue) hvalues)

theorem related_evaluateLast (hrecur : C.Evaluators recur recur') {forms forms' : List (Datum H)}
    (hforms : List.Forall₂ (C.Code world scope scope') forms forms') {last last' : Datum H}
    (hlast : C.Value world last last') :
    C.Related world C.Value (evaluateLast (recur scope) last forms)
      (evaluateLast (recur' scope') last' forms') := by
  induction forms generalizing world forms' last last' with
  | nil =>
      cases hforms
      exact .pure hlast
  | cons form forms ih =>
      cases hforms with
      | cons hform hforms =>
          refine .bind (hrecur hform) fun after v v' hlater hvalue => ?_
          exact ih (hforms.imp fun _ _ => C.code_later hlater) hvalue

theorem related_evaluateDefine (hrecur : C.Evaluators recur recur')
    {target target' form form' : Datum H} {name name' : String}
    (hname : target.identifier? = some name) (hname' : target'.identifier? = some name')
    (hform : C.Code world scope scope' form form')
    (hbound : ∀ {after v v'}, C.Later world after -> C.Value after v v' ->
      C.Related after (fun _ _ _ => True) (define scope target v) (define scope' target' v')) :
    C.Related world C.Value (evaluateDefine recur scope [target, form])
      (evaluateDefine recur' scope' [target', form']) := by
  simp only [evaluateDefine, hname, hname']
  refine .bind (hrecur hform) fun middle v v' hlater hvalue => ?_
  refine .bind (hbound hlater hvalue) fun after _ _ hlater' _ => ?_
  exact .pure (C.value_later hlater' hvalue)

theorem apply_of_not_callable (strict : Bool) (recur : Evaluator H) {v : Datum H}
    (hv : v.isCallable = false) (operands : List (Datum H)) :
    apply strict recur v operands = throw (v.blame .notCallable) := by
  cases v with
  | closure birth parameters body scope => cases hv
  | function f => cases hv
  | _ => rfl

theorem related_apply (hrecur : C.Evaluators recur recur') {v v' : Datum H}
    (hhead : C.Value world v v') {operands operands' : List (Datum H)}
    (hoperands : List.Forall₂ (C.Value world) operands operands') :
    C.Related world C.Value (apply strict recur v operands) (apply lax recur' v' operands') := by
  cases C.head hhead with
  | function h => exact h hoperands
  | closure h => exact .bind (h hoperands) fun after inner inner' _ hbody => hrecur hbody
  | refused hv hv' hended =>
      rw [apply_of_not_callable strict recur hv, apply_of_not_callable lax recur' hv']
      exact .throw hended

theorem related_evaluateCall (hrecur : C.Evaluators recur recur')
    {operator operator' : Datum H} {operands operands' : List (Datum H)}
    (hoperator : C.Code world scope scope' operator operator')
    (hoperands : List.Forall₂ (C.Code world scope scope') operands operands') :
    C.Related world C.Value (evaluateCall strict recur scope operator operands)
      (evaluateCall lax recur' scope' operator' operands') := by
  refine .bind (hrecur hoperator) fun middle v v' hlater hhead => ?_
  have hcallable := (C.head hhead).isCallable_eq
  cases hv : v.isCallable with
  | true =>
      rw [if_pos rfl, if_pos (hcallable.trans hv)]
      have hcodes := hoperands.imp fun _ _ => C.code_later hlater
      refine .bind (related_evaluateAll hrecur hcodes) fun after vs vs' hlater' hvalues => ?_
      exact related_apply hrecur (C.value_later hlater' hhead) hvalues
  | false =>
      rw [hv] at hcallable
      rw [if_neg Bool.false_ne_true, if_neg (by simp [hcallable])]
      cases C.head hhead with
      | function h => cases hv
      | closure h => cases hv
      | refused _ _ hended => exact .throw hended

theorem related_activate (hrecur : C.Evaluators recur recur') {e e' : Datum H}
    (hcode : C.Code world scope scope' e e') :
    C.Related world C.Value (activate strict recur scope e) (activate lax recur' scope' e') := by
  cases C.shape hcode with
  | settled h => exact h recur recur'
  | definition hitems hitems' hkeyword hkeyword' hname hname' hform hbound =>
      rw [activate_of_items _ _ hitems, activate_of_items _ _ hitems']
      simp only [evaluateItems, hkeyword, hkeyword']
      exact related_evaluateDefine hrecur hname hname' hform hbound
  | sequence hitems hitems' hkeyword hkeyword' hforms =>
      rw [activate_of_items _ _ hitems, activate_of_items _ _ hitems']
      simp only [evaluateItems, hkeyword, hkeyword']
      exact related_evaluateLast hrecur hforms (C.value_nil world)
  | application hitems hitems' hkeyword hkeyword' hoperator hoperands =>
      rw [activate_of_items _ _ hitems, activate_of_items _ _ hitems']
      simp only [evaluateItems, hkeyword, hkeyword']
      exact related_evaluateCall hrecur hoperator hoperands

/-- Corresponding evaluations give corresponding results, at every bound on nesting. -/
theorem related_evaluate (C : Coupling H strict lax) (depth : Nat) {world : C.World}
    {scope scope' : Nat} {e e' : Datum H} (hcode : C.Code world scope scope' e e') :
    C.Related world C.Value (evaluate strict depth scope e) (evaluate lax depth scope' e') := by
  induction depth generalizing world scope scope' e e' with
  | zero => exact .throw (C.exhausted world)
  | succ depth ih => exact related_activate ih hcode

end Coupling

end Reckoner
