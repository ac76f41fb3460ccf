import Reckoner.Proofs.Semantics.Steps

/-!
# Derivations settle

What the rules derive is what the evaluator does at every depth from some bound
on.  There is one lemma for each rule with premises; bounds of premises are
combined by taking the larger one.
-/

namespace Reckoner

open Evaluation

variable {H : Type}

theorem Settles.bind_quiet {α β : Type} {family : Nat -> Action H α}
    {next : Nat -> α -> Action H β} {memory middle after : Memory H} {value : α}
    {outcome : Except Failure β} {calls : List (Call H)}
    (hfirst : Settles family memory (.ok value) middle calls)
    (hnext : ∀ depth, Runs (next depth value) middle outcome after []) :
    Settles (fun depth => family depth >>= next depth) memory outcome after calls := by
  have h := hfirst.bind (Settles.of_runs hnext)
  rwa [List.append_nil] at h

variable [Host H] {strict : Bool}

theorem runs_define_return {target : Datum H} {name : String}
    (hname : target.identifier? = some name) (scope : Nat) (value : Datum H) (memory : Memory H) :
    Runs (do define scope target value; return value) memory (.ok value)
      ⟨memory.store.bind scope name value, memory.births⟩ [] :=
  (runs_define hname scope value memory).bind (.pure value _)

section Settling

variable {scope : Nat} {expression operator head : Datum H} {memory middle after : Memory H}
  {items operands values : List (Datum H)}
  {outcome : Except Failure (Datum H)} {failure : Failure} {calls first second : List (Call H)}

theorem settles_of_items (hitems : expression.items? = some items)
    (h : Settles (fun depth => evaluateItems strict (evaluate strict depth) scope items)
      memory outcome after calls) :
    Settles (fun depth => evaluate strict depth scope expression) memory outcome after calls := by
  refine .of_succ ?_
  simp only [evaluate_succ, activate_of_items _ _ hitems]
  exact h

theorem settles_atom (hitems : expression.items? = none)
    (hsymbol : ∀ name, expression ≠ .symbol name) :
    Settles (fun depth => evaluate strict depth scope expression) memory (.ok expression)
      memory [] := by
  refine .of_succ ?_
  simp only [evaluate_succ, activate_of_atom _ _ hitems hsymbol]
  exact .of_runs fun _ => .pure expression memory

theorem settles_define {target form value : Datum H} {name : String}
    (hname : target.identifier? = some name)
    (hform : Settles (fun depth => evaluate strict depth scope form) memory (.ok value)
      after calls) :
    Settles (fun depth => evaluateItems strict (evaluate strict depth) scope
        [.symbol "define", target, form]) memory (.ok value)
      ⟨after.store.bind scope name value, after.births⟩ calls := by
  simp only [evaluateItems_define, evaluateDefine, hname]
  exact hform.bind_quiet fun _ => runs_define_return hname scope value after

theorem settles_defineFailed {target form : Datum H} {name : String}
    (hname : target.identifier? = some name)
    (hform : Settles (fun depth => evaluate strict depth scope form) memory (.error failure)
      after calls) :
    Settles (fun depth => evaluateItems strict (evaluate strict depth) scope
        [.symbol "define", target, form]) memory (.error failure) after calls := by
  simp only [evaluateItems_define, evaluateDefine, hname]
  exact hform.bind_error

theorem runs_definitionTarget {target form : Datum H} (recur : Evaluator H)
    (hname : target.identifier? = none)
    (hblame : Blames .inspected .definitionTarget target failure) :
    Runs (evaluateDefine recur scope [target, form]) memory (.error failure) memory [] := by
  simp only [evaluateDefine, hname]
  rw [eq_blame_of_blames hblame]
  exact .throw _ memory

theorem settles_begin {forms : List (Datum H)}
    (hforms : Settles (fun depth => evaluateAll (evaluate strict depth scope) forms) memory
      (.ok values) after calls) :
    Settles (fun depth => evaluateItems strict (evaluate strict depth) scope
        (.symbol "begin" :: forms)) memory (.ok (values.getLastD .nil)) after calls := by
  simp only [evaluateItems_begin, evaluateLast_eq]
  exact hforms.bind_quiet fun _ => .pure _ after

theorem settles_beginFailed {forms : List (Datum H)}
    (hforms : Settles (fun depth => evaluateAll (evaluate strict depth scope) forms) memory
      (.error failure) after calls) :
    Settles (fun depth => evaluateItems strict (evaluate strict depth) scope
        (.symbol "begin" :: forms)) memory (.error failure) after calls := by
  simp only [evaluateItems_begin, evaluateLast_eq]
  exact hforms.bind_error

theorem settles_operatorFailed (hhead : ∀ word ∈ ["define", "begin", "lambda"], operator ≠ .symbol word)
    (hoperator : Settles (fun depth => evaluate strict depth scope operator) memory
      (.error failure) after calls) :
    Settles (fun depth => evaluateItems strict (evaluate strict depth) scope
        (operator :: operands)) memory (.error failure) after calls := by
  simp only [evaluateItems_call _ _ hhead]
  exact hoperator.bind_error

theorem settles_notCallable (hhead : ∀ word ∈ ["define", "begin", "lambda"], operator ≠ .symbol word)
    (hoperator : Settles (fun depth => evaluate strict depth scope operator) memory
      (.ok head) after calls)
    (hcallable : head.isCallable = false) (hblame : Blames .inspected .notCallable head failure) :
    Settles (fun depth => evaluateItems strict (evaluate strict depth) scope
        (operator :: operands)) memory (.error failure) after calls := by
  simp only [evaluateItems_call _ _ hhead]
  rw [eq_blame_of_blames hblame]
  refine hoperator.bind_quiet fun _ => ?_
  simp only [hcallable]
  exact .throw _ after

/-- After a callable operator, operands and application run one after the other. -/
theorem settles_call (hhead : ∀ word ∈ ["define", "begin", "lambda"], operator ≠ .symbol word)
    (hoperator : Settles (fun depth => evaluate strict depth scope operator) memory
      (.ok head) middle first)
    (hcallable : head.isCallable = true)
    (hrest : Settles (fun depth => evaluateAll (evaluate strict depth scope) operands >>=
        apply strict (evaluate strict depth) head) middle outcome after second) :
    Settles (fun depth => evaluateItems strict (evaluate strict depth) scope
        (operator :: operands)) memory outcome after (first ++ second) := by
  simp only [evaluateItems_call _ _ hhead]
  refine hoperator.bind ?_
  simp only [hcallable]
  exact hrest

theorem settles_apply_closure {birth outer : Nat} {parameters : List (Datum H)} {body : Datum H}
    {store : Store H} (hlength : strict = true -> operands.length = parameters.length)
    (hbinds : Binds memory.store.frames.size (parameters.zip operands)
      (memory.store.create (some outer)).2 (.ok ()) store)
    (hbody : Settles (fun depth => evaluate strict depth memory.store.frames.size body)
      ⟨store, memory.births⟩ outcome after calls) :
    Settles (fun depth => apply strict (evaluate strict depth)
      (.closure birth parameters body outer) operands) memory outcome after calls := by
  obtain ⟨bound, hbound⟩ := hbody
  refine ⟨bound, fun depth hdepth => ?_⟩
  exact runs_apply_closure birth hlength
    ((runs_bindAll hbinds memory.births).bind (hbound depth hdepth))

end Settling

mutual

theorem Evaluates.settles {scope : Nat} {expression : Datum H} {memory after : Memory H}
    {outcome : Except Failure (Datum H)} {calls : List (Call H)} :
    Evaluates strict scope expression memory outcome after calls ->
      Settles (fun depth => evaluate strict depth scope expression) memory outcome after calls
  | .atom hitems hsymbol => settles_atom hitems hsymbol
  | .symbol hseen => .of_succ (.of_runs fun _ => runs_lookup_of_sees hseen)
  | .undefinedVariable hunseen => .of_succ (.of_runs fun _ => runs_lookup_of_unseen hunseen)
  | .emptyCombination hitems => settles_of_items hitems (.of_runs fun _ => .throw _ memory)
  | .define hitems hname hform => settles_of_items hitems (settles_define hname hform.settles)
  | .defineFailed hitems hname hform =>
      settles_of_items hitems (settles_defineFailed hname hform.settles)
  | .definitionTarget hitems hname hblame =>
      settles_of_items hitems (.of_runs fun _ => runs_definitionTarget _ hname hblame)
  | .definitionShape hitems hlength =>
      settles_of_items hitems (.of_runs fun _ => runs_definitionShape _ scope hlength memory)
  | .begin hitems hforms => settles_of_items hitems (settles_begin hforms.settles)
  | .beginFailed hitems hforms => settles_of_items hitems (settles_beginFailed hforms.settles)
  | .lambda hitems hparameters hnames hdistinct =>
      settles_of_items hitems
        (.of_runs fun _ => runs_lambda scope _ hparameters hnames hdistinct memory)
  | .repeatedParameter hitems hparameters hnames hrepeated =>
      settles_of_items hitems
        (.of_runs fun _ => runs_repeatedParameter scope _ hparameters hnames hrepeated memory)
  | .lambdaParameter hitems hparameters hgood hitem hblame =>
      settles_of_items hitems
        (.of_runs fun _ => runs_lambdaParameter scope _ hparameters hgood hitem hblame memory)
  | .lambdaParameters hitems hparameters hblame =>
      settles_of_items hitems
        (.of_runs fun _ => runs_lambdaParameters scope _ hparameters hblame memory)
  | .lambdaShape hitems hlength =>
      settles_of_items hitems (.of_runs fun _ => runs_lambdaShape scope hlength memory)
  | .operatorFailed hitems hhead hoperator =>
      settles_of_items hitems (settles_operatorFailed hhead hoperator.settles)
  | .notCallable hitems hhead hoperator hcallable hblame =>
      settles_of_items hitems (settles_notCallable hhead hoperator.settles hcallable hblame)
  | .operandFailed hitems hhead hoperator hcallable hoperands =>
      settles_of_items hitems
        (settles_call hhead hoperator.settles hcallable hoperands.settles.bind_error)
  | .application hitems hhead hoperator hcallable hoperands happly =>
      settles_of_items hitems
        (settles_call hhead hoperator.settles hcallable (hoperands.settles.bind happly.settles))

theorem EvaluatesAll.settles {scope : Nat} {expressions : List (Datum H)}
    {memory after : Memory H} {outcome : Except Failure (List (Datum H))} {calls : List (Call H)} :
    EvaluatesAll strict scope expressions memory outcome after calls ->
      Settles (fun depth => evaluateAll (evaluate strict depth scope) expressions)
        memory outcome after calls
  | .nil => .of_runs fun _ => .pure [] memory
  | .failed hfirst => hfirst.settles.bind_error
  | .restFailed hfirst hrest => hfirst.settles.bind hrest.settles.bind_error
  | .cons hfirst hrest => hfirst.settles.bind (hrest.settles.bind_quiet fun _ => .pure _ _)

theorem Applies.settles {head : Datum H} {operands : List (Datum H)} {memory after : Memory H}
    {outcome : Except Failure (Datum H)} {calls : List (Call H)} :
    Applies strict head operands memory outcome after calls ->
      Settles (fun depth => apply strict (evaluate strict depth) head operands)
        memory outcome after calls
  | .arityMismatch hstrict hlength =>
      .of_runs fun _ => runs_arityMismatch _ _ _ _ hstrict hlength memory
  | .parameterRefused hlength hbinds =>
      .of_runs fun _ => runs_apply_closure _ hlength (runs_bindAll hbinds _).bind_error
  | .body hlength hbinds hbody => settles_apply_closure hlength hbinds hbody.settles
  | .raised hcall => .of_runs fun _ => runs_raised hcall memory
  | .noValue hcall => .of_runs fun _ => runs_noValue hcall memory
  | .returned hcall hvalue hnan =>
      .of_runs fun _ => runs_returned hcall hvalue hnan memory
  | .returnedNaN hcall hnan => .of_runs fun _ => runs_returnedNaN hcall hnan memory

end

end Reckoner
