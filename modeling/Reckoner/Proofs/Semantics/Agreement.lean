import Reckoner.Proofs.Semantics.Settling

/-!
# The evaluator and the rules agree

At any depth a run of the evaluator is derivable, or it ran out of depth.  A run
that stays the same from some depth on is derivable even if it fails for want of
depth, which a host function may report too: an evaluation that never ends opens
ever more scopes.  Both are one argument about `Explained`, with the depth held
fixed or growing.
-/

namespace Reckoner

open Evaluation

variable {H : Type}

theorem Datum.sizeOf_lt_of_items? {d item : Datum H} {items : List (Datum H)}
    (h : d.items? = some items) (hmem : item ∈ items) : sizeOf item < sizeOf d := by
  have hlt := List.sizeOf_lt_of_mem hmem
  cases d <;> cases h <;> simp only [Datum.combination.sizeOf_spec, Datum.list.sizeOf_spec] <;>
    omega

variable [Host H] {strict : Bool}

/-! ## Explaining one activation -/

section Explaining

variable {cut : Memory H -> Prop} {recur : Nat -> Evaluator H} {scope : Nat} {memory : Memory H}

/-- Evaluating from left to right, and going on with the values. -/
theorem explained_all {β : Type} {expressions : List (Datum H)}
    {target : Except Failure β -> Memory H -> List (Call H) -> Prop}
    {next : Nat -> List (Datum H) -> Action H β}
    (hsteady : ∀ scope expression memory, Steady (Evaluates strict scope expression memory)
      (fun depth => recur depth scope expression) memory)
    (hitems : ∀ item ∈ expressions, ∀ middle : Memory H,
      memory.store.frames.size ≤ middle.store.frames.size ->
        Explained cut (Evaluates strict scope item middle) (fun depth => recur depth scope item)
          middle)
    (hnext : ∀ values middle first,
      EvaluatesAll strict scope expressions memory (.ok values) middle first ->
        memory.store.frames.size ≤ middle.store.frames.size ->
          Explained cut (fun outcome after second => target outcome after (first ++ second))
            (fun depth => next depth values) middle)
    (hfailed : ∀ failure after calls,
      EvaluatesAll strict scope expressions memory (.error failure) after calls ->
        target (.error failure) after calls) :
    Explained cut target
      (fun depth => evaluateAll (recur depth scope) expressions >>= next depth) memory := by
  induction expressions generalizing memory target next with
  | nil =>
      simp only [evaluateAll, pure_bind]
      exact hnext [] memory [] .nil (Nat.le_refl _)
  | cons expression rest ih =>
      simp only [evaluateAll, bind_assoc, pure_bind]
      refine .bind (hitems expression List.mem_cons_self memory (Nat.le_refl _))
        (hsteady scope expression memory) ?_ ?_
      · intro value middle first hfirst hsize
        refine ih (fun item hmem later hlater =>
          hitems item (List.mem_cons_of_mem expression hmem) later (Nat.le_trans hsize hlater)) ?_ ?_
        · intro values later second hrest hlater
          simp only [← List.append_assoc]
          exact hnext (value :: values) later (first ++ second) (.cons hfirst hrest)
            (Nat.le_trans hsize hlater)
        · intro failure after second hrest
          exact hfailed failure after (first ++ second) (.restFailed hfirst hrest)
      · intro failure after calls hfirst
        exact hfailed failure after calls (.failed hfirst)

theorem explained_callHost (function : H) (operands : List (Datum H)) :
    Explained cut (Applies strict (.function function) operands memory)
      (fun depth => apply strict (recur depth) (.function function) operands) memory := by
  cases hcall : Host.call function operands with
  | error failure => exact .of_runs (fun _ => runs_raised hcall memory) (.raised hcall)
  | ok value =>
      by_cases hvalue : value = .absent
      · subst hvalue
        exact .of_runs (fun _ => runs_noValue hcall memory) (.noValue hcall)
      · cases hnan : value.isNewNaN with
        | true =>
            exact .of_runs (fun _ => runs_returnedNaN hcall hnan memory) (.returnedNaN hcall hnan)
        | false =>
            exact .of_runs (fun _ => runs_returned hcall hvalue hnan memory)
              (.returned hcall hvalue hnan)

theorem explained_closure (birth outer : Nat) (parameters operands : List (Datum H))
    (body : Datum H)
    (hbody : ∀ inner body (middle : Memory H),
      memory.store.frames.size < middle.store.frames.size ->
        Explained cut (Evaluates strict inner body middle) (fun depth => recur depth inner body)
          middle) :
    Explained cut (Applies strict (.closure birth parameters body outer) operands memory)
      (fun depth => apply strict (recur depth) (.closure birth parameters body outer) operands)
      memory := by
  by_cases hfits : strict = true -> operands.length = parameters.length
  · obtain ⟨outcome, store, hbinds⟩ := exists_binds memory.store.frames.size
      (parameters.zip operands) (memory.store.create (some outer)).2
    cases outcome with
    | error failure =>
        exact .of_runs
          (fun _ => runs_apply_closure birth hfits (runs_bindAll hbinds memory.births).bind_error)
          (.parameterRefused hfits hbinds)
    | ok _ =>
        have hsize : memory.store.frames.size < store.frames.size := by
          rw [size_of_binds hbinds]
          simp [Store.create, Store.push]
        obtain ⟨bound, hbound⟩ := hbody memory.store.frames.size body ⟨store, memory.births⟩ hsize
        refine ⟨bound, fun depth hdepth => ?_⟩
        obtain ⟨outcome, after, calls, hruns, hend⟩ := hbound depth hdepth
        refine ⟨outcome, after, calls, runs_apply_closure birth hfits
          ((runs_bindAll hbinds memory.births).bind hruns), ?_⟩
        exact hend.imp_left (.body hfits hbinds)
  · rw [Classical.not_imp] at hfits
    exact .of_runs (fun _ => runs_arityMismatch _ birth outer body hfits.1 hfits.2 memory)
      (.arityMismatch hfits.1 hfits.2)

theorem explained_lambda {expression : Datum H} {tail : List (Datum H)}
    (hexpression : expression.items? = some (.symbol "lambda" :: tail)) :
    Explained cut (Evaluates strict scope expression memory)
      (fun _ => evaluateLambda scope tail) memory := by
  by_cases hlength : tail.length = 2
  · obtain ⟨parameters, body, rfl⟩ := List.length_eq_two.mp hlength
    cases hparameters : parameters.items? with
    | none =>
        have hblame := blames_blame .lambdaParameters parameters
        exact .of_runs (fun _ => runs_lambdaParameters scope body hparameters hblame memory)
          (.lambdaParameters hexpression hparameters hblame)
    | some items =>
        cases hfind : items.find? fun item => item.identifier?.isNone with
        | some item =>
            obtain ⟨hitem, good, rest, rfl, hgood⟩ := List.find?_eq_some_iff_append.mp hfind
            obtain ⟨names, hnames⟩ := exists_names fun item hmem => by simpa using hgood item hmem
            rw [Option.isNone_iff_eq_none] at hitem
            have hblame := blames_blame .lambdaParameter item
            exact .of_runs
              (fun _ => runs_lambdaParameter scope body hparameters hnames hitem hblame memory)
              (.lambdaParameter hexpression hparameters hnames hitem hblame)
        | none =>
            obtain ⟨names, hnames⟩ := exists_names fun item hmem => by
              simpa [Option.isSome_iff_ne_none] using List.find?_eq_none.mp hfind item hmem
            by_cases hdistinct : names.Nodup
            · exact .of_runs
                (fun _ => runs_lambda scope body hparameters hnames hdistinct memory)
                (.lambda hexpression hparameters hnames hdistinct)
            · exact .of_runs
                (fun _ => runs_repeatedParameter scope body hparameters hnames hdistinct memory)
                (.repeatedParameter hexpression hparameters hnames hdistinct)
  · exact .of_runs (fun _ => runs_lambdaShape scope hlength memory)
      (.lambdaShape hexpression hlength)

theorem explained_define {expression : Datum H} {tail : List (Datum H)}
    (hexpression : expression.items? = some (.symbol "define" :: tail))
    (hsteady : ∀ scope expression memory, Steady (Evaluates strict scope expression memory)
      (fun depth => recur depth scope expression) memory)
    (hitems : ∀ item ∈ tail, Explained cut (Evaluates strict scope item memory)
      (fun depth => recur depth scope item) memory) :
    Explained cut (Evaluates strict scope expression memory)
      (fun depth => evaluateDefine (recur depth) scope tail) memory := by
  by_cases hlength : tail.length = 2
  · obtain ⟨target, form, rfl⟩ := List.length_eq_two.mp hlength
    cases hname : target.identifier? with
    | none =>
        have hblame := blames_blame .definitionTarget target
        exact .of_runs (fun _ => runs_definitionTarget _ hname hblame)
          (.definitionTarget hexpression hname hblame)
    | some name =>
        simp only [evaluateDefine, hname]
        refine .bind (hitems form (by simp)) (hsteady scope form memory) ?_ ?_
        · intro value middle first hform _
          refine .of_runs (fun _ => runs_define_return hname scope value middle) ?_
          rw [List.append_nil]
          exact .define hexpression hname hform
        · intro failure after calls hform
          exact .defineFailed hexpression hname hform
  · exact .of_runs (fun _ => runs_definitionShape _ scope hlength memory)
      (.definitionShape hexpression hlength)

theorem explained_begin {expression : Datum H} {forms : List (Datum H)}
    (hexpression : expression.items? = some (.symbol "begin" :: forms))
    (hsteady : ∀ scope expression memory, Steady (Evaluates strict scope expression memory)
      (fun depth => recur depth scope expression) memory)
    (hitems : ∀ item ∈ forms, ∀ middle : Memory H,
      memory.store.frames.size ≤ middle.store.frames.size ->
        Explained cut (Evaluates strict scope item middle) (fun depth => recur depth scope item)
          middle) :
    Explained cut (Evaluates strict scope expression memory)
      (fun depth => evaluateLast (recur depth scope) .nil forms) memory := by
  simp only [evaluateLast_eq]
  refine explained_all hsteady hitems ?_ ?_
  · intro values middle first hforms _
    refine .of_runs (fun _ => .pure _ middle) ?_
    rw [List.append_nil]
    exact .begin hexpression hforms
  · intro failure after calls hforms
    exact .beginFailed hexpression hforms

theorem explained_call {expression operator : Datum H} {operands : List (Datum H)}
    (hexpression : expression.items? = some (operator :: operands))
    (hhead : ∀ word ∈ ["define", "begin", "lambda"], operator ≠ .symbol word)
    (hsteady : ∀ scope expression memory, Steady (Evaluates strict scope expression memory)
      (fun depth => recur depth scope expression) memory)
    (hitems : ∀ item ∈ operator :: operands, ∀ middle : Memory H,
      memory.store.frames.size ≤ middle.store.frames.size ->
        Explained cut (Evaluates strict scope item middle) (fun depth => recur depth scope item)
          middle)
    (hbody : ∀ inner body (middle : Memory H),
      memory.store.frames.size < middle.store.frames.size ->
        Explained cut (Evaluates strict inner body middle) (fun depth => recur depth inner body)
          middle) :
    Explained cut (Evaluates strict scope expression memory)
      (fun depth => evaluateCall strict (recur depth) scope operator operands) memory := by
  refine .bind (hitems operator List.mem_cons_self memory (Nat.le_refl _))
    (hsteady scope operator memory) ?_ ?_
  · intro head middle first hoperator hmiddle
    cases hcallable : head.isCallable with
    | false =>
        have hblame := blames_blame .notCallable head
        refine .of_runs (fun _ => .throw _ middle) ?_
        rw [List.append_nil]
        exact .notCallable hexpression hhead hoperator hcallable hblame
    | true =>
        refine explained_all hsteady (fun item hmem later hlater =>
          hitems item (List.mem_cons_of_mem operator hmem) later (Nat.le_trans hmiddle hlater)) ?_ ?_
        · intro values ready second hoperands hready
          have happly : Explained cut (Applies strict head values ready)
              (fun depth => apply strict (recur depth) head values) ready := by
            cases head with
            | closure birth parameters body outer =>
                exact explained_closure birth outer parameters values body
                  fun inner body later hlater => hbody inner body later (by omega)
            | function f => exact explained_callHost f values
            | _ => cases hcallable
          obtain ⟨bound, hbound⟩ := happly
          refine ⟨bound, fun depth hdepth => ?_⟩
          obtain ⟨outcome, after, third, hruns, hend⟩ := hbound depth hdepth
          exact ⟨outcome, after, third, hruns,
            hend.imp_left (.application hexpression hhead hoperator hcallable hoperands)⟩
        · intro failure after second hoperands
          exact .operandFailed hexpression hhead hoperator hcallable hoperands
  · intro failure after calls hoperator
    exact .operatorFailed hexpression hhead hoperator

/--
An activation is explained if the items of its expression are, in any memory that
is not smaller, and whatever is evaluated in larger memories.
-/
theorem explained_activate (cut : Memory H -> Prop) (recur : Nat -> Evaluator H) (scope : Nat)
    (expression : Datum H) (memory : Memory H)
    (hsteady : ∀ scope expression memory, Steady (Evaluates strict scope expression memory)
      (fun depth => recur depth scope expression) memory)
    (hitems : ∀ items, expression.items? = some items -> ∀ item ∈ items, ∀ middle : Memory H,
      memory.store.frames.size ≤ middle.store.frames.size ->
        Explained cut (Evaluates strict scope item middle) (fun depth => recur depth scope item)
          middle)
    (hbody : ∀ inner body (middle : Memory H),
      memory.store.frames.size < middle.store.frames.size ->
        Explained cut (Evaluates strict inner body middle) (fun depth => recur depth inner body)
          middle) :
    Explained cut (Evaluates strict scope expression memory)
      (fun depth => activate strict (recur depth) scope expression) memory := by
  cases hexpression : expression.items? with
  | none =>
      by_cases hsymbol : ∃ name, expression = .symbol name
      · obtain ⟨name, rfl⟩ := hsymbol
        by_cases hseen : ∃ value, memory.store.Sees name value scope
        · obtain ⟨value, hseen⟩ := hseen
          exact .of_runs (fun _ => runs_lookup_of_sees hseen) (.symbol hseen)
        · rw [not_exists] at hseen
          exact .of_runs (fun _ => runs_lookup_of_unseen hseen) (.undefinedVariable hseen)
      · rw [not_exists] at hsymbol
        simp only [activate_of_atom _ _ hexpression hsymbol]
        exact .of_runs (fun _ => .pure expression memory) (.atom hexpression hsymbol)
  | some items =>
      simp only [activate_of_items _ _ hexpression]
      have hitem := hitems items hexpression
      cases items with
      | nil => exact .of_runs (fun _ => .throw _ memory) (.emptyCombination hexpression)
      | cons operator operands =>
          have hrest := fun item hmem => hitem item (List.mem_cons_of_mem operator hmem)
          by_cases hhead : ∀ word ∈ ["define", "begin", "lambda"], operator ≠ .symbol word
          · simp only [evaluateItems_call _ _ hhead]
            exact explained_call hexpression hhead hsteady hitem hbody
          · push Not at hhead
            obtain ⟨word, hword, rfl⟩ := hhead
            simp only [List.mem_cons, List.not_mem_nil, or_false] at hword
            rcases hword with rfl | rfl | rfl
            · exact explained_define hexpression hsteady
                fun item hmem => hrest item hmem memory (Nat.le_refl _)
            · exact explained_begin hexpression hsteady hrest
            · exact explained_lambda hexpression

end Explaining

/-! ## Explaining whole evaluations -/

theorem explained_evaluate_at (depth scope : Nat) (expression : Datum H) (memory : Memory H) :
    Explained (fun _ => True) (Evaluates strict scope expression memory)
      (fun _ => evaluate strict depth scope expression) memory := by
  induction depth generalizing scope expression memory with
  | zero => exact ⟨0, fun _ _ => ⟨_, memory, [], .throw _ memory, .inr ⟨rfl, trivial⟩⟩⟩
  | succ depth ih =>
      refine explained_activate _ (fun _ => evaluate strict depth) scope expression memory ?_ ?_ ?_
      · exact fun _ _ _ _ _ _ _ hruns _ => .of_runs fun _ => hruns
      · exact fun _ _ item _ middle _ => ih scope item middle
      · exact fun inner body middle _ => ih inner body middle

/-- At every depth, a run is derivable or ran out of depth. -/
theorem exists_runs_evaluate (strict : Bool) (depth scope : Nat) (expression : Datum H)
    (memory : Memory H) : ∃ outcome after calls,
      Runs (evaluate strict depth scope expression) memory outcome after calls ∧
        (Evaluates strict scope expression memory outcome after calls ∨
          outcome = .error .depthExceeded) := by
  obtain ⟨bound, hbound⟩ := explained_evaluate_at depth scope expression memory
  obtain ⟨outcome, after, calls, hruns, hend⟩ := hbound bound (Nat.le_refl bound)
  exact ⟨outcome, after, calls, hruns, hend.imp_right And.left⟩

/-- From some depth on, runs that are not derivable open more scopes than any given number. -/
theorem explained_evaluate_growing (strict : Bool) (limit room scope : Nat)
    (expression : Datum H) (memory : Memory H) (hroom : limit ≤ memory.store.frames.size + room) :
    Explained (fun after => limit ≤ after.store.frames.size)
      (Evaluates strict scope expression memory)
      (fun depth => evaluate strict depth scope expression) memory := by
  -- The room shrinks when a scope is opened; else evaluation goes on in a smaller expression.
  induction room generalizing scope expression memory with
  | zero =>
      refine ⟨0, fun depth _ => ?_⟩
      obtain ⟨outcome, after, calls, hruns, hend⟩ :=
        exists_runs_evaluate strict depth scope expression memory
      have hsize := hruns.size_le
      exact ⟨outcome, after, calls, hruns, hend.imp_right fun hexceeded => ⟨hexceeded, by omega⟩⟩
  | succ room ih =>
      induction hsize : sizeOf expression using Nat.strong_induction_on
        generalizing expression memory with
      | _ size ihsize =>
          subst hsize
          obtain ⟨bound, hbound⟩ := explained_activate
            (fun after => limit ≤ after.store.frames.size) (evaluate strict) scope expression memory
            (fun _ _ _ _ _ _ _ _ hrelated => hrelated.settles)
            (fun items hitems item hmem middle hmiddle =>
              ihsize (sizeOf item) (Datum.sizeOf_lt_of_items? hitems hmem) item middle
                (by omega) rfl)
            (fun inner body middle hmiddle => ih inner body middle (by omega))
          refine ⟨bound + 1, fun depth hdepth => ?_⟩
          obtain ⟨rest, rfl⟩ :=
            Nat.exists_eq_add_of_le' (Nat.lt_of_lt_of_le (Nat.succ_pos bound) hdepth)
          exact hbound rest (by omega)

theorem evaluates_of_settles {scope : Nat} {expression : Datum H} {memory after : Memory H}
    {outcome : Except Failure (Datum H)} {calls : List (Call H)}
    (h : Settles (fun depth => evaluate strict depth scope expression) memory outcome after calls) :
    Evaluates strict scope expression memory outcome after calls := by
  obtain ⟨bound, hbound⟩ := h
  obtain ⟨late, hlate⟩ := explained_evaluate_growing strict
    (after.store.frames.size + 1) (after.store.frames.size + 1) scope expression memory (by omega)
  have hruns := hbound (max bound late) (by omega)
  obtain ⟨outcome', after', calls', hruns', hrelated | ⟨-, hgrown⟩⟩ :=
    hlate (max bound late) (by omega)
  · obtain ⟨rfl, rfl, rfl⟩ := hruns.unique hruns'
    exact hrelated
  · obtain ⟨-, rfl, -⟩ := hruns.unique hruns'
    omega

/--
The evaluator implements the rules.  An outcome with a memory and calls is
derivable exactly if it is what the evaluator yields at all depths from some bound
on; and at every single depth the evaluator yields what is derivable, unless it
ran out of depth.
-/
theorem evaluate_implements_rules (strict : Bool) (scope : Nat) (expression : Datum H)
    (memory : Memory H) :
    (∀ outcome after calls, Evaluates strict scope expression memory outcome after calls ↔
      ∃ bound, ∀ depth, bound ≤ depth ->
        Runs (evaluate strict depth scope expression) memory outcome after calls) ∧
    (∀ depth, ∃ outcome after calls,
      Runs (evaluate strict depth scope expression) memory outcome after calls ∧
        (Evaluates strict scope expression memory outcome after calls ∨
          outcome = .error .depthExceeded)) :=
  ⟨fun _ _ _ => ⟨Evaluates.settles, evaluates_of_settles⟩,
    fun depth => exists_runs_evaluate strict depth scope expression memory⟩

end Reckoner
