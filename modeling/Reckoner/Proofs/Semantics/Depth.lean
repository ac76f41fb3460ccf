import Reckoner.Proofs.Correspondence.Contents
import Reckoner.Proofs.Record

/-!
# Deeper bounds

The bound on nesting decides where an interpretation is cut short and nothing else.
Under a deeper bound reading and evaluating go through the same steps and then, if
they were cut short, on from there.  So what has ended stays as it is
(`interpret_under_deeper_bound`), and what was cut short has made the first of the
calls that the longer run makes.
-/

namespace Reckoner

open Evaluation

variable {H α β : Type}

/-! ## Actions -/

/-- One result is the other, or it was cut short where the other went on. -/
inductive Prolonged : EStateM.Result Failure (Machine H) α ->
    EStateM.Result Failure (Machine H) α -> Prop where
  | same (result : EStateM.Result Failure (Machine H) α) : Prolonged result result
  | further {machine : Machine H} {result : EStateM.Result Failure (Machine H) α}
      {history : List (Event H)} (h : machine.Recorded (Action.final result) history) :
      Prolonged (.error .depthExceeded machine) result

structure Deepens (action deeper : Action H α) : Prop where
  recorded : ∀ machine : Machine H,
    ∃ history, machine.Recorded (Action.final (deeper machine)) history
  prolonged : ∀ machine, Prolonged (action machine) (deeper machine)

namespace Deepens

theorem of_does {scope : Nat} {action : Action H α} (h : Does scope action) :
    Deepens action action :=
  ⟨fun machine => (h machine).exists_recorded, fun machine => .same (action machine)⟩

theorem pure (value : α) : Deepens (pure value : Action H α) (pure value) :=
  .of_does (.pure 0 value)

theorem throw (failure : Failure) : Deepens (throw failure : Action H α) (throw failure) :=
  .of_does (.throw 0 failure)

theorem bind {action deeper : Action H α} {next deeperNext : α -> Action H β}
    (haction : Deepens action deeper) (hnext : ∀ value, Deepens (next value) (deeperNext value)) :
    Deepens (action >>= next) (deeper >>= deeperNext) := by
  refine ⟨fun machine => ?_, fun machine => ?_⟩
  · obtain ⟨early, hearly⟩ := haction.recorded machine
    cases h : deeper machine with
    | ok value after =>
        rw [h] at hearly
        obtain ⟨late, hlate⟩ := (hnext value).recorded after
        rw [Action.bind_of_ok h]
        exact ⟨early ++ late, hearly.trans hlate⟩
    | error failure after =>
        rw [h] at hearly
        rw [Action.bind_of_error h]
        exact ⟨early, hearly⟩
  · have hprolonged := haction.prolonged machine
    cases hshort : action machine with
    | ok value after =>
        rw [hshort] at hprolonged
        generalize hlong : deeper machine = long at hprolonged
        cases hprolonged
        rw [Action.bind_of_ok hshort, Action.bind_of_ok hlong]
        exact (hnext value).prolonged after
    | error failure after =>
        rw [hshort] at hprolonged
        rw [Action.bind_of_error hshort]
        generalize hlong : deeper machine = long at hprolonged
        cases hprolonged with
        | same =>
            rw [Action.bind_of_error hlong]
            exact .same _
        | further h =>
            -- The longer run has gone on from here, and what comes next adds to its record.
            cases long with
            | error failure last =>
                rw [Action.bind_of_error hlong]
                exact .further h
            | ok value last =>
                rw [Action.bind_of_ok hlong]
                obtain ⟨late, hlate⟩ := (hnext value).recorded last
                exact .further (h.trans hlate)

end Deepens

/-! ## One activation -/

namespace Evaluation

theorem evaluateAll_deepens {recur deeper : Datum H -> Action H (Datum H)}
    (hrecur : ∀ e, Deepens (recur e) (deeper e)) (expressions : List (Datum H)) :
    Deepens (evaluateAll recur expressions) (evaluateAll deeper expressions) := by
  induction expressions with
  | nil => exact .pure []
  | cons expression rest ih =>
      exact .bind (hrecur expression) fun _ => .bind ih fun _ => .pure _

theorem evaluateLast_deepens {recur deeper : Datum H -> Action H (Datum H)}
    (hrecur : ∀ e, Deepens (recur e) (deeper e)) (last : Datum H) (expressions : List (Datum H)) :
    Deepens (evaluateLast recur last expressions) (evaluateLast deeper last expressions) := by
  induction expressions generalizing last with
  | nil => exact .pure last
  | cons expression rest ih => exact .bind (hrecur expression) fun value => ih value

variable [Host H] {recur deeper : Evaluator H}

theorem evaluateDefine_deepens (hrecur : ∀ scope e, Deepens (recur scope e) (deeper scope e))
    (scope : Nat) (tail : List (Datum H)) :
    Deepens (evaluateDefine recur scope tail) (evaluateDefine deeper scope tail) := by
  unfold evaluateDefine
  split
  · split
    · exact .throw _
    · refine .bind (hrecur scope _) fun value => ?_
      exact .bind (.of_does (define_does scope _ value)) fun _ => .pure value
  · exact .throw _

/-- To open the scope of a call is an effect of any scope. -/
theorem extend_does (strict : Bool) (scope : Nat) (parameters : List (Datum H)) (outer : Nat)
    (operands : List (Datum H)) : Does scope (extend strict parameters outer operands) := by
  intro machine
  unfold extend
  split
  · exact .refl
  · have hinner : Does machine.store.frames.size
        (bindAll machine.store.frames.size (parameters.zip operands) >>= fun _ =>
          pure machine.store.frames.size) :=
      .bind (bindAll_does _ _) fun _ => .pure _ _
    exact .within (some outer) (hinner _)

theorem apply_deepens (strict : Bool)
    (hrecur : ∀ scope e, Deepens (recur scope e) (deeper scope e)) (head : Datum H)
    (operands : List (Datum H)) :
    Deepens (apply strict recur head operands) (apply strict deeper head operands) := by
  cases head with
  | closure birth parameters body outer =>
      exact .bind (.of_does (extend_does strict outer parameters outer operands))
        fun inner => hrecur inner body
  | function f => exact .of_does (callHost_does 0 f operands)
  | _ => exact .throw _

theorem evaluateCall_deepens (strict : Bool)
    (hrecur : ∀ scope e, Deepens (recur scope e) (deeper scope e)) (scope : Nat)
    (operator : Datum H) (operands : List (Datum H)) :
    Deepens (evaluateCall strict recur scope operator operands)
      (evaluateCall strict deeper scope operator operands) := by
  refine .bind (hrecur scope operator) fun head => ?_
  split
  · exact .bind (evaluateAll_deepens (hrecur scope) operands) fun values =>
      apply_deepens strict hrecur head values
  · exact .throw _

theorem evaluateItems_deepens (strict : Bool)
    (hrecur : ∀ scope e, Deepens (recur scope e) (deeper scope e)) (scope : Nat)
    (items : List (Datum H)) :
    Deepens (evaluateItems strict recur scope items) (evaluateItems strict deeper scope items) := by
  unfold evaluateItems
  split
  · exact .throw _
  · split
    · rename_i keyword _
      cases keyword with
      | define => exact evaluateDefine_deepens hrecur scope _
      | begin => exact evaluateLast_deepens (hrecur scope) _ _
      | lambda => exact .of_does (evaluateLambda_does scope scope _)
    · exact evaluateCall_deepens strict hrecur scope _ _

theorem activate_deepens (strict : Bool)
    (hrecur : ∀ scope e, Deepens (recur scope e) (deeper scope e)) (scope : Nat) (e : Datum H) :
    Deepens (activate strict recur scope e) (activate strict deeper scope e) := by
  unfold activate
  split
  · exact .of_does (lookup_does scope scope _)
  · exact evaluateItems_deepens strict hrecur scope _
  · exact evaluateItems_deepens strict hrecur scope _
  · exact .pure _

end Evaluation

theorem evaluate_deepens [Host H] (strict : Bool) {depth deeper : Nat} (hle : depth ≤ deeper)
    (scope : Nat) (e : Datum H) :
    Deepens (evaluate strict depth scope e) (evaluate strict deeper scope e) := by
  induction depth generalizing deeper scope e with
  | zero =>
      have hrecorded := fun machine => (evaluate_does strict deeper scope e machine).exists_recorded
      refine ⟨hrecorded, fun machine => ?_⟩
      obtain ⟨history, hhistory⟩ := hrecorded machine
      exact .further hhistory
  | succ depth ih =>
      obtain ⟨rest, rfl⟩ := Nat.exists_eq_add_of_le' (Nat.lt_of_lt_of_le (Nat.succ_pos depth) hle)
      exact activate_deepens strict (fun scope e => ih (Nat.le_of_succ_le_succ hle) scope e) scope e

/-! ## Reading -/

namespace Reader

theorem step_of_le {depth deeper : Nat} (hle : depth ≤ deeper) (token : String) (stack : Stack H) :
    step depth token stack = .failed .depthExceeded ∨
      step deeper token stack = step depth token stack := by
  cases stack with
  | nil =>
      by_cases hzero : depth = 0
      · exact .inl (by simp [step, hzero])
      · exact .inr (by simp [step, hzero, show deeper ≠ 0 by omega])
  | cons items outer =>
      by_cases hclosing : token = ")"
      · exact .inr (by simp [step, hclosing])
      · by_cases hdeep : depth ≤ (items :: outer).length
        · exact .inl (by simp only [step, beq_iff_eq, hclosing, hdeep, ↓reduceIte])
        · have hdeeper : ¬ deeper ≤ (items :: outer).length := by omega
          exact .inr (by simp only [step, beq_iff_eq, hclosing, hdeep, hdeeper, ↓reduceIte])

theorem resume_of_le {depth deeper : Nat} (hle : depth ≤ deeper) (stack : Stack H)
    (tokens : List String) :
    (resume depth stack tokens).outcome = .error .depthExceeded ∨
      resume deeper stack tokens = resume depth stack tokens := by
  induction tokens generalizing stack with
  | nil => exact .inr rfl
  | cons token rest ih =>
      rcases step_of_le hle token stack with hfailed | hsame
      · exact .inl (by simp [resume, hfailed])
      · simp only [resume, hsame]
        cases step depth token stack with
        | finished value => exact .inr rfl
        | failed failure => exact .inr rfl
        | more next => exact ih next

end Reader

theorem parse_of_le {depth deeper : Nat} (hle : depth ≤ deeper) (source : String) :
    (parse depth source : Except Failure (Datum H)) = .error .depthExceeded ∨
      (parse deeper source : Except Failure (Datum H)) = parse depth source := by
  unfold parse Reader.read
  rcases Reader.resume_of_le (H := H) hle [] (tokenize source) with hfailed | hsame
  · exact .inl (by simp only [hfailed])
  · exact .inr (by rw [hsame])

/-! ## Interpretations -/

/--
Under a deeper bound an interpretation that was not cut short is the same in every
respect: what is read, the result, the store and the record.  One that was cut short
made calls that the longer one makes as well, in the same order and on the same stores,
before it makes any others.
-/
theorem interpret_under_deeper_bound [Host H] {depth deeper : Nat} (hle : depth ≤ deeper)
    (strict : Bool) (machine : Machine H) (table : Table H) (source : String) :
    let start := machine.withRoot table
    let run := interpret depth strict machine table source
    let longer := interpret deeper strict machine table source
    (run.result ≠ .error .depthExceeded -> longer = run) ∧
      start.callsSince run.machine <+: start.callsSince longer.machine := by
  intro start run longer
  rcases parse_of_le hle source with hcut | hsame
  · have hrun : run = ⟨table.skipped, none, .error .depthExceeded, start⟩ :=
      interpret_of_error hcut strict machine table
    refine ⟨fun hfinished => absurd (congrArg Interpretation.result hrun) hfinished, ?_⟩
    rw [hrun, (Machine.Recorded.refl start).callsSince_eq]
    exact List.nil_prefix
  · cases hparse : parse depth source with
    | error failure =>
        have hequal : longer = run :=
          (interpret_of_error (hsame.trans hparse) strict machine table).trans
            (interpret_of_error hparse strict machine table).symm
        exact ⟨fun _ => hequal, hequal ▸ List.prefix_refl _⟩
    | ok e =>
        have hrun : run = _ := interpret_of_ok hparse strict machine table
        have hlonger : longer = _ := interpret_of_ok (hsame.trans hparse) strict machine table
        obtain ⟨early, hearly⟩ :=
          (evaluate_does strict depth machine.store.frames.size e start).exists_recorded
        have hprolonged := (evaluate_deepens strict hle machine.store.frames.size e).prolonged start
        rw [hrun, hlonger]
        dsimp only
        generalize evaluate strict depth machine.store.frames.size e start = short at *
        generalize evaluate strict deeper machine.store.frames.size e start = long at *
        cases hprolonged with
        | same => exact ⟨fun _ => rfl, List.prefix_refl _⟩
        | further h => exact ⟨fun hfinished => absurd rfl hfinished, hearly.callsSince_prefix h⟩

/-! ## A closure that never returns -/

def sumTable : Table Builtin :=
  [(.text "+", .function .add)]

/-- A closure that calls itself for ever, and the function before each time. -/
def endlessSource : String :=
  "((lambda (f) (f f)) (lambda (f) (begin (+) (f f))))"

def endlessCalls (depth : Nat) : List (Call Builtin) :=
  (Machine.empty.withRoot sumTable).callsSince
    (interpret depth true .empty sumTable endlessSource).machine

theorem parse_endlessSource {depth : Nat} (h : 5 ≤ depth) :
    parse depth endlessSource = .ok (.combination
      [.combination [.symbol "lambda", .combination [.symbol "f"],
        .combination [.symbol "f", .symbol "f"]],
      .combination [.symbol "lambda", .combination [.symbol "f"],
        .combination [.symbol "begin", .combination [.symbol "+"],
          .combination [.symbol "f", .symbol "f"]]]] : Datum Builtin) := by
  rcases parse_of_le h endlessSource with hcut | hsame
  · cases hcut
  · exact hsame.trans (by rfl)

/-- The endless source is cut short, earlier or later; another one ends under both bounds. -/
theorem endless_calls_prolonged :
    6 ≤ 9 ∧ (interpret 6 true .empty sumTable endlessSource).result = .error .depthExceeded ∧
      (endlessCalls 6).length = 1 ∧ (endlessCalls 9).length = 3 ∧
      endlessCalls 6 <+: endlessCalls 9 ∧
      (interpret 6 true .empty sumTable "(+ (+))").result = .ok (.number (.int 0)) ∧
      interpret 9 true .empty sumTable "(+ (+))" = interpret 6 true .empty sumTable "(+ (+))" := by
  have hresult : (interpret 6 true .empty sumTable "(+ (+))").result = .ok (.number (.int 0)) := by
    rfl
  have hfinished : (interpret 6 true .empty sumTable "(+ (+))").result ≠ .error .depthExceeded := by
    simp [hresult]
  refine ⟨by decide, ?_, ?_, ?_,
    (interpret_under_deeper_bound (by decide) true .empty sumTable endlessSource).2, hresult,
    (interpret_under_deeper_bound (by decide) true .empty sumTable "(+ (+))").1 hfinished⟩
  · rw [interpret_of_ok (parse_endlessSource (by decide))]
    rfl
  · rw [endlessCalls, interpret_of_ok (parse_endlessSource (by decide))]
    decide +kernel
  · rw [endlessCalls, interpret_of_ok (parse_endlessSource (by decide))]
    decide +kernel

end Reckoner
