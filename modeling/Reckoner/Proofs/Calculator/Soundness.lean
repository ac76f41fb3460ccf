import Reckoner.Proofs.Calculator.Counting
import Reckoner.Proofs.Correspondence.Contents
import Reckoner.Proofs.Reading.Defects

/-!
# Soundness of the calculator's language

A source that is interpreted with the calculator's own table computes with numbers,
nil, closures and the calculator's functions, and with nothing else: no other value is
bound, passed or returned.  The functions return numbers.  A failure is one of the
language or of the calculation; in particular no function returns nothing, and nothing
is bound that is not an identifier.

That this holds of every value on the way, also of operands that are dropped, is said
by an evaluator that checks what each of its activations gives: the checks change
nothing (`evaluateChecked_eq`).
-/

namespace Reckoner

open Evaluation

variable {H : Type}

/-! ## Values and sources -/

namespace Datum

/-- Whether a datum is a value of the language: a number, nil, a closure or a function. -/
def isCalculated : Datum H -> Bool
  | .number _ => true
  | .nan _ => true
  | .nil => true
  | .closure _ _ _ _ => true
  | .function _ => true
  | _ => false

/-- Nothing but numbers, symbols and combinations occurs in the datum. -/
def Plain (d : Datum H) : Prop :=
  ∀ part, Occurs part d ->
    (∃ n, part = .number n) ∨ (∃ name, part = .symbol name) ∨ ∃ items, part = .combination items

theorem Plain.occurs {part d : Datum H} (h : d.Plain) (hpart : Occurs part d) : part.Plain :=
  fun _ hinner => h _ (hinner.trans hpart)

/-- A value of the language whose closures were made from a source. -/
inductive Calculated : Datum H -> Prop where
  | number (n : Number) : Calculated (.number n)
  | nan (birth : Nat) : Calculated (.nan birth)
  | nil : Calculated .nil
  | function (f : H) : Calculated (.function f)
  | closure {birth scope : Nat} {parameters : List (Datum H)} {body : Datum H}
      (hparameters : ∀ parameter ∈ parameters, parameter.identifier?.isSome)
      (hbody : body.Plain) : Calculated (.closure birth parameters body scope)

theorem Calculated.isCalculated {d : Datum H} (h : d.Calculated) : d.isCalculated = true := by
  cases h <;> rfl

/-- An expression of a source that stands for itself is a number. -/
theorem Plain.calculated {d : Datum H} (h : d.Plain) (hitems : d.items? = none)
    (hsymbol : ∀ name, d ≠ .symbol name) : d.Calculated := by
  rcases h d .self with ⟨n, rfl⟩ | ⟨name, rfl⟩ | ⟨items, rfl⟩
  · exact .number n
  · exact absurd rfl (hsymbol name)
  · cases hitems

end Datum

theorem Derives.plain {tokens : List String} {e : Datum H} (h : Derives tokens e) : e.Plain := by
  induction h with
  | @number token n _ =>
      intro part hpart
      exact .inl ⟨n, hpart.eq_of_atom rfl rfl⟩
  | @symbol token _ _ =>
      intro part hpart
      exact .inr (.inl ⟨token, hpart.eq_of_atom rfl rfl⟩)
  | @combination parts _ ih =>
      intro part hpart
      cases hpart with
      | self => exact .inr (.inr ⟨_, rfl⟩)
      | item hitems hmem hpart =>
          cases hitems
          obtain ⟨piece, hpiece, rfl⟩ := List.mem_map.mp hmem
          exact ih piece hpiece part hpart

/-! ## Events -/

/-- Only values of the language are passed and bound, and what returns gives a number. -/
def Event.IsSound : Event Builtin -> Prop
  | .called _ operands outcome =>
      (∀ operand ∈ operands, operand.isCalculated = true) ∧
        ∀ value, outcome = .ok value -> ∃ n, value = .number n
  | .opened _ => True
  | .bound _ _ value => value.isCalculated = true

structure Machine.Sound (machine : Machine Builtin) : Prop where
  holds : machine.store.Holds Datum.Calculated
  events : ∀ event ∈ machine.events, event.IsSound

namespace Machine.Sound

variable {machine : Machine Builtin}

theorem bear (h : machine.Sound) : machine.bear.Sound :=
  ⟨h.holds, h.events⟩

theorem called (h : machine.Sound) {function : Builtin} {operands : List (Datum Builtin)}
    {outcome : Except Failure (Datum Builtin)}
    (hoperands : ∀ operand ∈ operands, operand.Calculated)
    (hcall : function.call operands = outcome) :
    (machine.record (.called function operands outcome)).Sound := by
  refine ⟨h.holds, List.forall_mem_cons.mpr ⟨⟨?_, ?_⟩, h.events⟩⟩
  · intro operand hmem
    exact (hoperands operand hmem).isCalculated
  · intro value hvalue
    rcases Builtin.call_cases function operands with ⟨n, hn⟩ | ⟨fault, hfault⟩
    · rw [← hcall, hn] at hvalue
      exact ⟨n, (Except.ok.inj hvalue).symm⟩
    · rw [← hcall, hfault] at hvalue
      cases hvalue

theorem bound (h : machine.Sound) {value : Datum Builtin} (hvalue : value.Calculated)
    (scope : Nat) (name : String) : (machine.record (.bound scope name value)).Sound :=
  ⟨h.holds.bind hvalue scope name,
    List.forall_mem_cons.mpr ⟨hvalue.isCalculated, h.events⟩⟩

theorem opened (h : machine.Sound) (outer : Option Nat) :
    (machine.record (.opened outer)).Sound :=
  ⟨h.holds.push (by simp), List.forall_mem_cons.mpr ⟨trivial, h.events⟩⟩

end Machine.Sound

/-! ## Failures -/

namespace Failure

def calculatorKinds : List String :=
  ["SigmaSyntaxError", "SigmaUndefinedVariable", "SigmaInvalidDefinition", "SigmaInvalidLambda",
    "SigmaNotCallable", "SigmaArityError", "SigmaTypeError", "ZeroDivisionError", "OverflowError",
    "ValueError", "RecursionError", "TypeError"]

/--
A failure of the calculator's language, with which a machine has stopped.

It is never that a function returned nothing.  The kind `TypeError` is left for a
function of fixed parameters that has just been called with another number of operands.
-/
structure IsSound (failure : Failure) (machine : Machine Builtin) : Prop where
  kind_mem : failure.kind ∈ calculatorKinds
  ne_noValue : ∀ function, failure ≠ .noValue function
  miscounted : failure.kind = "TypeError" -> ∃ function operands count,
    machine.events.head? = some (.called function operands (.error failure)) ∧
      function.arity? = some count ∧ operands.length ≠ count

theorem isSound_of_not_raised {failure : Failure} (hraised : failure.isRaised = false)
    (hbindable : failure.isUnbindable = false) (machine : Machine Builtin) :
    failure.IsSound machine := by
  cases failure with
  | invalidIdentifier name => cases hbindable
  | noValue function => cases hraised
  | unhashable => cases hraised
  | calculation fault => cases hraised
  | raised kind message fatal => cases hraised
  | _ => exact ⟨by simp [kind, calculatorKinds], by simp, by simp [kind]⟩

theorem isSound_of_syntax {failure : Failure} (h : failure.kind = "SigmaSyntaxError")
    (machine : Machine Builtin) : failure.IsSound machine := by
  refine ⟨by simp [h, calculatorKinds], ?_, by simp [h]⟩
  rintro function rfl
  simp [kind] at h

theorem isSound_of_call {function : Builtin} {operands : List (Datum Builtin)} {failure : Failure}
    (hcall : function.call operands = .error failure) (machine : Machine Builtin) :
    failure.IsSound (machine.record (.called function operands (.error failure))) := by
  unfold Builtin.call at hcall
  cases happly : function.apply (operands.map Datum.operand) with
  | ok n =>
      rw [happly] at hcall
      cases hcall
  | error fault =>
      rw [happly] at hcall
      cases hcall
      refine ⟨?_, by simp, ?_⟩
      · cases fault <;> simp [kind, Calculator.Fault.kind, calculatorKinds]
      · intro hkind
        have hmiscount := fault.kind_eq_typeError_iff.mp hkind
        obtain ⟨count, harity, hlength⟩ := Builtin.exists_arity_of_miscount happly hmiscount
        rw [List.length_map] at hlength
        exact ⟨function, operands, count, rfl, harity, hlength⟩

end Failure

/-! ## Evaluations -/

def soundness (strict : Bool) : Simulation Builtin strict strict where
  move := .identity
  Machines a b := b = a ∧ a.Sound
  Value _ v := v.Calculated
  Code _ _ e := e.Plain
  Ended failure a b := b = a ∧ a.Sound ∧ failure.IsSound a
  Excused _ _ := False
  stricter := Bool.le_refl strict
  value_later _ h := h
  code_later _ h := h
  ended h hraised hbindable :=
    ⟨h.1, h.2, Failure.isSound_of_not_raised hraised hbindable _⟩
  mismatch _ hne _ := hne rfl
  value_nil := .nil
  atom h hitems hsymbol := h.calculated hitems hsymbol
  operator h hitems _ := h.occurs (.item hitems List.mem_cons_self .self)
  operand h hitems _ hmem := h.occurs (.item hitems (List.mem_cons_of_mem _ hmem) .self)
  lambda _ h hitems _ hnames _ := .closure hnames (h.occurs (.item hitems (by simp) .self))
  lookup h _ := by
    obtain ⟨rfl, hsound⟩ := h
    exact ⟨(Datum.option_map_rename_identity _).symm, fun _ hvalue => hsound.holds.lookup? hvalue⟩
  bound h _ hvalue := by
    obtain ⟨rfl, hsound⟩ := h
    exact ⟨by rw [Event.rename_identity], hsound.bound hvalue _ _⟩
  born h := by
    obtain ⟨rfl, hsound⟩ := h
    exact ⟨rfl, rfl, hsound.bear⟩
  nan _ := .nan _
  opened h hvalue := by
    obtain ⟨rfl, hsound⟩ := h
    refine ⟨rfl, ⟨by rw [Event.rename_identity], hsound.opened _⟩, ?_⟩
    cases hvalue with
    | closure _ hbody => exact hbody
  refused := by
    intro a b birth parameters body outer parameter _ hvalue hmem hname
    -- A closure from a source has identifiers for parameters, so this does not happen.
    cases hvalue with
    | closure hparameters _ =>
        have hsome := hparameters parameter hmem
        rw [hname] at hsome
        cases hsome
  call_rename := Datum.call_rename_identity
  raised h hoperands hcall := by
    obtain ⟨rfl, hsound⟩ := h
    refine ⟨by rw [Event.rename_identity], hsound.called hoperands hcall, ?_⟩
    exact Failure.isSound_of_call hcall _
  absent := by
    intro a b function operands _ _ hcall
    rcases Builtin.call_cases function operands with ⟨n, hn⟩ | ⟨fault, hfault⟩
    · cases hn.symm.trans hcall
    · cases hfault.symm.trans hcall
  returned := by
    intro a b function operands value h hoperands hcall _
    obtain ⟨rfl, hsound⟩ := h
    refine ⟨⟨by rw [Event.rename_identity], hsound.called hoperands hcall⟩, fun _ => ?_⟩
    rcases Builtin.call_cases function operands with ⟨n, hn⟩ | ⟨fault, hfault⟩
    · cases hn.symm.trans hcall
      exact .number n
    · cases hfault.symm.trans hcall

/-! ## Checked evaluations -/

/-- An evaluator that refuses to give a value of which a check does not hold. -/
def Evaluation.checked (check : Datum H -> Bool) (refusal : Failure) (recur : Evaluator H) :
    Evaluator H := fun scope expression => do
  let value <- recur scope expression
  if check value then return value else throw refusal

/--
Evaluates an expression and checks what every activation gives: the values of
operators and operands, those to be bound, and those to be returned.
-/
def evaluateChecked [Host H] (check : Datum H -> Bool) (refusal : Failure) (strict : Bool) :
    Nat -> Evaluator H
  | 0 => fun _ _ => throw .depthExceeded
  | depth + 1 => checked check refusal (activate strict (evaluateChecked check refusal strict depth))

theorem related_evaluateChecked {strict : Bool} (refusal : Failure) (depth : Nat) :
    (soundness strict).coupling.Evaluators (evaluate strict depth)
      (evaluateChecked Datum.isCalculated refusal strict depth) := by
  induction depth with
  | zero =>
      intro world scope scope' e e' _
      exact .throw ((soundness strict).coupling.exhausted world)
  | succ depth ih =>
      intro world scope scope' e e' hcode
      have hactivated := Coupling.related_activate ih hcode
      rw [evaluate_succ, ← bind_pure (activate strict (evaluate strict depth) scope e)]
      refine .bind hactivated fun after v v' _ hsame => ?_
      have hequal : v' = v := Simulation.Same.eq_of_identity rfl hsame
      rw [hequal, hsame.2.isCalculated, if_pos rfl]
      rw [hequal] at hsame
      exact .pure hsame

/-- What comes of a source on a sound machine is sound, and the checks change nothing. -/
theorem evaluate_sound (strict : Bool) (depth scope : Nat) {e : Datum Builtin}
    {machine : Machine Builtin} (he : e.Plain) (hsound : machine.Sound) (refusal : Failure) :
    let ended := evaluate strict depth scope e machine
    (Action.final ended).Sound ∧
    (∀ value, Action.outcome ended = .ok value -> value.Calculated) ∧
    (∀ failure, Action.outcome ended = .error failure ->
      failure.IsSound (Action.final ended)) ∧
    evaluateChecked Datum.isCalculated refusal strict depth scope e machine = ended := by
  have hrelated : (soundness strict).pairing.Related ⟨machine, machine, rfl, hsound⟩
      (soundness strict).pairing.Value (evaluate strict depth scope e)
      (evaluateChecked Datum.isCalculated refusal strict depth scope e) :=
    related_evaluateChecked refusal depth ⟨rfl, (Datum.rename_identity e).symm, he⟩
  unfold Pairing.Related at hrelated
  dsimp only at hrelated ⊢
  generalize evaluate strict depth scope e machine = ended at hrelated ⊢
  generalize evaluateChecked Datum.isCalculated refusal strict depth scope e machine = checked
    at hrelated ⊢
  cases hrelated with
  | @returned after v v' _ hsame =>
      obtain ⟨hmachine, hafter⟩ := after.machines
      have hequal : v' = v := Simulation.Same.eq_of_identity rfl hsame
      refine ⟨hafter, ?_, ?_, by rw [hequal]; exact congrArg (EStateM.Result.ok v) hmachine⟩
      · intro value hvalue
        cases hvalue
        exact hsame.2
      · intro failure hfailure
        cases hfailure
  | failed hended =>
      obtain ⟨rfl, rfl, hafter, hfailure⟩ := hended
      refine ⟨hafter, ?_, ?_, rfl⟩
      · intro value hvalue
        cases hvalue
      · intro failure heq
        cases heq
        exact hfailure
  | excused hexcused => exact hexcused.elim

/-! ## Interpretations -/

theorem calculated_calculatorTable :
    ∀ entry ∈ CommandLine.calculatorTable, entry.2.Calculated := by
  intro entry hmem
  obtain ⟨b, -, rfl⟩ := List.mem_map.mp hmem
  exact .function b

theorem Machine.Sound.withRoot {machine : Machine Builtin} (h : machine.Sound)
    {table : Table Builtin} (htable : ∀ entry ∈ table, entry.2.Calculated) :
    (machine.withRoot table).Sound :=
  ⟨h.holds.push (Table.forall_mem_bindings htable), h.events⟩

theorem Machine.Sound.empty : (Machine.empty : Machine Builtin).Sound :=
  ⟨.empty, List.forall_mem_nil _⟩

theorem kind_of_parse {depth : Nat} {source : String} {failure : Failure}
    (h : (parse depth source : Except Failure (Datum H)) = .error failure) :
    failure = .depthExceeded ∨ failure.kind = "SigmaSyntaxError" := by
  have hrefused : ∀ {message}, RefusedWith message (parse depth source : Except Failure (Datum H)) ->
      failure.kind = "SigmaSyntaxError" := by
    rintro message ⟨other, hother, hkind, -⟩
    cases h.symm.trans hother
    exact hkind
  rcases stands_of_parse (H := H) depth source with hdepth | ⟨standing, -, hanswers⟩
  · cases h.symm.trans hdepth
    exact .inl rfl
  · refine .inr ?_
    cases standing with
    | whole =>
        obtain ⟨e, -, he⟩ := hanswers
        cases h.symm.trans he
    | surplus => exact hrefused hanswers
    | unfinished => exact hrefused hanswers
    | stray before token =>
        by_cases hlong : IsOverlong token.toList
        · exact hrefused (hanswers.1 hlong)
        · exact hrefused (hanswers.2 hlong)

structure Interpretation.Sound (run : Interpretation Builtin) : Prop where
  machine : run.machine.Sound
  value : ∀ v, run.result = .ok v -> v.Calculated
  failure : ∀ failure, run.result = .error failure -> failure.IsSound run.machine

theorem interpret_sound (depth : Nat) (strict : Bool) {machine : Machine Builtin}
    (hmachine : machine.Sound) {table : Table Builtin}
    (htable : ∀ entry ∈ table, entry.2.Calculated) (source : String) :
    (interpret depth strict machine table source).Sound := by
  have hroot := hmachine.withRoot htable
  cases hparse : (parse depth source : Except Failure (Datum Builtin)) with
  | error failure =>
      rw [interpret_of_error hparse]
      refine ⟨hroot, ?_, ?_⟩
      · intro value hvalue
        cases hvalue
      · intro other hother
        cases hother
        rcases kind_of_parse hparse with rfl | hkind
        · exact Failure.isSound_of_not_raised rfl rfl _
        · exact Failure.isSound_of_syntax hkind _
  | ok e =>
      have hplain := (derives_of_parse hparse).1.plain
      rw [interpret_of_ok hparse]
      have hended := evaluate_sound strict depth machine.store.frames.size hplain hroot .depthExceeded
      exact ⟨hended.1, hended.2.1, hended.2.2.1⟩

/--
What is interpreted with the calculator's own table computes with numbers, nil,
closures and the calculator's functions only: such are the values in all frames, the
values bound and passed at any time, and the value returned; and an evaluator that
checks the value of every activation, operands that are dropped included, does the
same.  A function that returns gives a number, and failures are of the kinds of the
language.
-/
theorem interpret_calculator_sound (depth : Nat) (strict : Bool) (source : String) :
    let table := CommandLine.calculatorTable
    let run := interpret depth strict .empty table source
    run.machine.store.Holds (fun value => value.isCalculated = true) ∧
    (∀ event ∈ run.machine.history, event.IsSound) ∧
    (∀ value, run.result = .ok value -> value.isCalculated = true) ∧
    (∀ failure, run.result = .error failure -> failure.IsSound run.machine) ∧
    (∀ e refusal, parse depth source = .ok e ->
      evaluateChecked Datum.isCalculated refusal strict depth 0 e (Machine.empty.withRoot table) =
        evaluate strict depth 0 e (Machine.empty.withRoot table)) := by
  intro table run
  have hrun : run.Sound := interpret_sound depth strict .empty calculated_calculatorTable source
  clear_value run
  refine ⟨?_, ?_, ?_, hrun.failure, ?_⟩
  · exact hrun.machine.holds.mono fun value h => h.isCalculated
  · intro event hmem
    exact hrun.machine.events event (List.mem_reverse.mp hmem)
  · intro value h
    exact (hrun.value value h).isCalculated
  · intro e refusal hparse
    have hplain := (derives_of_parse hparse).1.plain
    have hroot := Machine.Sound.empty.withRoot calculated_calculatorTable
    exact (evaluate_sound strict depth 0 hplain hroot refusal).2.2.2

end Reckoner
