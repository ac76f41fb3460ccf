import Mathlib.Algebra.BigOperators.Group.List.Basic
import Mathlib.Logic.Function.Basic
import Reckoner.Proofs.Reading.SourceNames
import Reckoner.Proofs.Reading.Streams
import Reckoner.Proofs.Semantics.Steps

/-!
# Exactness of integer programs

Definitions followed by a result, all made of integers, variables, sums, products and
differences, have a meaning over the integers: each definition is an update of an
assignment, and the result is what it comes to under the last one.  Interpreting the
source text of such a program gives exactly that integer, of whatever size, or fails at
the first variable, from left to right, that is used while it has no value.
-/

namespace Reckoner

open Evaluation

/-! ## Integer programs -/

/-- A name that is read as a symbol and is not the name of a function of the calculator. -/
structure Variable where
  name : String
  isName : IsName name.toList
  not_isNumeral : ¬ IsNumeral name.toList
  not_builtin : ∀ b : Builtin, b.symbol ≠ name

inductive IntegerExpression where
  | literal (n : Int) (hdigits : (Nat.toDigits 10 n.natAbs).length ≤ 4300)
  | use (x : Variable)
  | sum (terms : List IntegerExpression)
  | product (factors : List IntegerExpression)
  | negation (e : IntegerExpression)
  | difference (minuend subtrahend : IntegerExpression)

namespace IntegerExpression

/-- Induction where the expressions of a list all have the property. -/
@[induction_eliminator]
theorem induction {P : IntegerExpression -> Prop} (literal : ∀ n hdigits, P (.literal n hdigits))
    (use : ∀ x, P (.use x)) (sum : ∀ terms, (∀ e ∈ terms, P e) -> P (.sum terms))
    (product : ∀ factors, (∀ e ∈ factors, P e) -> P (.product factors))
    (negation : ∀ e, P e -> P (.negation e))
    (difference : ∀ a b, P a -> P b -> P (.difference a b)) (e : IntegerExpression) : P e :=
  e.rec literal use sum product negation difference (List.forall_mem_nil P)
    fun _ _ hfirst hrest => List.forall_mem_cons.mpr ⟨hfirst, hrest⟩

mutual

def value (assignment : String -> Int) : IntegerExpression -> Int
  | .literal n _ => n
  | .use x => assignment x.name
  | .sum terms => (values assignment terms).sum
  | .product factors => (values assignment factors).prod
  | .negation e => -value assignment e
  | .difference a b => value assignment a - value assignment b

def values (assignment : String -> Int) : List IntegerExpression -> List Int
  | [] => []
  | e :: rest => value assignment e :: values assignment rest

end

mutual

def names : IntegerExpression -> List String
  | .literal _ _ => []
  | .use x => [x.name]
  | .sum terms => namesAll terms
  | .product factors => namesAll factors
  | .negation e => names e
  | .difference a b => names a ++ names b

def namesAll : List IntegerExpression -> List String
  | [] => []
  | e :: rest => names e ++ namesAll rest

end

mutual

def toDatum : IntegerExpression -> Datum Builtin
  | .literal n _ => .number (.int n)
  | .use x => .symbol x.name
  | .sum terms => .combination (.symbol "+" :: toData terms)
  | .product factors => .combination (.symbol "*" :: toData factors)
  | .negation e => .combination [.symbol "-", toDatum e]
  | .difference a b => .combination [.symbol "-", toDatum a, toDatum b]

def toData : List IntegerExpression -> List (Datum Builtin)
  | [] => []
  | e :: rest => toDatum e :: toData rest

end

theorem toData_eq_map (es : List IntegerExpression) : toData es = es.map toDatum := by
  induction es with
  | nil => rfl
  | cons e rest ih => rw [toData, ih, List.map_cons]

end IntegerExpression

structure IntegerProgram where
  definitions : List (Variable × IntegerExpression)
  result : IntegerExpression

namespace IntegerProgram

/-- What a result comes to after definitions, each of which updates the assignment. -/
def valueFrom (assignment : String -> Int) (result : IntegerExpression) :
    List (Variable × IntegerExpression) -> Int
  | [] => result.value assignment
  | (x, e) :: rest =>
      valueFrom (Function.update assignment x.name (e.value assignment)) result rest

/-- The first name that is used before it is assigned. -/
def unassignedFrom (assigned : List String) (result : IntegerExpression) :
    List (Variable × IntegerExpression) -> Option String
  | [] => result.names.find? (· ∉ assigned)
  | (x, e) :: rest =>
      (e.names.find? (· ∉ assigned)).or (unassignedFrom (x.name :: assigned) result rest)

def value (program : IntegerProgram) (start : String -> Int) : Int :=
  valueFrom start program.result program.definitions

def unassigned? (program : IntegerProgram) : Option String :=
  unassignedFrom [] program.result program.definitions

def definitionDatum (x : Variable) (e : IntegerExpression) : Datum Builtin :=
  .combination [.symbol "define", .symbol x.name, e.toDatum]

def forms (result : IntegerExpression) (definitions : List (Variable × IntegerExpression)) :
    List (Datum Builtin) :=
  definitions.map (fun definition => definitionDatum definition.1 definition.2) ++ [result.toDatum]

def toDatum (program : IntegerProgram) : Datum Builtin :=
  .combination (.symbol "begin" :: forms program.result program.definitions)

end IntegerProgram

/-! ## Sources -/

theorem Datum.readable_symbol {name : String} (h : Lexeme.ofToken name = .name name) :
    (.symbol name : Datum Builtin).Readable := by
  have hsymbol := Lexeme.ofToken_eq_name_iff.mp h
  exact .symbol hsymbol.2.1 hsymbol.2.2

theorem Variable.readable (x : Variable) : (.symbol x.name : Datum Builtin).Readable :=
  .symbol x.isName x.not_isNumeral

theorem Variable.identifier? (x : Variable) :
    (.symbol x.name : Datum Builtin).identifier? = some x.name := by
  rw [Datum.identifier?_eq_some_iff]
  exact ⟨rfl, isValid_iff.mpr x.isName⟩

theorem IntegerExpression.readable (e : IntegerExpression) : e.toDatum.Readable := by
  have hoperator : ∀ b ∈ [Builtin.add, .sub, .mul],
      (.symbol b.symbol : Datum Builtin).Readable := by
    intro b hmem
    apply Datum.readable_symbol
    revert b
    decide
  induction e with
  | literal n hdigits => exact .int hdigits
  | use x => exact x.readable
  | sum terms ih =>
      rw [toDatum, toData_eq_map]
      exact .combination (List.forall_mem_cons.mpr
        ⟨hoperator .add (by decide), List.forall_mem_map.mpr ih⟩)
  | product factors ih =>
      rw [toDatum, toData_eq_map]
      exact .combination (List.forall_mem_cons.mpr
        ⟨hoperator .mul (by decide), List.forall_mem_map.mpr ih⟩)
  | negation e ih =>
      exact .combination (by simpa [toDatum] using ⟨hoperator .sub (by decide), ih⟩)
  | difference a b iha ihb =>
      exact .combination (by simpa [toDatum] using ⟨hoperator .sub (by decide), iha, ihb⟩)

theorem IntegerProgram.readable (program : IntegerProgram) : program.toDatum.Readable := by
  have hbegin : (.symbol "begin" : Datum Builtin).Readable := Datum.readable_symbol (by decide)
  have hdefine : (.symbol "define" : Datum Builtin).Readable := Datum.readable_symbol (by decide)
  refine .combination (List.forall_mem_cons.mpr ⟨hbegin, ?_⟩)
  intro form hmem
  rcases List.mem_append.mp hmem with hdefinition | hresult
  · obtain ⟨⟨x, e⟩, -, rfl⟩ := List.mem_map.mp hdefinition
    exact .combination (by simpa using ⟨hdefine, x.readable, e.readable⟩)
  · rw [List.mem_singleton.mp hresult]
    exact program.result.readable

/-! ## Calculations on integers -/

def Datum.integers (ns : List Int) : List (Datum Builtin) :=
  ns.map fun n => .number (.int n)

namespace Calculator

theorem numbers_integers (operation : String) (ns : List Int) :
    numbers operation ((Datum.integers ns).map Datum.operand) = .ok (ns.map .int) := by
  induction ns with
  | nil => rfl
  | cons n rest ih =>
      change numbers operation (.number (.int n) :: (Datum.integers rest).map Datum.operand) = _
      rw [numbers, ih]
      rfl

theorem accumulate_integers (exact : Int -> Int -> Int) (rounded : Float -> Float -> Float)
    (start : Int) (ns : List Int) :
    accumulate (combine exact rounded) (.int start) (ns.map .int) =
      .ok (.int (ns.foldl exact start)) := by
  induction ns generalizing start with
  | nil => rfl
  | cons n rest ih =>
      rw [List.map_cons, accumulate, combine]
      exact ih (exact start n)

end Calculator

namespace Builtin

theorem call_add (ns : List Int) :
    call .add (Datum.integers ns) = .ok (.number (.int ns.sum)) := by
  have happly : apply .add ((Datum.integers ns).map Datum.operand) = .ok (.int ns.sum) := by
    rw [apply, Calculator.sum, Calculator.numbers_integers, List.sum_eq_foldl]
    exact Calculator.accumulate_integers _ _ 0 ns
  rw [call, happly]

theorem call_mul (ns : List Int) :
    call .mul (Datum.integers ns) = .ok (.number (.int ns.prod)) := by
  have happly : apply .mul ((Datum.integers ns).map Datum.operand) = .ok (.int ns.prod) := by
    rw [apply, Calculator.product, Calculator.numbers_integers, List.prod_eq_foldl]
    exact Calculator.accumulate_integers _ _ 1 ns
  rw [call, happly]

theorem call_sub_one (n : Int) :
    call .sub (Datum.integers [n]) = .ok (.number (.int (-n))) :=
  rfl

theorem call_sub_two (m n : Int) :
    call .sub (Datum.integers [m, n]) = .ok (.number (.int (m - n))) :=
  rfl

end Builtin

/-! ## Assignments in frames -/

/--
The calculator's functions are bound in the frame, the assigned variables have their
integers, and no other variable is bound.
-/
structure Frame.Assigns (frame : Frame Builtin) (assigned : List String)
    (assignment : String -> Int) : Prop where
  outer : frame.outer = none
  builtin : ∀ b : Builtin, frame.get? b.symbol = some (.function b)
  bound : ∀ x : Variable, frame.get? x.name =
    if x.name ∈ assigned then some (.number (.int (assignment x.name))) else none

theorem Frame.Assigns.bind {frame : Frame Builtin} {assigned : List String}
    {assignment : String -> Int} (h : frame.Assigns assigned assignment) (x : Variable) (n : Int) :
    (frame.bind x.name (.number (.int n))).Assigns (x.name :: assigned)
      (Function.update assignment x.name n) := by
  refine ⟨h.outer, ?_, ?_⟩
  · intro b
    rw [get?_bind, if_neg fun heq => x.not_builtin b heq.symm, h.builtin]
  · intro y
    rw [get?_bind]
    by_cases hname : x.name = y.name
    · simp [hname]
    · rw [if_neg hname, h.bound, Function.update_of_ne (Ne.symm hname)]
      simp [Ne.symm hname]

theorem Store.lookup?_of_outermost {H : Type} {store : Store H} {scope : Nat} {frame : Frame H}
    (hframe : store.frame? scope = some frame) (houter : frame.outer = none) (name : String) :
    store.lookup? scope name = frame.get? name := by
  cases hvalue : frame.get? name with
  | some value => exact lookup?_eq_some_iff.mpr (.own hframe hvalue)
  | none =>
      rw [lookup?_eq_none_iff]
      intro value hsees
      cases hsees with
      | own hfound hbound =>
          cases hframe.symm.trans hfound
          cases hvalue.symm.trans hbound
      | outer hfound _ hnext _ =>
          cases hframe.symm.trans hfound
          cases houter.symm.trans hnext

/-- The root scope of the calculator's table assigns nothing. -/
theorem assigns_calculatorTable (assignment : String -> Int) :
    (⟨CommandLine.calculatorTable.bindings, none⟩ : Frame Builtin).Assigns [] assignment := by
  refine ⟨rfl, ?_, ?_⟩
  · intro b
    cases b <;> rfl
  · intro x
    rw [if_neg List.not_mem_nil]
    apply Table.get?_bindInto_of_not_names
    intro entry hmem hnames
    obtain ⟨b, -, rfl⟩ := List.mem_map.mp hmem
    rcases hnames with htext | hsymbol
    · exact x.not_builtin b (Datum.text.inj htext)
    · cases hsymbol

/-! ## Evaluating expressions -/

/-- The action leaves the store alone and gives a value, or fails at a name that is missing. -/
def Computes {α : Type} (action : Action Builtin α) (machine : Machine Builtin)
    (missing : Option String) (value : α) : Prop :=
  ∃ after : Machine Builtin, after.store = machine.store ∧
    action machine =
      missing.elim (.ok value after) fun name => .error (.undefinedVariable name) after

namespace Computes

variable {α β : Type} {machine : Machine Builtin}

theorem pure (machine : Machine Builtin) (value : α) :
    Computes (pure value : Action Builtin α) machine none value :=
  ⟨machine, rfl, rfl⟩

theorem bind {action : Action Builtin α} {next : α -> Action Builtin β}
    {missing later : Option String} {value : α} {result : β}
    (haction : Computes action machine missing value)
    (hnext : ∀ after : Machine Builtin, after.store = machine.store ->
      Computes (next value) after later result) :
    Computes (action >>= next) machine (missing.or later) result := by
  obtain ⟨after, hstore, hrun⟩ := haction
  cases missing with
  | none =>
      obtain ⟨last, hlast, hrest⟩ := hnext after hstore
      refine ⟨last, hlast.trans hstore, ?_⟩
      rw [Action.bind_of_ok hrun, hrest, Option.none_or]
  | some name => exact ⟨after, hstore, Action.bind_of_error hrun⟩

end Computes

theorem computes_callHost {b : Builtin} {operands : List (Datum Builtin)} {n : Int}
    (hcall : b.call operands = .ok (.number (.int n))) (machine : Machine Builtin) :
    Computes (callHost b operands) machine none (.number (.int n)) := by
  refine ⟨machine.record (.called b operands (.ok (.number (.int n)))), rfl, ?_⟩
  rw [callHost_of_ok hcall (by simp)]
  rfl

theorem Datum.exists_succ_of_nesting_le {d : Datum Builtin} {depth : Nat}
    (h : d.nesting ≤ depth) : ∃ inner, depth = inner + 1 := by
  have hpos : 1 ≤ d.nesting := by cases d <;> simp [nesting]
  exact ⟨depth - 1, by omega⟩

def IntegerExpression.IsComputed (strict : Bool) (root : Nat) (frame : Frame Builtin)
    (assigned : List String) (assignment : String -> Int) (e : IntegerExpression) : Prop :=
  ∀ (depth : Nat) (machine : Machine Builtin), e.toDatum.nesting ≤ depth ->
    machine.store.frame? root = some frame ->
    Computes (evaluate strict depth root e.toDatum) machine (e.names.find? (· ∉ assigned))
      (.number (.int (e.value assignment)))

section

variable {strict : Bool} {depth root : Nat} {frame : Frame Builtin} {assigned : List String}
  {assignment : String -> Int} {machine : Machine Builtin}

theorem computes_lookup_builtin (hassigns : frame.Assigns assigned assignment)
    (hframe : machine.store.frame? root = some frame) (b : Builtin) :
    Computes (lookup root b.symbol) machine none (.function b) := by
  refine ⟨machine, rfl, ?_⟩
  rw [lookup, Store.lookup?_of_outermost hframe hassigns.outer, hassigns.builtin]
  rfl

theorem computes_lookup (hassigns : frame.Assigns assigned assignment)
    (hframe : machine.store.frame? root = some frame) (x : Variable) :
    Computes (lookup root x.name) machine ([x.name].find? (· ∉ assigned))
      (.number (.int (assignment x.name))) := by
  refine ⟨machine, rfl, ?_⟩
  rw [lookup, Store.lookup?_of_outermost hframe hassigns.outer, hassigns.bound]
  by_cases hmem : x.name ∈ assigned <;> simp [hmem]

theorem computes_evaluateAll {es : List IntegerExpression}
    (h : ∀ e ∈ es, e.IsComputed strict root frame assigned assignment)
    (hdepth : Datum.nestingAll (IntegerExpression.toData es) ≤ depth)
    (hframe : machine.store.frame? root = some frame) :
    Computes (evaluateAll (evaluate strict depth root) (IntegerExpression.toData es)) machine
      ((IntegerExpression.namesAll es).find? (· ∉ assigned))
      (Datum.integers (IntegerExpression.values assignment es)) := by
  induction es generalizing machine with
  | nil => exact .pure machine []
  | cons e rest ih =>
      obtain ⟨hfirst, hrest⟩ := List.forall_mem_cons.mp h
      obtain ⟨hfits, hfit⟩ := Nat.max_le.mp hdepth
      rw [IntegerExpression.namesAll, List.find?_append]
      apply (hfirst depth machine hfits hframe).bind
      intro after hafter
      rw [← Option.or_none (o := List.find? _ _)]
      apply (ih hrest hfit (hafter ▸ hframe)).bind
      intro last _
      exact .pure last _

/-- The operator is found first, then the operands are computed, then the function is called. -/
theorem computes_application (hassigns : frame.Assigns assigned assignment)
    {es : List IntegerExpression} (h : ∀ e ∈ es, e.IsComputed strict root frame assigned assignment)
    {b : Builtin} {n : Int}
    (hcall : b.call (Datum.integers (IntegerExpression.values assignment es)) =
      .ok (.number (.int n)))
    (hdepth : (Datum.combination (.symbol b.symbol :: IntegerExpression.toData es)).nesting ≤ depth)
    (hframe : machine.store.frame? root = some frame) :
    Computes
      (evaluate strict depth root (.combination (.symbol b.symbol :: IntegerExpression.toData es)))
      machine ((IntegerExpression.namesAll es).find? (· ∉ assigned)) (.number (.int n)) := by
  simp only [Datum.nesting, Datum.nestingAll] at hdepth
  -- One level for the application and one for its operator, also where there are no operands.
  obtain ⟨inner, rfl⟩ : ∃ inner, depth = inner + 2 := ⟨depth - 2, by omega⟩
  have hoperator : Keyword.ofDatum? (.symbol b.symbol : Datum Builtin) = none := by
    cases b <;> rfl
  rw [evaluate_succ]
  simp only [activate, evaluateItems, hoperator, evaluateCall]
  rw [← Option.none_or (o := List.find? _ _)]
  apply Computes.bind (computes_lookup_builtin hassigns hframe b)
  intro after hafter
  have hcallable : (Datum.function b : Datum Builtin).isCallable = true := rfl
  rw [if_pos hcallable, ← Option.or_none (o := List.find? _ _)]
  apply (computes_evaluateAll h (by omega) (hafter ▸ hframe)).bind
  intro last _
  exact computes_callHost hcall last

theorem IntegerExpression.isComputed (hassigns : frame.Assigns assigned assignment)
    (e : IntegerExpression) : e.IsComputed strict root frame assigned assignment := by
  induction e with
  | literal n hdigits =>
      intro depth machine hdepth _
      obtain ⟨inner, rfl⟩ := Datum.exists_succ_of_nesting_le hdepth
      exact .pure machine _
  | use x =>
      intro depth machine hdepth hframe
      obtain ⟨inner, rfl⟩ := Datum.exists_succ_of_nesting_le hdepth
      exact computes_lookup hassigns hframe x
  | sum terms ih =>
      intro depth machine hdepth hframe
      exact computes_application hassigns ih (Builtin.call_add _) hdepth hframe
  | product factors ih =>
      intro depth machine hdepth hframe
      exact computes_application hassigns ih (Builtin.call_mul _) hdepth hframe
  | negation e ih =>
      intro depth machine hdepth hframe
      have hnames : namesAll [e] = names (.negation e) := by simp [namesAll, names]
      have hes : ∀ operand ∈ [e], operand.IsComputed strict root frame assigned assignment :=
        List.forall_mem_singleton.mpr ih
      rw [← hnames]
      exact computes_application hassigns hes (Builtin.call_sub_one _) hdepth hframe
  | difference a b iha ihb =>
      intro depth machine hdepth hframe
      have hnames : namesAll [a, b] = names (.difference a b) := by simp [namesAll, names]
      have hes : ∀ operand ∈ [a, b], operand.IsComputed strict root frame assigned assignment := by
        simpa using ⟨iha, ihb⟩
      rw [← hnames]
      exact computes_application hassigns hes (Builtin.call_sub_two _ _) hdepth hframe

/-! ## Running programs -/

/-- A definition binds the variable to the integer of its expression. -/
theorem evaluate_definition (hassigns : frame.Assigns assigned assignment) (x : Variable)
    (e : IntegerExpression)
    (hdepth : (IntegerProgram.definitionDatum x e).nesting ≤ depth)
    (hframe : machine.store.frame? root = some frame) :
    ∃ after : Machine Builtin, after.store = machine.store ∧
      evaluate strict depth root (IntegerProgram.definitionDatum x e) machine =
        (e.names.find? (· ∉ assigned)).elim
          (.ok (.number (.int (e.value assignment)))
            (after.record (.bound root x.name (.number (.int (e.value assignment))))))
          fun name => .error (.undefinedVariable name) after := by
  simp only [IntegerProgram.definitionDatum, Datum.nesting, Datum.nestingAll] at hdepth
  obtain ⟨inner, rfl⟩ : ∃ inner, depth = inner + 1 := ⟨depth - 1, by omega⟩
  obtain ⟨after, hstore, hrun⟩ := e.isComputed hassigns inner machine (by omega) hframe
  refine ⟨after, hstore, ?_⟩
  rw [evaluate_succ, activate_of_items _ _ rfl, evaluateItems_define, evaluateDefine,
    x.identifier?]
  cases hmissing : e.names.find? (· ∉ assigned) with
  | none =>
      rw [hmissing] at hrun
      have hdefine : define root (.symbol x.name) (.number (.int (e.value assignment))) after =
          .ok () (after.record (.bound root x.name (.number (.int (e.value assignment))))) := by
        simp only [define, x.identifier?]
        rfl
      exact (Action.bind_of_ok hrun).trans (Action.bind_of_ok hdefine)
  | some name =>
      rw [hmissing] at hrun
      exact Action.bind_of_error hrun

/-- The forms of a program, evaluated one after the other, come to its integer. -/
theorem evaluateLast_forms (hassigns : frame.Assigns assigned assignment)
    {result : IntegerExpression} {definitions : List (Variable × IntegerExpression)}
    (hdepth : Datum.nestingAll (IntegerProgram.forms result definitions) ≤ depth)
    (hframe : machine.store.frame? root = some frame) (last : Datum Builtin) :
    ∃ after : Machine Builtin,
      evaluateLast (evaluate strict depth root) last (IntegerProgram.forms result definitions)
          machine =
        (IntegerProgram.unassignedFrom assigned result definitions).elim
          (.ok (.number (.int (IntegerProgram.valueFrom assignment result definitions))) after)
          fun name => .error (.undefinedVariable name) after := by
  -- Every definition changes the frame of the root, and the assignment along with it.
  induction definitions generalizing frame assigned assignment machine last with
  | nil =>
      have hcomputed : result.IsComputed strict root frame assigned assignment :=
        result.isComputed hassigns
      have hlast := (hcomputed depth machine (Nat.max_le.mp hdepth).1 hframe).bind
        fun after _ => Computes.pure after (Datum.number (.int (result.value assignment)))
      rw [Option.or_none] at hlast
      obtain ⟨after, -, hrun⟩ := hlast
      exact ⟨after, hrun⟩
  | cons definition rest ih =>
      obtain ⟨x, e⟩ := definition
      obtain ⟨hfits, hrest⟩ := Nat.max_le.mp hdepth
      obtain ⟨after, hstore, hrun⟩ := evaluate_definition hassigns x e hfits hframe
      rw [IntegerProgram.unassignedFrom, IntegerProgram.valueFrom]
      cases hmissing : e.names.find? (· ∉ assigned) with
      | none =>
          rw [hmissing] at hrun
          generalize hn : e.value assignment = n at hrun
          have hbound : (after.record (.bound root x.name (.number (.int n)))).store.frame? root =
              some (frame.bind x.name (.number (.int n))) := by
            rw [Machine.record, Store.after, Store.frame?_bind_self, hstore, hframe,
              Option.map_some]
          obtain ⟨ended, hended⟩ := ih (hassigns.bind x n) hrest hbound (.number (.int n))
          exact ⟨ended, (Action.bind_of_ok hrun).trans hended⟩
      | some name =>
          rw [hmissing] at hrun
          exact ⟨after, Action.bind_of_error hrun⟩

end

theorem evaluate_program (program : IntegerProgram) {depth : Nat}
    (hdepth : program.toDatum.nesting ≤ depth) (strict : Bool) (machine : Machine Builtin)
    (start : String -> Int) :
    ∃ after : Machine Builtin,
      evaluate strict depth machine.store.frames.size program.toDatum
          (machine.withRoot CommandLine.calculatorTable) =
        program.unassigned?.elim (.ok (.number (.int (program.value start))) after)
          fun name => .error (.undefinedVariable name) after := by
  have hframe : (machine.withRoot CommandLine.calculatorTable).store.frame?
      machine.store.frames.size = some ⟨CommandLine.calculatorTable.bindings, none⟩ :=
    Store.frame?_push_self machine.store _
  simp only [IntegerProgram.toDatum, Datum.nesting, Datum.nestingAll] at hdepth
  obtain ⟨inner, rfl⟩ : ∃ inner, depth = inner + 1 := ⟨depth - 1, by omega⟩
  rw [evaluate_succ, activate_of_items _ _ rfl, evaluateItems_begin]
  exact evaluateLast_forms (assigns_calculatorTable start) (by omega) hframe .nil

theorem Failure.report_undefinedVariable (name : String) :
    (Failure.undefinedVariable name).report = "undefined variable: " ++ name := by
  have hmessage : ¬ ("undefined variable: " ++ name).isEmpty = true := by
    rw [String.isEmpty_iff, String.append_eq_empty_iff]
    simp
  exact if_neg hmessage

/--
The source text of an integer program can be written, and interpreting it with the
calculator's table gives the program's integer exactly, or reports the first name that
is used while it is not assigned.
-/
theorem interpret_program_exact (program : IntegerProgram) {depth : Nat}
    (hdepth : program.toDatum.nesting ≤ depth) (strict : Bool) (machine : Machine Builtin)
    (start : String -> Int) :
    ∃ source, program.toDatum.source? = .ok source ∧
      (interpret depth strict machine CommandLine.calculatorTable source).outcome =
        match program.unassigned? with
        | none => .value (.number (.int (program.value start)))
        | some name => .error ("undefined variable: " ++ name) := by
  have hderives := program.readable.derives
  refine ⟨program.toDatum.source, if_pos hderives.isWritable, ?_⟩
  obtain ⟨after, hended⟩ := evaluate_program program hdepth strict machine start
  rw [interpret_of_ok (parse_of_derives hderives hdepth), hended]
  cases program.unassigned? with
  | none => rfl
  | some name => exact congrArg Outcome.error (Failure.report_undefinedVariable name)

def Variable.ofName (name : String) (hlexeme : Lexeme.ofToken name = .name name)
    (hfree : ∀ b ∈ Builtin.all, b.symbol ≠ name) : Variable where
  name := name
  isName := (Lexeme.ofToken_eq_name_iff.mp hlexeme).2.1
  not_isNumeral := (Lexeme.ofToken_eq_name_iff.mp hlexeme).2.2
  not_builtin b := hfree b (by cases b <;> decide)

/-- Squares an integer, assigns a keyword's name, assigns the square again, and uses a name. -/
def rebinding (used : Variable) : IntegerProgram :=
  let x := Variable.ofName "x" (by decide) (by decide)
  let begin := Variable.ofName "begin" (by decide) (by decide)
  let large := IntegerExpression.literal 4294967296 (by decide)
  ⟨[(x, .product [large, large]), (begin, .negation (.use x)),
    (x, .sum [.use x, .use x, .use begin])], .difference (.use x) (.use used)⟩

/-- The program gives an integer if the name is assigned, and is refused for it if not. -/
theorem rebinding_exact :
    let begin := Variable.ofName "begin" (by decide) (by decide)
    let y := Variable.ofName "y" (by decide) (by decide)
    let run (source : String) := interpret 4 true .empty CommandLine.calculatorTable source
    ((rebinding begin).toDatum.nesting ≤ 4 ∧
      ∃ source, (rebinding begin).toDatum.source? = .ok source ∧
        (run source).outcome = .value (.number (.int 36893488147419103232))) ∧
    ((rebinding y).toDatum.nesting ≤ 4 ∧
      ∃ source, (rebinding y).toDatum.source? = .ok source ∧
        (run source).outcome = .error "undefined variable: y") := by
  intro begin y run
  have hbegin : (rebinding begin).toDatum.nesting ≤ 4 := by decide
  have hy : (rebinding y).toDatum.nesting ≤ 4 := by decide
  exact ⟨⟨hbegin, interpret_program_exact (rebinding begin) hbegin true .empty fun _ => 0⟩,
    hy, interpret_program_exact (rebinding y) hy true .empty fun _ => 0⟩

end Reckoner
