import Mathlib.Data.Nat.Factorial.Basic
import Reckoner.CommandLine.Report
import Reckoner.Proofs.Calculator.WholeNumbers
import Reckoner.Proofs.Correspondence.Contents
import Reckoner.Proofs.Semantics.Settling

/-!
# A recursive closure

A closure sees the scope that it was made in as it is at the time of a call, so it may
call itself by a name that it is bound to only afterwards.  The factorial is such a
closure.  Each of its calls has a scope of its own for `n`, and the two thunks of a call,
of which one is run, are made in that scope.  What is carried from call to call is the
frame of the root alone; all else of the growing store is forgotten once a call returns.
-/

namespace Reckoner

variable {H : Type}

/-! ## Values by the rules -/

section Yields

variable [Host H]

/-- By the rules an expression has a value, whatever functions it calls. -/
def Yields (strict : Bool) (scope : Nat) (e : Datum H) (memory : Memory H) (value : Datum H)
    (after : Memory H) : Prop :=
  ∃ calls, Evaluates strict scope e memory (.ok value) after calls

def YieldsAll (strict : Bool) (scope : Nat) (es : List (Datum H)) (memory : Memory H)
    (values : List (Datum H)) (after : Memory H) : Prop :=
  ∃ calls, EvaluatesAll strict scope es memory (.ok values) after calls

def Returns (strict : Bool) (head : Datum H) (operands : List (Datum H)) (memory : Memory H)
    (value : Datum H) (after : Memory H) : Prop :=
  ∃ calls, Applies strict head operands memory (.ok value) after calls

variable {strict : Bool} {scope : Nat} {memory middle after : Memory H}

theorem Yields.number (n : Number) : Yields strict scope (.number n) memory (.number n) memory :=
  ⟨[], .atom rfl fun _ h => by cases h⟩

theorem Yields.symbol {name : String} {value : Datum H} (h : memory.store.Sees name value scope) :
    Yields strict scope (.symbol name) memory value memory :=
  ⟨[], .symbol h⟩

theorem YieldsAll.nil : YieldsAll strict scope [] memory [] memory :=
  ⟨[], .nil⟩

theorem YieldsAll.cons {e value : Datum H} {es values : List (Datum H)}
    (hfirst : Yields strict scope e memory value middle)
    (hrest : YieldsAll strict scope es middle values after) :
    YieldsAll strict scope (e :: es) memory (value :: values) after := by
  obtain ⟨first, hfirst⟩ := hfirst
  obtain ⟨second, hrest⟩ := hrest
  exact ⟨first ++ second, .cons hfirst hrest⟩

theorem Yields.application {operator head value : Datum H} {operands values : List (Datum H)}
    {ready : Memory H} (hhead : ∀ word ∈ ["define", "begin", "lambda"], operator ≠ .symbol word)
    (hoperator : Yields strict scope operator memory head middle)
    (hcallable : head.isCallable = true)
    (hoperands : YieldsAll strict scope operands middle values ready)
    (hreturns : Returns strict head values ready value after) :
    Yields strict scope (.combination (operator :: operands)) memory value after := by
  obtain ⟨first, hoperator⟩ := hoperator
  obtain ⟨second, hoperands⟩ := hoperands
  obtain ⟨third, hreturns⟩ := hreturns
  exact ⟨_, .application rfl hhead hoperator hcallable hoperands hreturns⟩

/-- A call of what a name refers to. -/
theorem Yields.call {name : String} {head value : Datum H} {operands values : List (Datum H)}
    (hname : name ∉ ["define", "begin", "lambda"]) (hsees : memory.store.Sees name head scope)
    (hcallable : head.isCallable = true)
    (hoperands : YieldsAll strict scope operands memory values middle)
    (hreturns : Returns strict head values middle value after) :
    Yields strict scope (.combination (.symbol name :: operands)) memory value after := by
  refine .application (fun word hword hsame => hname ?_) (.symbol hsees) hcallable hoperands
    hreturns
  rwa [Datum.symbol.inj hsame]

theorem Returns.function {f : H} {operands : List (Datum H)} {value : Datum H}
    (hcall : Host.call f operands = .ok value) (hvalue : value ≠ .absent)
    (hnan : value.isNewNaN = false) : Returns strict (.function f) operands memory value memory :=
  ⟨_, .returned hcall hvalue hnan⟩

theorem Returns.integer {f : H} {operands : List (Datum H)} {n : Int}
    (hcall : Host.call f operands = .ok (.number (.int n))) :
    Returns strict (.function f) operands memory (.number (.int n)) memory :=
  .function hcall (fun h => by cases h) rfl

/-- A closure without parameters runs its body in a scope of its own. -/
theorem Returns.thunk {birth outer : Nat} {body value : Datum H}
    (hbody : Yields strict memory.store.frames.size body
      ⟨(memory.store.create (some outer)).2, memory.births⟩ value after) :
    Returns strict (.closure birth [] body outer) [] memory value after := by
  obtain ⟨calls, hbody⟩ := hbody
  exact ⟨calls, .body (fun _ => rfl) .nil hbody⟩

/-- A closure of one parameter runs its body where the parameter is bound. -/
theorem Returns.closure {birth outer : Nat} {name : String} {body operand value : Datum H}
    (hname : Identifier.isValid name = true)
    (hbody : Yields strict memory.store.frames.size body
      ⟨(memory.store.create (some outer)).2.bind memory.store.frames.size name operand,
        memory.births⟩ value after) :
    Returns strict (.closure birth [.symbol name] body outer) [operand] memory value after := by
  obtain ⟨calls, hbody⟩ := hbody
  have hidentifier : (.symbol name : Datum H).identifier? = some name :=
    Datum.identifier?_eq_some_iff.mpr ⟨rfl, hname⟩
  exact ⟨calls, .body (fun _ => rfl) (.bound hidentifier .nil) hbody⟩

end Yields

/-! ## The program -/

namespace Factorial

/-- An expression put off: a closure without parameters. -/
def thunk (e : Datum H) : Datum H :=
  .combination [.symbol "lambda", .combination [], e]

def step : Datum H :=
  .combination [.symbol "*", .symbol "n",
    .combination [.symbol "fact", .combination [.symbol "-", .symbol "n", .number (.int 1)]]]

/-- One of two thunks is chosen by whether `n` is zero, and run. -/
def body : Datum H :=
  .combination [.combination [.symbol "if-zero", .symbol "n", thunk (.number (.int 1)), thunk step]]

def program (n : Nat) : Datum H :=
  .combination [.symbol "begin",
    .combination [.symbol "define", .symbol "fact",
      .combination [.symbol "lambda", .combination [.symbol "n"], body]],
    .combination [.symbol "fact", .number (.int n)]]

def closure (birth root : Nat) : Datum H :=
  .closure birth [.symbol "n"] body root

end Factorial

/--
A table with the calculator's functions under their names, and with a function `if-zero`
that returns its second operand if the first is the integer 0, and the third if it is another.
-/
structure Table.ChoosesByZero [Host H] (table : Table H) (function : Builtin -> H) (ifZero : H) :
    Prop where
  get?_builtin : ∀ b : Builtin,
    Entries.get? (· == ·) b.symbol table.bindings = some (.function (function b))
  get?_ifZero : Entries.get? (· == ·) "if-zero" table.bindings = some (.function ifZero)
  call_builtin : ∀ (b : Builtin) (operands : List (Datum H)),
    Host.call (function b) operands = b.call operands
  call_ifZero : ∀ (m : Int) (zero other : Datum H),
    Host.call ifZero [.number (.int m), zero, other] = .ok (if m = 0 then zero else other)

namespace Factorial

def rootFrame (table : Table H) (birth root : Nat) : Frame H :=
  ⟨Entries.put (· == ·) "fact" (closure birth root) table.bindings, none⟩

theorem get?_rootFrame_fact (table : Table H) (birth root : Nat) :
    (rootFrame table birth root).get? "fact" = some (closure birth root) := by
  rw [rootFrame, Frame.get?, Entries.get?_put, if_pos rfl]

theorem get?_rootFrame_of_ne {name : String} (h : "fact" ≠ name) (table : Table H)
    (birth root : Nat) :
    (rootFrame table birth root).get? name = Entries.get? (· == ·) name table.bindings := by
  rw [rootFrame, Frame.get?, Entries.get?_put, if_neg h]

theorem symbol_ne_fact (b : Builtin) : "fact" ≠ b.symbol := by
  cases b <;> decide

theorem symbol_ne_n (b : Builtin) : b.symbol ≠ "n" := by
  cases b <;> decide

/-! ### Scopes of a call -/

/-- In this scope `n` is a number, and around it lies the root with its frame. -/
structure Level (store : Store H) (root : Nat) (frame : Frame H) (scope : Nat) (n : Nat) :
    Prop where
  frame?_root : store.frame? root = some frame
  frame?_scope : store.frame? scope = some ⟨[("n", .number (.int n))], some root⟩

namespace Level

variable {store : Store H} {root scope n : Nat} {frame : Frame H}

theorem sees_n (h : Level store root frame scope n) :
    store.Sees "n" (.number (.int n)) scope :=
  .own h.frame?_scope rfl

theorem sees (h : Level store root frame scope n) {name : String} {value : Datum H}
    (hname : name ≠ "n") (hvalue : frame.get? name = some value) :
    store.Sees name value scope := by
  refine .outer h.frame?_scope ?_ rfl (.own h.frame?_root hvalue)
  simp [Frame.get?, Entries.get?, hname.symm]

/-- A call opens a scope in which `n` is its operand. -/
theorem of_call (hroot : store.frame? root = some frame) (n : Nat) :
    Level ((store.create (some root)).2.bind store.frames.size "n" (.number (.int n))) root frame
      store.frames.size n := by
  have hlt : root < store.frames.size := (Array.getElem?_eq_some_iff.mp hroot).1
  constructor
  · rw [Store.frame?_bind_of_ne _ (Nat.ne_of_gt hlt), Store.create, Store.frame?_push,
      if_neg (Nat.ne_of_lt hlt), hroot]
  · rw [Store.frame?_bind_self, Store.create, Store.frame?_push, if_pos rfl]
    rfl

/-- To run a thunk opens a scope in which all is seen as it is around it. -/
theorem create (h : Level store root frame scope n) :
    Level (store.create (some scope)).2 root frame scope n := by
  have hkept : ∀ {other : Nat} {held : Frame H}, store.frame? other = some held ->
      (store.create (some scope)).2.frame? other = some held := by
    intro other held hheld
    rw [Store.create, Store.frame?_push_of_lt _ _ (Array.getElem?_eq_some_iff.mp hheld).1, hheld]
  exact ⟨hkept h.frame?_root, hkept h.frame?_scope⟩

end Level

theorem sees_inside {store : Store H} {scope : Nat} {name : String} {value : Datum H}
    (h : (store.create (some scope)).2.Sees name value scope) :
    (store.create (some scope)).2.Sees name value store.frames.size :=
  .outer (Store.frame?_push_self store ⟨[], some scope⟩) rfl rfl h

/-! ### Calls -/

section Calls

variable [Host H] {table : Table H} {function : Builtin -> H} {ifZero : H} {strict : Bool}
  {birth root scope n : Nat} {memory : Memory H}

theorem yields_thunk (e : Datum H) :
    Yields strict scope (thunk e) memory (.closure memory.births [] e scope)
      ⟨memory.store, memory.births + 1⟩ :=
  ⟨[], .lambda rfl rfl (show [].map Datum.identifier? = [].map some from rfl) List.nodup_nil⟩

/-- The operator of the body makes both thunks and chooses one. -/
theorem yields_choice (strict : Bool) (htable : table.ChoosesByZero function ifZero)
    {store : Store H} (hlevel : Level store root (rootFrame table birth root) scope n)
    (births : Nat) :
    Yields strict scope
      (.combination [.symbol "if-zero", .symbol "n", thunk (.number (.int 1)), thunk step])
      ⟨store, births⟩
      (if n = 0 then .closure births [] (.number (.int 1)) scope
        else .closure (births + 1) [] step scope)
      ⟨store, births + 2⟩ := by
  have hifZero : (rootFrame table birth root).get? "if-zero" = some (.function ifZero) :=
    (get?_rootFrame_of_ne (by decide) table birth root).trans htable.get?_ifZero
  refine .call (by decide) (hlevel.sees (by decide) hifZero) rfl
    (.cons (.symbol hlevel.sees_n) (.cons (yields_thunk _) (.cons (yields_thunk _) .nil)))
    (.function ?_ ?_ ?_)
  · simp [htable.call_ifZero]
  · split <;> simp
  · split <;> rfl

theorem call_mul (htable : table.ChoosesByZero function ifZero) (a b : Int) :
    Host.call (function .mul) [.number (.int a), .number (.int b)] =
      .ok (.number (.int (a * b)) : Datum H) := by
  have hcall : Builtin.mul.call [.number (.int a), .number (.int b)] =
      .ok (.number (.int (1 * a * b)) : Datum H) := rfl
  rw [htable.call_builtin, hcall, Int.one_mul]

theorem call_sub (htable : table.ChoosesByZero function ifZero) (a b : Int) :
    Host.call (function .sub) [.number (.int a), .number (.int b)] =
      .ok (.number (.int (a - b)) : Datum H) := by
  rw [htable.call_builtin]
  rfl

/-- A step multiplies by what the call for the predecessor returns. -/
theorem yields_step {after : Memory H} {inner : Nat} (htable : table.ChoosesByZero function ifZero)
    (hn : memory.store.Sees "n" (.number (.int (n + 1 : Nat))) inner)
    (hsees : ∀ name value, name ≠ "n" -> (rootFrame table birth root).get? name = some value ->
      memory.store.Sees name value inner)
    (hreturns : Returns strict (closure birth root) [.number (.int n)] memory
      (.number (.int n.factorial)) after) :
    Yields strict inner step memory (.number (.int (n + 1).factorial)) after := by
  have hbuiltin : ∀ b : Builtin, memory.store.Sees b.symbol (.function (function b)) inner :=
    fun b => hsees _ _ (symbol_ne_n b)
      ((get?_rootFrame_of_ne (symbol_ne_fact b) table birth root).trans (htable.get?_builtin b))
  have hpredecessor : Yields strict inner
      (.combination [.symbol "-", .symbol "n", .number (.int 1)]) memory (.number (.int n))
      memory := by
    refine .call (by decide) (hbuiltin .sub) rfl
      (.cons (.symbol hn) (.cons (.number _) .nil)) (.integer ?_)
    rw [call_sub htable]
    simp
  have hrecursive : Yields strict inner (.combination [.symbol "fact",
      .combination [.symbol "-", .symbol "n", .number (.int 1)]]) memory
      (.number (.int n.factorial)) after :=
    .call (by decide) (hsees _ _ (by decide) (get?_rootFrame_fact table birth root)) rfl
      (.cons hpredecessor .nil) hreturns
  refine .call (by decide) (hbuiltin .mul) rfl
    (.cons (.symbol hn) (.cons hrecursive .nil)) (.integer ?_)
  rw [call_mul htable, Nat.factorial_succ, Nat.cast_mul]

/-- The closure computes factorials and leaves the frame of the root as it is. -/
theorem returns_factorial (strict : Bool) (htable : table.ChoosesByZero function ifZero)
    {store : Store H} (hroot : store.frame? root = some (rootFrame table birth root))
    (births n : Nat) :
    ∃ after, Returns strict (closure birth root) [.number (.int n)] ⟨store, births⟩
        (.number (.int n.factorial)) after ∧
      after.store.frame? root = some (rootFrame table birth root) := by
  have hhead : ∀ items : List (Datum H), ∀ word ∈ ["define", "begin", "lambda"],
      Datum.combination items ≠ .symbol word := fun _ _ _ h => by cases h
  -- The induction follows the calls; of the store only the frame of the root is carried along.
  induction n generalizing store births with
  | zero =>
      have hlevel := Level.of_call hroot 0
      have hchoice := yields_choice strict htable hlevel births
      rw [if_pos rfl] at hchoice
      exact ⟨_, .closure (by decide) (.application (hhead _) hchoice rfl .nil (.thunk (.number _))),
        hlevel.create.frame?_root⟩
  | succ n ih =>
      have hlevel := Level.of_call hroot (n + 1)
      have hchoice := yields_choice strict htable hlevel births
      rw [if_neg (Nat.succ_ne_zero n)] at hchoice
      have hinner := hlevel.create
      obtain ⟨after, hreturns, hkept⟩ := ih hinner.frame?_root (births + 2)
      have hstep := yields_step htable (sees_inside hinner.sees_n)
        (fun name value hname hvalue => sees_inside (hinner.sees hname hvalue)) hreturns
      exact ⟨after, .closure (by decide)
        (.application (hhead _) hchoice rfl .nil (.thunk hstep)), hkept⟩

/-- In a root with the table's bindings the definition binds the closure and nothing else. -/
theorem yields_definition (strict : Bool) {store : Store H}
    (hroot : store.frame? root = some ⟨table.bindings, none⟩) (births : Nat) :
    ∃ after : Memory H, Yields strict root
        (.combination [.symbol "define", .symbol "fact",
          .combination [.symbol "lambda", .combination [.symbol "n"], body]])
        ⟨store, births⟩ (closure births root) after ∧
      after.store.frame? root = some (rootFrame table births root) := by
  have hlambda : Evaluates strict root
      (.combination [.symbol "lambda", .combination [.symbol "n"], body] : Datum H)
      ⟨store, births⟩ (.ok (closure births root)) ⟨store, births + 1⟩ [] :=
    .lambda rfl rfl (show [.symbol "n"].map Datum.identifier? = ["n"].map some from rfl) (by decide)
  have hname : (.symbol "fact" : Datum H).identifier? = some "fact" :=
    Datum.identifier?_eq_some_iff.mpr ⟨rfl, by decide⟩
  refine ⟨_, ⟨[], .define rfl hname hlambda⟩, ?_⟩
  rw [Store.frame?_bind_self, hroot]
  rfl

theorem yields_program (strict : Bool) (htable : table.ChoosesByZero function ifZero)
    {store : Store H} (hroot : store.frame? root = some ⟨table.bindings, none⟩) (births n : Nat) :
    ∃ after, Yields strict root (program n) ⟨store, births⟩ (.number (.int n.factorial)) after ∧
      after.store.frame? root = some (rootFrame table births root) := by
  obtain ⟨defined, hdefinition, hbound⟩ := yields_definition strict hroot births
  obtain ⟨after, hreturns, hkept⟩ := returns_factorial strict htable hbound defined.births n
  have hfact : defined.store.Sees "fact" (closure births root) root :=
    .own hbound (get?_rootFrame_fact table births root)
  have hcall : Yields strict root (.combination [.symbol "fact", .number (.int n)]) defined
      (.number (.int n.factorial)) after :=
    .call (by decide) hfact rfl (.cons (.number _) .nil) hreturns
  obtain ⟨calls, hforms⟩ := YieldsAll.cons hdefinition (.cons hcall .nil)
  exact ⟨after, ⟨calls, .begin rfl hforms⟩, hkept⟩

end Calls

end Factorial

/--
A closure that calls itself computes the factorial of every natural number, exactly, if
evaluations may nest deep enough, with arities checked or not.  The root has its bindings
and `fact`, and nothing of the calls remains in it.
-/
theorem recursive_closure_computes_factorial [Host H] {table : Table H}
    {function : Builtin -> H} {ifZero : H} (htable : table.ChoosesByZero function ifZero)
    (machine : Machine H) (n : Nat) :
    let root := machine.store.frames.size
    let fact := Factorial.closure machine.births root
    ∃ bound, ∀ depth, bound ≤ depth -> ∀ strict, ∃ after,
      evaluate strict depth root (Factorial.program n) (machine.withRoot table) =
        .ok (.number (.int n.factorial)) after ∧
      after.store.frame? root =
        some ⟨Entries.put (· == ·) "fact" fact table.bindings, none⟩ := by
  intro root fact
  have hroot : (machine.withRoot table).store.frame? root = some ⟨table.bindings, none⟩ :=
    Store.frame?_push_self machine.store ⟨table.bindings, none⟩
  have hmode : ∀ strict, ∃ bound, ∀ depth, bound ≤ depth -> ∃ after,
      evaluate strict depth root (Factorial.program n) (machine.withRoot table) =
        .ok (.number (.int n.factorial)) after ∧
      after.store.frame? root = some (Factorial.rootFrame table machine.births root) := by
    intro strict
    obtain ⟨after, ⟨calls, hderived⟩, hframe⟩ :=
      Factorial.yields_program strict htable hroot machine.births n
    obtain ⟨bound, hbound⟩ := hderived.settles
    refine ⟨bound, fun depth hdepth => ?_⟩
    obtain ⟨history, hresult, -, -⟩ := hbound depth hdepth machine.events
    exact ⟨_, hresult, hframe⟩
  obtain ⟨strictly, hstrictly⟩ := hmode true
  obtain ⟨laxly, hlaxly⟩ := hmode false
  refine ⟨max strictly laxly, fun depth hdepth strict => ?_⟩
  cases strict with
  | true => exact hstrictly depth (by omega)
  | false => exact hlaxly depth (by omega)

/-! ## A host that chooses by zero -/

inductive Chooser where
  | builtin (b : Builtin)
  | ifZero
deriving DecidableEq

namespace Chooser

def choose : List (Datum Chooser) -> Except Failure (Datum Chooser)
  | [test, zero, other] => .ok (if test.equal (.number (.int 0)) then zero else other)
  | _ => .error (.raised "TypeError" "if-zero takes 3 arguments" false)

instance : Host Chooser where
  call
    | .builtin b => b.call
    | .ifZero => choose
  title
    | .builtin b => b.title
    | .ifZero => "if-zero"
  label
    | .builtin b => b.label
    | .ifZero => "<host if-zero>"

def table : Table Chooser :=
  Table.calculator .builtin ++ [(.text "if-zero", .function .ifZero)]

theorem choosesByZero_table : table.ChoosesByZero .builtin .ifZero where
  get?_builtin b := by cases b <;> rfl
  get?_ifZero := rfl
  call_builtin _ _ := rfl
  call_ifZero m zero other := by
    have hequal : (.number (.int m) : Datum Chooser).equal (.number (.int 0)) =
        (Number.int m).equal (.int 0) := rfl
    have hchoose : choose [.number (.int m), zero, other] =
        .ok (if (Number.int m).equal (.int 0) then zero else other) := by rw [choose, hequal]
    exact hchoose.trans (by simp only [Number.equal_int_int_iff])

end Chooser

theorem factorial_of_five :
    ∃ bound, ∀ depth, bound ≤ depth -> ∀ strict, ∃ after,
      evaluate strict depth 0 (Factorial.program 5) (Machine.empty.withRoot Chooser.table) =
        .ok (.number (.int 120)) after ∧
      after.store.frame? 0 =
        some ⟨Chooser.table.bindings ++ [("fact", Factorial.closure 0 0)], none⟩ :=
  recursive_closure_computes_factorial Chooser.choosesByZero_table .empty 5

end Reckoner
