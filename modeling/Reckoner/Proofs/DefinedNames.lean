import Reckoner.Proofs.Isolation

/-!
# The names an expression defines

Which names an evaluation may bind in the frame of its own scope can be read off the
expression: the targets of its definitions, wherever they are nested, but for those
that wait in the body of a lambda.  All else in the frame stays as it is, and so do
the places of the names.  This holds of whatever an evaluation has done before it
fails, and of the calls it makes, since a call writes to new frames only.
-/

namespace Reckoner

open Evaluation

variable {H : Type}

/-! ## Names -/

namespace Datum

mutual

/-- The names that an expression may define in the scope in which it is evaluated. -/
def defined : Datum H -> List String
  | .combination items => definedByForm items
  | .list items => definedByForm items
  | _ => []

def definedByForm : List (Datum H) -> List String
  | [] => []
  | operator :: operands =>
      match Keyword.ofDatum? operator with
      | some .define => definedByDefinition operands
      | some .begin => definedByAll operands
      | some .lambda => []
      | none => defined operator ++ definedByAll operands

/-- The names that a definition may define: none unless it has the right shape. -/
def definedByDefinition : List (Datum H) -> List String
  | [target, form] =>
      match target.identifier? with
      | some name => name :: defined form
      | none => []
  | _ => []

def definedByAll : List (Datum H) -> List String
  | [] => []
  | item :: rest => defined item ++ definedByAll rest

end

end Datum

/-! ## Frames -/

/--
One frame has become the other by bindings of some names.  All other bindings are as
they were; names keep their places, and those that are new come last, each once.
-/
structure Frame.Grows (names : List String) (before after : Frame H) : Prop where
  outer_eq : after.outer = before.outer
  others_eq : after.bindings.filter (fun binding => binding.1 ∉ names) =
    before.bindings.filter (fun binding => binding.1 ∉ names)
  appended : ∃ added, after.bindings.map Prod.fst = before.bindings.map Prod.fst ++ added ∧
    added.Nodup ∧ ∀ name ∈ added, name ∈ names ∧ name ∉ before.bindings.map Prod.fst

namespace Frame.Grows

variable {names : List String} {first second third : Frame H}

theorem refl (names : List String) (frame : Frame H) : Grows names frame frame :=
  ⟨rfl, rfl, [], by simp, by simp, by simp⟩

theorem trans (hfirst : Grows names first second) (hsecond : Grows names second third) :
    Grows names first third := by
  obtain ⟨early, hearly, hearlyNodup, hearlyNew⟩ := hfirst.appended
  obtain ⟨late, hlate, hlateNodup, hlateNew⟩ := hsecond.appended
  rw [hearly] at hlate hlateNew
  refine ⟨hsecond.outer_eq.trans hfirst.outer_eq, hsecond.others_eq.trans hfirst.others_eq,
    early ++ late, by rw [hlate, List.append_assoc], ?_, ?_⟩
  · refine List.nodup_append.mpr ⟨hearlyNodup, hlateNodup, ?_⟩
    rintro name hmem _ hmem' rfl
    exact (hlateNew name hmem').2 (List.mem_append_right _ hmem)
  · intro name hmem
    rcases List.mem_append.mp hmem with hmem | hmem
    · exact hearlyNew name hmem
    · obtain ⟨hname, hnew⟩ := hlateNew name hmem
      exact ⟨hname, fun hold => hnew (List.mem_append_left _ hold)⟩

theorem mono {more : List String} (hsubset : names ⊆ more) (h : Grows names first second) :
    Grows more first second := by
  obtain ⟨added, hadded, hnodup, hnew⟩ := h.appended
  have hselect : ∀ bindings : Bindings H,
      bindings.filter (fun binding => binding.1 ∉ more) =
        (bindings.filter (fun binding => binding.1 ∉ names)).filter
          (fun binding => binding.1 ∉ more) := by
    intro bindings
    rw [List.filter_filter]
    refine List.filter_congr fun binding _ => ?_
    by_cases hmore : binding.1 ∈ more
    · simp [hmore]
    · have hname : binding.1 ∉ names := fun hname => hmore (hsubset hname)
      simp [hmore, hname]
  refine ⟨h.outer_eq, ?_, added, hadded, hnodup, fun name hmem => ?_⟩
  · rw [hselect, h.others_eq, ← hselect]
  · exact ⟨hsubset (hnew name hmem).1, (hnew name hmem).2⟩

theorem bind {name : String} (hname : name ∈ names) (frame : Frame H) (value : Datum H) :
    Grows names frame (frame.bind name value) := by
  refine ⟨rfl, Entries.filter_put (fun name => name ∉ names) (by simpa using hname) value _, ?_⟩
  have hkeys : (frame.bind name value).bindings.map Prod.fst = _ :=
    Entries.keys_put name value frame.bindings
  by_cases hold : name ∈ frame.bindings.map Prod.fst
  · exact ⟨[], by simpa [hold] using hkeys, by simp, by simp⟩
  · refine ⟨[name], by simpa [hold] using hkeys, by simp, ?_⟩
    intro added hadded
    rw [List.mem_singleton.mp hadded]
    exact ⟨hname, hold⟩

/-- Without names to bind, nothing changes. -/
theorem eq_of_nil (h : Grows [] first second) : second = first := by
  have hevery : ∀ bindings : Bindings H,
      bindings.filter (fun binding => binding.1 ∉ ([] : List String)) = bindings := by
    intro bindings
    exact List.filter_eq_self.mpr (by simp)
  have hbindings := h.others_eq
  rw [hevery, hevery] at hbindings
  rcases first with ⟨bindings, outer⟩
  rcases second with ⟨bindings', outer'⟩
  exact (Frame.mk.injEq ..).mpr ⟨hbindings, h.outer_eq⟩

end Frame.Grows

/-- In the frame of a scope only some names have been bound. -/
def Store.GrowsAt (names : List String) (scope : Nat) (before after : Store H) : Prop :=
  ∀ frame, before.frame? scope = some frame ->
    ∃ grown, after.frame? scope = some grown ∧ frame.Grows names grown

/-! ## Actions -/

/-- In the frame of a scope that is there, an action binds only some names, whatever its outcome. -/
def Writes {α : Type} (names : List String) (scope : Nat) (action : Action H α) : Prop :=
  ∀ machine, Store.GrowsAt names scope machine.store (Action.final (action machine)).store

namespace Writes

variable {α β : Type} {names : List String} {scope : Nat}

/-- What could as well be done in any other scope writes to no scope that is there. -/
theorem of_does {action : Action H α} (h : ∀ inner, Does inner action) :
    Writes names scope action := by
  intro machine frame hframe
  have hold := Store.lt_size_of_frame? hframe
  have hsame := (h machine.store.frames.size machine).sameOutside
  refine ⟨frame, ?_, .refl names frame⟩
  rw [hsame.frame?_eq hold (Nat.ne_of_lt hold), hframe]

theorem mono {more : List String} {action : Action H α} (hsubset : names ⊆ more)
    (h : Writes names scope action) : Writes more scope action := by
  intro machine frame hframe
  obtain ⟨grown, hgrown, hgrows⟩ := h machine frame hframe
  exact ⟨grown, hgrown, hgrows.mono hsubset⟩

theorem bind {action : Action H α} {next : α -> Action H β} (haction : Writes names scope action)
    (hnext : ∀ value, Writes names scope (next value)) : Writes names scope (action >>= next) := by
  intro machine frame hframe
  obtain ⟨middle, hmiddle, hfirst⟩ := haction machine frame hframe
  cases h : action machine with
  | error failure after =>
      rw [Action.bind_of_error h]
      rw [h] at hmiddle
      exact ⟨middle, hmiddle, hfirst⟩
  | ok value after =>
      rw [Action.bind_of_ok h]
      rw [h] at hmiddle
      obtain ⟨last, hlast, hsecond⟩ := hnext value after middle hmiddle
      exact ⟨last, hlast, hfirst.trans hsecond⟩

/-- One action after another writes what the two write. -/
theorem seq {more : List String} {action : Action H α} {next : α -> Action H β}
    (haction : Writes names scope action) (hnext : ∀ value, Writes more scope (next value)) :
    Writes (names ++ more) scope (action >>= next) :=
  .bind (haction.mono (List.subset_append_left _ _)) fun value =>
    (hnext value).mono (List.subset_append_right _ _)

theorem pure (value : α) : Writes names scope (pure value : Action H α) :=
  .of_does fun inner => .pure inner value

theorem throw (failure : Failure) : Writes names scope (throw failure : Action H α) :=
  .of_does fun inner => .throw inner failure

end Writes

/-! ## Every activation -/

namespace Evaluation

open Datum

theorem define_writes [Host H] {names : List String} {scope : Nat} {target : Datum H}
    {name : String} (htarget : target.identifier? = some name) (hname : name ∈ names)
    (value : Datum H) : Writes names scope (define scope target value) := by
  intro machine frame hframe
  refine ⟨frame.bind name value, ?_, .bind hname frame value⟩
  simp only [define, htarget, Action.final, Store.frame?_bind_self, hframe, Option.map_some]

theorem evaluateAll_writes {scope : Nat} {recur : Datum H -> Action H (Datum H)}
    (hrecur : ∀ e, Writes e.defined scope (recur e)) (expressions : List (Datum H)) :
    Writes (definedByAll expressions) scope (evaluateAll recur expressions) := by
  induction expressions with
  | nil => exact .pure []
  | cons expression rest ih =>
      rw [definedByAll]
      exact .seq (hrecur expression) fun _ => .bind ih fun _ => .pure _

theorem evaluateLast_writes {scope : Nat} {recur : Datum H -> Action H (Datum H)}
    (hrecur : ∀ e, Writes e.defined scope (recur e)) (last : Datum H)
    (expressions : List (Datum H)) :
    Writes (definedByAll expressions) scope (evaluateLast recur last expressions) := by
  induction expressions generalizing last with
  | nil => exact .pure last
  | cons expression rest ih =>
      rw [definedByAll]
      exact .seq (hrecur expression) fun value => ih value

theorem evaluateDefine_writes [Host H] {recur : Evaluator H} {scope : Nat}
    (hrecur : ∀ e, Writes e.defined scope (recur scope e)) (tail : List (Datum H)) :
    Writes (definedByDefinition tail) scope (evaluateDefine recur scope tail) := by
  unfold evaluateDefine
  split
  · rename_i target form
    split
    · exact .throw _
    · rename_i name htarget
      simp only [definedByDefinition, htarget]
      refine .bind ((hrecur form).mono (List.subset_cons_self _ _)) fun value => ?_
      exact .bind (define_writes htarget List.mem_cons_self value) fun _ => .pure value
  · exact .throw _

/-- A call, whatever is called, writes to new frames only. -/
theorem evaluateCall_writes [Host H] (strict : Bool) {recur : Evaluator H} {scope : Nat}
    (hdoes : ∀ scope e, Does scope (recur scope e))
    (hrecur : ∀ e, Writes e.defined scope (recur scope e)) (operator : Datum H)
    (operands : List (Datum H)) :
    Writes (operator.defined ++ definedByAll operands) scope
      (evaluateCall strict recur scope operator operands) := by
  refine .seq (hrecur operator) fun head => ?_
  split
  · exact .bind (evaluateAll_writes hrecur operands) fun values =>
      .of_does fun inner => apply_does strict hdoes inner head values
  · exact .throw _

theorem evaluateItems_writes [Host H] (strict : Bool) {recur : Evaluator H} {scope : Nat}
    (hdoes : ∀ scope e, Does scope (recur scope e))
    (hrecur : ∀ e, Writes e.defined scope (recur scope e)) (items : List (Datum H)) :
    Writes (definedByForm items) scope (evaluateItems strict recur scope items) := by
  cases items with
  | nil => exact .throw _
  | cons operator operands =>
      simp only [evaluateItems, definedByForm]
      cases Keyword.ofDatum? operator with
      | none => exact evaluateCall_writes strict hdoes hrecur operator operands
      | some keyword =>
          cases keyword with
          | define => exact evaluateDefine_writes hrecur operands
          | begin => exact evaluateLast_writes hrecur .nil operands
          | lambda => exact .of_does fun inner => evaluateLambda_does inner scope operands

theorem activate_writes [Host H] (strict : Bool) {recur : Evaluator H} {scope : Nat}
    (hdoes : ∀ scope e, Does scope (recur scope e))
    (hrecur : ∀ e, Writes e.defined scope (recur scope e)) (expression : Datum H) :
    Writes expression.defined scope (activate strict recur scope expression) := by
  cases expression with
  | symbol name => exact .of_does fun inner => lookup_does inner scope name
  | combination items =>
      rw [Datum.defined]
      exact evaluateItems_writes strict hdoes hrecur items
  | list items =>
      rw [Datum.defined]
      exact evaluateItems_writes strict hdoes hrecur items
  | _ => exact .pure _

end Evaluation

theorem evaluate_writes [Host H] (strict : Bool) (depth scope : Nat) (expression : Datum H) :
    Writes expression.defined scope (evaluate strict depth scope expression) := by
  induction depth generalizing expression with
  | zero => exact .throw _
  | succ depth ih => exact activate_writes strict (evaluate_does strict depth) ih expression

/--
Whatever comes of an evaluation, in the frame of its scope only names that the
expression defines have been bound: other bindings are as they were, no name is gone,
and new names come after the old ones.  So an expression that defines nothing leaves
all scopes alone that were there before.
-/
theorem evaluate_binds_defined [Host H] (strict : Bool) (depth scope : Nat)
    (expression : Datum H) (machine : Machine H) :
    let after := (Action.final (evaluate strict depth scope expression machine)).store
    (∀ frame, machine.store.frame? scope = some frame ->
      ∃ grown, after.frame? scope = some grown ∧ frame.Grows expression.defined grown) ∧
    (expression.defined = [] -> ∀ other, other < machine.store.frames.size ->
      after.frame? other = machine.store.frame? other) := by
  intro after
  have hwrites := evaluate_writes strict depth scope expression machine
  refine ⟨hwrites, fun hnone other hold => ?_⟩
  by_cases hown : other = scope
  · subst hown
    have hframe : machine.store.frame? other = some machine.store.frames[other] :=
      Array.getElem?_eq_getElem hold
    obtain ⟨grown, hgrown, hgrows⟩ := hwrites _ hframe
    rw [hnone] at hgrows
    rw [hframe, ← hgrows.eq_of_nil]
    exact hgrown
  · exact (evaluate_does strict depth scope expression machine).sameOutside.frame?_eq hold hown

/-- A program that fails after two definitions, and a call of a closure that defines one of the names. -/
theorem definingClosure_binds_defined :
    let call := .combination [.symbol "f", .number (.int 7)]
    let program := .combination [.symbol "begin",
      .combination [.symbol "define", .symbol "z", call],
      .combination [.symbol "define", .symbol "y", .number (.int 5)], .symbol "w"]
    let frame : Frame Builtin := ⟨[], some 0⟩
    program.defined = ["z", "y"] ∧ definingClosure.store.frame? 1 = some frame ∧
      (∃ grown, (Action.final (evaluate true 9 1 program definingClosure)).store.frame? 1 =
        some grown ∧ frame.Grows program.defined grown) ∧
      call.defined = [] ∧ 1 < definingClosure.store.frames.size ∧
      (Action.final (evaluate true 9 1 call definingClosure)).store.frame? 1 = some frame :=
  ⟨by decide, rfl, (evaluate_binds_defined true 9 1 _ definingClosure).1 _ rfl, by decide, by decide,
    (evaluate_binds_defined true 9 1 _ definingClosure).2 (by decide) 1 (by decide)⟩

end Reckoner
