import Reckoner.Proofs.Correspondence.Contents

/-!
# Present values and reports

A host is handed a value or the report on a failure.  It can tell which as long as
the value is not the absent one, and that is so unless an absent value was bound or
put into the body of a closure beforehand: what a host function returns is guarded,
and a source has no way to write it.
-/

namespace Reckoner

variable {H : Type}

namespace Outcome

/-- The value and the report that a host is handed, where a failure has the absent value. -/
def answer? : Outcome H -> Option (Datum H × Option String)
  | .value v => some (v, none)
  | .error report => some (.absent, some report)
  | .escaped _ => none

/-- The host is handed a value or a report that is not empty, and not both. -/
def TellsOne (outcome : Outcome H) : Prop :=
  ∃ value report, outcome.answer? = some (value, report) ∧
    (value ≠ .absent ∧ report = none ∨ value = .absent ∧ ∃ text, report = some text ∧ text ≠ "")

end Outcome

/-! ## Failures -/

namespace Failure

def IsReportable (failure : Failure) : Prop :=
  failure.isFatal = false ∧ failure.kind ≠ ""

theorem isReportable_of_not_raised {failure : Failure} (h : failure.isRaised = false) :
    failure.IsReportable := by
  cases failure with
  | calculation fault => cases h
  | raised kind message fatal => cases h
  | _ => exact ⟨rfl, by simp [kind]⟩

theorem isReportable_calculation (fault : Calculator.Fault) :
    (Failure.calculation fault).IsReportable := by
  refine ⟨rfl, ?_⟩
  cases fault <;> simp [kind, Calculator.Fault.kind]

theorem IsReportable.report_ne_empty {failure : Failure} (h : failure.IsReportable) :
    failure.report ≠ "" := by
  unfold report
  split
  · exact h.2
  · rename_i hmessage
    simpa using hmessage

end Failure

/-- Host functions fail in ways that are reported, under a kind that has a name. -/
def Host.Reports (H : Type) [Host H] : Prop :=
  ∀ (function : H) (operands : List (Datum H)) (failure : Failure),
    Host.call function operands = .error failure -> failure.IsReportable

/-! ## Values -/

namespace Datum

/-- No closure in the datum has an absent value in its body. -/
def Solid (d : Datum H) : Prop :=
  ∀ (birth : Nat) (parameters : List (Datum H)) (body : Datum H) (scope : Nat),
    Occurs (.closure birth parameters body scope) d -> ¬ Occurs .absent body

/-- The datum is not absent, and calling it cannot make it so. -/
def Present (d : Datum H) : Prop :=
  d ≠ .absent ∧ d.Solid

theorem present_of_not_occurs {d : Datum H} (h : ¬ Occurs .absent d) : d.Present := by
  refine ⟨?_, fun _ _ _ _ hclosure hbody => h ((Occurs.body hbody).trans hclosure)⟩
  rintro rfl
  exact h .self

theorem not_occurs_absent_closure {birth scope : Nat} {parameters : List (Datum H)}
    {body : Datum H} (hparameters : ∀ item ∈ parameters, item.identifier?.isSome)
    (hbody : ¬ Occurs .absent body) : ¬ Occurs .absent (.closure birth parameters body scope) := by
  intro h
  obtain hself | hname | hinner := h.closure_cases hparameters
  · cases hself
  · cases hname
  · exact hbody hinner

end Datum

/-- Host functions do not put absent values into the bodies of closures. -/
def Host.KeepsSolid (H : Type) [Host H] : Prop :=
  ∀ (function : H) (operands : List (Datum H)) (value : Datum H),
    (∀ operand ∈ operands, operand.Solid) -> Host.call function operands = .ok value -> value.Solid

/-! ## Evaluations -/

/--
An evaluation that fails reportably; where absent values are `guarded` against, it
goes through machines that hold none.
-/
def presenceSimulation [Host H] (hreports : Host.Reports H) (guarded : Prop)
    (hsolid : guarded -> Host.KeepsSolid H) (strict : Bool) : Simulation H strict strict where
  move := .identity
  Machines a b := b = a ∧ (guarded -> a.store.Holds Datum.Present)
  Value _ v := guarded -> v.Present
  Code _ _ e := guarded -> ¬ Datum.Occurs .absent e
  Ended failure _ _ := failure.IsReportable
  Excused _ _ := False
  stricter := Bool.le_refl strict
  value_later _ h := h
  code_later _ h := h
  ended _ h _ := Failure.isReportable_of_not_raised h
  mismatch _ hne _ := hne rfl
  value_nil _ := Datum.present_of_not_occurs fun h => by cases h.eq_of_atom rfl rfl
  atom h _ _ hguarded := Datum.present_of_not_occurs (h hguarded)
  operator h hitems _ hguarded hoperator := h hguarded (.item hitems List.mem_cons_self hoperator)
  operand h hitems _ hmem hguarded hoperand :=
    h hguarded (.item hitems (List.mem_cons_of_mem _ hmem) hoperand)
  lambda _ h hitems _ hnames _ hguarded :=
    Datum.present_of_not_occurs <| Datum.not_occurs_absent_closure hnames fun hbody =>
      h hguarded (.item hitems (by simp) hbody)
  lookup h _ := by
    obtain ⟨rfl, hholds⟩ := h
    refine ⟨(Datum.option_map_rename_identity _).symm, fun _ hvalue hguarded => ?_⟩
    exact (hholds hguarded).lookup? hvalue
  bound h _ hvalue := by
    obtain ⟨rfl, hholds⟩ := h
    refine ⟨by rw [Event.rename_identity], fun hguarded => ?_⟩
    exact (hholds hguarded).bind (hvalue hguarded) _ _
  born h := by
    obtain ⟨rfl, hholds⟩ := h
    exact ⟨rfl, rfl, hholds⟩
  nan _ _ := Datum.present_of_not_occurs (by rintro ⟨⟩; contradiction)
  opened h hvalue := by
    obtain ⟨rfl, hholds⟩ := h
    refine ⟨rfl, ⟨by rw [Event.rename_identity], fun hguarded => ?_⟩, fun hguarded => ?_⟩
    · exact (hholds hguarded).push (by simp)
    · exact (hvalue hguarded).2 _ _ _ _ .self
  refused _ _ _ _ := Failure.isReportable_of_not_raised
    (Datum.isRaised_blameDisplayed (fun _ => rfl) _)
  call_rename := Datum.call_rename_identity
  raised _ _ hcall := hreports _ _ _ hcall
  absent _ _ _ := ⟨rfl, by simp [Failure.kind]⟩
  returned h hoperands hcall hvalue := by
    obtain ⟨rfl, hholds⟩ := h
    refine ⟨⟨by rw [Event.rename_identity], hholds⟩, fun _ hguarded => ⟨hvalue, ?_⟩⟩
    exact hsolid hguarded _ _ _ (fun operand hmem => (hoperands operand hmem hguarded).2) hcall

/-- Failures are reportable; and where absent values are guarded against, none comes out. -/
theorem interpret_result [Host H] (hreports : Host.Reports H) (depth : Nat) (strict : Bool)
    (machine : Machine H) (table : Table H) (source : String) (guarded : Prop)
    (hsolid : guarded -> Host.KeepsSolid H)
    (hmachine : guarded -> machine.store.Holds Datum.Present)
    (htable : guarded -> ∀ binding ∈ table.bindings, binding.2.Present) :
    let run := interpret depth strict machine table source
    (∀ failure, run.result = .error failure -> failure.IsReportable) ∧
      (guarded -> run.result ≠ .ok .absent) := by
  cases hparse : (parse depth source : Except Failure (Datum H)) with
  | error failure =>
      rw [interpret_of_error hparse]
      refine ⟨?_, by simp⟩
      rintro _ ⟨⟩
      exact Failure.isReportable_of_not_raised (isRaised_of_parse hparse)
  | ok e =>
      rw [interpret_of_ok hparse]
      have hcode : guarded -> ¬ Datum.Occurs .absent e :=
        fun _ h => (isSource_of_parse hparse _ h).1 rfl
      have hroot : guarded -> (machine.withRoot table).store.Holds Datum.Present :=
        fun hguarded => (hmachine hguarded).push (htable hguarded)
      have hagree := (presenceSimulation hreports guarded hsolid strict).agree_of_identity rfl depth
        machine.store.frames.size hcode ⟨rfl, hroot⟩
      revert hagree
      generalize evaluate strict depth machine.store.frames.size e (machine.withRoot table) = ended
      rintro (⟨-, -, hsame⟩ | hended | hexcused)
      · refine ⟨by simp [Action.outcome], fun hguarded hvalue => ?_⟩
        exact (hsame.2 hguarded).1 (Except.ok.inj hvalue)
      · refine ⟨?_, by simp [Action.outcome]⟩
        rintro _ ⟨⟩
        exact hended
      · exact hexcused.elim

/-! ## The calculator -/

theorem reports_builtin : Host.Reports Builtin := by
  intro function operands failure hcall
  obtain ⟨n, hn⟩ | ⟨fault, hfault⟩ := Builtin.call_cases function operands
  · cases hn.symm.trans hcall
  · cases hfault.symm.trans hcall
    exact Failure.isReportable_calculation fault

theorem keepsSolid_builtin : Host.KeepsSolid Builtin := by
  intro function operands value _ hcall
  obtain ⟨n, hn⟩ | ⟨fault, hfault⟩ := Builtin.call_cases function operands
  · cases hn.symm.trans hcall
    exact (Datum.present_of_not_occurs fun h => by cases h.eq_of_atom rfl rfl).2
  · cases hfault.symm.trans hcall

/-! ## What a host is told -/

theorem Interpretation.tellsOne_iff {run : Interpretation H}
    (h : ∀ failure, run.result = .error failure -> failure.IsReportable) :
    run.outcome.TellsOne ↔ run.result ≠ .ok .absent := by
  unfold outcome
  cases hresult : run.result with
  | ok value => simp [Outcome.TellsOne, Outcome.answer?]
  | error failure =>
      have hreportable := h failure hresult
      simp [Outcome.TellsOne, Outcome.answer?, hreportable.1, hreportable.report_ne_empty]

/--
As long as host functions fail in ways that are reported, an interpretation ends
with an answer for the host, and the answer is a value or a report that is not
empty, and not both, unless the source's value is the absent one.  That it is not
if nothing absent is bound by the table or waits in the store or in a closure.
-/
theorem interpret_tells_one [Host H] (hreports : Host.Reports H) (depth : Nat) (strict : Bool)
    (machine : Machine H) (table : Table H) (source : String) :
    let run := interpret depth strict machine table source
    (run.outcome.TellsOne ↔ run.result ≠ .ok .absent) ∧
    (Host.KeepsSolid H -> machine.store.Holds Datum.Present ->
      (∀ binding ∈ table.bindings, binding.2.Present) -> run.outcome.TellsOne) := by
  intro run
  obtain ⟨hfailure, -⟩ := interpret_result hreports depth strict machine table source False
    False.elim False.elim False.elim
  have htells := Interpretation.tellsOne_iff hfailure
  refine ⟨htells, fun hsolid hmachine htable => htells.mpr ?_⟩
  have hended := interpret_result hreports depth strict machine table source True
    (fun _ => hsolid) (fun _ => hmachine) (fun _ => htable)
  exact hended.2 trivial

/-- A list of an absent value is a value like others, also when a closure returns it. -/
theorem list_of_absent_told :
    let table : Table Builtin := [(.text "x", .list [.absent])]
    let run := interpret defaultDepth false .empty table "((lambda (y) x) 1)"
    Host.Reports Builtin ∧ Host.KeepsSolid Builtin ∧
      (Machine.empty : Machine Builtin).store.Holds Datum.Present ∧
      (∀ binding ∈ table.bindings, binding.2.Present) ∧ run.outcome.TellsOne := by
  intro table run
  have htable : ∀ binding ∈ table.bindings, binding.2.Present := by
    refine Table.forall_mem_bindings (List.forall_mem_singleton.mpr ⟨by simp, ?_⟩)
    intro birth parameters body scope hclosure
    cases hclosure with
    | item hitems hmem hclosure =>
        cases hitems
        obtain rfl := List.mem_singleton.mp hmem
        cases hclosure.eq_of_atom rfl rfl
  have htells := (interpret_tells_one reports_builtin defaultDepth false .empty table
    "((lambda (y) x) 1)").2 keepsSolid_builtin .empty htable
  exact ⟨reports_builtin, keepsSolid_builtin, .empty, htable, htells⟩

/-- Where a table binds a name to the absent value, a host can be told neither value nor failure. -/
theorem absent_binding_tells_nothing :
    let table : Table Builtin := [(.text "x", .absent)]
    let run := interpret defaultDepth true .empty table "x"
    Host.Reports Builtin ∧ run.outcome.answer? = some (.absent, none) ∧ ¬ run.outcome.TellsOne := by
  intro table run
  have hresult : run.result = .ok .absent := by rfl
  refine ⟨reports_builtin, by rfl, ?_⟩
  rw [Interpretation.tellsOne_iff (by simp [hresult])]
  exact fun h => h hresult

end Reckoner
