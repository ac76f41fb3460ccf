import Reckoner.Proofs.Correspondence.Contents

/-!
# Closed machines

On a closed machine nothing refers to a scope or a birth that is yet to come: every
scope lies inside an older one, and every value that is bound lies within the
machine's horizon.  Interpretations keep machines closed, provided that tables and
host functions bring up no closures from nowhere.
-/

namespace Reckoner

variable {H : Type}

/-- Values refer to what exists, and scopes to older ones. -/
structure Machine.Closed (machine : Machine H) : Prop where
  outer_lt : ∀ {scope outer : Nat} {frame : Frame H}, machine.store.frame? scope = some frame ->
    frame.outer = some outer -> outer < scope
  holds : machine.store.Holds (Datum.Within machine.horizon)

def Table.Within (horizon : Horizon) (table : Table H) : Prop :=
  ∀ binding ∈ table.bindings, binding.2.Within horizon

/--
What host functions return is put together from their operands and from what was
there before: they make no closures, and see none but those that they are given.
-/
def Host.PassesOn (H : Type) [Host H] (old : Horizon) : Prop :=
  ∀ (function : H) (operands : List (Datum H)) (value : Datum H),
    Host.call function operands = .ok value -> ∀ part, Datum.Occurs part value ->
      part.IsBefore old ∨ ∃ operand ∈ operands, Datum.Occurs part operand

theorem Host.PassesOn.mono [Host H] {first second : Horizon} (h : Host.PassesOn H first)
    (hle : first.Le second) : Host.PassesOn H second := by
  intro function operands value hcall part hpart
  exact (h function operands value hcall part hpart).imp (fun hold => hold.mono hle) id

theorem Host.PassesOn.within [Host H] {old horizon : Horizon} (h : Host.PassesOn H old)
    (hle : old.Le horizon) {function : H} {operands : List (Datum H)} {value : Datum H}
    (hoperands : ∀ operand ∈ operands, operand.Within horizon)
    (hcall : Host.call function operands = .ok value) : value.Within horizon := by
  intro part hpart
  obtain hold | ⟨operand, hmem, hoperand⟩ := h function operands value hcall part hpart
  · exact hold.mono hle
  · exact hoperands operand hmem part hoperand

/-- Calculator functions return numbers. -/
theorem passesOn_builtin (old : Horizon) : Host.PassesOn Builtin old := by
  intro function operands value hcall part hpart
  obtain ⟨n, hn⟩ | ⟨fault, hfault⟩ := Builtin.call_cases function operands
  · cases hn.symm.trans hcall
    exact .inl (Datum.within_of_atom rfl rfl old part hpart)
  · cases hfault.symm.trans hcall

theorem Datum.IsSource.within {d : Datum H} (h : d.IsSource) (horizon : Horizon) :
    d.Within horizon :=
  fun part hpart => part.isBefore_of_not_born (h part hpart).2 horizon

theorem Datum.within_closure {horizon : Horizon} {birth scope : Nat} {parameters : List (Datum H)}
    {body : Datum H} (hbirth : birth < horizon.births) (hscope : scope < horizon.scopes)
    (hparameters : ∀ item ∈ parameters, item.identifier?.isSome) (hbody : body.Within horizon) :
    (Datum.closure birth parameters body scope).Within horizon := by
  intro part hpart
  obtain rfl | hname | hinner := hpart.closure_cases hparameters
  · exact ⟨hbirth, hscope⟩
  · exact Datum.isBefore_of_identifier? hname horizon
  · exact hbody part hinner

namespace Machine.Closed

variable {machine : Machine H}

theorem empty : (Machine.empty : Machine H).Closed :=
  ⟨fun hframe => by simp [Machine.empty, Store.empty, Store.frame?] at hframe, .empty⟩

theorem bear (h : machine.Closed) : machine.bear.Closed :=
  ⟨h.outer_lt, h.holds.mono fun _ hvalue => hvalue.mono (Later.bear machine).horizon_le⟩

theorem called (h : machine.Closed) (function : H) (operands : List (Datum H))
    (outcome : Except Failure (Datum H)) :
    (machine.record (.called function operands outcome)).Closed :=
  ⟨h.outer_lt, h.holds⟩

/-- A new scope lies inside one that exists, or is a root. -/
theorem push (h : machine.Closed) {frame : Frame H} (events : List (Event H))
    (houter : ∀ outer, frame.outer = some outer -> outer < machine.store.frames.size)
    (hframe : ∀ binding ∈ frame.bindings, binding.2.Within machine.horizon) :
    Closed ⟨(machine.store.push frame).2, machine.births, events⟩ := by
  refine ⟨fun hfound hlink => ?_, (h.holds.push hframe).mono fun _ hvalue => hvalue.mono ?_⟩
  · obtain ⟨rfl, rfl⟩ | hold := Store.frame?_push_cases hfound
    · exact houter _ hlink
    · exact h.outer_lt hold hlink
  · exact ⟨by simp [Machine.horizon], Nat.le_refl _⟩

theorem bound (h : machine.Closed) {value : Datum H} (hvalue : value.Within machine.horizon)
    (scope : Nat) (name : String) : (machine.record (.bound scope name value)).Closed := by
  have hhorizon : (machine.record (.bound scope name value)).horizon = machine.horizon := by
    simp [Machine.horizon, Machine.record, Store.after]
  refine ⟨fun hfound hlink => ?_, ?_⟩
  · obtain ⟨frame, hframe, rfl | rfl⟩ := Store.frame?_bind_cases hfound
    · exact h.outer_lt hframe hlink
    · exact h.outer_lt hframe hlink
  · rw [hhorizon]
    exact h.holds.bind hvalue scope name

end Machine.Closed

/-! ## Evaluations -/

def closedSimulation [Host H] {old : Horizon} (hhost : Host.PassesOn H old) (strict : Bool) :
    Simulation H strict strict where
  move := .identity
  Machines a b := b = a ∧ a.Closed ∧ old.Le a.horizon
  Value a v := v.Within a.horizon
  Code a scope e := e.Within a.horizon ∧ scope < a.store.frames.size
  Ended _ a _ := a.Closed ∧ old.Le a.horizon
  Excused _ _ := False
  stricter := Bool.le_refl strict
  value_later hlater h := h.mono hlater.horizon_le
  code_later hlater h :=
    ⟨h.1.mono hlater.horizon_le, Nat.lt_of_lt_of_le h.2 hlater.horizon_le.scopes_le⟩
  ended h _ _ := h.2
  mismatch _ hne _ := hne rfl
  value_nil := Datum.within_of_atom rfl rfl _
  atom h _ _ := h.1
  operator h hitems _ := ⟨h.1.occurs (.item hitems List.mem_cons_self .self), h.2⟩
  operand h hitems _ hmem :=
    ⟨h.1.occurs (.item hitems (List.mem_cons_of_mem _ hmem) .self), h.2⟩
  lambda := by
    intro a b scope e operator parameters body items h hcode hitems _ hnames _
    refine Datum.within_closure (Nat.lt_succ_self _) hcode.2 hnames ?_
    exact (hcode.1.occurs (.item hitems (by simp) .self)).mono (Machine.Later.bear a).horizon_le
  lookup h _ := by
    obtain ⟨rfl, hclosed, -⟩ := h
    exact ⟨(Datum.option_map_rename_identity _).symm, fun _ hvalue => hclosed.holds.lookup? hvalue⟩
  bound := by
    rintro a b scope name v ⟨rfl, hclosed, hle⟩ - hvalue
    refine ⟨by rw [Event.rename_identity], hclosed.bound hvalue scope name, ?_⟩
    exact hle.trans (Machine.Later.record b _).horizon_le
  born := by
    rintro a b ⟨rfl, hclosed, hle⟩
    exact ⟨rfl, rfl, hclosed.bear, hle.trans (Machine.Later.bear b).horizon_le⟩
  nan := by
    rintro a b - part ⟨⟩
    · exact Nat.lt_succ_self a.births
    · contradiction
  opened := by
    rintro a b birth parameters body outer ⟨rfl, hclosed, hle⟩ hvalue
    have hlater := Machine.Later.record b (.opened (some outer))
    refine ⟨rfl, ⟨by rw [Event.rename_identity], ?_, hle.trans hlater.horizon_le⟩, ?_, ?_⟩
    · refine hclosed.push _ ?_ (by simp)
      rintro _ ⟨⟩
      exact (hvalue _ .self).2
    · exact (hvalue.occurs (.body .self)).mono hlater.horizon_le
    · simp [Machine.record, Store.after, Store.create]
  refused h _ _ _ := h.2
  call_rename := Datum.call_rename_identity
  raised h _ _ := ⟨h.2.1.called _ _ _, h.2.2⟩
  absent h _ _ := ⟨h.2.1.called _ _ _, h.2.2⟩
  returned := by
    rintro a b function operands value ⟨rfl, hclosed, hle⟩ hoperands hcall -
    refine ⟨⟨by rw [Event.rename_identity], hclosed.called _ _ _, hle⟩, fun _ => ?_⟩
    exact hhost.within hle hoperands hcall

theorem Machine.Closed.withRoot {machine : Machine H} (h : machine.Closed) {table : Table H}
    (htable : table.Within machine.horizon) : (machine.withRoot table).Closed :=
  h.push _ (by simp) htable

/-- Interpretations keep machines closed, and their values are within what then exists. -/
theorem interpret_closed [Host H] (depth : Nat) (strict : Bool) {machine : Machine H}
    {table : Table H} (source : String) (hhost : Host.PassesOn H machine.horizon)
    (hclosed : machine.Closed) (htable : table.Within machine.horizon) :
    let run := interpret depth strict machine table source
    run.machine.Closed ∧ machine.horizon.Le run.machine.horizon ∧
      ∀ value, run.result = .ok value -> value.Within run.machine.horizon := by
  have hroot := hclosed.withRoot htable
  have hle := machine.horizon_le_withRoot table
  cases hparse : (parse depth source : Except Failure (Datum H)) with
  | error failure =>
      rw [interpret_of_error hparse]
      exact ⟨hroot, hle, by simp⟩
  | ok e =>
      rw [interpret_of_ok hparse]
      have hsource := (isSource_of_parse hparse).within (machine.withRoot table).horizon
      have hscope : machine.store.frames.size < (machine.withRoot table).store.frames.size := by
        simp [Machine.withRoot, Store.openRoot]
      have hagree := (closedSimulation hhost strict).agree_of_identity rfl depth
        machine.store.frames.size ⟨hsource, hscope⟩ ⟨rfl, hroot, hle⟩
      revert hagree
      generalize evaluate strict depth machine.store.frames.size e (machine.withRoot table) = ended
      rintro (⟨-, ⟨-, hafter, hbefore⟩, hsame⟩ | ⟨hafter, hbefore⟩ | hexcused)
      · refine ⟨hafter, hbefore, ?_⟩
        rintro _ ⟨⟩
        exact hsame.2
      · exact ⟨hafter, hbefore, by simp [Action.outcome]⟩
      · exact hexcused.elim

/-! ## A closure that outlives its source -/

def keptClosure : Datum Builtin :=
  .closure 0 [.symbol "y"] (.symbol "x") 0

def keeping : Interpretation Builtin :=
  interpret 5 true .empty [(.text "x", .number (.int 3))] "(lambda (y) x)"

theorem keeping_result : keeping.result = .ok keptClosure := by
  have hparse : parse 5 "(lambda (y) x)" = .ok (.combination
      [.symbol "lambda", .combination [.symbol "y"], .symbol "x"] : Datum Builtin) := by rfl
  rw [keeping, interpret_of_ok hparse]
  rfl

theorem within_keeping_table (horizon : Horizon) :
    Table.Within horizon [((.text "x", .number (.int 3)) : Datum Builtin × Datum Builtin)] :=
  Table.forall_mem_bindings (List.forall_mem_singleton.mpr (Datum.within_of_atom rfl rfl _))

theorem keeping_closed :
    keeping.machine.Closed ∧ keptClosure.Within keeping.machine.horizon := by
  obtain ⟨hclosed, -, hvalue⟩ := interpret_closed 5 true "(lambda (y) x)" (passesOn_builtin _)
    .empty (within_keeping_table _)
  exact ⟨hclosed, hvalue keptClosure keeping_result⟩

end Reckoner
