import Reckoner.Proofs.Correspondence.Closedness

/-!
# Histories of interpretations

Interpretations share a machine, and what one returns may be put into the table of
another, closures included.  Still none notices the others: run before them or after
them it does the same, up to the numbers of what it makes itself.
-/

namespace Reckoner

variable {H : Type}

/-! ## Renamed stores -/

def Frame.rename (r : Renaming) (frame : Frame H) : Frame H :=
  ⟨frame.bindings.map (Prod.map id (Datum.rename r)), frame.outer.map r.scope⟩

def Outcome.rename (r : Renaming) : Outcome H -> Outcome H
  | .value v => .value (v.rename r)
  | .error report => .error report
  | .escaped failure => .escaped failure

theorem Interpretation.outcome_rename {r : Renaming} {first second : Interpretation H}
    (h : second.result = first.result.map (Datum.rename r)) :
    second.outcome = first.outcome.rename r := by
  unfold Interpretation.outcome
  rw [h]
  cases first.result with
  | ok value => rfl
  | error failure =>
      dsimp only [Except.map]
      split <;> rfl

namespace Frame

variable (r : Renaming) (frame : Frame H)

@[simp] theorem outer_rename : (frame.rename r).outer = frame.outer.map r.scope :=
  rfl

theorem get?_rename (name : String) :
    (frame.rename r).get? name = (frame.get? name).map (Datum.rename r) :=
  Entries.get?_map _ name (Datum.rename r) frame.bindings

theorem bind_rename (name : String) (value : Datum H) :
    (frame.bind name value).rename r = (frame.rename r).bind name (value.rename r) :=
  congrArg (Frame.mk · _) (Entries.put_map _ name (Datum.rename r) value frame.bindings).symm

theorem rename_eq_self {r : Renaming} {horizon : Horizon} (hfixes : r.Fixes horizon)
    {frame : Frame H}
    (hbindings : ∀ binding ∈ frame.bindings, binding.2.Within horizon)
    (houter : ∀ outer, frame.outer = some outer -> outer < horizon.scopes) :
    frame.rename r = frame := by
  obtain ⟨bindings, outer⟩ := frame
  have hvalues : bindings.map (Prod.map id (Datum.rename r)) = bindings := by
    refine (List.map_congr_left fun binding hmem => ?_).trans bindings.map_id
    exact Prod.ext rfl (Datum.rename_eq_self hfixes _ (hbindings binding hmem))
  rw [Frame.rename, hvalues]
  cases outer with
  | none => rfl
  | some outer => rw [Option.map_some, hfixes.scope_eq (houter outer rfl)]

end Frame

namespace Store

/-- Every frame of the first store is found in the second, renamed, under its renamed scope. -/
def Renamed (r : Renaming) (first second : Store H) : Prop :=
  ∀ scope, second.frame? (r.scope scope) = (first.frame? scope).map (Frame.rename r)

namespace Renamed

variable {r : Renaming} {first second : Store H}

theorem sees (h : Renamed r first second) {name : String} {value : Datum H} {scope : Nat}
    (hsees : first.Sees name value scope) :
    second.Sees name (value.rename r) (r.scope scope) := by
  induction hsees with
  | own hframe hvalue =>
      refine .own ((h _).trans (congrArg _ hframe)) ?_
      rw [Frame.get?_rename, hvalue, Option.map_some]
  | outer hframe hnone houter _ ih =>
      refine .outer ((h _).trans (congrArg _ hframe)) ?_ ?_ ih
      · rw [Frame.get?_rename, hnone, Option.map_none]
      · rw [Frame.outer_rename, houter, Option.map_some]

theorem exists_sees (h : Renamed r first second) {name : String} {value : Datum H} {inner : Nat}
    (hsees : second.Sees name value inner) :
    ∀ scope, r.scope scope = inner -> ∃ old, first.Sees name old scope := by
  induction hsees with
  | own hframe hvalue =>
      rintro scope rfl
      obtain ⟨frame, hold, rfl⟩ := Option.map_eq_some_iff.mp ((h scope).symm.trans hframe)
      rw [Frame.get?_rename] at hvalue
      obtain ⟨old, hget, -⟩ := Option.map_eq_some_iff.mp hvalue
      exact ⟨old, .own hold hget⟩
  | outer hframe hnone houter _ ih =>
      rintro scope rfl
      obtain ⟨frame, hold, rfl⟩ := Option.map_eq_some_iff.mp ((h scope).symm.trans hframe)
      rw [Frame.get?_rename] at hnone
      obtain ⟨outer, hlink, heq⟩ := Option.map_eq_some_iff.mp houter
      obtain ⟨old, hseen⟩ := ih outer heq
      exact ⟨old, .outer hold (Option.map_eq_none_iff.mp hnone) hlink hseen⟩

theorem lookup?_eq (h : Renamed r first second) (scope : Nat) (name : String) :
    second.lookup? (r.scope scope) name = (first.lookup? scope name).map (Datum.rename r) := by
  cases hfirst : first.lookup? scope name with
  | some value => exact lookup?_eq_some_iff.mpr (h.sees (lookup?_eq_some_iff.mp hfirst))
  | none =>
      refine lookup?_eq_none_iff.mpr fun value hsees => ?_
      obtain ⟨old, hold⟩ := h.exists_sees hsees scope rfl
      exact lookup?_eq_none_iff.mp hfirst old hold

theorem bind (h : Renamed r first second) (scope : Nat) (name : String) (value : Datum H) :
    Renamed r (first.bind scope name value)
      (second.bind (r.scope scope) name (value.rename r)) := by
  intro other
  simp only [frame?_bind, r.scope_injective.eq_iff, h other]
  split
  · cases first.frame? other with
    | none => rfl
    | some frame => simp only [Option.map_some, Frame.bind_rename]
  · rfl

theorem push (h : Renamed r first second) (hsize : r.scope first.frames.size = second.frames.size)
    (frame : Frame H) : Renamed r (first.push frame).2 (second.push (frame.rename r)).2 := by
  intro other
  simp only [frame?_push, ← hsize, r.scope_injective.eq_iff, h other]
  split <;> rfl

end Renamed

end Store

/-! ## Evaluations on different machines -/

/--
Host functions do not look at the numbers of scopes and births, but for those within
a horizon that they may have seen before.
-/
def Host.Blind (H : Type) [Host H] (old : Horizon) : Prop :=
  ∀ r : Renaming, r.Fixes old -> ∀ (function : H) (operands : List (Datum H)),
    Host.call function (operands.map (Datum.rename r)) =
      (Host.call function operands).map (Datum.rename r)

theorem Host.Blind.mono [Host H] {first second : Horizon} (h : Host.Blind H first)
    (hle : first.Le second) : Host.Blind H second :=
  fun r hfixes => h r (hfixes.mono hle)

namespace Machine

/-- What came after the first machine came after the second in the same way, but for a shift. -/
structure Shifted (first second a b : Machine H) : Prop where
  first_le : first.horizon.Le a.horizon
  renamed : Store.Renamed (.shift first.horizon second.horizon) a.store b.store
  size_eq : b.store.frames.size =
    a.store.frames.size + (second.store.frames.size - first.store.frames.size)
  births_eq : b.births = a.births + (second.births - first.births)
  events_eq : ∃ recent, a.events = recent ++ first.events ∧
    b.events = recent.map (Event.rename (.shift first.horizon second.horizon)) ++ second.events

namespace Shifted

variable {first second a b : Machine H}

theorem scope_size (h : Shifted first second a b) :
    (Renaming.shift first.horizon second.horizon).scope a.store.frames.size =
      b.store.frames.size :=
  (Renaming.raise_of_le h.first_le.scopes_le _).trans h.size_eq.symm

theorem birth_births (h : Shifted first second a b) :
    (Renaming.shift first.horizon second.horizon).birth a.births = b.births :=
  (Renaming.raise_of_le h.first_le.births_le _).trans h.births_eq.symm

theorem bear (h : Shifted first second a b) : Shifted first second a.bear b.bear := by
  refine ⟨h.first_le.trans (Later.bear a).horizon_le, h.renamed, h.size_eq, ?_, h.events_eq⟩
  have hbirths := h.births_eq
  simp only [Machine.bear]
  omega

theorem record (h : Shifted first second a b) (event : Event H) :
    Shifted first second (a.record event)
      (b.record (event.rename (.shift first.horizon second.horizon))) := by
  refine ⟨h.first_le.trans (Later.record a event).horizon_le, ?_, ?_, h.births_eq, ?_⟩
  · cases event with
    | called function operands outcome => exact h.renamed
    | opened outer => exact h.renamed.push h.scope_size ⟨[], outer⟩
    | bound scope name value => exact h.renamed.bind scope name value
  · have hsize := h.size_eq
    cases event with
    | called function operands outcome => exact hsize
    | opened outer =>
        simp only [Machine.record, Store.after, Store.create, Event.rename, Store.size_push]
        omega
    | bound scope name value =>
        simpa only [Machine.record, Store.after, Event.rename, Store.size_bind] using hsize
  · obtain ⟨recent, ha, hb⟩ := h.events_eq
    refine ⟨event :: recent, ?_, ?_⟩
    · rw [Machine.record, ha, List.cons_append]
    · rw [Machine.record, hb, List.map_cons, List.cons_append]

end Shifted

end Machine

def shiftSimulation [Host H] (first second : Machine H) (hblind : Host.Blind H first.horizon)
    (strict : Bool) : Simulation H strict strict where
  move := .shift first.horizon second.horizon
  Machines a b := Machine.Shifted first second a b
  Value _ _ := True
  Code _ _ _ := True
  Ended _ a b := Machine.Shifted first second a b
  Excused _ _ := False
  stricter := Bool.le_refl strict
  value_later _ _ := trivial
  code_later _ _ := trivial
  ended h _ _ := h
  mismatch _ hne _ := hne rfl
  value_nil := trivial
  atom _ _ _ := trivial
  operator _ _ _ := trivial
  operand _ _ _ _ := trivial
  lambda _ _ _ _ _ _ := trivial
  lookup h _ := ⟨h.renamed.lookup?_eq _ _, fun _ _ => trivial⟩
  bound h _ _ := h.record _
  born h := ⟨h.birth_births, h.bear⟩
  nan _ := trivial
  opened h _ := ⟨h.scope_size, h.record _, trivial⟩
  refused h _ _ _ := h
  call_rename := hblind _ (Renaming.fixes_shift _ _)
  raised h _ _ := h.record _
  absent h _ _ := h.record _
  returned h _ _ _ := ⟨h.record _, fun _ => trivial⟩

/-! ## Machines that have seen more -/

namespace Machine

/-- The second machine has everything the first has, in the same places. -/
structure Extends (second first : Machine H) : Prop where
  horizon_le : first.horizon.Le second.horizon
  frame?_eq : ∀ {scope}, scope < first.store.frames.size ->
    second.store.frame? scope = first.store.frame? scope

theorem Extends.refl (machine : Machine H) : machine.Extends machine :=
  ⟨.refl _, fun _ => rfl⟩

theorem Extends.trans {first second third : Machine H} (h : third.Extends second)
    (h' : second.Extends first) : third.Extends first := by
  refine ⟨h'.horizon_le.trans h.horizon_le, fun hscope => ?_⟩
  rw [h.frame?_eq (Nat.lt_of_lt_of_le hscope h'.horizon_le.scopes_le), h'.frame?_eq hscope]

theorem extends_withRoot (machine : Machine H) (table : Table H) :
    (machine.withRoot table).Extends machine :=
  ⟨machine.horizon_le_withRoot table, fun hscope => Store.frame?_push_of_lt _ _ hscope⟩

end Machine

structure Job (H : Type) where
  strict : Bool
  table : Table H
  source : String

namespace Job

variable [Host H]

def run (depth : Nat) (machine : Machine H) (job : Job H) : Interpretation H :=
  interpret depth job.strict machine job.table job.source

def runAll (depth : Nat) (machine : Machine H) (jobs : List (Job H)) : Machine H :=
  jobs.foldl (fun reached job => (job.run depth reached).machine) machine

end Job

/-- A job writes to its own root and to scopes that it opens. -/
theorem Job.run_extends [Host H] (depth : Nat) (machine : Machine H) (job : Job H) :
    (job.run depth machine).machine.Extends machine := by
  obtain ⟨strict, table, source⟩ := job
  have hroot := machine.extends_withRoot table
  unfold Job.run
  cases hparse : (parse depth source : Except Failure (Datum H)) with
  | error failure =>
      rw [interpret_of_error hparse]
      exact hroot
  | ok e =>
      rw [interpret_of_ok hparse]
      have heffects :=
        evaluate_does strict depth machine.store.frames.size e (machine.withRoot table)
      refine ⟨hroot.horizon_le.trans heffects.later.horizon_le, fun hscope => ?_⟩
      have hsize := hroot.horizon_le.scopes_le
      have hold := heffects.sameOutside.frame?_eq (Nat.lt_of_lt_of_le hscope hsize)
        (Nat.ne_of_lt hscope)
      exact hold.trans (hroot.frame?_eq hscope)

namespace Machine

variable {first second : Machine H}

/-- What a closed machine has is where it was, also once more has been added. -/
theorem Closed.renamed (h : first.Closed) (hextends : second.Extends first) :
    Store.Renamed (.shift first.horizon second.horizon) first.store second.store := by
  have hfixes := Renaming.fixes_shift first.horizon second.horizon
  have hsize := hextends.horizon_le.scopes_le
  intro scope
  -- An old scope keeps its number and its frame; beyond, there is nothing on either side.
  by_cases hscope : scope < first.store.frames.size
  · rw [hfixes.scope_eq hscope, hextends.frame?_eq hscope]
    cases hframe : first.store.frame? scope with
    | none => rfl
    | some frame =>
        rw [Option.map_some, Frame.rename_eq_self hfixes (h.holds scope frame hframe)]
        intro outer houter
        exact Nat.lt_trans (h.outer_lt hframe houter) hscope
  · have hle : first.store.frames.size ≤ scope := Nat.not_lt.mp hscope
    have hnone : first.store.frame? scope = none := Array.getElem?_eq_none hle
    have hmoved : (Renaming.shift first.horizon second.horizon).scope scope =
        scope + (second.store.frames.size - first.store.frames.size) :=
      Renaming.raise_of_le hle _
    rw [hnone, hmoved]
    refine Array.getElem?_eq_none ?_
    simp only [horizon] at hsize
    omega

theorem Extends.scope_size (h : second.Extends first) :
    (Renaming.shift first.horizon second.horizon).scope first.store.frames.size =
      second.store.frames.size :=
  (Renaming.raise_of_le (Nat.le_refl _) _).trans (Nat.add_sub_of_le h.horizon_le.scopes_le)

theorem Closed.shifted_withRoot (h : first.Closed) (hextends : second.Extends first)
    {table : Table H} (htable : table.Within first.horizon) :
    Shifted first second (first.withRoot table) (second.withRoot table) := by
  have hsize : first.store.frames.size ≤ second.store.frames.size := hextends.horizon_le.scopes_le
  have hbirths : first.births ≤ second.births := hextends.horizon_le.births_le
  have hmoved := hextends.scope_size
  have hroot : Frame.rename (.shift first.horizon second.horizon) ⟨table.bindings, none⟩ =
      ⟨table.bindings, none⟩ :=
    Frame.rename_eq_self (Renaming.fixes_shift _ _) htable (by simp)
  refine ⟨first.horizon_le_withRoot table, ?_, ?_, ?_, [], rfl, rfl⟩
  · have hpush := (h.renamed hextends).push hmoved ⟨table.bindings, none⟩
    rwa [hroot] at hpush
  · simp only [Machine.withRoot, Store.openRoot, Store.size_push]
    omega
  · simp only [Machine.withRoot]
    omega

end Machine

/-- A job on a closed machine goes the same way on one that has seen more. -/
theorem Job.run_shifted [Host H] (depth : Nat) {first second : Machine H} {job : Job H}
    (hblind : Host.Blind H first.horizon) (hclosed : first.Closed)
    (hextends : second.Extends first) (htable : job.table.Within first.horizon) :
    (job.run depth second).result =
        (job.run depth first).result.map (Datum.rename (.shift first.horizon second.horizon)) ∧
      Machine.Shifted first second (job.run depth first).machine
        (job.run depth second).machine := by
  obtain ⟨strict, table, source⟩ := job
  unfold Job.run
  have hroot := hclosed.shifted_withRoot hextends htable
  cases hparse : (parse depth source : Except Failure (Datum H)) with
  | error failure =>
      rw [interpret_of_error hparse, interpret_of_error hparse]
      exact ⟨rfl, hroot⟩
  | ok e =>
      let S := shiftSimulation first second hblind strict
      have hsource : e.rename S.move = e :=
        Datum.rename_eq_self (Renaming.fixes_shift _ _) e ((isSource_of_parse hparse).within _)
      have hagree : S.Agree (first.withRoot table) S.Same
          (evaluate strict depth first.store.frames.size e (first.withRoot table))
          (evaluate strict depth (S.move.scope first.store.frames.size) (e.rename S.move)
            (second.withRoot table)) :=
        S.agree_evaluate depth trivial hroot
      rw [hsource, show S.move.scope first.store.frames.size = _ from hextends.scope_size] at hagree
      rw [interpret_of_ok hparse, interpret_of_ok hparse]
      revert hagree
      generalize evaluate strict depth first.store.frames.size e (first.withRoot table) = early
      generalize evaluate strict depth second.store.frames.size e (second.withRoot table) = late
      rintro (⟨-, hshifted, hsame⟩ | hshifted | hexcused)
      · exact ⟨congrArg Except.ok hsame.1, hshifted⟩
      · exact ⟨rfl, hshifted⟩
      · exact hexcused.elim

/-! ## Histories -/

/--
The machines that a history of jobs leads to, where a table may hold all that there is
by the time it is used: above all, what earlier jobs returned.
-/
inductive Reached [Host H] (depth : Nat) (start : Machine H) : Machine H -> Prop where
  | start : Reached depth start start
  | run {machine : Machine H} (job : Job H) (h : Reached depth start machine)
      (htable : job.table.Within machine.horizon) :
      Reached depth start (job.run depth machine).machine

theorem Reached.closed [Host H] {depth : Nat} {start machine : Machine H}
    (hpasses : Host.PassesOn H start.horizon) (hstart : start.Closed)
    (h : Reached depth start machine) : machine.Closed ∧ start.horizon.Le machine.horizon := by
  induction h with
  | start => exact ⟨hstart, .refl _⟩
  | run job _ htable ih =>
      obtain ⟨hclosed, hle⟩ := ih
      obtain ⟨hafter, hle', -⟩ :=
        interpret_closed depth job.strict job.source (hpasses.mono hle) hclosed htable
      unfold Job.run
      exact ⟨hafter, hle.trans hle'⟩

theorem Job.runAll_extends [Host H] (depth : Nat) (machine : Machine H) (jobs : List (Job H)) :
    (runAll depth machine jobs).Extends machine := by
  induction jobs generalizing machine with
  | nil => exact .refl machine
  | cons job rest ih =>
      rw [runAll, List.foldl_cons]
      exact (ih _).trans (job.run_extends depth machine)

theorem blind_builtin (old : Horizon) : Host.Blind Builtin old := by
  intro r _ function operands
  have hoperands : (operands.map (Datum.rename r)).map Datum.operand =
      operands.map Datum.operand := by
    rw [List.map_map]
    refine List.map_congr_left fun operand _ => ?_
    cases operand <;> rfl
  show function.call _ = (function.call _).map _
  rw [Builtin.call, hoperands, Builtin.call]
  cases function.apply (operands.map Datum.operand) <;> rfl

theorem reached_keeping : Reached 5 .empty keeping.machine := by
  have hrun : keeping =
      Job.run 5 .empty ⟨true, [(.text "x", .number (.int 3))], "(lambda (y) x)"⟩ := rfl
  rw [hrun]
  exact .run _ .start (within_keeping_table _)

/--
Whatever a history of jobs has led to, a job gives the same before any other jobs as
after them: the same report, or the same value but for the numbers of scopes and
births that are new to it; it calls the same host functions on the same operands, and
opens and binds the same scopes.  And no job changes a scope that was there before.
-/
theorem job_unaffected_by_others [Host H] {depth : Nat} {start machine : Machine H}
    (hpasses : Host.PassesOn H start.horizon) (hblind : Host.Blind H start.horizon)
    (hstart : start.Closed) (hreached : Reached depth start machine) (job : Job H)
    (htable : job.table.Within machine.horizon) (others : List (Job H)) :
    let later := Job.runAll depth machine others
    let move := Renaming.shift machine.horizon later.horizon
    let early := job.run depth machine
    let late := job.run depth later
    late.outcome = early.outcome.rename move ∧
    (∃ recent, early.machine.history = machine.history ++ recent ∧
      late.machine.history = later.history ++ recent.map (Event.rename move)) ∧
    (∀ scope, late.machine.store.frame? (move.scope scope) =
      (early.machine.store.frame? scope).map (Frame.rename move)) ∧
    move.Fixes machine.horizon ∧
    ∀ (any : Job H) (before : Machine H) (scope : Nat), scope < before.store.frames.size ->
      (any.run depth before).machine.store.frame? scope = before.store.frame? scope := by
  dsimp only
  obtain ⟨hclosed, hle⟩ := hreached.closed hpasses hstart
  obtain ⟨hresult, hshifted⟩ := Job.run_shifted depth (hblind.mono hle) hclosed
    (Job.runAll_extends depth machine others) htable
  refine ⟨Interpretation.outcome_rename hresult, ?_, hshifted.renamed,
    Renaming.fixes_shift _ _, fun any before scope hscope => ?_⟩
  · obtain ⟨recent, hearly, hlate⟩ := hshifted.events_eq
    refine ⟨recent.reverse, ?_, ?_⟩
    · exact (congrArg List.reverse hearly).trans List.reverse_append
    · rw [List.map_reverse]
      exact (congrArg List.reverse hlate).trans List.reverse_append
  · exact (any.run_extends depth before).frame?_eq hscope

/--
A job hands what a kept closure returns to a host function.  In between, other jobs call
the closure too, bind the name that it looks for, and fail.
-/
theorem kept_closure_unaffected :
    let table : Table Builtin := [(.text "f", keptClosure), (.text "+", .function .add)]
    let job : Job Builtin := ⟨false, table, "(+ (f (define x 1)) x)"⟩
    let others : List (Job Builtin) :=
      [⟨true, table, "(begin (define x 2) (f 3) (f))"⟩, ⟨true, table, "(lambda (y) f)"⟩]
    let later := Job.runAll 5 keeping.machine others
    let move := Renaming.shift keeping.machine.horizon later.horizon
    Reached 5 .empty keeping.machine ∧ table.Within keeping.machine.horizon ∧
      (job.run 5 later).outcome = (job.run 5 keeping.machine).outcome.rename move := by
  intro table job others
  have htable : table.Within keeping.machine.horizon :=
    Table.forall_mem_bindings (List.forall_mem_cons.mpr ⟨keeping_closed.2,
      List.forall_mem_singleton.mpr (Datum.within_of_atom rfl rfl _)⟩)
  have hsame := job_unaffected_by_others (passesOn_builtin _) (blind_builtin _) .empty
    reached_keeping job htable others
  exact ⟨reached_keeping, htable, hsame.1⟩

end Reckoner
