import Reckoner.Proofs.Effects
import Reckoner.Proofs.Semantics.Visibility

/-!
# Runs of actions

The link between the rules of evaluation and the machine.  `Runs` observes an
action on every machine with a given memory: its outcome, the memory it leaves
and the calls in what it adds to the record.  `Settles` is the same for an action
at every depth that is large enough.  `Explained` says of such a family that all
its late runs are instances of a relation, except those that are cut short.
-/

namespace Reckoner

variable {H α β : Type}

def Action.result (outcome : Except Failure α) (machine : Machine H) :
    EStateM.Result Failure (Machine H) α :=
  match outcome with
  | .ok value => .ok value machine
  | .error failure => .error failure machine

/--
On a machine with the given memory, whatever its record, the action has this
outcome, leaves this memory, and adds a history to the record that leads from one
store to the other and makes these calls.
-/
def Runs (action : Action H α) (memory : Memory H) (outcome : Except Failure α)
    (after : Memory H) (calls : List (Call H)) : Prop :=
  ∀ events, ∃ history : List (Event H),
    action ⟨memory.store, memory.births, events⟩ =
      Action.result outcome ⟨after.store, after.births, history.reverse ++ events⟩ ∧
    history.foldl Store.after memory.store = after.store ∧
    Call.all memory.store history = calls

theorem Call.all_append (store : Store H) (first second : List (Event H)) :
    Call.all store (first ++ second) =
      Call.all store first ++ Call.all (first.foldl Store.after store) second := by
  induction first generalizing store with
  | nil => rfl
  | cons event rest ih =>
      cases event with
      | called function operands outcome => simp [Call.all, ih, Store.after]
      | opened outer => simp [Call.all, ih]
      | bound scope name value => simp [Call.all, ih]

theorem Store.size_le_after (store : Store H) (event : Event H) :
    store.frames.size ≤ (store.after event).frames.size := by
  cases event with
  | called function operands outcome => exact Nat.le_refl _
  | opened outer => simp [Store.after, Store.create, Store.push]
  | bound scope name value => simp [Store.after]

theorem Store.size_le_foldl_after (store : Store H) (history : List (Event H)) :
    store.frames.size ≤ (history.foldl Store.after store).frames.size := by
  induction history generalizing store with
  | nil => exact Nat.le_refl _
  | cons event rest ih => exact Nat.le_trans (store.size_le_after event) (ih _)

namespace Runs

theorem pure (value : α) (memory : Memory H) :
    Runs (pure value : Action H α) memory (.ok value) memory [] :=
  fun _ => ⟨[], rfl, rfl, rfl⟩

theorem throw (failure : Failure) (memory : Memory H) :
    Runs (throw failure : Action H α) memory (.error failure) memory [] :=
  fun _ => ⟨[], rfl, rfl, rfl⟩

theorem bind {action : Action H α} {next : α -> Action H β} {memory middle after : Memory H}
    {value : α} {outcome : Except Failure β} {first second : List (Call H)}
    (haction : Runs action memory (.ok value) middle first)
    (hnext : Runs (next value) middle outcome after second) :
    Runs (action >>= next) memory outcome after (first ++ second) := by
  intro events
  obtain ⟨early, hearly, hmiddle, hfirst⟩ := haction events
  obtain ⟨late, hlate, hafter, hsecond⟩ := hnext (early.reverse ++ events)
  refine ⟨early ++ late, ?_, ?_, ?_⟩
  · rw [Action.bind_of_ok hearly, hlate, List.reverse_append, List.append_assoc]
  · rw [List.foldl_append, hmiddle, hafter]
  · rw [Call.all_append, hfirst, hmiddle, hsecond]

theorem bind_error {action : Action H α} {next : α -> Action H β} {memory after : Memory H}
    {failure : Failure} {calls : List (Call H)}
    (haction : Runs action memory (.error failure) after calls) :
    Runs (action >>= next) memory (.error failure) after calls := by
  intro events
  obtain ⟨history, hresult, hafter, hcalls⟩ := haction events
  exact ⟨history, Action.bind_of_error hresult, hafter, hcalls⟩

theorem size_le {action : Action H α} {memory after : Memory H} {outcome : Except Failure α}
    {calls : List (Call H)} (h : Runs action memory outcome after calls) :
    memory.store.frames.size ≤ after.store.frames.size := by
  obtain ⟨history, _, hafter, _⟩ := h []
  rw [← hafter]
  exact Store.size_le_foldl_after memory.store history

theorem unique {action : Action H α} {memory : Memory H} {outcome outcome' : Except Failure α}
    {after after' : Memory H} {calls calls' : List (Call H)}
    (h : Runs action memory outcome after calls) (h' : Runs action memory outcome' after' calls') :
    outcome = outcome' ∧ after = after' ∧ calls = calls' := by
  obtain ⟨history, hresult, -, hcalls⟩ := h []
  obtain ⟨history', hresult', -, hcalls'⟩ := h' []
  rw [hresult] at hresult'
  rcases after with ⟨store, births⟩
  rcases after' with ⟨store', births'⟩
  cases outcome <;> cases outcome' <;>
    simp only [Action.result, EStateM.Result.ok.injEq, EStateM.Result.error.injEq, reduceCtorEq,
      Machine.mk.injEq, List.append_nil, List.reverse_inj] at hresult'
  · obtain ⟨rfl, rfl, rfl, rfl⟩ := hresult'
    exact ⟨rfl, rfl, hcalls.symm.trans hcalls'⟩
  · obtain ⟨rfl, rfl, rfl, rfl⟩ := hresult'
    exact ⟨rfl, rfl, hcalls.symm.trans hcalls'⟩

end Runs

/-! ## Families of actions -/

/-- The run of a family of actions at every depth from some bound on. -/
def Settles (family : Nat -> Action H α) (memory : Memory H) (outcome : Except Failure α)
    (after : Memory H) (calls : List (Call H)) : Prop :=
  ∃ bound, ∀ depth, bound ≤ depth -> Runs (family depth) memory outcome after calls

namespace Settles

theorem of_runs {family : Nat -> Action H α} {memory after : Memory H}
    {outcome : Except Failure α} {calls : List (Call H)}
    (h : ∀ depth, Runs (family depth) memory outcome after calls) :
    Settles family memory outcome after calls :=
  ⟨0, fun depth _ => h depth⟩

theorem bind {family : Nat -> Action H α} {next : Nat -> α -> Action H β}
    {memory middle after : Memory H} {value : α} {outcome : Except Failure β}
    {first second : List (Call H)} (hfirst : Settles family memory (.ok value) middle first)
    (hnext : Settles (fun depth => next depth value) middle outcome after second) :
    Settles (fun depth => family depth >>= next depth) memory outcome after (first ++ second) := by
  obtain ⟨early, hearly⟩ := hfirst
  obtain ⟨late, hlate⟩ := hnext
  refine ⟨max early late, fun depth hdepth => ?_⟩
  exact (hearly depth (by omega)).bind (hlate depth (by omega))

theorem bind_error {family : Nat -> Action H α} {next : Nat -> α -> Action H β}
    {memory after : Memory H} {failure : Failure} {calls : List (Call H)}
    (hfirst : Settles family memory (.error failure) after calls) :
    Settles (fun depth => family depth >>= next depth) memory (.error failure) after calls := by
  obtain ⟨bound, hbound⟩ := hfirst
  exact ⟨bound, fun depth hdepth => (hbound depth hdepth).bind_error⟩

/-- What settles one activation deeper settles. -/
theorem of_succ {family : Nat -> Action H α} {memory after : Memory H}
    {outcome : Except Failure α} {calls : List (Call H)}
    (h : Settles (fun depth => family (depth + 1)) memory outcome after calls) :
    Settles family memory outcome after calls := by
  obtain ⟨bound, hbound⟩ := h
  refine ⟨bound + 1, fun depth hdepth => ?_⟩
  obtain ⟨rest, rfl⟩ := Nat.exists_eq_add_of_le' (Nat.lt_of_lt_of_le (Nat.succ_pos bound) hdepth)
  exact hbound rest (by omega)

end Settles

/-- From some depth on, runs are related, or they ran out of depth and left such a memory. -/
def Explained (cut : Memory H -> Prop)
    (relation : Except Failure α -> Memory H -> List (Call H) -> Prop)
    (family : Nat -> Action H α) (memory : Memory H) : Prop :=
  ∃ bound, ∀ depth, bound ≤ depth -> ∃ outcome after calls,
    Runs (family depth) memory outcome after calls ∧
      (relation outcome after calls ∨ outcome = .error .depthExceeded ∧ cut after)

/-- A related run at one depth is the run at all later ones. -/
def Steady (relation : Except Failure α -> Memory H -> List (Call H) -> Prop)
    (family : Nat -> Action H α) (memory : Memory H) : Prop :=
  ∀ depth outcome after calls, Runs (family depth) memory outcome after calls ->
    relation outcome after calls -> Settles family memory outcome after calls

namespace Explained

variable {cut : Memory H -> Prop} {family : Nat -> Action H α} {memory : Memory H}
  {relation : Except Failure α -> Memory H -> List (Call H) -> Prop}
  {target : Except Failure β -> Memory H -> List (Call H) -> Prop}

theorem of_runs {outcome : Except Failure α} {after : Memory H} {calls : List (Call H)}
    (h : ∀ depth, Runs (family depth) memory outcome after calls)
    (hrelated : relation outcome after calls) : Explained cut relation family memory :=
  ⟨0, fun depth _ => ⟨outcome, after, calls, h depth, .inl hrelated⟩⟩

theorem bind {next : Nat -> α -> Action H β} (hfirst : Explained cut relation family memory)
    (hsteady : Steady relation family memory)
    (hnext : ∀ value middle first, relation (.ok value) middle first ->
      memory.store.frames.size ≤ middle.store.frames.size ->
        Explained cut (fun outcome after second => target outcome after (first ++ second))
          (fun depth => next depth value) middle)
    (hfailed : ∀ failure after calls, relation (.error failure) after calls ->
      target (.error failure) after calls) :
    Explained cut target (fun depth => family depth >>= next depth) memory := by
  obtain ⟨bound, hbound⟩ := hfirst
  by_cases h : ∃ depth outcome after calls,
      Runs (family depth) memory outcome after calls ∧ relation outcome after calls
  · obtain ⟨depth, outcome, middle, first, hruns, hrelated⟩ := h
    obtain ⟨early, hearly⟩ := hsteady depth outcome middle first hruns hrelated
    cases outcome with
    | ok value =>
        obtain ⟨late, hlate⟩ := hnext value middle first hrelated hruns.size_le
        refine ⟨max early late, fun depth hdepth => ?_⟩
        obtain ⟨outcome, after, second, hrest, hend⟩ := hlate depth (by omega)
        exact ⟨outcome, after, first ++ second, (hearly depth (by omega)).bind hrest, hend⟩
    | error failure =>
        exact ⟨early, fun depth hdepth => ⟨_, middle, first, (hearly depth hdepth).bind_error,
          .inl (hfailed failure middle first hrelated)⟩⟩
  · -- No run of the first action is related, so all late ones are cut short, and so is the whole.
    refine ⟨bound, fun depth hdepth => ?_⟩
    obtain ⟨outcome, after, calls, hruns, hrelated | ⟨hexceeded, hcut⟩⟩ := hbound depth hdepth
    · exact absurd ⟨depth, outcome, after, calls, hruns, hrelated⟩ h
    · subst hexceeded
      exact ⟨_, after, calls, hruns.bind_error, .inr ⟨rfl, hcut⟩⟩

end Explained

end Reckoner
