import Reckoner.CommandLine.Report
import Reckoner.Proofs.Correspondence.Simulation
import Reckoner.Proofs.Isolation
import Reckoner.Proofs.Reading.Acceptance

/-!
# What stores and sources hold

A source is read as numbers, symbols and combinations, so whatever else a value is
made of came from the table, from a host function or from the machine's store.
-/

namespace Reckoner

variable {H : Type}

/-! ## Stores -/

namespace Store

@[simp] theorem size_push (store : Store H) (frame : Frame H) :
    (store.push frame).2.frames.size = store.frames.size + 1 := by
  simp [push]

theorem frame?_push (store : Store H) (frame : Frame H) (scope : Nat) :
    (store.push frame).2.frame? scope =
      if scope = store.frames.size then some frame else store.frame? scope := by
  simp only [push, frame?, Array.getElem?_push]

theorem frame?_bind (store : Store H) (scope other : Nat) (name : String) (value : Datum H) :
    (store.bind scope name value).frame? other =
      if scope = other then (store.frame? other).map fun frame => frame.bind name value
      else store.frame? other := by
  simp only [bind, frame?, Array.getElem?_modify]

/-- A frame of a store with one more scope is the new one or an old one. -/
theorem frame?_push_cases {store : Store H} {frame found : Frame H} {scope : Nat}
    (h : (store.push frame).2.frame? scope = some found) :
    scope = store.frames.size ∧ found = frame ∨ store.frame? scope = some found := by
  rw [frame?_push] at h
  split at h
  · exact .inl ⟨‹_›, (Option.some.inj h).symm⟩
  · exact .inr h

/-- A frame of a store with one more binding is an old one, with or without it. -/
theorem frame?_bind_cases {store : Store H} {scope other : Nat} {name : String} {value : Datum H}
    {found : Frame H} (h : (store.bind scope name value).frame? other = some found) :
    ∃ frame, store.frame? other = some frame ∧ (found = frame.bind name value ∨ found = frame) := by
  rw [frame?_bind] at h
  split at h
  · obtain ⟨frame, hframe, rfl⟩ := Option.map_eq_some_iff.mp h
    exact ⟨frame, hframe, .inl rfl⟩
  · exact ⟨found, h, .inr rfl⟩

def Holds (P : Datum H -> Prop) (store : Store H) : Prop :=
  ∀ scope frame, store.frame? scope = some frame -> ∀ binding ∈ frame.bindings, P binding.2

namespace Holds

variable {P Q : Datum H -> Prop} {store : Store H}

theorem mono (h : store.Holds P) (hle : ∀ value, P value -> Q value) : store.Holds Q :=
  fun scope frame hframe binding hmem => hle _ (h scope frame hframe binding hmem)

theorem empty : (Store.empty : Store H).Holds P := by
  intro scope frame hframe
  simp [Store.empty, frame?] at hframe

theorem push (h : store.Holds P) {frame : Frame H}
    (hframe : ∀ binding ∈ frame.bindings, P binding.2) : (store.push frame).2.Holds P := by
  intro scope found hfound
  obtain ⟨-, rfl⟩ | hold := frame?_push_cases hfound
  · exact hframe
  · exact h scope found hold

theorem bind (h : store.Holds P) {value : Datum H} (hvalue : P value) (scope : Nat)
    (name : String) : (store.bind scope name value).Holds P := by
  intro other found hfound
  obtain ⟨frame, hframe, rfl | rfl⟩ := frame?_bind_cases hfound
  · exact Entries.forall_mem_put (h other frame hframe) hvalue
  · exact h other found hframe

theorem sees (h : store.Holds P) {scope : Nat} {name : String} {value : Datum H}
    (hsees : store.Sees name value scope) : P value := by
  induction hsees with
  | own hframe hvalue =>
      obtain ⟨binding, hmem, rfl⟩ := Entries.exists_mem_of_get? hvalue
      exact h _ _ hframe binding hmem
  | outer _ _ _ _ ih => exact ih

theorem lookup? (h : store.Holds P) {scope : Nat} {name : String} {value : Datum H}
    (hvalue : store.lookup? scope name = some value) : P value :=
  h.sees (lookup?_eq_some_iff.mp hvalue)

end Holds

end Store

/-- What holds of all values of a table holds of those it binds. -/
theorem Table.forall_mem_bindings {P : Datum H -> Prop} {table : Table H}
    (h : ∀ entry ∈ table, P entry.2) : ∀ binding ∈ table.bindings, P binding.2 := by
  suffices hinto : ∀ bindings : Bindings H, (∀ binding ∈ bindings, P binding.2) ->
      ∀ binding ∈ bindInto bindings table, P binding.2 from hinto [] (by simp)
  induction table with
  | nil => exact fun bindings hbindings => hbindings
  | cons entry rest ih =>
      intro bindings hbindings
      obtain ⟨hfirst, hrest⟩ := List.forall_mem_cons.mp h
      unfold bindInto
      split
      · exact ih hrest _ (Entries.forall_mem_put hbindings hfirst)
      · exact ih hrest _ hbindings

/-! ## Sources -/

def Datum.IsSource (d : Datum H) : Prop :=
  ∀ part, Datum.Occurs part d -> part ≠ .absent ∧ part.isBorn = false

theorem Derives.isSource {tokens : List String} {e : Datum H} (h : Derives tokens e) :
    e.IsSource := by
  induction h with
  | number _ =>
      intro part hpart
      rw [hpart.eq_of_atom rfl rfl]
      exact ⟨by simp, rfl⟩
  | symbol _ _ =>
      intro part hpart
      rw [hpart.eq_of_atom rfl rfl]
      exact ⟨by simp, rfl⟩
  | combination _ ih =>
      intro part hpart
      cases hpart with
      | self => exact ⟨by simp, rfl⟩
      | item hitems hmem hpart =>
          cases hitems
          obtain ⟨piece, hpiece, rfl⟩ := List.mem_map.mp hmem
          exact ih piece hpiece part hpart

theorem isSource_of_parse {depth : Nat} {source : String} {e : Datum H}
    (h : parse depth source = .ok e) : e.IsSource :=
  (derives_of_parse h).1.isSource

namespace Reader

theorem isRaised_of_start {token : String} {stack : Stack H} {failure : Failure}
    (h : start token stack = .failed failure) : failure.isRaised = false := by
  unfold start at h
  split at h
  · cases stack <;> cases h
  · cases h; rfl
  · cases stack <;> cases h
  · cases h
  · cases h; rfl
  · cases h; rfl

theorem isRaised_of_step {depth : Nat} {token : String} {stack : Stack H} {failure : Failure}
    (h : step depth token stack = .failed failure) : failure.isRaised = false := by
  unfold step at h
  split at h
  · split at h
    · cases h; rfl
    · exact isRaised_of_start h
  · split at h
    · rename_i outer _
      cases outer <;> cases h
    · split at h
      · cases h; rfl
      · exact isRaised_of_start h

theorem isRaised_of_resume {depth : Nat} {stack : Stack H} {tokens : List String}
    {failure : Failure} (h : (resume depth stack tokens).outcome = .error failure) :
    failure.isRaised = false := by
  induction tokens generalizing stack with
  | nil => cases h; rfl
  | cons token rest ih =>
      unfold resume at h
      split at h
      · cases h
      · rename_i hstep
        cases h
        exact isRaised_of_step hstep
      · exact ih h

end Reader

theorem isRaised_of_parse {depth : Nat} {source : String} {failure : Failure}
    (h : (parse depth source : Except Failure (Datum H)) = .error failure) :
    failure.isRaised = false := by
  unfold parse at h
  dsimp only at h
  split at h
  · rename_i hread
    cases h
    exact Reader.isRaised_of_resume hread
  · split at h
    · cases h
    · cases h; rfl

/-! ## The calculator -/

theorem Builtin.call_cases (b : Builtin) (operands : List (Datum H)) :
    (∃ n, b.call operands = .ok (.number n)) ∨
      ∃ fault, b.call operands = .error (.calculation fault) := by
  unfold Builtin.call
  split
  · exact .inl ⟨_, rfl⟩
  · exact .inr ⟨_, rfl⟩

/-! ## Interpretations -/

/-- The machine on which a source is evaluated: there is a new root with the table's bindings. -/
def Machine.withRoot (machine : Machine H) (table : Table H) : Machine H :=
  ⟨(machine.store.openRoot table).2, machine.births, machine.events⟩

theorem Machine.horizon_withRoot (machine : Machine H) (table : Table H) :
    (machine.withRoot table).horizon = ⟨machine.store.frames.size + 1, machine.births⟩ := by
  simp [withRoot, horizon, Store.openRoot]

theorem Machine.horizon_le_withRoot (machine : Machine H) (table : Table H) :
    machine.horizon.Le (machine.withRoot table).horizon := by
  rw [horizon_withRoot]
  exact ⟨Nat.le_succ _, Nat.le_refl _⟩

theorem interpret_of_error [Host H] {depth : Nat} {source : String} {failure : Failure}
    (h : (parse depth source : Except Failure (Datum H)) = .error failure) (strict : Bool)
    (machine : Machine H) (table : Table H) :
    interpret depth strict machine table source =
      ⟨table.skipped, none, .error failure, machine.withRoot table⟩ := by
  simp only [interpret, h]
  rfl

theorem interpret_of_ok [Host H] {depth : Nat} {source : String} {e : Datum H}
    (h : parse depth source = .ok e) (strict : Bool) (machine : Machine H) (table : Table H) :
    interpret depth strict machine table source =
      let ended := evaluate strict depth machine.store.frames.size e (machine.withRoot table)
      ⟨table.skipped, some e, Action.outcome ended, Action.final ended⟩ := by
  simp only [interpret, h]
  generalize hended : evaluate strict depth machine.store.frames.size e (machine.withRoot table) =
    ended
  have hrun : evaluate strict depth (machine.store.openRoot table).1 e
      ⟨(machine.store.openRoot table).2, machine.births, machine.events⟩ = ended := hended
  rw [hrun]
  cases ended <;> rfl

end Reckoner
