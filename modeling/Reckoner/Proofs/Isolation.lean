import Reckoner.CommandLine.Report
import Reckoner.Proofs.Effects

/-!
# Isolation of scopes

An evaluation writes to the frame of its own scope and to frames that are new,
and it never relinks a frame.  A call writes to new frames only, even where the
closure's own scope or the caller's scope is at hand.
-/

namespace Reckoner

variable {H : Type}

namespace Store

/-- Between two stores nothing old differs but the bindings of one scope. -/
structure SameOutside (scope : Nat) (before after : Store H) : Prop where
  size_le : before.frames.size ≤ after.frames.size
  frame?_eq : ∀ {other : Nat}, other < before.frames.size -> other ≠ scope ->
    after.frame? other = before.frame? other
  outer_eq : ∀ {frame : Frame H}, before.frame? scope = some frame ->
    ∃ bindings, after.frame? scope = some ⟨bindings, frame.outer⟩

theorem lt_size_of_frame? {store : Store H} {scope : Nat} {frame : Frame H}
    (h : store.frame? scope = some frame) : scope < store.frames.size :=
  (Array.getElem?_eq_some_iff.mp h).1

namespace SameOutside

theorem refl (scope : Nat) (store : Store H) : SameOutside scope store store :=
  ⟨Nat.le_refl _, fun _ _ => rfl, fun h => ⟨_, h⟩⟩

theorem trans {scope : Nat} {first second third : Store H}
    (hfirst : SameOutside scope first second) (hsecond : SameOutside scope second third) :
    SameOutside scope first third := by
  refine ⟨Nat.le_trans hfirst.size_le hsecond.size_le, ?_, ?_⟩
  · intro other hold hne
    rw [hsecond.frame?_eq (Nat.lt_of_lt_of_le hold hfirst.size_le) hne]
    exact hfirst.frame?_eq hold hne
  · intro frame hframe
    obtain ⟨middle, hmiddle⟩ := hfirst.outer_eq hframe
    obtain ⟨last, hlast⟩ := hsecond.outer_eq hmiddle
    exact ⟨last, hlast⟩

theorem bind (scope : Nat) (store : Store H) (name : String) (value : Datum H) :
    SameOutside scope store (store.bind scope name value) := by
  refine ⟨Nat.le_of_eq (size_bind store scope name value).symm, ?_, ?_⟩
  · intro other _ hne
    exact frame?_bind_of_ne store hne.symm name value
  · intro frame hframe
    rw [frame?_bind_self, hframe]
    exact ⟨_, rfl⟩

/-- What differs only in a scope that is new differs in no old scope. -/
theorem of_new {outer : Option Nat} {before after : Store H}
    (h : SameOutside before.frames.size (before.create outer).2 after) (scope : Nat) :
    SameOutside scope before after := by
  have hsize : (before.create outer).2.frames.size = before.frames.size + 1 :=
    Array.size_push ..
  have hold : ∀ {other}, other < before.frames.size -> after.frame? other = before.frame? other := by
    intro other hlt
    rw [h.frame?_eq (by omega) (Nat.ne_of_lt hlt)]
    exact frame?_push_of_lt before _ hlt
  refine ⟨?_, fun hlt _ => hold hlt, ?_⟩
  · have := h.size_le
    omega
  · intro frame hframe
    exact ⟨frame.bindings, (hold (lt_size_of_frame? hframe)).trans hframe⟩

end SameOutside

end Store

theorem Effects.sameOutside {scope : Nat} {before after : Machine H}
    (h : Effects scope before after) : Store.SameOutside scope before.store after.store := by
  induction h with
  | refl => exact .refl _ _
  | trans _ _ hfirst hsecond => exact hfirst.trans hsecond
  | born => exact .refl _ _
  | called => exact .refl _ _
  | bound name value => exact .bind _ _ name value
  | within outer _ ih => exact Store.SameOutside.of_new ih _

/--
Of the scopes that exist before an evaluation, only the one it runs in can have
other bindings afterwards, and that one keeps its place; a call changes none.
The outcome may be a value or any failure, running out of depth included.
-/
theorem evaluate_isolates_scopes [Host H] (strict : Bool) (depth scope : Nat)
    (expression : Datum H) (machine : Machine H) :
    (∀ other, other < machine.store.frames.size -> other ≠ scope ->
      (Action.final (evaluate strict depth scope expression machine)).store.frame? other =
        machine.store.frame? other) ∧
    (∀ frame, machine.store.frame? scope = some frame ->
      ∃ bindings, (Action.final (evaluate strict depth scope expression machine)).store.frame? scope =
        some ⟨bindings, frame.outer⟩) ∧
    (∀ head operands other, other < machine.store.frames.size ->
      (Action.final
          (Evaluation.apply strict (evaluate strict depth) head operands machine)).store.frame? other =
        machine.store.frame? other) := by
  have hown := (evaluate_does strict depth scope expression machine).sameOutside
  refine ⟨fun _ hold hne => hown.frame?_eq hold hne, fun _ hframe => hown.outer_eq hframe, ?_⟩
  intro head operands other hold
  -- A call has its effects in any scope, so also in one that does not exist yet.
  have hcall := (Evaluation.apply_does strict (evaluate_does strict depth)
    machine.store.frames.size head operands machine).sameOutside
  exact hcall.frame?_eq hold (Nat.ne_of_lt hold)

/-- Two scopes, the inner one empty; the outer binds `f` to a closure that defines `y` when called. -/
def definingClosure : Machine Builtin :=
  let body := .combination [.symbol "define", .symbol "y", .symbol "x"]
  ⟨⟨#[⟨[("f", .closure 0 [.symbol "x"] body 0)], none⟩, ⟨[], some 0⟩]⟩, 1, []⟩

theorem definingClosure_isolated :
    let call := .combination [.symbol "f", .number (.int 7)]
    let program := .combination [.symbol "begin",
      .combination [.symbol "define", .symbol "z", .number (.int 5)], call]
    let after := Action.final (evaluate true 9 1 program definingClosure)
    0 < definingClosure.store.frames.size ∧ after.store.frames.size = 3 ∧
      after.store.frame? 0 = definingClosure.store.frame? 0 ∧
      ∃ bindings, after.store.frame? 1 = some ⟨bindings, some 0⟩ :=
  ⟨by decide, by decide,
    (evaluate_isolates_scopes true 9 1 _ definingClosure).1 0 (by decide) (by decide),
    (evaluate_isolates_scopes true 9 1 _ definingClosure).2.1 ⟨[], some 0⟩ rfl⟩

end Reckoner
