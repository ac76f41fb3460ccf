import Reckoner.Proofs.Correspondence.Simulation

/-!
# Strict and lax arity

To be lax about the number of operands changes nothing until a strict evaluation
would refuse a closure for it: the two evaluations go through the same machines up
to that point.
-/

namespace Reckoner

variable {H : Type}

def Event.isFailedCall : Event H -> Bool
  | .called _ _ (.error _) => true
  | _ => false

/-- From one machine to another, no call of a host function has failed. -/
def Machine.Unfailing (start machine : Machine H) : Prop :=
  ∃ recent, machine.events = recent ++ start.events ∧
    ∀ event ∈ recent, event.isFailedCall = false

/--
A result on which an evaluation ended where a closure was refused for the number
of its operands.  The failure is not one that a host function raised in the same
words, since none of those that were called has failed.
-/
def RefusedForCount (start : Machine H) (result : EStateM.Result Failure (Machine H) (Datum H)) :
    Prop :=
  ∃ expected given after, result = .error (.arityMismatch expected given) after ∧
    given ≠ expected ∧ start.Unfailing after

theorem Machine.Unfailing.record {start machine : Machine H} (h : start.Unfailing machine)
    {event : Event H} (hevent : event.isFailedCall = false) :
    start.Unfailing (machine.record event) := by
  obtain ⟨recent, hevents, hnone⟩ := h
  refine ⟨event :: recent, ?_, List.forall_mem_cons.mpr ⟨hevent, hnone⟩⟩
  rw [Machine.record, hevents, List.cons_append]

def aritySimulation [Host H] (start : Machine H) : Simulation H true false where
  move := .identity
  Machines a b := b = a ∧ start.Unfailing a
  Value _ _ := True
  Code _ _ _ := True
  Ended _ a b := b = a
  Excused failure a := (∃ expected given, failure = .arityMismatch expected given ∧
    given ≠ expected) ∧ start.Unfailing a
  stricter := Bool.false_le true
  value_later _ _ := trivial
  code_later _ _ := trivial
  ended h _ _ := h.1
  mismatch h _ hne := ⟨⟨_, _, rfl, hne⟩, h.2⟩
  value_nil := trivial
  atom _ _ _ := trivial
  operator _ _ _ := trivial
  operand _ _ _ _ := trivial
  lambda _ _ _ _ _ _ := trivial
  lookup h _ := by
    obtain ⟨rfl, -⟩ := h
    exact ⟨(Datum.option_map_rename_identity _).symm, fun _ _ => trivial⟩
  bound h _ _ := by
    obtain ⟨rfl, hunfailing⟩ := h
    exact ⟨by rw [Event.rename_identity], hunfailing.record rfl⟩
  born h := by
    obtain ⟨rfl, hunfailing⟩ := h
    exact ⟨rfl, rfl, hunfailing⟩
  nan _ := trivial
  opened h _ := by
    obtain ⟨rfl, hunfailing⟩ := h
    exact ⟨rfl, ⟨by rw [Event.rename_identity], hunfailing.record rfl⟩, trivial⟩
  refused h _ _ _ := h.1
  call_rename := Datum.call_rename_identity
  raised h _ _ := by rw [h.1, Event.rename_identity]
  absent h _ _ := by rw [h.1, Event.rename_identity]
  returned h _ _ _ := by
    obtain ⟨rfl, hunfailing⟩ := h
    exact ⟨⟨by rw [Event.rename_identity], hunfailing.record rfl⟩, fun _ => trivial⟩

/--
To be lax about the number of operands extends being strict: unless a strict
evaluation ends because a closure is refused for that number, a lax one from the
same machine has the same outcome and ends on the same machine.  That machine is
the store with the record of all that happened, so also of every call of a host
function.
-/
theorem evaluate_lax_extends_strict [Host H] (depth scope : Nat) (e : Datum H)
    (machine : Machine H) :
    RefusedForCount machine (evaluate true depth scope e machine) ∨
      evaluate false depth scope e machine = evaluate true depth scope e machine := by
  have hagree := (aritySimulation machine).agree_of_identity rfl depth scope (e := e) trivial
    (b := machine) ⟨rfl, [], rfl, by simp⟩
  revert hagree
  generalize evaluate true depth scope e machine = first
  generalize evaluate false depth scope e machine = second
  -- Both return, both fail, or only the strict evaluation does.
  rintro (⟨-, ⟨rfl, -⟩, hsame⟩ | hended | ⟨⟨expected, given, rfl, hne⟩, hunfailing⟩)
  · exact .inr (by rw [hsame.eq_of_identity rfl])
  · exact .inr (by rw [show _ = _ from hended])
  · exact .inl ⟨expected, given, _, rfl, hne, hunfailing⟩

end Reckoner
