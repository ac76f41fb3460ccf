import Reckoner.Proofs.Semantics.Runs

/-!
# The record of an evaluation

A machine keeps what happened on it.  `Machine.Recorded` says that one machine has
come from another by a history: the record has grown by it, and the store is the one
that it leads to.  Every evaluation adds such a history, whatever its outcome.
-/

namespace Reckoner

variable {H : Type}

/-- An event that is new at the end of a history has nothing after it. -/
theorem last_of_split {history past later : List (Event H)} {event last : Event H}
    (hsplit : history ++ [last] = past ++ event :: later) (hnew : event ∉ history) :
    later = [] ∧ event = last := by
  obtain rfl | ⟨earlier, final, rfl⟩ := later.eq_nil_or_concat'
  · obtain ⟨-, hlast⟩ := List.append_inj' hsplit rfl
    exact ⟨rfl, (List.cons.inj hlast).1.symm⟩
  · rw [← List.cons_append, ← List.append_assoc] at hsplit
    obtain ⟨rfl, -⟩ := List.append_inj' hsplit rfl
    exact absurd (by simp) hnew

namespace Machine

/-- Since the start exactly this history took place, and it led from the old store to the new. -/
structure Recorded (start machine : Machine H) (history : List (Event H)) : Prop where
  events_eq : machine.events = history.reverse ++ start.events
  store_eq : machine.store = history.foldl Store.after start.store

def callsSince (start machine : Machine H) : List (Call H) :=
  Call.all start.store (machine.history.drop start.history.length)

namespace Recorded

variable {first second third : Machine H} {early late : List (Event H)}

theorem refl (machine : Machine H) : machine.Recorded machine [] :=
  ⟨rfl, rfl⟩

theorem trans (hearly : first.Recorded second early) (hlate : second.Recorded third late) :
    first.Recorded third (early ++ late) := by
  refine ⟨?_, ?_⟩
  · rw [hlate.events_eq, hearly.events_eq, List.reverse_append, List.append_assoc]
  · rw [hlate.store_eq, hearly.store_eq, List.foldl_append]

theorem bear (h : first.Recorded second early) : first.Recorded second.bear early :=
  ⟨h.events_eq, h.store_eq⟩

theorem record (h : first.Recorded second early) (event : Event H) :
    first.Recorded (second.record event) (early ++ [event]) :=
  h.trans ⟨rfl, rfl⟩

theorem history_eq (h : first.Recorded second early) : second.history = first.history ++ early := by
  rw [history, h.events_eq, List.reverse_append, List.reverse_reverse]
  rfl

theorem callsSince_eq (h : first.Recorded second early) :
    first.callsSince second = Call.all first.store early := by
  rw [callsSince, h.history_eq, List.drop_left]

/-- What is recorded later adds calls after those made before. -/
theorem callsSince_prefix (hearly : first.Recorded second early)
    (hlate : second.Recorded third late) : first.callsSince second <+: first.callsSince third := by
  rw [hearly.callsSince_eq, (hearly.trans hlate).callsSince_eq, Call.all_append]
  exact List.prefix_append _ _

end Recorded

end Machine

theorem Effects.exists_recorded {scope : Nat} {before after : Machine H}
    (h : Effects scope before after) : ∃ history, before.Recorded after history := by
  induction h with
  | refl => exact ⟨[], .refl _⟩
  | trans _ _ hfirst hsecond =>
      obtain ⟨early, hearly⟩ := hfirst
      obtain ⟨late, hlate⟩ := hsecond
      exact ⟨early ++ late, hearly.trans hlate⟩
  | born => exact ⟨[], (Machine.Recorded.refl _).bear⟩
  | called function operands outcome => exact ⟨_, (Machine.Recorded.refl _).record _⟩
  | bound name value => exact ⟨_, (Machine.Recorded.refl _).record _⟩
  | within outer _ ih =>
      obtain ⟨inner, hinner⟩ := ih
      exact ⟨_, ((Machine.Recorded.refl _).record (.opened outer)).trans hinner⟩

end Reckoner
