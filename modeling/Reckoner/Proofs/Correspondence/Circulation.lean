import Reckoner.Proofs.Correspondence.Discipline
import Reckoner.Proofs.Correspondence.Presence
import Reckoner.Proofs.Record

/-!
# Circulation of values

A host function may return nothing, which is the absent value.  The evaluator looks
for it in one place, where the function returns; what is bound, captured, passed on
and returned afterwards is never looked at again.  `Circulation` is what that guard
is good for: if nothing absent waits in the store or in the code, then nothing
absent is handed on at any point of an evaluation, and a function that returns
nothing is the last thing that happens in it.
-/

namespace Reckoner

variable {H : Type}

/-! ## Hosts -/

/--
A closure has a scope, so a host that leaves scopes alone makes none; and those that
it was given are solid.
-/
theorem Host.MakesNoClosures.keepsSolid [Host H] (h : Host.MakesNoClosures H) :
    Host.KeepsSolid H := by
  intro function operands value hoperands hcall birth parameters body scope hclosure
  obtain ⟨operand, hmem, hoccurs⟩ := h function operands value hcall _ _ _ _ hclosure
  exact hoperands operand hmem _ _ _ _ hoccurs

/-! ## Events -/

namespace Event

/-- What the event hands on is present, and a call had the outcome that its function gives. -/
def HandsPresent [Host H] : Event H -> Prop
  | .called function operands outcome =>
      outcome = Host.call function operands ∧ ∀ operand ∈ operands, operand.Present
  | .opened _ => True
  | .bound _ _ value => value.Present

theorem handsPresent_called [Host H] {function : H} {operands : List (Datum H)}
    {outcome : Except Failure (Datum H)} (hcall : Host.call function operands = outcome)
    (hoperands : ∀ operand ∈ operands, operand.Present) :
    (Event.called function operands outcome).HandsPresent :=
  ⟨hcall.symm, hoperands⟩

def GaveNothing (event : Event H) : Prop :=
  ∃ function operands, event = .called function operands (.ok .absent)

end Event

namespace Store.Holds

variable [Host H] {store : Store H}

theorem after (h : store.Holds Datum.Present) {event : Event H} (hevent : event.HandsPresent) :
    (store.after event).Holds Datum.Present := by
  cases event with
  | called function operands outcome => exact h
  | opened outer => exact h.push (by simp)
  | bound scope name value => exact h.bind hevent scope name

theorem foldl_after (h : store.Holds Datum.Present) {history : List (Event H)}
    (hevents : ∀ event ∈ history, event.HandsPresent) :
    (history.foldl Store.after store).Holds Datum.Present := by
  induction history generalizing store with
  | nil => exact h
  | cons event later ih =>
      obtain ⟨hevent, hlater⟩ := List.forall_mem_cons.mp hevents
      exact ih (h.after hevent) hlater

end Store.Holds

/-! ## Machines -/

namespace Machine

structure Circulated [Host H] (start machine : Machine H) (history : List (Event H)) : Prop where
  events_eq : machine.events = history.reverse ++ start.events
  store_eq : machine.store = history.foldl Store.after start.store
  handsPresent : ∀ event ∈ history, event.HandsPresent

namespace Circulated

variable [Host H] {start machine : Machine H} {history : List (Event H)}

theorem refl (start : Machine H) : start.Circulated start [] :=
  ⟨rfl, rfl, by simp⟩

theorem bear (h : start.Circulated machine history) : start.Circulated machine.bear history :=
  ⟨h.events_eq, h.store_eq, h.handsPresent⟩

theorem record (h : start.Circulated machine history) {event : Event H}
    (hevent : event.HandsPresent) :
    start.Circulated (machine.record event) (history ++ [event]) := by
  refine ⟨?_, ?_, ?_⟩
  · rw [Machine.record, h.events_eq, List.reverse_append]
    rfl
  · rw [Machine.record, h.store_eq, List.foldl_append]
    rfl
  · exact List.forall_mem_append.mpr ⟨h.handsPresent, List.forall_mem_singleton.mpr hevent⟩

theorem call_eq (h : start.Circulated machine history) {past later : List (Event H)} {function : H}
    {operands : List (Datum H)} {outcome : Except Failure (Datum H)}
    (hsplit : history = past ++ .called function operands outcome :: later) :
    Host.call function operands = outcome := by
  have hcalled : (Event.called function operands outcome).HandsPresent :=
    h.handsPresent _ (by simp [hsplit])
  exact hcalled.1.symm

/-- Nothing absent is bound at any point of the history. -/
theorem holds_of_prefix (h : start.Circulated machine history)
    (hstart : start.store.Holds Datum.Present) {past : List (Event H)} (hpast : past <+: history) :
    (past.foldl Store.after start.store).Holds Datum.Present :=
  hstart.foldl_after fun event hmem => h.handsPresent event (hpast.subset hmem)

theorem holds (h : start.Circulated machine history)
    (hstart : start.store.Holds Datum.Present) : machine.store.Holds Datum.Present :=
  h.store_eq ▸ h.holds_of_prefix hstart (List.prefix_refl history)

end Circulated

def Quiet [Host H] (start machine : Machine H) : Prop :=
  ∃ history, start.Circulated machine history ∧ ∀ event ∈ history, ¬ event.GaveNothing

/--
Since the start values circulated until an evaluation failed.  If a call gave
nothing, then it was the last event, and its function is blamed.
-/
def Stopped [Host H] (start : Machine H) (failure : Failure) (machine : Machine H) : Prop :=
  ∃ history, start.Circulated machine history ∧
    ∀ past function operands later,
      history = past ++ .called function operands (.ok .absent) :: later ->
        later = [] ∧ failure = .noValue (Host.title function)

namespace Quiet

variable [Host H] {start machine : Machine H}

theorem holds (h : start.Quiet machine) (hstart : start.store.Holds Datum.Present) :
    machine.store.Holds Datum.Present := by
  obtain ⟨history, hcirculated, -⟩ := h
  exact hcirculated.holds hstart

theorem bear (h : start.Quiet machine) : start.Quiet machine.bear := by
  obtain ⟨history, hcirculated, hgave⟩ := h
  exact ⟨history, hcirculated.bear, hgave⟩

theorem record (h : start.Quiet machine) {event : Event H} (hevent : event.HandsPresent)
    (hgave : ¬ event.GaveNothing) : start.Quiet (machine.record event) := by
  obtain ⟨history, hcirculated, hquiet⟩ := h
  refine ⟨history ++ [event], hcirculated.record hevent, ?_⟩
  exact List.forall_mem_append.mpr ⟨hquiet, List.forall_mem_singleton.mpr hgave⟩

theorem stopped (h : start.Quiet machine) (failure : Failure) : start.Stopped failure machine := by
  obtain ⟨history, hcirculated, hquiet⟩ := h
  refine ⟨history, hcirculated, ?_⟩
  rintro past function operands later rfl
  exact absurd ⟨function, operands, rfl⟩ (hquiet _ (by simp))

/-- The call that gave nothing is the only one of its kind, as all others came before it. -/
theorem stopped_record (h : start.Quiet machine) {function : H} {operands : List (Datum H)}
    (hcall : Host.call function operands = .ok .absent)
    (hoperands : ∀ operand ∈ operands, operand.Present) :
    start.Stopped (.noValue (Host.title function))
      (machine.record (.called function operands (.ok .absent))) := by
  obtain ⟨history, hcirculated, hquiet⟩ := h
  refine ⟨history ++ [.called function operands (.ok .absent)],
    hcirculated.record (Event.handsPresent_called hcall hoperands), fun past other others later heq => ?_⟩
  have hnew : Event.called other others (.ok .absent) ∉ history := fun hmem =>
    hquiet _ hmem ⟨other, others, rfl⟩
  obtain ⟨rfl, hsame⟩ := last_of_split heq hnew
  cases hsame
  exact ⟨rfl, rfl⟩

end Quiet

end Machine

/-! ## Evaluations -/

def circulationSimulation [Host H] (hsolid : Host.KeepsSolid H) {start : Machine H}
    (hstart : start.store.Holds Datum.Present) (strict : Bool) : Simulation H strict strict where
  move := .identity
  Machines a b := b = a ∧ start.Quiet a
  Value _ v := v.Present
  Code _ _ e := ¬ Datum.Occurs .absent e
  Ended failure a _ := start.Stopped failure a
  Excused _ _ := False
  stricter := Bool.le_refl strict
  value_later _ h := h
  code_later _ h := h
  ended h _ _ := h.2.stopped _
  mismatch _ hne _ := hne rfl
  value_nil := Datum.present_of_not_occurs fun h => by cases h.eq_of_atom rfl rfl
  atom h _ _ := Datum.present_of_not_occurs h
  operator h hitems _ hoperator := h (.item hitems List.mem_cons_self hoperator)
  operand h hitems _ hmem hoperand := h (.item hitems (List.mem_cons_of_mem _ hmem) hoperand)
  lambda _ h hitems _ hnames _ :=
    Datum.present_of_not_occurs <| Datum.not_occurs_absent_closure hnames fun hbody =>
      h (.item hitems (by simp) hbody)
  lookup h _ := by
    obtain ⟨rfl, hquiet⟩ := h
    refine ⟨(Datum.option_map_rename_identity _).symm, fun _ hvalue => ?_⟩
    exact (hquiet.holds hstart).lookup? hvalue
  bound h _ hvalue := by
    obtain ⟨rfl, hquiet⟩ := h
    exact ⟨by rw [Event.rename_identity], hquiet.record hvalue (by rintro ⟨_, _, ⟨⟩⟩)⟩
  born h := by
    obtain ⟨rfl, hquiet⟩ := h
    exact ⟨rfl, rfl, hquiet.bear⟩
  nan _ := Datum.present_of_not_occurs (by rintro ⟨⟩; contradiction)
  opened h hvalue := by
    obtain ⟨rfl, hquiet⟩ := h
    refine ⟨rfl, ⟨by rw [Event.rename_identity], ?_⟩, hvalue.2 _ _ _ _ .self⟩
    exact hquiet.record trivial (by rintro ⟨_, _, ⟨⟩⟩)
  refused h _ _ _ := h.2.stopped _
  call_rename := Datum.call_rename_identity
  raised h hoperands hcall :=
    (h.2.record (Event.handsPresent_called hcall hoperands) (by rintro ⟨_, _, ⟨⟩⟩)).stopped _
  absent h hoperands hcall := h.2.stopped_record hcall hoperands
  returned h hoperands hcall hvalue := by
    obtain ⟨rfl, hquiet⟩ := h
    refine ⟨⟨by rw [Event.rename_identity], ?_⟩, fun _ => ?_⟩
    · refine hquiet.record (Event.handsPresent_called hcall hoperands) ?_
      rintro ⟨_, _, ⟨⟩⟩
      exact hvalue rfl
    · exact ⟨hvalue, hsolid _ _ _ (fun operand hmem => (hoperands operand hmem).2) hcall⟩

/--
Values circulate through an evaluation, and nothing absent does: not in a frame at
any time, not as an operand of a host function, not as a value that is bound, and
not as the result.  A call from which nothing comes back is the last event.
-/
structure Circulation [Host H] (start : Machine H)
    (ended : EStateM.Result Failure (Machine H) (Datum H)) (history : List (Event H)) : Prop where
  circulated : start.Circulated (Action.final ended) history
  holds : ∀ past, past <+: history -> (past.foldl Store.after start.store).Holds Datum.Present
  result : Action.outcome ended ≠ .ok .absent
  blamed : ∀ past function operands outcome later,
    history = past ++ .called function operands outcome :: later ->
      Host.call function operands = .ok .absent ->
        later = [] ∧ ∃ failure, Action.outcome ended = .error failure ∧
          failure.kind = "SigmaTypeError" ∧
          failure.message = "host function returned no value: " ++ Host.title function

/--
On a store that binds nothing absent and has no closure with an absent value in its
body, values circulate through the evaluation of every expression without an absent
value, whatever the host functions return and however the evaluation ends.
-/
theorem evaluate_circulates_present [Host H] (hsolid : Host.KeepsSolid H) (strict : Bool)
    (depth scope : Nat) {machine : Machine H} {e : Datum H}
    (hmachine : machine.store.Holds Datum.Present) (he : ¬ Datum.Occurs .absent e) :
    ∃ history, Circulation machine (evaluate strict depth scope e machine) history := by
  have hagree := (circulationSimulation hsolid hmachine strict).agree_of_identity rfl depth scope he
    ⟨rfl, [], .refl machine, by simp⟩
  revert hagree
  generalize evaluate strict depth scope e machine = ended
  rintro (⟨-, ⟨-, hquiet⟩, hsame⟩ | ⟨history, hcirculated, hstopped⟩ | hexcused)
  · obtain ⟨history, hcirculated, hquiet⟩ := hquiet
    refine ⟨history, hcirculated, fun _ => hcirculated.holds_of_prefix hmachine, ?_, ?_⟩
    · exact fun h => hsame.2.1 (Except.ok.inj h)
    · intro past function operands outcome later hsplit hcall
      obtain rfl := (hcirculated.call_eq hsplit).symm.trans hcall
      exact absurd ⟨function, operands, rfl⟩ (hquiet _ (by rw [hsplit]; simp))
  · refine ⟨history, hcirculated, fun _ => hcirculated.holds_of_prefix hmachine, by rintro ⟨⟩, ?_⟩
    intro past function operands outcome later hsplit hcall
    obtain rfl := (hcirculated.call_eq hsplit).symm.trans hcall
    obtain ⟨hlast, rfl⟩ := hstopped past function operands later hsplit
    exact ⟨hlast, _, rfl, rfl, rfl⟩
  · exact hexcused.elim

/-! ## A function that may give nothing -/

inductive Echo where
  | echo

namespace Echo

/-- The function hands back its last operand; without operands it gives nothing. -/
instance : Host Echo where
  call _ operands := .ok (operands.getLastD .absent)
  title _ := "echo"
  label _ := "<echo>"

theorem makesNoClosures : Host.MakesNoClosures Echo := by
  rintro function operands _ ⟨⟩ birth parameters body scope hclosure
  obtain rfl | hne := eq_or_ne operands []
  · cases hclosure.eq_of_atom rfl rfl
  · rw [List.getLastD_eq_getLast?, List.getLast?_eq_some_getLast hne] at hclosure
    exact ⟨_, List.getLast_mem hne, hclosure⟩

def machine : Machine Echo :=
  Machine.empty.withRoot [(.text "echo", .function .echo)]

theorem holds_machine : machine.store.Holds Datum.Present := by
  refine Store.Holds.empty.push (Table.forall_mem_bindings (List.forall_mem_singleton.mpr ?_))
  exact Datum.present_of_not_occurs fun h => by cases h.eq_of_atom rfl rfl

/-- A closure binds what the function returns, first on an operand and then without one. -/
def program : Datum Echo :=
  .combination [.symbol "begin",
    .combination [.symbol "define", .symbol "f",
      .combination [.symbol "lambda", .combination [.symbol "x"],
        .combination [.symbol "begin",
          .combination [.symbol "define", .symbol "y", .combination [.symbol "echo", .symbol "x"]],
          .combination [.symbol "define", .symbol "z", .combination [.symbol "echo"]],
          .combination [.symbol "echo", .symbol "z"]]]],
    .combination [.symbol "f", .number (.int 5)]]

theorem not_occurs_program : ¬ Datum.Occurs .absent program := by
  have hfive : ¬ Datum.Occurs .absent (.number (.int 5) : Datum Echo) :=
    fun h => by cases h.eq_of_atom rfl rfl
  simp [program, Datum.occurs_combination_iff, Datum.occurs_symbol_iff, hfive]

end Echo

/-- The closure binds its parameter and the first result; the second call ends the evaluation. -/
theorem echo_program_circulates :
    let ended := evaluate true 20 0 Echo.program Echo.machine
    Host.KeepsSolid Echo ∧ Echo.machine.store.Holds Datum.Present ∧
      ¬ Datum.Occurs .absent Echo.program ∧ Action.outcome ended = .error (.noValue "echo") ∧
      ∃ history, Circulation Echo.machine ended history := by
  intro ended
  have hsolid := Echo.makesNoClosures.keepsSolid
  exact ⟨hsolid, Echo.holds_machine, Echo.not_occurs_program, rfl,
    evaluate_circulates_present hsolid true 20 0 Echo.holds_machine Echo.not_occurs_program⟩

end Reckoner
