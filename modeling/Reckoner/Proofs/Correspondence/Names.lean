import Reckoner.Proofs.Correspondence.Closedness

/-!
# The names of a source

A source sees of its table what it names, and nothing else: keywords are known by
their spelling, scopes are lexical, and a closure that the table brings along looks
into scopes that are older than the new root.
-/

namespace Reckoner

variable {H : Type}

/-! ## Names -/

namespace Datum

mutual

/-- The names that occur in an expression, but for the keywords that head its forms. -/
def names : Datum H -> List String
  | .symbol name => [name]
  | .combination items => namesOfForm items
  | .list items => namesOfForm items
  | _ => []

def namesOfForm : List (Datum H) -> List String
  | [] => []
  | head :: rest => (if (Keyword.ofDatum? head).isSome then [] else names head) ++ namesOfAll rest

def namesOfAll : List (Datum H) -> List String
  | [] => []
  | item :: rest => names item ++ namesOfAll rest

end

theorem names_of_items? {e : Datum H} {items : List (Datum H)} (h : e.items? = some items) :
    e.names = namesOfForm items := by
  cases e with
  | combination _ => cases h; rw [names]
  | list _ => cases h; rw [names]
  | _ => cases h

theorem names_subset_namesOfAll {item : Datum H} {items : List (Datum H)} (h : item ∈ items) :
    item.names ⊆ namesOfAll items := by
  induction items with
  | nil => cases h
  | cons first rest ih =>
      rw [namesOfAll]
      rcases List.mem_cons.mp h with rfl | h
      · exact List.subset_append_left _ _
      · exact List.Subset.trans (ih h) (List.subset_append_right _ _)

theorem names_operator_subset {e operator : Datum H} {operands : List (Datum H)}
    (hitems : e.items? = some (operator :: operands))
    (hkeyword : Keyword.ofDatum? operator = none) : operator.names ⊆ e.names := by
  rw [names_of_items? hitems, namesOfForm, hkeyword]
  exact List.subset_append_left _ _

theorem names_operand_subset {e operator operand : Datum H} {operands : List (Datum H)}
    (hitems : e.items? = some (operator :: operands)) (hmem : operand ∈ operands) :
    operand.names ⊆ e.names := by
  rw [names_of_items? hitems, namesOfForm]
  exact List.Subset.trans (names_subset_namesOfAll hmem) (List.subset_append_right _ _)

end Datum

def Table.get? (table : Table H) (name : String) : Option (Datum H) :=
  Entries.get? (· == ·) name table.bindings

/-! ## Scopes away from the root -/

namespace Store

/-- From the scope outwards one never comes to the root. -/
inductive Detached (store : Store H) (root : Nat) : Nat -> Prop where
  | last {scope : Nat} {frame : Frame H} (hne : scope ≠ root)
      (hframe : store.frame? scope = some frame) (houter : frame.outer = none) :
      Detached store root scope
  | inside {scope outer : Nat} {frame : Frame H} (hne : scope ≠ root)
      (hframe : store.frame? scope = some frame) (houter : frame.outer = some outer)
      (h : Detached store root outer) : Detached store root scope

/-- An expression in a scope sees nothing of the root but what has one of the names. -/
def Confined (store : Store H) (root : Nat) (names : List String) (scope : Nat) (e : Datum H) :
    Prop :=
  e.names ⊆ names ∨ store.Detached root scope

def Confines (store : Store H) (root : Nat) (names : List String) (value : Datum H) : Prop :=
  ∀ birth parameters body scope, Datum.Occurs (.closure birth parameters body scope) value ->
    store.Confined root names scope body

/-- Two stores that differ only in bindings of the root that have none of the names. -/
structure Alike (root : Nat) (names : List String) (first second : Store H) : Prop where
  size_eq : second.frames.size = first.frames.size
  frame?_eq : ∀ {scope}, scope ≠ root -> second.frame? scope = first.frame? scope
  root_agrees : ∃ one other : Frame H, first.frame? root = some one ∧
    second.frame? root = some other ∧ other.outer = one.outer ∧
      ∀ name ∈ names, other.get? name = one.get? name

variable {root : Nat} {names : List String} {first second : Store H}

theorem Detached.later {before after : Machine H} (hlater : before.Later after) {scope : Nat}
    (h : before.store.Detached root scope) : after.store.Detached root scope := by
  induction h with
  | last hne hframe houter =>
      obtain ⟨bindings, hafter⟩ := hlater.outer_eq hframe
      exact .last hne hafter houter
  | inside hne hframe houter _ ih =>
      obtain ⟨bindings, hafter⟩ := hlater.outer_eq hframe
      exact .inside hne hafter houter ih

theorem Detached.of_outer {store : Store H} {scope outer : Nat} {frame : Frame H}
    (h : store.Detached root scope) (hframe : store.frame? scope = some frame)
    (houter : frame.outer = some outer) : store.Detached root outer := by
  cases h with
  | last _ hframe' hnone =>
      cases hframe.symm.trans hframe'
      cases houter.symm.trans hnone
  | inside _ hframe' hsome h =>
      cases hframe.symm.trans hframe'
      cases houter.symm.trans hsome
      exact h

theorem Detached.ne_root {store : Store H} {scope : Nat} (h : store.Detached root scope) :
    scope ≠ root := by
  cases h with
  | last hne _ _ => exact hne
  | inside hne _ _ _ => exact hne

theorem Confined.later {before after : Machine H} (hlater : before.Later after) {scope : Nat}
    {e : Datum H} (h : before.store.Confined root names scope e) :
    after.store.Confined root names scope e :=
  h.imp id fun hdetached => hdetached.later hlater

theorem Confined.opened {machine : Machine H} (hroot : root < machine.store.frames.size)
    {outer : Nat} {e : Datum H} (h : machine.store.Confined root names outer e) :
    (machine.record (.opened (some outer))).store.Confined root names
      machine.store.frames.size e := by
  refine h.imp id fun hdetached => ?_
  -- The new scope is not the root, and outwards of it comes a detached one.
  have hframe : (machine.record (.opened (some outer))).store.frame? machine.store.frames.size =
      some ⟨[], some outer⟩ :=
    frame?_push_self machine.store ⟨[], some outer⟩
  exact .inside (Nat.ne_of_gt hroot) hframe rfl (hdetached.later (.record machine _))

theorem Confines.later {before after : Machine H} (hlater : before.Later after) {value : Datum H}
    (h : before.store.Confines root names value) : after.store.Confines root names value :=
  fun birth parameters body scope hpart => (h birth parameters body scope hpart).later hlater

theorem Confines.occurs {store : Store H} {part value : Datum H}
    (h : store.Confines root names value) (hpart : Datum.Occurs part value) :
    store.Confines root names part :=
  fun birth parameters body scope hclosure =>
    h birth parameters body scope (hclosure.trans hpart)

namespace Alike

theorem symm (h : Alike root names first second) : Alike root names second first := by
  obtain ⟨one, other, hone, hother, houter, hnames⟩ := h.root_agrees
  refine ⟨h.size_eq.symm, fun hne => (h.frame?_eq hne).symm, other, one, hother, hone,
    houter.symm, ?_⟩
  exact fun name hmem => (hnames name hmem).symm

theorem detached (h : Alike root names first second) {scope : Nat}
    (hdetached : first.Detached root scope) : second.Detached root scope := by
  induction hdetached with
  | last hne hframe houter => exact .last hne ((h.frame?_eq hne).trans hframe) houter
  | inside hne hframe houter _ ih =>
      exact .inside hne ((h.frame?_eq hne).trans hframe) houter ih

/-- The frames of one scope agree on a name that the scope may see. -/
theorem frame? (h : Alike root names first second) {scope : Nat} {name : String} {frame : Frame H}
    (hname : name ∈ names ∨ first.Detached root scope) (hframe : first.frame? scope = some frame) :
    ∃ other, second.frame? scope = some other ∧ other.outer = frame.outer ∧
      other.get? name = frame.get? name := by
  by_cases hscope : scope = root
  · subst hscope
    obtain ⟨one, other, hone, hother, houter, hnames⟩ := h.root_agrees
    cases hframe.symm.trans hone
    have hmem := hname.resolve_right fun hdetached => hdetached.ne_root rfl
    exact ⟨other, hother, houter, hnames name hmem⟩
  · exact ⟨frame, (h.frame?_eq hscope).trans hframe, rfl, rfl⟩

theorem sees (h : Alike root names first second) {scope : Nat} {name : String} {value : Datum H}
    (hname : name ∈ names ∨ first.Detached root scope) (hsees : first.Sees name value scope) :
    second.Sees name value scope := by
  induction hsees with
  | own hframe hvalue =>
      obtain ⟨other, hother, -, hget⟩ := h.frame? hname hframe
      exact .own hother (hget.trans hvalue)
  | outer hframe hnone houter _ ih =>
      obtain ⟨other, hother, hlink, hget⟩ := h.frame? hname hframe
      refine .outer hother (hget.trans hnone) (hlink.trans houter) (ih ?_)
      exact hname.imp id fun hdetached => hdetached.of_outer hframe houter

theorem lookup?_eq (h : Alike root names first second) {scope : Nat} {name : String}
    (hname : name ∈ names ∨ first.Detached root scope) :
    second.lookup? scope name = first.lookup? scope name := by
  ext value
  -- The two stores give other frames to walk through, but let a name see the same values.
  rw [lookup?_eq_some_iff, lookup?_eq_some_iff]
  exact ⟨h.symm.sees (hname.imp id h.detached), h.sees hname⟩

theorem bind (h : Alike root names first second) (scope : Nat) (name : String) (value : Datum H) :
    Alike root names (first.bind scope name value) (second.bind scope name value) := by
  obtain ⟨one, other, hone, hother, houter, hnames⟩ := h.root_agrees
  refine ⟨by rw [size_bind, size_bind, h.size_eq], fun hne => ?_, ?_⟩
  · rw [frame?_bind, frame?_bind, h.frame?_eq hne]
  · by_cases hscope : scope = root
    · refine ⟨one.bind name value, other.bind name value, ?_, ?_, houter, fun sought hmem => ?_⟩
      · rw [frame?_bind, if_pos hscope, hone, Option.map_some]
      · rw [frame?_bind, if_pos hscope, hother, Option.map_some]
      · rw [Frame.get?_bind, Frame.get?_bind, hnames sought hmem]
    · refine ⟨one, other, ?_, ?_, houter, hnames⟩
      · rw [frame?_bind, if_neg hscope, hone]
      · rw [frame?_bind, if_neg hscope, hother]

theorem push (h : Alike root names first second) (frame : Frame H) :
    Alike root names (first.push frame).2 (second.push frame).2 := by
  obtain ⟨one, other, hone, hother, hagree⟩ := h.root_agrees
  have hroot : root ≠ first.frames.size := Nat.ne_of_lt (lt_size_of_frame? hone)
  refine ⟨by rw [size_push, size_push, h.size_eq], fun hne => ?_, one, other, ?_, ?_, hagree⟩
  · rw [frame?_push, frame?_push, h.size_eq, h.frame?_eq hne]
  · rw [frame?_push, if_neg hroot, hone]
  · rw [frame?_push, h.size_eq, if_neg hroot, hother]

end Alike

end Store

/-! ## Evaluations -/

structure Machine.Alike (root : Nat) (names : List String) (first second : Machine H) : Prop where
  store : Store.Alike root names first.store second.store
  births_eq : second.births = first.births
  events_eq : second.events = first.events

/-- All that can be called on the machine is confined to the names, and what is old is detached. -/
structure Machine.Confined (root : Nat) (names : List String) (machine : Machine H) : Prop where
  holds : machine.store.Holds (machine.store.Confines root names)
  detached : ∀ scope, scope < root -> machine.store.Detached root scope

namespace Machine

variable {root : Nat} {names : List String} {first second machine : Machine H}

theorem Alike.record (h : first.Alike root names second) (event : Event H) :
    (first.record event).Alike root names (second.record event) := by
  refine ⟨?_, h.births_eq, by rw [Machine.record, Machine.record, h.events_eq]⟩
  cases event with
  | called function operands outcome => exact h.store
  | opened outer => exact h.store.push ⟨[], outer⟩
  | bound scope name value => exact h.store.bind scope name value

theorem Alike.bear (h : first.Alike root names second) : first.bear.Alike root names second.bear :=
  ⟨h.store, congrArg (· + 1) h.births_eq, h.events_eq⟩

theorem Confined.record (h : machine.Confined root names) (event : Event H)
    (hbound : ∀ scope name value, event = .bound scope name value ->
      machine.store.Confines root names value) :
    (machine.record event).Confined root names := by
  have hlater := Later.record machine event
  refine ⟨?_, fun scope hscope => (h.detached scope hscope).later hlater⟩
  have hholds := h.holds.mono fun _ hvalue => hvalue.later hlater
  cases event with
  | called function operands outcome => exact hholds
  | opened outer => exact hholds.push (by simp)
  | bound scope name value =>
      exact Store.Holds.bind hholds ((hbound scope name value rfl).later hlater) scope name

theorem Alike.root_lt (h : first.Alike root names second) : root < first.store.frames.size := by
  obtain ⟨one, _, hone, _⟩ := h.store.root_agrees
  exact Store.lt_size_of_frame? hone

end Machine

def namesSimulation [Host H] {old : Horizon} (hhost : Host.PassesOn H old) (names : List String)
    (strict : Bool) : Simulation H strict strict where
  move := .identity
  Machines a b := a.Alike old.scopes names b ∧ a.Confined old.scopes names
  Value a v := a.store.Confines old.scopes names v
  Code a scope e := a.store.Confined old.scopes names scope e ∧ a.store.Confines old.scopes names e
  Ended _ a b := a.Alike old.scopes names b
  Excused _ _ := False
  stricter := Bool.le_refl strict
  value_later hlater h := h.later hlater
  code_later hlater h := ⟨h.1.later hlater, h.2.later hlater⟩
  ended h _ _ := h.1
  mismatch _ hne _ := hne rfl
  value_nil _ _ _ _ hpart := by cases hpart.eq_of_atom rfl rfl
  atom h _ _ := h.2
  operator h hitems hkeyword := by
    refine ⟨h.1.imp_left ?_, h.2.occurs (.item hitems List.mem_cons_self .self)⟩
    exact List.Subset.trans (Datum.names_operator_subset hitems hkeyword)
  operand h hitems _ hmem := by
    refine ⟨h.1.imp_left ?_, h.2.occurs (.item hitems (List.mem_cons_of_mem _ hmem) .self)⟩
    exact List.Subset.trans (Datum.names_operand_subset hitems hmem)
  lambda := by
    intro a b scope e operator parameters body items _ hcode hitems _ hidentifiers _ _ _ _ _ hpart
    -- The new closure keeps the scope it was made in, and its body is part of the source.
    obtain hself | hname | hbody := hpart.closure_cases hidentifiers
    · cases hself
      refine hcode.1.imp_left ?_
      exact List.Subset.trans (Datum.names_operand_subset hitems (by simp))
    · cases hname
    · exact hcode.2 _ _ _ _ (hbody.trans (.item hitems (by simp) .self))
  lookup h hcode := by
    obtain ⟨halike, hconfined⟩ := h
    refine ⟨?_, fun _ hvalue => hconfined.holds.lookup? hvalue⟩
    rw [Datum.option_map_rename_identity]
    refine halike.store.lookup?_eq (hcode.1.imp_left fun hnames => hnames ?_)
    rw [Datum.names]
    exact List.mem_singleton_self _
  bound h _ hvalue := by
    rw [Event.rename_identity]
    refine ⟨h.1.record _, h.2.record _ ?_⟩
    rintro _ _ _ ⟨⟩
    exact hvalue
  born h := ⟨h.1.births_eq.symm, h.1.bear, ⟨h.2.holds, h.2.detached⟩⟩
  nan := by
    rintro a b - birth parameters body scope ⟨⟩
    contradiction
  opened := by
    intro a b birth parameters body outer h hvalue
    rw [Event.rename_identity]
    have hlater := Machine.Later.record a (.opened (some outer))
    refine ⟨h.1.store.size_eq.symm, ⟨h.1.record _, h.2.record _ (by simp)⟩, ?_, ?_⟩
    · exact (hvalue _ _ _ _ .self).opened h.1.root_lt
    · exact (hvalue.occurs (.body .self)).later hlater
  refused h _ _ _ := h.1
  call_rename := Datum.call_rename_identity
  raised h _ _ := by
    rw [Event.rename_identity]
    exact h.1.record _
  absent h _ _ := by
    rw [Event.rename_identity]
    exact h.1.record _
  returned := by
    intro a b function operands value h hoperands hcall _
    rw [Event.rename_identity]
    refine ⟨⟨h.1.record _, h.2.record _ (by simp)⟩, fun _ => ?_⟩
    intro birth parameters body scope hpart
    obtain hold | ⟨operand, hmem, hoperand⟩ := hhost function operands value hcall _ hpart
    -- A closure that the host kept from before lives in scopes older than the root.
    · exact .inr (h.2.detached scope hold.2)
    · exact hoperands operand hmem birth parameters body scope hoperand

/-! ## Interpretations -/

namespace Machine

variable {machine : Machine H}

/-- The scopes of a closed machine are detached from a root that is opened on it. -/
theorem Closed.detached_withRoot (h : machine.Closed) (table : Table H) {scope : Nat}
    (hscope : scope < machine.store.frames.size) :
    (machine.withRoot table).store.Detached machine.store.frames.size scope := by
  induction scope using Nat.strongRecOn with
  | ind scope ih =>
      obtain ⟨frame, hframe⟩ : ∃ frame, machine.store.frame? scope = some frame :=
        ⟨_, Array.getElem?_eq_getElem hscope⟩
      have hframe' : (machine.withRoot table).store.frame? scope = some frame :=
        (Store.frame?_push_of_lt machine.store _ hscope).trans hframe
      cases houter : frame.outer with
      | none => exact .last (Nat.ne_of_lt hscope) hframe' houter
      | some outer =>
          have hlt := h.outer_lt hframe houter
          exact .inside (Nat.ne_of_lt hscope) hframe' houter (ih outer hlt (by omega))

/-- What lies within the horizon of a closed machine cannot see a root that is opened on it. -/
theorem Closed.confined_withRoot (h : machine.Closed) {table : Table H}
    (htable : table.Within machine.horizon) (names : List String) :
    (machine.withRoot table).Confined machine.store.frames.size names := by
  have hholds : (machine.withRoot table).store.Holds (Datum.Within machine.horizon) :=
    h.holds.push htable
  refine ⟨hholds.mono fun value hvalue => ?_, fun scope hscope => h.detached_withRoot table hscope⟩
  intro birth parameters body scope hpart
  exact .inr (h.detached_withRoot table (hvalue _ hpart).2)

theorem alike_withRoot (machine : Machine H) {first second : Table H} {names : List String}
    (hnames : ∀ name ∈ names, first.get? name = second.get? name) :
    (machine.withRoot first).Alike machine.store.frames.size names (machine.withRoot second) := by
  refine ⟨⟨?_, fun hne => ?_, ⟨first.bindings, none⟩, ⟨second.bindings, none⟩, ?_, ?_, rfl, ?_⟩,
    rfl, rfl⟩
  · simp [withRoot, Store.openRoot]
  · simp [withRoot, Store.openRoot, Store.frame?_push, hne]
  · exact Store.frame?_push_self machine.store _
  · exact Store.frame?_push_self machine.store _
  · exact fun name hmem => (hnames name hmem).symm

end Machine

/--
What an interpretation gives and does depends on the entries of its table that the
source names.  Two tables that agree on those give the same value or the same
failure, and the same record of calls of host functions, of scopes and of bindings;
the stores they lead to differ in the root at most, in what the source does not
name.  The tables may differ in all else, and hold closures that name what they
differ in.
-/
theorem interpret_reads_named_entries [Host H] (depth : Nat) (strict : Bool) {machine : Machine H}
    {first second : Table H} {source : String} {e : Datum H}
    (hhost : Host.PassesOn H machine.horizon) (hclosed : machine.Closed)
    (htable : first.Within machine.horizon) (hparse : parse depth source = .ok e)
    (hnames : ∀ name ∈ e.names, first.get? name = second.get? name) :
    let one := interpret depth strict machine first source
    let other := interpret depth strict machine second source
    other.result = one.result ∧ other.outcome = one.outcome ∧
      other.machine.history = one.machine.history ∧
      one.machine.Alike machine.store.frames.size e.names other.machine := by
  have hcode : (machine.withRoot first).store.Confined machine.store.frames.size e.names
        machine.store.frames.size e ∧
      (machine.withRoot first).store.Confines machine.store.frames.size e.names e := by
    refine ⟨.inl (List.Subset.refl _), fun birth parameters body scope hpart => ?_⟩
    cases (isSource_of_parse hparse _ hpart).2
  have hagree := (namesSimulation hhost e.names strict).agree_of_identity rfl depth
    machine.store.frames.size hcode
    ⟨machine.alike_withRoot hnames, hclosed.confined_withRoot htable e.names⟩
  rw [interpret_of_ok hparse, interpret_of_ok hparse]
  revert hagree
  generalize evaluate strict depth machine.store.frames.size e (machine.withRoot first) = one
  generalize evaluate strict depth machine.store.frames.size e (machine.withRoot second) = other
  rintro (⟨-, ⟨halike, -⟩, hsame⟩ | halike | hexcused)
  · obtain rfl := hsame.eq_of_identity rfl
    exact ⟨rfl, rfl, congrArg List.reverse halike.events_eq, halike⟩
  · exact ⟨rfl, rfl, congrArg List.reverse halike.events_eq, halike⟩
  · exact hexcused.elim

/--
A closure that was returned before looks for `x` in the root it was made in, so it
does not matter what the new tables bind `x` to, nor what else is in them.
-/
theorem kept_closure_ignores_tables :
    let first : Table Builtin :=
      [(.text "f", keptClosure), (.text "+", .function .add), (.text "x", .bool true)]
    let second : Table Builtin :=
      [(.number (.int 1), .nil), (.text "define", .nil), (.symbol "+", .function .add),
        (.text "x", .bool false), (.symbol "f", keptClosure)]
    let one := interpret 5 true keeping.machine first "(+ (f 1) 2)"
    let other := interpret 5 true keeping.machine second "(+ (f 1) 2)"
    keeping.result = .ok keptClosure ∧ first.get? "x" = some (.bool true) ∧
      second.get? "x" = some (.bool false) ∧ other.result = one.result ∧
      other.machine.history = one.machine.history := by
  intro first second one other
  obtain ⟨hclosed, hkept⟩ := keeping_closed
  have hfirst : first.Within keeping.machine.horizon :=
    Table.forall_mem_bindings (List.forall_mem_cons.mpr ⟨hkept,
      List.forall_mem_cons.mpr ⟨Datum.within_of_atom rfl rfl _,
        List.forall_mem_singleton.mpr (Datum.within_of_atom rfl rfl _)⟩⟩)
  have hparse : parse 5 "(+ (f 1) 2)" = .ok (.combination [.symbol "+",
      .combination [.symbol "f", .number (.int 1)], .number (.int 2)] : Datum Builtin) := by
    rfl
  have hadd : first.get? "+" = second.get? "+" := by rfl
  have hcall : first.get? "f" = second.get? "f" := by rfl
  have hnames : ∀ name ∈ ["+", "f"], first.get? name = second.get? name := by simp [hadd, hcall]
  obtain ⟨hresult, -, hhistory, -⟩ := interpret_reads_named_entries 5 true (passesOn_builtin _)
    hclosed hfirst hparse hnames
  exact ⟨keeping_result, by rfl, by rfl, hresult, hhistory⟩

end Reckoner
