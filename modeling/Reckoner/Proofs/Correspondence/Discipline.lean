import Reckoner.Proofs.Correspondence.Contents

/-!
# The discipline of names and scopes

Names are checked where they come in: by a table, by a definition and by a lambda.  So
every frame binds different identifiers, every scope lies inside an older one, and
every closure has different identifiers for parameters and was made in a scope of the
store.  A machine on which this holds is proper.  Evaluations keep machines proper, and
on a proper machine a call cannot fail to bind its parameters.
-/

namespace Reckoner

open Evaluation

variable {H : Type}

/-! ## Names -/

structure Identifier.Distinct (names : List String) : Prop where
  isValid : ∀ name ∈ names, Identifier.isValid name = true
  nodup : names.Nodup

namespace Identifier.Distinct

theorem nil : Distinct [] :=
  ⟨by simp, List.nodup_nil⟩

theorem put {α : Type} {name : String} {entries : List (String × α)}
    (h : Distinct (entries.map Prod.fst)) (hname : Identifier.isValid name = true) (value : α) :
    Distinct ((Entries.put (· == ·) name value entries).map Prod.fst) := by
  rw [Entries.keys_put]
  split
  · exact h
  · rename_i hnew
    refine ⟨fun other hmem => ?_, ?_⟩
    · rcases List.mem_append.mp hmem with hold | hlast
      · exact h.isValid other hold
      · rw [List.mem_singleton.mp hlast]
        exact hname
    · refine List.nodup_append.mpr ⟨h.nodup, List.pairwise_singleton _ name, ?_⟩
      rintro other hmem _ hlast rfl
      exact hnew (List.mem_singleton.mp hlast ▸ hmem)

end Identifier.Distinct

theorem Entries.put_of_not_mem {Key Value : Type} [DecidableEq Key] {key : Key}
    {entries : List (Key × Value)} (h : key ∉ entries.map Prod.fst) (value : Value) :
    Entries.put (· == ·) key value entries = entries ++ [(key, value)] := by
  induction entries with
  | nil => rfl
  | cons entry rest ih =>
      simp only [List.map_cons, List.mem_cons, not_or] at h
      have hother : ¬ entry.1 = key := fun heq => h.1 heq.symm
      simp [Entries.put, hother, ih h.2]

theorem Table.distinct_bindings (table : Table H) :
    Identifier.Distinct (table.bindings.map Prod.fst) := by
  suffices hinto : ∀ bindings : Bindings H, Identifier.Distinct (bindings.map Prod.fst) ->
      Identifier.Distinct ((bindInto bindings table).map Prod.fst) from hinto [] .nil
  induction table with
  | nil => exact fun bindings hbindings => hbindings
  | cons entry rest ih =>
      intro bindings hbindings
      unfold bindInto
      split
      · rename_i hname
        exact ih _ (hbindings.put (nameOf?_eq_some_iff.mp hname).2 entry.2)
      · exact ih _ hbindings

theorem eq_symbols_of_identifiers {items : List (Datum H)}
    (h : ∀ item ∈ items, item.identifier?.isSome) :
    items = (items.filterMap Datum.identifier?).map .symbol ∧
      ∀ name ∈ items.filterMap Datum.identifier?, Identifier.isValid name = true := by
  induction items with
  | nil => simp
  | cons item rest ih =>
      obtain ⟨hitem, hrest⟩ := List.forall_mem_cons.mp h
      obtain ⟨name, hname⟩ := Option.isSome_iff_exists.mp hitem
      obtain ⟨rfl, hvalid⟩ := Datum.identifier?_eq_some_iff.mp hname
      obtain ⟨hsymbols, hvalids⟩ := ih hrest
      rw [List.filterMap_cons_some hname, List.map_cons, ← hsymbols]
      exact ⟨rfl, List.forall_mem_cons.mpr ⟨hvalid, hvalids⟩⟩

theorem identifiers_of_symbols {names : List String}
    (h : ∀ name ∈ names, Identifier.isValid name = true) :
    ((names.map .symbol : List (Datum H)).find? fun item => item.identifier?.isNone) = none ∧
      (names.map .symbol : List (Datum H)).filterMap Datum.identifier? = names := by
  refine identifiers_of_names ?_
  rw [List.map_map]
  refine List.map_congr_left fun name hmem => ?_
  exact Datum.identifier?_eq_some_iff.mpr ⟨rfl, h name hmem⟩

/-! ## Data -/

namespace Datum

/-- A closure has parameters that a lambda accepts, and was made in one of so many scopes. -/
def IsProper (scopes : Nat) : Datum H -> Prop
  | .closure _ parameters _ scope =>
      (∃ names, parameters = names.map .symbol ∧ Identifier.Distinct names) ∧ scope < scopes
  | _ => True

def Proper (scopes : Nat) (d : Datum H) : Prop :=
  ∀ part, Occurs part d -> part.IsProper scopes

theorem IsProper.mono {fewer scopes : Nat} (hle : fewer ≤ scopes) {d : Datum H}
    (h : d.IsProper fewer) : d.IsProper scopes := by
  cases d with
  | closure birth parameters body scope => exact ⟨h.1, Nat.lt_of_lt_of_le h.2 hle⟩
  | _ => trivial

theorem Proper.mono {fewer scopes : Nat} (hle : fewer ≤ scopes) {d : Datum H}
    (h : d.Proper fewer) : d.Proper scopes :=
  fun part hpart => (h part hpart).mono hle

theorem Proper.occurs {scopes : Nat} {part d : Datum H} (h : d.Proper scopes)
    (hpart : Occurs part d) : part.Proper scopes :=
  fun _ hinner => h _ (hinner.trans hpart)

theorem proper_of_closures {scopes : Nat} {d : Datum H}
    (h : ∀ birth parameters body scope, Occurs (.closure birth parameters body scope) d ->
      (closure birth parameters body scope).IsProper scopes) : d.Proper scopes := by
  intro part hpart
  cases part with
  | closure birth parameters body scope => exact h birth parameters body scope hpart
  | _ => trivial

theorem proper_of_atom {d : Datum H} (hitems : d.items? = none) (hborn : d.isBorn = false)
    (scopes : Nat) : d.Proper scopes := by
  refine proper_of_closures fun birth parameters body scope hpart => ?_
  rw [← hpart.eq_of_atom hitems hborn] at hborn
  cases hborn

theorem proper_nan (birth scopes : Nat) : (nan birth : Datum H).Proper scopes := by
  intro part hpart
  cases hpart with
  | self => trivial
  | item hitems _ _ => cases hitems

theorem proper_closure {scopes birth scope : Nat} {names : List String} {body : Datum H}
    (hnames : Identifier.Distinct names) (hscope : scope < scopes) (hbody : body.Proper scopes) :
    (closure birth (names.map .symbol) body scope).Proper scopes := by
  refine proper_of_closures fun birth parameters inner other hpart => ?_
  have hsymbols : ∀ item ∈ (names.map .symbol : List (Datum H)), item.identifier?.isSome :=
    isSome_of_find?_eq_none (identifiers_of_symbols hnames.isValid).1
  obtain hself | hname | hinner := hpart.closure_cases hsymbols
  · cases hself
    exact ⟨⟨names, rfl, hnames⟩, hscope⟩
  · cases hname
  · exact hbody _ hinner

theorem IsSource.proper {d : Datum H} (h : d.IsSource) (scopes : Nat) : d.Proper scopes := by
  refine proper_of_closures fun birth parameters body scope hpart => ?_
  cases (h _ hpart).2

end Datum

/-- Host functions return no closures but those they are given. -/
def Host.MakesNoClosures (H : Type) [Host H] : Prop :=
  ∀ (function : H) (operands : List (Datum H)) (value : Datum H),
    Host.call function operands = .ok value -> ∀ birth parameters body scope,
      Datum.Occurs (.closure birth parameters body scope) value ->
        ∃ operand ∈ operands, Datum.Occurs (.closure birth parameters body scope) operand

theorem Host.MakesNoClosures.proper [Host H] (h : Host.MakesNoClosures H) {scopes : Nat}
    {function : H} {operands : List (Datum H)} {value : Datum H}
    (hoperands : ∀ operand ∈ operands, operand.Proper scopes)
    (hcall : Host.call function operands = .ok value) : value.Proper scopes := by
  refine Datum.proper_of_closures fun birth parameters body scope hpart => ?_
  obtain ⟨operand, hmem, hoperand⟩ := h function operands value hcall birth parameters body scope hpart
  exact hoperands operand hmem _ hoperand

/-! ## Machines -/

namespace Store

/-- The links from a scope outwards lead through these scopes and end at the last. -/
inductive Walk (store : Store H) : Nat -> List Nat -> Prop where
  | last {scope : Nat} {frame : Frame H} (hframe : store.frame? scope = some frame)
      (houter : frame.outer = none) : Walk store scope [scope]
  | link {scope outer : Nat} {frame : Frame H} {rest : List Nat}
      (hframe : store.frame? scope = some frame) (houter : frame.outer = some outer)
      (hrest : Walk store outer rest) : Walk store scope (scope :: rest)

/-- Where scopes lie inside older ones, as many steps as a scope's number lead to its root. -/
theorem walk_chainFrom {store : Store H}
    (houter : ∀ {scope outer : Nat} {frame : Frame H}, store.frame? scope = some frame ->
      frame.outer = some outer -> outer < scope)
    {fuel scope : Nat} (hfuel : scope < fuel) (hscope : scope < store.frames.size) :
    store.Walk scope (store.chainFrom fuel scope) := by
  induction fuel generalizing scope with
  | zero => omega
  | succ fuel ih =>
      have hframe : store.frame? scope = some store.frames[scope] :=
        Array.getElem?_eq_getElem hscope
      unfold chainFrom
      rw [hframe]
      dsimp only
      cases hlink : store.frames[scope].outer with
      | none => exact .last hframe hlink
      | some outer =>
          have hlt := houter hframe hlink
          exact .link hframe hlink (ih (by omega) (by omega))

theorem bind_push (store : Store H) (frame : Frame H) (name : String) (value : Datum H) :
    (store.push frame).2.bind store.frames.size name value =
      (store.push (frame.bind name value)).2 := by
  refine congrArg Store.mk (Array.ext_getElem? fun scope => ?_)
  simp only [push, Array.getElem?_modify, Array.getElem?_push]
  by_cases hscope : scope = store.frames.size
  · simp [hscope]
  · simp [hscope, Ne.symm hscope]

end Store

structure Machine.Proper (machine : Machine H) : Prop where
  distinct : ∀ {scope : Nat} {frame : Frame H}, machine.store.frame? scope = some frame ->
    Identifier.Distinct (frame.bindings.map Prod.fst)
  outer_lt : ∀ {scope outer : Nat} {frame : Frame H}, machine.store.frame? scope = some frame ->
    frame.outer = some outer -> outer < scope
  holds : machine.store.Holds (Datum.Proper machine.store.frames.size)
  called : ∀ {function : H} {operands : List (Datum H)} {outcome : Except Failure (Datum H)},
    .called function operands outcome ∈ machine.events ->
      ∀ operand ∈ operands, operand.Proper machine.store.frames.size

namespace Machine

theorem Proper.walk {machine : Machine H} (h : machine.Proper) {scope : Nat}
    (hscope : scope < machine.store.frames.size) :
    machine.store.Walk scope (machine.store.chain scope) :=
  Store.walk_chainFrom h.outer_lt hscope hscope

namespace Proper

variable {machine : Machine H}

theorem empty : (Machine.empty : Machine H).Proper := by
  have hnone : ∀ scope, (Machine.empty : Machine H).store.frame? scope = none := fun _ => rfl
  refine ⟨fun {scope frame} hframe => ?_, fun {scope outer frame} hframe _ => ?_, .empty, ?_⟩
  · cases (hnone scope).symm.trans hframe
  · cases (hnone scope).symm.trans hframe
  · intro function operands outcome hmem
    cases hmem

theorem bear (h : machine.Proper) : machine.bear.Proper :=
  ⟨h.distinct, h.outer_lt, h.holds, h.called⟩

theorem recorded (h : machine.Proper) {operands : List (Datum H)}
    (hoperands : ∀ operand ∈ operands, operand.Proper machine.store.frames.size) (function : H)
    (outcome : Except Failure (Datum H)) :
    (machine.record (.called function operands outcome)).Proper := by
  refine ⟨h.distinct, h.outer_lt, h.holds, fun {_ _ _} hmem => ?_⟩
  rcases List.mem_cons.mp hmem with heq | hold
  · cases heq
    exact hoperands
  · exact h.called hold

theorem push (h : machine.Proper) {frame : Frame H} {events : List (Event H)}
    (hnames : Identifier.Distinct (frame.bindings.map Prod.fst))
    (houter : ∀ outer, frame.outer = some outer -> outer < machine.store.frames.size)
    (hframe : ∀ binding ∈ frame.bindings, binding.2.Proper machine.store.frames.size)
    (hevents : ∀ {function operands outcome}, .called function operands outcome ∈ events ->
      .called function operands outcome ∈ machine.events) :
    Proper ⟨(machine.store.push frame).2, machine.births, events⟩ := by
  have hle : machine.store.frames.size ≤ (machine.store.push frame).2.frames.size := by
    rw [Store.size_push]
    omega
  refine ⟨fun hfound => ?_, fun hfound hlink => ?_, ?_, fun hmem operand hoperand => ?_⟩
  · obtain ⟨-, rfl⟩ | hold := Store.frame?_push_cases hfound
    · exact hnames
    · exact h.distinct hold
  · obtain ⟨rfl, rfl⟩ | hold := Store.frame?_push_cases hfound
    · exact houter _ hlink
    · exact h.outer_lt hold hlink
  · exact (h.holds.push hframe).mono fun value hvalue => hvalue.mono hle
  · exact (h.called (hevents hmem) operand hoperand).mono hle

theorem bind (h : machine.Proper) {name : String} (hname : Identifier.isValid name = true)
    {value : Datum H} (hvalue : value.Proper machine.store.frames.size) (scope : Nat)
    {events : List (Event H)}
    (hevents : ∀ {function operands outcome}, .called function operands outcome ∈ events ->
      .called function operands outcome ∈ machine.events) :
    Proper ⟨machine.store.bind scope name value, machine.births, events⟩ := by
  have hsize := machine.store.size_bind scope name value
  refine ⟨fun hfound => ?_, fun hfound hlink => ?_, ?_, fun hmem => ?_⟩
  · obtain ⟨frame, hframe, rfl | rfl⟩ := Store.frame?_bind_cases hfound
    · exact (h.distinct hframe).put hname value
    · exact h.distinct hframe
  · obtain ⟨frame, hframe, rfl | rfl⟩ := Store.frame?_bind_cases hfound
    · exact h.outer_lt hframe hlink
    · exact h.outer_lt hframe hlink
  · rw [hsize]
    exact h.holds.bind hvalue scope name
  · rw [hsize]
    exact h.called (hevents hmem)

end Proper

end Machine

/-! ## Calls of closures -/

def Machine.enter (machine : Machine H) (outer : Nat) (bindings : Bindings H) : Machine H :=
  let bound := bindings.map fun binding =>
    Event.bound machine.store.frames.size binding.1 binding.2
  ⟨(machine.store.push ⟨bindings, some outer⟩).2, machine.births,
    bound.reverse ++ .opened (some outer) :: machine.events⟩

namespace Evaluation

/-- Different identifiers that a new frame does not bind yet are bound in their order. -/
theorem bindAll_push [Host H] {names : List String} (hnames : Identifier.Distinct names)
    (operands : List (Datum H)) (store : Store H) (births : Nat) {bindings : Bindings H}
    (hnew : ∀ name ∈ names, name ∉ bindings.map Prod.fst) (outer : Option Nat)
    (events : List (Event H)) :
    bindAll store.frames.size ((names.map .symbol).zip operands)
        ⟨(store.push ⟨bindings, outer⟩).2, births, events⟩ =
      .ok () ⟨(store.push ⟨bindings ++ names.zip operands, outer⟩).2, births,
        ((names.zip operands).map fun binding =>
          Event.bound store.frames.size binding.1 binding.2).reverse ++ events⟩ := by
  induction names generalizing operands bindings events with
  | nil =>
      rw [List.zip_nil_left, List.append_nil]
      rfl
  | cons name names ih =>
      cases operands with
      | nil =>
          simp only [List.zip_nil_right, List.append_nil, List.map_nil, List.reverse_nil,
            List.nil_append]
          rfl
      | cons operand operands =>
          have hvalid := hnames.isValid name List.mem_cons_self
          have hfresh := hnew name List.mem_cons_self
          obtain ⟨hother, hnodup⟩ := List.nodup_cons.mp hnames.nodup
          have hrest : Identifier.Distinct names :=
            ⟨fun later hmem => hnames.isValid later (List.mem_cons_of_mem name hmem), hnodup⟩
          have hdefine : define store.frames.size (.symbol name) operand
              ⟨(store.push ⟨bindings, outer⟩).2, births, events⟩ =
                .ok () ⟨(store.push ⟨bindings ++ [(name, operand)], outer⟩).2, births,
                  .bound store.frames.size name operand :: events⟩ := by
            unfold define
            rw [Datum.identifier?_eq_some_iff.mpr ⟨rfl, hvalid⟩]
            dsimp only
            rw [Store.bind_push, Frame.bind, Entries.put_of_not_mem hfresh]
          have hlater : ∀ later ∈ names, later ∉ (bindings ++ [(name, operand)]).map Prod.fst := by
            intro later hmem
            rw [List.map_append, List.mem_append, not_or]
            refine ⟨hnew later (List.mem_cons_of_mem name hmem), fun hlast => hother ?_⟩
            have heq : later = name := by simpa using hlast
            exact heq ▸ hmem
          rw [List.map_cons, List.zip_cons_cons, bindAll, Action.bind_of_ok hdefine,
            ih hrest operands hlater]
          simp

/-- A call of a closure with different identifiers for parameters fails for its arity only. -/
theorem extend_eq [Host H] (strict : Bool) {names : List String}
    (hnames : Identifier.Distinct names) (outer : Nat) (operands : List (Datum H))
    (machine : Machine H) :
    extend strict (names.map .symbol) outer operands machine =
      if strict && operands.length != names.length then
        .error (.arityMismatch names.length operands.length) machine
      else .ok machine.store.frames.size (machine.enter outer (names.zip operands)) := by
  unfold extend
  rw [List.length_map]
  split
  · rfl
  · have hopened : newScope (some outer) machine = .ok machine.store.frames.size
        ⟨(machine.store.push ⟨[], some outer⟩).2, machine.births,
          .opened (some outer) :: machine.events⟩ := rfl
    rw [Action.bind_of_ok hopened,
      Action.bind_of_ok (bindAll_push hnames operands machine.store _ (by simp) _ _)]
    rfl

end Evaluation

/-! ## Evaluations -/

theorem Failure.kind_ne_of_bindable {failure : Failure} (hraised : failure.isRaised = false)
    (hbindable : failure.isUnbindable = false) : failure.kind ≠ "SigmaInvalidIdentifier" := by
  cases failure with
  | invalidIdentifier name => cases hbindable
  | calculation fault => cases hraised
  | raised kind message fatal => cases hraised
  | _ => simp [kind]

/-- The last event is that a host function failed like this, and others happened before. -/
def Machine.RaisedSince (start : Machine H) (failure : Failure) (machine : Machine H) : Prop :=
  ∃ function operands recent,
    machine.events = .called function operands (.error failure) :: (recent ++ start.events)

/--
An evaluation on a proper machine.  Whenever it fails because something cannot be bound,
that is what a host function has just brought up.
-/
def properSimulation [Host H] (hhost : Host.MakesNoClosures H) (start : Machine H) (strict : Bool) :
    Simulation H strict strict where
  move := .identity
  Machines a b := b = a ∧ a.Proper ∧ start.events <:+ a.events
  Value a v := v.Proper a.store.frames.size
  Code a scope e := e.Proper a.store.frames.size ∧ scope < a.store.frames.size
  Ended failure a _ := a.Proper ∧
    (failure.kind = "SigmaInvalidIdentifier" -> start.RaisedSince failure a)
  Excused _ _ := False
  stricter := Bool.le_refl strict
  value_later hlater h := h.mono hlater.horizon_le.scopes_le
  code_later hlater h :=
    ⟨h.1.mono hlater.horizon_le.scopes_le, Nat.lt_of_lt_of_le h.2 hlater.horizon_le.scopes_le⟩
  ended h hraised hbindable :=
    ⟨h.2.1, fun hkind => absurd hkind (Failure.kind_ne_of_bindable hraised hbindable)⟩
  mismatch _ hne _ := hne rfl
  value_nil := Datum.proper_of_atom rfl rfl _
  atom h _ _ := h.1
  operator h hitems _ := ⟨h.1.occurs (.item hitems List.mem_cons_self .self), h.2⟩
  operand h hitems _ hmem :=
    ⟨h.1.occurs (.item hitems (List.mem_cons_of_mem _ hmem) .self), h.2⟩
  lambda := by
    intro a b scope e operator parameters body items _ hcode hitems _ hidentifiers hdistinct
    obtain ⟨hsymbols, hvalid⟩ := eq_symbols_of_identifiers hidentifiers
    rw [hsymbols]
    exact Datum.proper_closure ⟨hvalid, hdistinct⟩ hcode.2
      (hcode.1.occurs (.item hitems (by simp) .self))
  lookup h _ := by
    obtain ⟨rfl, hproper, -⟩ := h
    exact ⟨(Datum.option_map_rename_identity _).symm, fun _ hvalue => hproper.holds.lookup? hvalue⟩
  bound := by
    rintro a b scope name v ⟨rfl, hproper, hsuffix⟩ hname hvalue
    refine ⟨by rw [Event.rename_identity], ?_, hsuffix.trans (List.suffix_cons _ _)⟩
    exact hproper.bind hname hvalue scope fun hmem => (List.mem_cons.mp hmem).resolve_left (by simp)
  born := by
    rintro a b ⟨rfl, hproper, hsuffix⟩
    exact ⟨rfl, rfl, hproper.bear, hsuffix⟩
  nan _ := Datum.proper_nan _ _
  opened := by
    rintro a b birth parameters body outer ⟨rfl, hproper, hsuffix⟩ hvalue
    have hlater := Machine.Later.record b (.opened (some outer))
    refine ⟨rfl, ⟨by rw [Event.rename_identity], ?_, hsuffix.trans (List.suffix_cons _ _)⟩, ?_, ?_⟩
    · refine hproper.push .nil ?_ (by simp) fun hmem => (List.mem_cons.mp hmem).resolve_left (by simp)
      rintro _ ⟨⟩
      exact (hvalue _ .self).2
    · exact (hvalue.occurs (.body .self)).mono hlater.horizon_le.scopes_le
    · simp [Machine.record, Store.after, Store.create]
  refused := by
    intro a b birth parameters body outer parameter _ hvalue hmem hname
    -- A proper closure has identifiers for parameters, so this does not happen.
    obtain ⟨⟨names, rfl, hnames⟩, -⟩ := hvalue _ .self
    obtain ⟨name, hvalid, rfl⟩ := List.mem_map.mp hmem
    rw [Datum.identifier?_eq_some_iff.mpr ⟨rfl, hnames.isValid name hvalid⟩] at hname
    cases hname
  call_rename := Datum.call_rename_identity
  raised := by
    rintro a b function operands failure ⟨rfl, hproper, recent, hrecent⟩ hoperands -
    refine ⟨hproper.recorded hoperands _ _, fun _ => ⟨function, operands, recent, ?_⟩⟩
    rw [hrecent]
    rfl
  absent := by
    rintro a b function operands ⟨rfl, hproper, -⟩ hoperands -
    exact ⟨hproper.recorded hoperands _ _, fun hkind => absurd hkind (by simp [Failure.kind])⟩
  returned := by
    rintro a b function operands value ⟨rfl, hproper, hsuffix⟩ hoperands hcall -
    refine ⟨⟨by rw [Event.rename_identity], hproper.recorded hoperands _ _, ?_⟩, fun _ => ?_⟩
    · exact hsuffix.trans (List.suffix_cons _ _)
    · exact hhost.proper hoperands hcall

/-- Evaluations keep machines proper and return proper values. -/
theorem evaluate_proper [Host H] (hhost : Host.MakesNoClosures H) (strict : Bool)
    (depth : Nat) {scope : Nat} {e : Datum H} {machine : Machine H} (hproper : machine.Proper)
    (he : e.Proper machine.store.frames.size) (hscope : scope < machine.store.frames.size) :
    let ended := evaluate strict depth scope e machine
    (Action.final ended).Proper ∧ machine.Later (Action.final ended) ∧
    (∀ value, Action.outcome ended = .ok value ->
      value.Proper (Action.final ended).store.frames.size) ∧
    ∀ failure, Action.outcome ended = .error failure ->
      failure.kind = "SigmaInvalidIdentifier" ->
        machine.RaisedSince failure (Action.final ended) := by
  have hlater : machine.Later (Action.final (evaluate strict depth scope e machine)) :=
    (evaluate_does strict depth scope e machine).later
  have hagree := (properSimulation hhost machine strict).agree_of_identity rfl depth scope
    ⟨he, hscope⟩ ⟨rfl, hproper, List.suffix_refl _⟩
  revert hagree hlater
  generalize evaluate strict depth scope e machine = ended
  rintro hlater (⟨-, ⟨-, hafter, -⟩, hsame⟩ | ⟨hafter, hraised⟩ | hexcused)
  · exact ⟨hafter, hlater, by rintro _ ⟨⟩; exact hsame.2, by rintro _ ⟨⟩⟩
  · exact ⟨hafter, hlater, by rintro _ ⟨⟩, by rintro _ ⟨⟩; exact hraised⟩
  · exact hexcused.elim

end Reckoner
