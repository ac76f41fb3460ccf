import Reckoner.Proofs.Correspondence.Contents

/-!
# Scopes and their history

Scopes share one store, and bindings are written to any of them at any time.  What a
name means in a scope can still be read off the history alone: which scopes were opened
inside which, and what was bound in which of them.  `Store.Reflects` ties a store to a
history; every event keeps the tie, and so does every change that a host makes, whether
it succeeds or fails.
-/

namespace Reckoner

variable {H : Type}

/-! ## What a history tells -/

namespace History

/-- The scopes in the order in which they were opened, each with the scope around it. -/
def outers (history : List (Event H)) : List (Option Nat) :=
  history.filterMap fun
    | .opened outer => some outer
    | _ => none

def boundIn (history : List (Event H)) (scope : Nat) : List (String × Datum H) :=
  history.filterMap fun
    | .bound other name value => if other = scope then some (name, value) else none
    | _ => none

def latest? (history : List (Event H)) (scope : Nat) (name : String) : Option (Datum H) :=
  (boundIn history scope).reverse.lookup name

/-- The names in a scope's own frame, in the order in which each was bound first. -/
def names (history : List (Event H)) (scope : Nat) : List String :=
  ((boundIn history scope).map Prod.fst).eraseDups

/-- The scopes from one outwards, as long as each lies inside an older one. -/
def lineage (outers : List (Option Nat)) (scope : Nat) : List Nat :=
  scope :: match outers[scope]? with
    | some (some outer) => if _ : outer < scope then lineage outers outer else []
    | _ => []
termination_by scope

/-- The first scope from one outwards in whose own frame a name was ever bound. -/
def nearest? (history : List (Event H)) (scope : Nat) (name : String) : Option Nat :=
  (lineage (outers history) scope).find? fun candidate =>
    name ∈ (boundIn history candidate).map Prod.fst

variable (history : List (Event H))

theorem getElem?_outers_opened (outer : Option Nat) (scope : Nat) :
    (outers (history ++ [.opened outer]))[scope]? =
      if scope = (outers history).length then some outer else (outers history)[scope]? := by
  have happend : outers (history ++ [.opened outer]) = outers history ++ [outer] := by simp [outers]
  rw [happend, List.getElem?_append]
  split
  · rename_i hlt
    rw [if_neg (Nat.ne_of_lt hlt)]
  · rename_i hge
    rw [List.getElem?_singleton, List.getElem?_eq_none (Nat.le_of_not_lt hge)]
    exact if_congr (by omega) rfl rfl

theorem outers_bound (scope : Nat) (name : String) (value : Datum H) :
    outers (history ++ [.bound scope name value]) = outers history := by
  simp [outers]

theorem boundIn_opened (outer : Option Nat) (scope : Nat) :
    boundIn (history ++ [.opened outer]) scope = boundIn history scope := by
  simp [boundIn]

theorem boundIn_bound_self (scope : Nat) (name : String) (value : Datum H) :
    boundIn (history ++ [.bound scope name value]) scope =
      boundIn history scope ++ [(name, value)] := by
  simp [boundIn]

theorem boundIn_bound_of_ne {scope other : Nat} (h : scope ≠ other) (name : String)
    (value : Datum H) :
    boundIn (history ++ [.bound scope name value]) other = boundIn history other := by
  simp [boundIn, h]

theorem isSome_latest? (scope : Nat) (name : String) :
    (latest? history scope name).isSome = decide (name ∈ (boundIn history scope).map Prod.fst) := by
  rw [Bool.eq_iff_iff, latest?, List.lookup_isSome_iff, decide_eq_true_iff, List.mem_map]
  simp only [List.mem_reverse, beq_iff_eq, eq_comm (a := name)]

theorem isSome_latest?_of_nearest? {history : List (Event H)} {scope found : Nat} {name : String}
    (h : nearest? history scope name = some found) : (latest? history found name).isSome := by
  rw [isSome_latest?]
  exact List.find?_some (p := fun candidate =>
    decide (name ∈ (boundIn history candidate).map Prod.fst)) h

end History

/-! ## Frames -/

/-- A frame after these bindings: names in the order of the first, each with the last value. -/
structure Frame.Reflects (frame : Frame H) (bound : List (String × Datum H)) : Prop where
  names_eq : frame.bindings.map Prod.fst = (bound.map Prod.fst).eraseDups
  get?_eq : ∀ name, frame.get? name = bound.reverse.lookup name

namespace Frame.Reflects

theorem nil (outer : Option Nat) : (⟨[], outer⟩ : Frame H).Reflects [] :=
  ⟨rfl, fun _ => rfl⟩

theorem bind {frame : Frame H} {bound : List (String × Datum H)} (h : frame.Reflects bound)
    (name : String) (value : Datum H) :
    (frame.bind name value).Reflects (bound ++ [(name, value)]) := by
  refine ⟨?_, fun sought => ?_⟩
  · have hkeys : (frame.bind name value).bindings.map Prod.fst = _ :=
      Entries.keys_put name value frame.bindings
    rw [hkeys, h.names_eq, List.map_append, List.map_singleton, List.eraseDups_append]
    by_cases hold : name ∈ bound.map Prod.fst
    · rw [if_pos (List.mem_eraseDups.mpr hold)]
      simp [List.removeAll, hold]
    · rw [if_neg fun hmem => hold (List.mem_eraseDups.mp hmem)]
      simp [List.removeAll, hold, List.eraseDups_cons]
  · rw [Frame.get?_bind, h.get?_eq, List.reverse_append, List.reverse_singleton,
      List.singleton_append, List.lookup_cons]
    by_cases hsame : name = sought
    · simp [hsame]
    · simp [hsame, beq_eq_false_iff_ne.mpr (Ne.symm hsame)]

end Frame.Reflects

/-! ## Stores -/

namespace Store

structure Reflects (store : Store H) (history : List (Event H)) : Prop where
  outer_eq : ∀ scope, (store.frame? scope).map Frame.outer = (History.outers history)[scope]?
  outer_lt : ∀ {scope outer : Nat}, (History.outers history)[scope]? = some (some outer) ->
    outer < scope
  frame : ∀ {scope : Nat} {frame : Frame H}, store.frame? scope = some frame ->
    frame.Reflects (History.boundIn history scope)
  unopened : ∀ {scope : Nat}, store.frame? scope = none -> History.boundIn history scope = []

namespace Reflects

variable {store : Store H} {history : List (Event H)}

theorem empty : (Store.empty : Store H).Reflects [] := by
  refine ⟨fun scope => rfl, fun h => ?_, fun h => ?_, fun _ => rfl⟩
  all_goals cases h

theorem frame?_eq_none_iff (h : store.Reflects history) {scope : Nat} :
    store.frame? scope = none ↔ (History.outers history).length ≤ scope := by
  rw [← List.getElem?_eq_none_iff, ← h.outer_eq, Option.map_eq_none_iff]

theorem length_outers (h : store.Reflects history) :
    (History.outers history).length = store.frames.size := by
  have hiff : ∀ scope, store.frames.size ≤ scope ↔ (History.outers history).length ≤ scope := by
    intro scope
    rw [← h.frame?_eq_none_iff]
    exact Array.getElem?_eq_none_iff.symm
  exact Nat.le_antisymm ((hiff _).mp (Nat.le_refl _)) ((hiff _).mpr (Nat.le_refl _))

theorem opened (h : store.Reflects history) {outer : Option Nat}
    (houter : ∀ scope ∈ outer, scope < store.frames.size) :
    (store.create outer).2.Reflects (history ++ [.opened outer]) := by
  refine ⟨fun scope => ?_, fun {scope inner} hlink => ?_, fun {scope frame} hframe => ?_,
    fun {scope} hnone => ?_⟩
  · rw [create, frame?_push, History.getElem?_outers_opened, h.length_outers, ← h.outer_eq]
    split <;> rfl
  · rw [History.getElem?_outers_opened, h.length_outers] at hlink
    split at hlink
    · rename_i hnew
      exact hnew ▸ houter inner (Option.some.inj hlink)
    · exact h.outer_lt hlink
  · rw [History.boundIn_opened]
    obtain ⟨rfl, rfl⟩ | hold := frame?_push_cases hframe
    · rw [h.unopened (Array.getElem?_eq_none (Nat.le_refl _))]
      exact .nil outer
    · exact h.frame hold
  · rw [create, frame?_push] at hnone
    rw [History.boundIn_opened]
    split at hnone
    · cases hnone
    · exact h.unopened hnone

theorem bound (h : store.Reflects history) {scope : Nat} (hscope : scope < store.frames.size)
    (name : String) (value : Datum H) :
    (store.bind scope name value).Reflects (history ++ [.bound scope name value]) := by
  refine ⟨fun other => ?_, fun hlink => ?_, fun {other frame} hframe => ?_, fun {other} hnone => ?_⟩
  · rw [History.outers_bound, ← h.outer_eq, frame?_bind]
    split
    · cases store.frame? other <;> rfl
    · rfl
  · rw [History.outers_bound] at hlink
    exact h.outer_lt hlink
  · rw [frame?_bind] at hframe
    split at hframe
    · rename_i hsame
      subst hsame
      obtain ⟨old, hold, rfl⟩ := Option.map_eq_some_iff.mp hframe
      rw [History.boundIn_bound_self]
      exact (h.frame hold).bind name value
    · rename_i hne
      rw [History.boundIn_bound_of_ne _ hne]
      exact h.frame hframe
  · have hne : scope ≠ other := by
      rintro rfl
      have hsize := Array.getElem?_eq_none_iff.mp hnone
      rw [size_bind] at hsize
      omega
    rw [frame?_bind, if_neg hne] at hnone
    rw [History.boundIn_bound_of_ne _ hne]
    exact h.unopened hnone

theorem own?_eq (h : store.Reflects history) (scope : Nat) (name : String) :
    store.own? scope name = History.latest? history scope name := by
  unfold own?
  cases hframe : store.frame? scope with
  | some frame => exact (h.frame hframe).get?_eq name
  | none => simp [History.latest?, h.unopened hframe]

/-- A walk along the links meets the lineage, if it may meet as many scopes as there are. -/
theorem chainFrom_eq (h : store.Reflects history) {fuel scope : Nat} (hfuel : scope < fuel)
    (hscope : scope < store.frames.size) :
    store.chainFrom fuel scope = History.lineage (History.outers history) scope := by
  induction fuel generalizing scope with
  | zero => omega
  | succ fuel ih =>
      have hframe : store.frame? scope = some store.frames[scope] :=
        Array.getElem?_eq_getElem hscope
      have hlink := h.outer_eq scope
      rw [hframe, Option.map_some] at hlink
      rw [chainFrom, History.lineage, hframe, ← hlink]
      dsimp only
      cases houter : store.frames[scope].outer with
      | none => rfl
      | some outer =>
          have hlt : outer < scope := h.outer_lt (by rw [← hlink, houter])
          simp only [dif_pos hlt, ih (show outer < fuel by omega) (by omega)]

theorem find?_eq (h : store.Reflects history) {scope : Nat} (hscope : scope < store.frames.size)
    (name : String) : store.find? scope name = History.nearest? history scope name := by
  unfold find? chain History.nearest?
  rw [h.chainFrom_eq hscope hscope]
  simp only [h.own?_eq, History.isSome_latest?]

theorem lookup?_eq (h : store.Reflects history) {scope : Nat} (hscope : scope < store.frames.size)
    (name : String) : store.lookup? scope name =
      (History.nearest? history scope name).bind fun found =>
        History.latest? history found name := by
  simp only [lookup?, h.find?_eq hscope, h.own?_eq]

end Reflects

end Store

/-! ## Changes -/

inductive Change (H : Type) where
  | create (outer : Option Nat)
  | define (scope : Nat) (target value : Datum H)
  | update (scope : Nat) (entries : List (Datum H × Datum H))

namespace Change

def entries : Change H -> List (Datum H × Datum H)
  | .create _ => []
  | .define _ target value => [(target, value)]
  | .update _ entries => entries

/-- The bindings that entries lead to: of those before the first whose target is no identifier. -/
def bindings (scope : Nat) (entries : List (Datum H × Datum H)) : List (Event H) :=
  (entries.takeWhile fun entry => entry.1.identifier?.isSome).filterMap fun entry =>
    entry.1.identifier?.map fun name => .bound scope name entry.2

def events : Change H -> List (Event H)
  | .create outer => [.opened outer]
  | .define scope target value => bindings scope [(target, value)]
  | .update scope entries => bindings scope entries

def Fits (scopes : Nat) : Change H -> Prop
  | .create outer => ∀ scope ∈ outer, scope < scopes
  | .define scope _ _ => scope < scopes
  | .update scope _ => scope < scopes

instance (scopes : Nat) : (change : Change H) -> Decidable (change.Fits scopes)
  | .create outer => inferInstanceAs (Decidable (∀ scope ∈ outer, scope < scopes))
  | .define scope _ _ => inferInstanceAs (Decidable (scope < scopes))
  | .update scope _ => inferInstanceAs (Decidable (scope < scopes))

section

variable {target : Datum H} (scope : Nat) (value : Datum H) (rest : List (Datum H × Datum H))

theorem bindings_cons_of_identifier {name : String} (hname : target.identifier? = some name) :
    bindings scope ((target, value) :: rest) = .bound scope name value :: bindings scope rest := by
  simp [bindings, hname]

theorem bindings_cons_refused (hname : target.identifier? = none) :
    bindings scope ((target, value) :: rest) = [] := by
  simp [bindings, hname]

end

end Change

namespace Store

variable [Host H]

/-- Makes a change. One that fails keeps what was done before it failed. -/
def change (store : Store H) : Change H -> Except Failure Unit × Store H
  | .create outer => (.ok (), (store.create outer).2)
  | .define scope target value =>
      match store.define scope target value with
      | .ok after => (.ok (), after)
      | .error failure => (.error failure, store)
  | .update scope entries => store.update scope entries

def changeAll (store : Store H) (changes : List (Change H)) : Store H :=
  changes.foldl (fun store change => (store.change change).2) store

def Admits (store : Store H) : List (Change H) -> Prop
  | [] => True
  | change :: rest => change.Fits store.frames.size ∧ (store.change change).2.Admits rest

instance decidableAdmits (store : Store H) :
    (changes : List (Change H)) -> Decidable (store.Admits changes)
  | [] => inferInstanceAs (Decidable True)
  | change :: rest =>
      have := decidableAdmits (store.change change).2 rest
      inferInstanceAs (Decidable (change.Fits store.frames.size ∧ _))

/-- To define one name is an update by one entry. -/
theorem change_define (store : Store H) (scope : Nat) (target value : Datum H) :
    store.change (.define scope target value) = store.update scope [(target, value)] := by
  cases h : store.define scope target value <;> simp only [change, update, h]

section

variable {target : Datum H} (store : Store H) (scope : Nat) (value : Datum H)
  (rest : List (Datum H × Datum H))

theorem update_cons_of_identifier {name : String} (hname : target.identifier? = some name) :
    store.update scope ((target, value) :: rest) =
      (store.bind scope name value).update scope rest := by
  simp only [update, define, hname]

theorem update_cons_refused (hname : target.identifier? = none) :
    store.update scope ((target, value) :: rest) =
      (.error (target.blameDisplayed .invalidIdentifier), store) := by
  simp only [update, define, hname]

end

theorem update_eq_ok_iff (store : Store H) (scope : Nat) (entries : List (Datum H × Datum H)) :
    (store.update scope entries).1 = .ok () ↔ ∀ entry ∈ entries, entry.1.identifier?.isSome := by
  induction entries generalizing store with
  | nil => simp [update]
  | cons entry rest ih =>
      rcases entry with ⟨target, value⟩
      cases hname : target.identifier? with
      | none => simp [update_cons_refused store scope value rest hname, hname]
      | some name => simp [update_cons_of_identifier store scope value rest hname, hname, ih]

theorem change_eq_ok_iff (store : Store H) (change : Change H) :
    (store.change change).1 = .ok () ↔ ∀ entry ∈ change.entries, entry.1.identifier?.isSome := by
  cases change with
  | create outer => simp [Store.change, Change.entries]
  | define scope target value => rw [change_define, update_eq_ok_iff, Change.entries]
  | update scope entries => exact update_eq_ok_iff store scope entries

namespace Reflects

variable {store : Store H} {history : List (Event H)}

theorem update (h : store.Reflects history) {scope : Nat} (hscope : scope < store.frames.size)
    (entries : List (Datum H × Datum H)) :
    (store.update scope entries).2.Reflects (history ++ Change.bindings scope entries) := by
  induction entries generalizing store history with
  | nil => simpa [Store.update, Change.bindings] using h
  | cons entry rest ih =>
      rcases entry with ⟨target, value⟩
      cases hname : target.identifier? with
      | none =>
          rw [update_cons_refused store scope value rest hname,
            Change.bindings_cons_refused scope value rest hname, List.append_nil]
          exact h
      | some name =>
          rw [update_cons_of_identifier store scope value rest hname,
            Change.bindings_cons_of_identifier scope value rest hname, List.append_cons]
          exact ih (h.bound hscope name value) (by rwa [size_bind])

/-- A change leads to what its events tell, whether it succeeds or fails. -/
theorem change (h : store.Reflects history) {change : Change H}
    (hfits : change.Fits store.frames.size) :
    (store.change change).2.Reflects (history ++ change.events) := by
  cases change with
  | create outer => exact h.opened hfits
  | define scope target value =>
      rw [change_define]
      exact h.update hfits [(target, value)]
  | update scope entries => exact h.update hfits entries

theorem changeAll (h : store.Reflects history) {changes : List (Change H)}
    (hadmits : store.Admits changes) :
    (store.changeAll changes).Reflects (history ++ changes.flatMap Change.events) := by
  induction changes generalizing store history with
  | nil => simpa [Store.changeAll] using h
  | cons change rest ih =>
      rw [List.flatMap_cons, ← List.append_assoc]
      exact ih (h.change hadmits.1) hadmits.2

end Reflects

theorem findKey_symbol (store : Store H) (scope : Nat) (name : String) :
    store.findKey scope (.symbol name) = .ok (store.find? scope name) :=
  rfl

theorem lookupKey_symbol (store : Store H) (scope : Nat) (name : String) :
    store.lookupKey scope (.symbol name) =
      (store.lookup? scope name).elim (.error (.undefinedVariable name)) .ok := by
  have hkey : (.symbol name : Datum H).isHashable = true := rfl
  rw [lookupKey, if_pos hkey]
  cases store.lookup? scope name <;> rfl

end Store

/--
Whatever changes are made to scopes, in any order and with some of them failing, their
history tells what names mean in them.  A scope sees a name in the first scope outwards
in which the name was ever bound, with the value bound to it there last; it sees none
exactly if there is no such scope.  A frame has its names in the order in which each was
bound first.  A change fails exactly if it is to bind something that is no identifier,
and then it has bound what comes before that.
-/
theorem scopes_reflect_history [Host H] {changes : List (Change H)}
    (hadmits : (Store.empty : Store H).Admits changes) :
    let store := Store.empty.changeAll changes
    let history := changes.flatMap Change.events
    (∀ scope, scope < store.frames.size -> ∀ name,
      store.findKey scope (.symbol name) = .ok (History.nearest? history scope name) ∧
      (∀ value, store.lookupKey scope (.symbol name) = .ok value ↔
        ∃ found, History.nearest? history scope name = some found ∧
          History.latest? history found name = some value) ∧
      (∀ failure, store.lookupKey scope (.symbol name) = .error failure ↔
        History.nearest? history scope name = none ∧ failure = .undefinedVariable name)) ∧
    (∀ scope, (store.frame? scope).map Frame.outer = (History.outers history)[scope]?) ∧
    (∀ scope frame, store.frame? scope = some frame ->
      frame.bindings.map Prod.fst = History.names history scope) ∧
    (∀ (before : Store H) (change : Change H),
      (before.change change).1 = .ok () ↔
        ∀ entry ∈ change.entries, entry.1.identifier?.isSome) := by
  intro store history
  have hreflects : store.Reflects history := Store.Reflects.empty.changeAll hadmits
  refine ⟨fun scope hscope name => ⟨?_, ?_, ?_⟩, hreflects.outer_eq,
    fun scope frame hframe => (hreflects.frame hframe).names_eq, Store.change_eq_ok_iff⟩
  · rw [Store.findKey_symbol, hreflects.find?_eq hscope]
  · intro value
    rw [Store.lookupKey_symbol, hreflects.lookup?_eq hscope]
    cases hnearest : History.nearest? history scope name with
    | none => simp
    | some found => cases hlatest : History.latest? history found name <;> simp [hlatest]
  · intro failure
    rw [Store.lookupKey_symbol, hreflects.lookup?_eq hscope]
    cases hnearest : History.nearest? history scope name with
    | none => simp [eq_comm]
    | some found =>
        have hlatest := History.isSome_latest?_of_nearest? hnearest
        obtain ⟨value, hvalue⟩ := Option.isSome_iff_exists.mp hlatest
        simp [hvalue]

/-! ## An update that stops and a name bound again -/

/-- A name is bound around a scope and in it, and an update of the scope meets a text. -/
def shadowing : List (Change Builtin) :=
  [.create none, .create (some 0), .define 0 (.symbol "x") (.number (.int 1)),
    .update 1 [(.symbol "y", .number (.int 2)), (.text "x", .number (.int 3)),
      (.symbol "z", .number (.int 4))],
    .define 1 (.symbol "x") (.number (.int 5)), .define 1 (.symbol "y") (.number (.int 6))]

theorem admits_shadowing : (Store.empty : Store Builtin).Admits shadowing := by
  decide +kernel

def shadowingHistory : List (Event Builtin) :=
  [.opened none, .opened (some 0), .bound 0 "x" (.number (.int 1)),
    .bound 1 "y" (.number (.int 2)), .bound 1 "x" (.number (.int 5)),
    .bound 1 "y" (.number (.int 6))]

theorem lineage_shadowingHistory :
    History.lineage (History.outers shadowingHistory) 0 = [0] ∧
      History.lineage (History.outers shadowingHistory) 1 = [1, 0] := by
  have houters : History.outers shadowingHistory = [none, some 0] := rfl
  simp [houters, History.lineage]

/-- The inner scope has its own `x` and the later `y`; `z` came after what stopped the update. -/
theorem shadowing_reflects_history :
    let store := (Store.empty : Store Builtin).changeAll shadowing
    store.findKey 1 (.symbol "x") = .ok (some 1) ∧
    store.lookupKey 1 (.symbol "x") = .ok (.number (.int 5)) ∧
    store.lookupKey 0 (.symbol "x") = .ok (.number (.int 1)) ∧
    store.lookupKey 1 (.symbol "y") = .ok (.number (.int 6)) ∧
    store.lookupKey 1 (.symbol "z") = .error (.undefinedVariable "z") ∧
    (store.frame? 1).map (fun frame => frame.bindings.map Prod.fst) = some ["y", "x"] := by
  intro store
  obtain ⟨hseen, -, hnames, -⟩ := scopes_reflect_history admits_shadowing
  have hhistory : shadowing.flatMap Change.events = shadowingHistory := rfl
  simp only [hhistory, History.nearest?] at hseen hnames
  have houter := hseen 0 (by decide)
  have hinner := hseen 1 (by decide)
  rw [lineage_shadowingHistory.1] at houter
  rw [lineage_shadowingHistory.2] at hinner
  refine ⟨(hinner "x").1, ((hinner "x").2.1 _).mpr ⟨1, rfl, rfl⟩,
    ((houter "x").2.1 _).mpr ⟨0, rfl, rfl⟩, ((hinner "y").2.1 _).mpr ⟨1, rfl, rfl⟩,
    ((hinner "z").2.2 _).mpr ⟨rfl, rfl⟩, ?_⟩
  obtain ⟨frame, hframe⟩ : ∃ frame, store.frame? 1 = some frame := ⟨_, rfl⟩
  rw [hframe, Option.map_some, hnames 1 frame hframe]
  rfl

end Reckoner
