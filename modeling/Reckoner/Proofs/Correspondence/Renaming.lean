import Mathlib.Logic.Function.Basic
import Reckoner.Evaluation

/-!
# Parts and renamings of data

Scopes, closures and NaNs are known by numbers that are given out in order.  A
`Horizon` says how many there are, and a datum lies within it if it holds none
from beyond.  A `Renaming` exchanges the numbers, which nothing that a datum shows
depends on.
-/

namespace Reckoner

variable {H : Type}

/-! ## Parts -/

structure Horizon where
  scopes : Nat
  births : Nat

namespace Horizon

structure Le (first second : Horizon) : Prop where
  scopes_le : first.scopes ≤ second.scopes
  births_le : first.births ≤ second.births

theorem Le.refl (horizon : Horizon) : Le horizon horizon :=
  ⟨Nat.le_refl _, Nat.le_refl _⟩

theorem Le.trans {first second third : Horizon} (h : Le first second) (h' : Le second third) :
    Le first third :=
  ⟨Nat.le_trans h.scopes_le h'.scopes_le, Nat.le_trans h.births_le h'.births_le⟩

end Horizon

namespace Datum

/-- A datum occurs in another: as it, among the items of a sequence, or in a closure. -/
inductive Occurs (part : Datum H) : Datum H -> Prop where
  | self : Occurs part part
  | item {d item : Datum H} {items : List (Datum H)} (hitems : d.items? = some items)
      (hmem : item ∈ items) (h : Occurs part item) : Occurs part d
  | parameter {birth scope : Nat} {item body : Datum H} {parameters : List (Datum H)}
      (hmem : item ∈ parameters) (h : Occurs part item) :
      Occurs part (.closure birth parameters body scope)
  | body {birth scope : Nat} {body : Datum H} {parameters : List (Datum H)}
      (h : Occurs part body) : Occurs part (.closure birth parameters body scope)

theorem Occurs.trans {part middle whole : Datum H} (h : Occurs part middle)
    (h' : Occurs middle whole) : Occurs part whole := by
  induction h' with
  | self => exact h
  | item hitems hmem _ ih => exact .item hitems hmem ih
  | parameter hmem _ ih => exact .parameter hmem ih
  | body _ ih => exact .body ih

def isBorn : Datum H -> Bool
  | .closure _ _ _ _ => true
  | .nan _ => true
  | _ => false

/-- In what is neither a sequence nor born nothing else occurs. -/
theorem Occurs.eq_of_atom {part d : Datum H} (h : Occurs part d) (hitems : d.items? = none)
    (hborn : d.isBorn = false) : part = d := by
  cases h with
  | self => rfl
  | item hitems' _ _ => cases hitems.symm.trans hitems'
  | parameter _ _ => cases hborn
  | body _ => cases hborn

theorem occurs_symbol_iff {part : Datum H} {name : String} :
    Occurs part (.symbol name) ↔ part = .symbol name :=
  ⟨fun h => h.eq_of_atom rfl rfl, fun h => h ▸ .self⟩

theorem occurs_combination_iff {part : Datum H} {items : List (Datum H)} :
    Occurs part (.combination items) ↔
      part = .combination items ∨ ∃ item ∈ items, Occurs part item := by
  constructor
  · intro h
    cases h with
    | self => exact .inl rfl
    | item hitems hmem h =>
        cases hitems
        exact .inr ⟨_, hmem, h⟩
  · rintro (rfl | ⟨item, hmem, h⟩)
    · exact .self
    · exact .item rfl hmem h

theorem Occurs.eq_of_identifier? {part d : Datum H} (h : Occurs part d)
    (hname : d.identifier?.isSome) : part = d := by
  cases d with
  | symbol name => exact h.eq_of_atom rfl rfl
  | _ => cases hname

/-- What occurs in a closure is the closure, one of its parameters, or in its body. -/
theorem Occurs.closure_cases {part body : Datum H} {birth scope : Nat}
    {parameters : List (Datum H)} (h : Occurs part (.closure birth parameters body scope))
    (hparameters : ∀ item ∈ parameters, item.identifier?.isSome) :
    part = .closure birth parameters body scope ∨ part.identifier?.isSome ∨ Occurs part body := by
  cases h with
  | self => exact .inl rfl
  | item hitems _ _ => cases hitems
  | parameter hmem hitem =>
      rename_i item
      have hname := hparameters item hmem
      rw [← hitem.eq_of_identifier? hname] at hname
      exact .inr (.inl hname)
  | body hbody => exact .inr (.inr hbody)

/-- The birth of the datum itself, and the scope of a closure, are within the horizon. -/
def IsBefore (horizon : Horizon) : Datum H -> Prop
  | .closure birth _ _ scope => birth < horizon.births ∧ scope < horizon.scopes
  | .nan birth => birth < horizon.births
  | _ => True

def Within (horizon : Horizon) (d : Datum H) : Prop :=
  ∀ part, Occurs part d -> part.IsBefore horizon

theorem isBefore_of_not_born {d : Datum H} (h : d.isBorn = false) (horizon : Horizon) :
    d.IsBefore horizon := by
  cases d with
  | closure birth parameters body scope => cases h
  | nan birth => cases h
  | _ => trivial

theorem isBefore_of_identifier? {d : Datum H} (h : d.identifier?.isSome) (horizon : Horizon) :
    d.IsBefore horizon := by
  cases d with
  | symbol name => trivial
  | _ => cases h

theorem IsBefore.mono {first second : Horizon} (h : first.Le second) {d : Datum H}
    (hd : d.IsBefore first) : d.IsBefore second := by
  cases d with
  | closure birth parameters body scope =>
      exact ⟨Nat.lt_of_lt_of_le hd.1 h.births_le, Nat.lt_of_lt_of_le hd.2 h.scopes_le⟩
  | nan birth => exact Nat.lt_of_lt_of_le hd h.births_le
  | _ => trivial

theorem Within.mono {first second : Horizon} (h : first.Le second) {d : Datum H}
    (hd : d.Within first) : d.Within second :=
  fun part hpart => (hd part hpart).mono h

theorem Within.occurs {horizon : Horizon} {part d : Datum H} (hd : d.Within horizon)
    (h : Occurs part d) : part.Within horizon :=
  fun _ hinner => hd _ (hinner.trans h)

theorem within_of_atom {d : Datum H} (hitems : d.items? = none) (hborn : d.isBorn = false)
    (horizon : Horizon) : d.Within horizon := by
  intro part hpart
  rw [hpart.eq_of_atom hitems hborn]
  exact isBefore_of_not_born hborn horizon

end Datum

/-! ## Renamings -/

/-- An exchange of the numbers of scopes and births that keeps different ones apart. -/
structure Renaming where
  scope : Nat -> Nat
  birth : Nat -> Nat
  scope_injective : Function.Injective scope
  birth_injective : Function.Injective birth

namespace Renaming

def identity : Renaming :=
  ⟨id, id, Function.injective_id, Function.injective_id⟩

def raise (bound distance n : Nat) : Nat :=
  if n < bound then n else n + distance

theorem raise_of_le {bound n : Nat} (h : bound ≤ n) (distance : Nat) :
    raise bound distance n = n + distance :=
  if_neg (Nat.not_lt.mpr h)

theorem raise_injective (bound distance : Nat) : Function.Injective (raise bound distance) := by
  intro m n h
  unfold raise at h
  split at h <;> split at h <;> omega

/-- What lies beyond the first horizon is moved beyond the second. -/
def shift (first second : Horizon) : Renaming where
  scope := raise first.scopes (second.scopes - first.scopes)
  birth := raise first.births (second.births - first.births)
  scope_injective := raise_injective _ _
  birth_injective := raise_injective _ _

structure Fixes (r : Renaming) (horizon : Horizon) : Prop where
  scope_eq : ∀ {scope}, scope < horizon.scopes -> r.scope scope = scope
  birth_eq : ∀ {birth}, birth < horizon.births -> r.birth birth = birth

theorem fixes_shift (first second : Horizon) : (shift first second).Fixes first :=
  ⟨fun h => if_pos h, fun h => if_pos h⟩

theorem Fixes.mono {r : Renaming} {first second : Horizon} (h : first.Le second)
    (hfixes : r.Fixes second) : r.Fixes first :=
  ⟨fun hlt => hfixes.scope_eq (Nat.lt_of_lt_of_le hlt h.scopes_le),
    fun hlt => hfixes.birth_eq (Nat.lt_of_lt_of_le hlt h.births_le)⟩

end Renaming

namespace Datum

mutual

def rename (r : Renaming) : Datum H -> Datum H
  | .nan birth => .nan (r.birth birth)
  | .combination items => .combination (renameAll r items)
  | .list items => .list (renameAll r items)
  | .closure birth parameters body scope =>
      .closure (r.birth birth) (renameAll r parameters) (rename r body) (r.scope scope)
  | d => d

def renameAll (r : Renaming) : List (Datum H) -> List (Datum H)
  | [] => []
  | item :: rest => rename r item :: renameAll r rest

end

theorem renameAll_eq_map (r : Renaming) (items : List (Datum H)) :
    renameAll r items = items.map (rename r) := by
  induction items with
  | nil => rfl
  | cons item rest ih => rw [renameAll, ih, List.map_cons]

mutual

theorem rename_eq_self {r : Renaming} {horizon : Horizon} (hfixes : r.Fixes horizon)
    (d : Datum H) (h : d.Within horizon) : d.rename r = d := by
  cases d with
  | nan birth => rw [rename, hfixes.birth_eq (h _ .self)]
  | combination items =>
      rw [rename, renameAll_eq_self hfixes items fun item hmem => h.occurs (.item rfl hmem .self)]
  | list items =>
      rw [rename, renameAll_eq_self hfixes items fun item hmem => h.occurs (.item rfl hmem .self)]
  | closure birth parameters body scope =>
      obtain ⟨hbirth, hscope⟩ := h _ .self
      rw [rename, hfixes.birth_eq hbirth, hfixes.scope_eq hscope,
        renameAll_eq_self hfixes parameters fun item hmem => h.occurs (.parameter hmem .self),
        rename_eq_self hfixes body (h.occurs (.body .self))]
  | _ => rfl

theorem renameAll_eq_self {r : Renaming} {horizon : Horizon} (hfixes : r.Fixes horizon)
    (items : List (Datum H)) (h : ∀ item ∈ items, item.Within horizon) :
    renameAll r items = items := by
  cases items with
  | nil => rfl
  | cons item rest =>
      rw [renameAll, rename_eq_self hfixes item (h item List.mem_cons_self),
        renameAll_eq_self hfixes rest fun other hmem => h other (List.mem_cons_of_mem item hmem)]

end

mutual

@[simp] theorem rename_identity (d : Datum H) : d.rename .identity = d := by
  cases d with
  | combination items => rw [rename, renameAll_identity]
  | list items => rw [rename, renameAll_identity]
  | closure birth parameters body scope =>
      rw [rename, renameAll_identity, rename_identity]
      rfl
  | _ => rfl

theorem renameAll_identity (items : List (Datum H)) : renameAll .identity items = items := by
  cases items with
  | nil => rfl
  | cons item rest => rw [renameAll, rename_identity, renameAll_identity]

end

@[simp] theorem map_rename_identity (items : List (Datum H)) :
    items.map (rename .identity) = items := by
  rw [← renameAll_eq_map, renameAll_identity]

@[simp] theorem option_map_rename_identity (found : Option (Datum H)) :
    found.map (rename .identity) = found := by
  cases found <;> simp

@[simp] theorem except_map_rename_identity (outcome : Except Failure (Datum H)) :
    outcome.map (rename .identity) = outcome := by
  cases outcome <;> simp [Except.map]

/-! ## What a datum shows -/

theorem items?_rename (r : Renaming) (d : Datum H) :
    (d.rename r).items? = d.items?.map (List.map (rename r)) := by
  cases d <;> simp [rename, items?, renameAll_eq_map]

@[simp] theorem identifier?_rename (r : Renaming) (d : Datum H) :
    (d.rename r).identifier? = d.identifier? := by
  cases d <;> rfl

@[simp] theorem isNewNaN_rename (r : Renaming) (d : Datum H) :
    (d.rename r).isNewNaN = d.isNewNaN := by
  cases d <;> rfl

theorem ofDatum?_rename (r : Renaming) (d : Datum H) :
    Keyword.ofDatum? (d.rename r) = Keyword.ofDatum? d := by
  cases d <;> rfl

theorem find?_map_rename (r : Renaming) (items : List (Datum H)) :
    (items.map (rename r)).find? (fun item => item.identifier?.isNone) =
      (items.find? fun item => item.identifier?.isNone).map (rename r) := by
  rw [List.find?_map]
  congr 2
  funext item
  rw [Function.comp_apply, identifier?_rename]

theorem filterMap_map_rename (r : Renaming) (items : List (Datum H)) :
    (items.map (rename r)).filterMap identifier? = items.filterMap identifier? := by
  rw [List.filterMap_map]
  congr 1
  funext item
  exact identifier?_rename r item

mutual

theorem isWritable_rename (r : Renaming) (d : Datum H) :
    (d.rename r).isWritable = d.isWritable := by
  cases d with
  | combination items => exact allWritable_renameAll r items
  | list items => exact allWritable_renameAll r items
  | closure birth parameters body scope => exact allWritable_renameAll r parameters
  | _ => rfl

theorem allWritable_renameAll (r : Renaming) (items : List (Datum H)) :
    allWritable (renameAll r items) = allWritable items := by
  cases items with
  | nil => rfl
  | cons item rest =>
      rw [renameAll, allWritable, allWritable, isWritable_rename r item,
        allWritable_renameAll r rest]

end

variable [Host H]

mutual

theorem write_rename (r : Renaming) (style : Style) (d : Datum H) :
    (d.rename r).write style = d.write style := by
  cases d with
  | combination items => rw [rename, write, write, writeAll_renameAll r .inspected items]
  | list items => rw [rename, write, write, writeAll_renameAll r .inspected items]
  | closure birth parameters body scope =>
      rw [rename, write, write, writeAll_renameAll r .displayed parameters]
  | _ => rfl

theorem writeAll_renameAll (r : Renaming) (style : Style) (items : List (Datum H)) :
    writeAll style (renameAll r items) = writeAll style items := by
  cases items with
  | nil => rfl
  | cons item rest =>
      rw [renameAll, writeAll, writeAll, write_rename r style item, writeAll_renameAll r style rest]

end

@[simp] theorem blame_rename (r : Renaming) (cause : String -> Failure) (d : Datum H) :
    (d.rename r).blame cause = d.blame cause := by
  simp only [blame, inspect, isWritable_rename, write_rename]

@[simp] theorem blameDisplayed_rename (r : Renaming) (cause : String -> Failure) (d : Datum H) :
    (d.rename r).blameDisplayed cause = d.blameDisplayed cause := by
  simp only [blameDisplayed, display, isWritable_rename, write_rename]

theorem call_rename_identity (function : H) (operands : List (Datum H)) :
    Host.call function (operands.map (rename .identity)) =
      (Host.call function operands).map (rename .identity) := by
  rw [map_rename_identity, except_map_rename_identity]

end Datum

/-! ## Events -/

namespace Event

def rename (r : Renaming) : Event H -> Event H
  | .called function operands outcome =>
      .called function (operands.map (Datum.rename r)) (outcome.map (Datum.rename r))
  | .opened outer => .opened (outer.map r.scope)
  | .bound scope name value => .bound (r.scope scope) name (value.rename r)

@[simp] theorem rename_identity (event : Event H) : event.rename .identity = event := by
  cases event with
  | called function operands outcome => simp [rename]
  | opened outer => cases outer <;> rfl
  | bound scope name value =>
      rw [rename, Datum.rename_identity]
      rfl

end Event

end Reckoner
