import Reckoner.Calculator.Builtin
import Reckoner.Datum.Equality
import Reckoner.Environment.Store

/-!
# Host tables

A host hands over its functions and values as a table from keys to values.  Keys
may be texts or symbols; from a table a root scope is opened that binds those of
them that are identifiers, while the other keys are skipped.
-/

namespace Reckoner

/-- Keys with values, in the order in which the keys were first entered. -/
abbrev Table (H : Type) :=
  List (Datum H × Datum H)

namespace Table

variable {H : Type}

/-- Enters a key, which must not hold a list. A key that matches keeps its place and its first form. -/
def put [DecidableEq H] (table : Table H) (key value : Datum H) : Except Failure (Table H) :=
  if key.isHashable then .ok (Entries.put Datum.matchesKey key value table)
  else .error .unhashable

def putAll [DecidableEq H] (table : Table H) : List (Datum H × Datum H) -> Except Failure (Table H)
  | [] => .ok table
  | (key, value) :: rest =>
      match put table key value with
      | .ok next => putAll next rest
      | .error failure => .error failure

def nameOf? : Datum H -> Option String
  | .text s => if Identifier.isValid s then some s else none
  | .symbol s => if Identifier.isValid s then some s else none
  | _ => none

/-- Only a text or a symbol that is an identifier has a name. -/
theorem nameOf?_eq_some_iff {key : Datum H} {name : String} :
    nameOf? key = some name ↔
      (key = .text name ∨ key = .symbol name) ∧ Identifier.isValid name = true := by
  have hcase : ∀ s : String, (if Identifier.isValid s then some s else none) = some name ↔
      s = name ∧ Identifier.isValid name = true := by
    intro s
    rw [Option.ite_none_right_eq_some, Option.some.injEq]
    exact ⟨fun h => ⟨h.2, h.2 ▸ h.1⟩, fun h => ⟨h.1 ▸ h.2, h.1⟩⟩
  cases key with
  | text s => simp [nameOf?, hcase]
  | symbol s => simp [nameOf?, hcase]
  | _ => simp [nameOf?]

def skipped (table : Table H) : List (Datum H) :=
  (table.map Prod.fst).filter fun key => (nameOf? key).isNone

def bindInto (bindings : Bindings H) : Table H -> Bindings H
  | [] => bindings
  | (key, value) :: rest =>
      match nameOf? key with
      | some name => bindInto (Entries.put (· == ·) name value bindings) rest
      | none => bindInto bindings rest

/-- The bindings of a table. A text and a symbol of one name share a binding. -/
def bindings (table : Table H) : Bindings H :=
  bindInto [] table

def skipNotice [Host H] (key : Datum H) : String :=
  "Skipping builtin with invalid identifier " ++ key.inspect

def calculator (function : Builtin -> H) : Table H :=
  Builtin.all.map fun b => (.text b.symbol, .function (function b))

end Table

namespace Store

variable {H : Type}

def openRoot (store : Store H) (table : Table H) : Nat × Store H :=
  store.push ⟨table.bindings, none⟩

end Store

end Reckoner
