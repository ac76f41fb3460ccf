import Reckoner.Environment.Store

/-!
# The machine

An evaluation runs on a machine: the store of scopes, a count of the births so
far, and the record of what happened.  With the store in which it began, the
record tells every store that the evaluation went through, so that each call of a
host function can be seen as it was made.
-/

namespace Reckoner

/-- Something an evaluation did that others can observe. -/
inductive Event (H : Type) where
  /-- A host function was called and returned or failed. -/
  | called (function : H) (operands : List (Datum H)) (outcome : Except Failure (Datum H))
  /-- A scope was opened inside another. -/
  | opened (outer : Option Nat)
  /-- A name was bound in a scope. -/
  | bound (scope : Nat) (name : String) (value : Datum H)

namespace Store

variable {H : Type}

def after (store : Store H) : Event H -> Store H
  | .called _ _ _ => store
  | .opened outer => (store.create outer).2
  | .bound scope name value => store.bind scope name value

end Store

/-- A call of a host function, with the store as it was at the time of the call. -/
structure Call (H : Type) where
  function : H
  operands : List (Datum H)
  store : Store H

namespace Call

variable {H : Type}

def all (store : Store H) : List (Event H) -> List (Call H)
  | [] => []
  | .called function operands _ :: rest => ⟨function, operands, store⟩ :: all store rest
  | event :: rest => all (store.after event) rest

end Call

structure Machine (H : Type) where
  store : Store H
  /-- How many closures and NaNs have been made. -/
  births : Nat
  /-- What happened, latest first. -/
  events : List (Event H)

namespace Machine

variable {H : Type}

def empty : Machine H :=
  ⟨.empty, 0, []⟩

instance : Inhabited (Machine H) :=
  ⟨empty⟩

def history (machine : Machine H) : List (Event H) :=
  machine.events.reverse

end Machine

abbrev Action (H : Type) :=
  EStateM Failure (Machine H)

end Reckoner
