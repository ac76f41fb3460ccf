import Reckoner.Environment.Table
import Reckoner.Evaluation
import Reckoner.Reader

/-!
# Interpreting source text

One source text is interpreted against a host table: a root scope is opened with
the table's bindings, the text is read as one expression, and the expression is
evaluated in that scope.  Nothing is shared between interpretations but what the
table holds.
-/

namespace Reckoner

inductive Outcome (H : Type) where
  | value (v : Datum H)
  /-- The report on a failure. -/
  | error (report : String)
  /-- A failure that is not reported but ends the host program. -/
  | escaped (failure : Failure)

structure Interpretation (H : Type) where
  /-- The keys of the table that could not be bound. -/
  skipped : List (Datum H)
  /-- What the source was read as, if it could be read. -/
  expression : Option (Datum H)
  result : Except Failure (Datum H)
  machine : Machine H

namespace Interpretation

variable {H : Type}

def outcome (interpretation : Interpretation H) : Outcome H :=
  match interpretation.result with
  | .ok value => .value value
  | .error failure => if failure.isFatal then .escaped failure else .error failure.report

end Interpretation

def defaultDepth : Nat :=
  1000

/-- Interprets a source text on a machine that may have run before. -/
def interpret {H : Type} [Host H] (depth : Nat) (strict : Bool) (machine : Machine H)
    (table : Table H) (source : String) : Interpretation H :=
  let (root, store) := machine.store.openRoot table
  let ready := { machine with store := store }
  match parse depth source with
  | .error failure => ⟨table.skipped, none, .error failure, ready⟩
  | .ok expression =>
      match evaluate strict depth root expression ready with
      | .ok value after => ⟨table.skipped, some expression, .ok value, after⟩
      | .error failure after => ⟨table.skipped, some expression, .error failure, after⟩

end Reckoner
