import Reckoner.Datum.Basic
import Reckoner.Failure

/-!
# Hosts

A host supplies functions.  Each takes evaluated operands and returns a datum or
fails; it shows as a label, and it is blamed under its title if it returns
nothing.
-/

namespace Reckoner

class Host (H : Type) where
  /-- Calls a function. -/
  call : H -> List (Datum H) -> Except Failure (Datum H)
  /-- The name under which a function is blamed. -/
  title : H -> String
  /-- The text a function shows. -/
  label : H -> String

end Reckoner
