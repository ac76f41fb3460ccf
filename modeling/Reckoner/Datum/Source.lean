import Reckoner.Datum.Text

/-!
# Source text of data

Writes an expression so that the reader can read it again: combinations with
single blanks between their items, symbols by name, doubles without exponents.
What the reader cannot produce is displayed.
-/

namespace Reckoner

namespace Datum

variable {H : Type}

mutual

def source [Host H] : Datum H -> String
  | .combination items => "(" ++ " ".intercalate (sourceAll items) ++ ")"
  | .symbol name => name
  | .number n => n.text .source
  | d => d.display

def sourceAll [Host H] : List (Datum H) -> List String
  | [] => []
  | item :: rest => source item :: sourceAll rest

end

def source? [Host H] (d : Datum H) : Except Failure String :=
  if d.isWritable then .ok d.source else .error .digitLimit

end Datum

end Reckoner
