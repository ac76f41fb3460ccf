import Reckoner.Text.Blank

/-!
# Settings

Switches that are read from variables of the surroundings.
-/

namespace Reckoner

namespace Settings

def offWords : List String :=
  ["0", "false", "no", "off"]

/--
Whether a variable with the given value turns its switch on.

An unset or blank variable leaves the default.  Only ASCII letters need their
case folded: no other letter folds to one in `offWords`.
-/
def flag (raw : Option String) (default : Bool) : Bool :=
  match raw with
  | none => default
  | some value =>
      let word := Text.trimBlanks value.toList
      if word.isEmpty then default
      else !offWords.contains (String.ofList (word.map Char.toLower))

def strictArityVariable : String :=
  "SIGMA_STRICT_ARITY"

def strictArity (raw : Option String) : Bool :=
  flag raw true

end Settings

end Reckoner
