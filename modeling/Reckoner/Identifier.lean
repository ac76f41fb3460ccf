/-!
# Identifiers

The names that can be bound, and that the reader takes for symbols.
-/

namespace Reckoner

namespace Identifier

def isInitial (c : Char) : Bool :=
  c.isAlpha || ['+', '-', '!', '/', '*', '_'].contains c

/-- The characters an identifier may go on with; the slash is not among them. -/
def isSubsequent (c : Char) : Bool :=
  c.isAlphanum || ['+', '-', '!', '?', '*', '_', Char.ofNat 0x27].contains c

def isValidChars : List Char -> Bool
  | [] => false
  | c :: rest => isInitial c && rest.all isSubsequent

def isValid (name : String) : Bool :=
  isValidChars name.toList

end Identifier

end Reckoner
