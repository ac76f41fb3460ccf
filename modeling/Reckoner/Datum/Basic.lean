import Reckoner.Identifier
import Reckoner.Number
import Reckoner.Calculator.Operand

/-!
# Data

Expressions and values are one kind of thing: what the reader builds can be
bound, passed and returned, and a host may put values into an expression.  The
type is generic in the host's functions.
-/

namespace Reckoner

/--
An expression or a value over host functions `H`.

A `list` is a host's own sequence: it evaluates as a combination does, but it is
written differently, equals no combination and cannot be a key.  A closure keeps
its parameters, its body, the number of the scope it was made in, and its
`birth`, which tells it from every other closure.

A NaN has a birth as well: it equals no number, but a sequence that holds it
equals itself.  A NaN among the numbers is new and has not been given one yet.
-/
inductive Datum (H : Type) where
  | number (n : Number)
  | nan (birth : Nat)
  | bool (b : Bool)
  | text (s : String)
  | absent
  | nil
  | symbol (name : String)
  | combination (items : List (Datum H))
  | list (items : List (Datum H))
  | closure (birth : Nat) (parameters : List (Datum H)) (body : Datum H) (scope : Nat)
  | function (f : H)

namespace Datum

variable {H : Type}

instance : Inhabited (Datum H) :=
  ⟨.absent⟩

def identifier? : Datum H -> Option String
  | .symbol name => if Identifier.isValid name then some name else none
  | _ => none

/-- Only a symbol with a valid name is an identifier. -/
theorem identifier?_eq_some_iff {d : Datum H} {name : String} :
    d.identifier? = some name ↔ d = .symbol name ∧ Identifier.isValid name = true := by
  cases d with
  | symbol other =>
      simp only [identifier?, symbol.injEq]
      by_cases hvalid : Identifier.isValid other
      · simp only [hvalid, ↓reduceIte, Option.some.injEq]
        exact ⟨fun h => ⟨h, h ▸ hvalid⟩, fun h => h.1⟩
      · simp only [hvalid, Bool.false_eq_true, ↓reduceIte, reduceCtorEq, false_iff]
        exact fun h => hvalid (h.1 ▸ h.2)
  | _ => simp [identifier?]

def items? : Datum H -> Option (List (Datum H))
  | .combination items => some items
  | .list items => some items
  | _ => none

def isCallable : Datum H -> Bool
  | .closure _ _ _ _ => true
  | .function _ => true
  | _ => false

/-- The number that a datum compares as; truth values count as zero and one. -/
def numeric? : Datum H -> Option Number
  | .number n => some n
  | .nan _ => some (.float Binary64.nan)
  | .bool b => some (.int (if b then 1 else 0))
  | _ => none

def isTruthy : Datum H -> Bool
  | .number n => !n.isZero
  | .nan _ => true
  | .bool b => b
  | .text s => !s.isEmpty
  | .absent => false
  | .nil => false
  | .combination items => !items.isEmpty
  | .list items => !items.isEmpty
  | .symbol _ => true
  | .closure _ _ _ _ => true
  | .function _ => true

def isNewNaN : Datum H -> Bool
  | .number n => n.isNaN
  | _ => false

def operand : Datum H -> Calculator.Operand
  | .number n => .number n
  | .nan _ => .number (.float Binary64.nan)
  | .bool b => .truth b
  | _ => .other

mutual

/-- Whether a datum can be a key: no list occurs in it as an item. -/
def isHashable : Datum H -> Bool
  | .list _ => false
  | .combination items => allHashable items
  | _ => true

def allHashable : List (Datum H) -> Bool
  | [] => true
  | item :: rest => isHashable item && allHashable rest

end

end Datum

end Reckoner
