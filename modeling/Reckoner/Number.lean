import Reckoner.Decimal.Layout
import Reckoner.Decimal.Numeral

/-!
# Numbers

A number is an integer of any size or a double.  The two kinds compare by exact
value: each number other than NaN has a place on one line, counted in quanta.
-/

namespace Reckoner

inductive Number where
  | int (n : Int)
  | float (x : Float)
deriving DecidableEq

namespace Number

/-- A place on the line of numbers, with both infinities. -/
inductive Place where
  | below
  | quanta (count : Int)
  | above
deriving DecidableEq, Repr

def Place.lt : Place -> Place -> Bool
  | .below, .below => false
  | .below, _ => true
  | .quanta _, .below => false
  | .quanta a, .quanta b => decide (a < b)
  | .quanta _, .above => true
  | .above, _ => false

/-- The place of a number. NaN has none. -/
def place? : Number -> Option Place
  | .int n => some (.quanta (n * Binary64.quantaPerUnit))
  | .float x =>
      match Binary64.view x with
      | .nan => none
      | .infinite negative => some (if negative then .below else .above)
      | .finite negative quanta => some (.quanta (signed negative quanta))

def isNaN : Number -> Bool
  | .int _ => false
  | .float x => Binary64.view x == .nan

/-- Equality by value. NaN equals nothing, itself included. -/
def equal (a b : Number) : Bool :=
  match a.place?, b.place? with
  | some p, some q => p == q
  | _, _ => false

/-- Strict order by value. NaN is neither below nor above anything. -/
def less (a b : Number) : Bool :=
  match a.place?, b.place? with
  | some p, some q => p.lt q
  | _, _ => false

def isZero (a : Number) : Bool :=
  a.equal (.int 0)

def isNegative (a : Number) : Bool :=
  a.less (.int 0)

def text (layout : Layout) : Number -> String
  | .int n => String.ofList ((if n < 0 then ['-'] else []) ++ Nat.toDigits 10 n.natAbs)
  | .float x => Binary64.text layout x

/-- The most decimal digits an integer may have where it is read or written. -/
def digitLimit : Nat :=
  4300

def isWritable : Number -> Bool
  | .int n => decide (n.natAbs < tenTo digitLimit)
  | .float _ => true

/-- The number a numeral denotes, unless it is an integer of too many digits. -/
def ofNumeral? (numeral : Numeral) : Option Number :=
  match numeral.fraction with
  | none => if numeral.whole.length ≤ digitLimit then some (.int numeral.toInt) else none
  | some fraction => some (.float (numeral.toFloat fraction))

end Number

end Reckoner
