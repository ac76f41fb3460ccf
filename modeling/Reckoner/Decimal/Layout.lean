import Reckoner.Decimal.Shortest

/-!
# Decimal text

How a decimal is laid out: positionally, with at least one digit on each side of
the point, or with an exponent of at least two digits.  A layout says where the
point may fall for the positional form.
-/

namespace Reckoner

structure Layout where
  /-- Whether a number whose point falls here is written positionally. -/
  positional : Int -> Bool

namespace Layout

/-- Values are written positionally from `0.0001` up to, not including, `10^16`. -/
def value : Layout :=
  ⟨fun point => decide (-4 < point) && decide (point ≤ 16)⟩

/-- Source text has no exponents, so it is positional throughout. -/
def source : Layout :=
  ⟨fun _ => true⟩

end Layout

namespace Decimal

def zeros (count : Nat) : List Char :=
  List.replicate count '0'

/-- Digits on both sides of a point, `0` where there would be none. -/
def positionalText (d : Decimal) : List Char :=
  let digits := d.digits
  let point := d.point
  if point ≤ 0 then '0' :: '.' :: zeros (-point).toNat ++ digits
  else if digits.length ≤ point.toNat then
    digits ++ zeros (point.toNat - digits.length) ++ ['.', '0']
  else digits.take point.toNat ++ '.' :: digits.drop point.toNat

/-- An exponent: its sign always, and two digits at least. -/
def exponentText (exponent : Int) : List Char :=
  let sign := if exponent < 0 then '-' else '+'
  let digits := Nat.toDigits 10 exponent.natAbs
  'e' :: sign :: zeros (2 - digits.length) ++ digits

def scientificText (d : Decimal) : List Char :=
  let digits := d.digits
  let rest := digits.drop 1
  digits.take 1 ++ (if rest.isEmpty then [] else '.' :: rest) ++ exponentText (d.point - 1)

def text (layout : Layout) (d : Decimal) : List Char :=
  if layout.positional d.point then d.positionalText else d.scientificText

end Decimal

namespace Binary64

/-- The text of a finite magnitude: zero, or the shortest decimal that reads back. -/
def magnitudeText (layout : Layout) (quanta : Nat) : List Char :=
  if quanta = 0 then ['0', '.', '0'] else (Decimal.shortest quanta).text layout

/-- The text of a double. A NaN has no sign. -/
def text (layout : Layout) (x : Float) : String :=
  match view x with
  | .nan => "nan"
  | .infinite negative => if negative then "-inf" else "inf"
  | .finite negative quanta =>
      String.ofList ((if negative then ['-'] else []) ++ magnitudeText layout quanta)

end Binary64

end Reckoner
