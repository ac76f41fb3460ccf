import Reckoner.Binary64.Basic

/-!
# Numerals

The numerals of the language: an optional minus sign, digits, and optionally a
point with further digits.  A numeral keeps its digits, so that its length can
still be judged after it has been recognised.
-/

namespace Reckoner

structure Numeral where
  negative : Bool
  /-- The digits before the point. -/
  whole : List Char
  /-- The digits after the point, if there is one. -/
  fraction : Option (List Char)
deriving DecidableEq, Repr

namespace Numeral

def splitSign : List Char -> Bool × List Char
  | '-' :: rest => (true, rest)
  | chars => (false, chars)

def isDigits (chars : List Char) : Bool :=
  !chars.isEmpty && chars.all Char.isDigit

def ofChars? (chars : List Char) : Option Numeral :=
  let (negative, body) := splitSign chars
  let whole := body.takeWhile Char.isDigit
  match body.dropWhile Char.isDigit with
  | [] => if whole.isEmpty then none else some ⟨negative, whole, none⟩
  | c :: rest =>
      if c == '.' && !whole.isEmpty && isDigits rest then some ⟨negative, whole, some rest⟩
      else none

def natOf (digits : List Char) : Nat :=
  digits.foldl (fun acc c => 10 * acc + (c.toNat - '0'.toNat)) 0

def chars (n : Numeral) : List Char :=
  (if n.negative then ['-'] else []) ++ n.whole ++
    match n.fraction with
    | none => []
    | some digits => '.' :: digits

/-- A numeral keeps every character of the text it was recognised in. -/
theorem chars_ofChars? {text : List Char} {n : Numeral} (h : ofChars? text = some n) :
    n.chars = text := by
  have hsign : (if (splitSign text).1 then ['-'] else []) ++ (splitSign text).2 = text := by
    unfold splitSign
    split <;> simp
  unfold ofChars? at h
  generalize splitSign text = parts at h hsign
  rcases parts with ⟨negative, body⟩
  have hbody : body.takeWhile Char.isDigit ++ body.dropWhile Char.isDigit = body :=
    List.takeWhile_append_dropWhile
  dsimp only at h hsign
  split at h
  · rename_i hrest
    split at h
    · cases h
    · cases h
      rw [hrest] at hbody
      rw [← hsign]
      simp only [chars, List.append_assoc, hbody]
  · rename_i c rest hrest
    split at h
    · rename_i hpoint
      cases h
      simp only [Bool.and_eq_true, beq_iff_eq] at hpoint
      rw [hrest, hpoint.1.1] at hbody
      rw [← hsign]
      simp only [chars, List.append_assoc, hbody]
    · cases h

def toInt (n : Numeral) : Int :=
  signed n.negative (natOf n.whole)

def toFloat (n : Numeral) (fraction : List Char) : Float :=
  Binary64.ofRatio n.negative (natOf (n.whole ++ fraction)) (tenTo fraction.length)

end Numeral

end Reckoner
