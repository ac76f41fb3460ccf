import Reckoner.Power

/-!
# Binary64 numbers as whole quanta

The finite doubles are exactly the multiples of one quantum, `2^-1074`, whose
count fits in 53 significant bits.  Everything exact about a double (its decimal
text, its integer part, its order among the integers) is therefore arithmetic on
natural numbers, and rounding a ratio to a double is rounding a count of quanta.
-/

namespace Reckoner

def signed (negative : Bool) (magnitude : Nat) : Int :=
  if negative then -(magnitude : Int) else magnitude

@[simp] theorem signed_true (magnitude : Nat) : signed true magnitude = -(magnitude : Int) :=
  rfl

@[simp] theorem signed_false (magnitude : Nat) : signed false magnitude = magnitude :=
  rfl

@[simp] theorem natAbs_signed (negative : Bool) (magnitude : Nat) :
    (signed negative magnitude).natAbs = magnitude := by
  cases negative <;> simp

namespace Binary64

/-- How often one is halved to give a quantum. -/
def quantumHalvings : Nat :=
  1074

def quantaPerUnit : Nat :=
  twoTo quantumHalvings

/-- The least count of quanta that is too large for a finite double: those in `2^1024`. -/
def quantaLimit : Nat :=
  twoTo (1024 + quantumHalvings)

/-- The number of doubles from one power of two up to, not including, the next. -/
def binade : Nat :=
  twoTo 52

def signWeight : Nat :=
  twoTo 63

/--
The place of infinity when the non-negative doubles are numbered from zero
upwards, which is how their bit patterns are ordered.
-/
def infinityOrdinal : Nat :=
  2047 * binade

inductive View where
  | nan
  | infinite (negative : Bool)
  | finite (negative : Bool) (quanta : Nat)
deriving DecidableEq, Repr

/--
The count of quanta at an ordinal.

Past the first two binades the spacing doubles with every binade.
-/
def quantaAt (ordinal : Nat) : Nat :=
  let shift := ordinal / binade - 1
  (ordinal - shift * binade) * twoTo shift

/-- The ordinal of the largest double that is at most the given count of quanta. -/
def ordinalOf (quanta : Nat) : Nat :=
  let shift := quanta.log2 - 52
  shift * binade + quanta / twoTo shift

/-- A bit pattern whose magnitude is at most infinity's is no NaN, so it is canonical. -/
theorem valid_of_magnitude_le (bits : UInt64)
    (h : bits.toNat % signWeight ≤ infinityOrdinal) :
    Float.Model.Format.binary64.Valid bits.toBitVec := by
  refine ⟨fun hexponent hmantissa => absurd ?_ hmantissa⟩
  have hones := congrArg BitVec.toNat hexponent
  apply BitVec.eq_of_toNat_eq
  simp [Float.Model.UnpackedFloat.unpackMantissa, Float.Model.UnpackedFloat.unpackExponent,
    Nat.shiftRight_eq_div_pow, BitVec.neg_one_eq_allOnes] at hones ⊢
  simp only [show signWeight = 9223372036854775808 from rfl,
    show infinityOrdinal = 9218868437227405312 from rfl] at h
  omega

/-- The bit pattern of a sign and an ordinal; ordinals past infinity mean infinity. -/
def bitsOf (negative : Bool) (ordinal : Nat) : UInt64 :=
  UInt64.ofNat (min ordinal infinityOrdinal + if negative then signWeight else 0)

theorem bitsOf_magnitude_le (negative : Bool) (ordinal : Nat) :
    (bitsOf negative ordinal).toNat % signWeight ≤ infinityOrdinal := by
  simp only [bitsOf, UInt64.toNat_ofNat', show signWeight = 9223372036854775808 from rfl,
    show infinityOrdinal = 9218868437227405312 from rfl]
  cases negative <;> simp <;> omega

def ofOrdinal (negative : Bool) (ordinal : Nat) : Float :=
  Float.ofModel ⟨bitsOf negative ordinal,
    valid_of_magnitude_le _ (bitsOf_magnitude_le negative ordinal)⟩

@[simp] theorem toBits_ofOrdinal (negative : Bool) (ordinal : Nat) :
    (ofOrdinal negative ordinal).toBits = bitsOf negative ordinal :=
  rfl

/-- The double at a count of quanta, infinite from `quantaLimit` on. -/
def ofQuanta (negative : Bool) (quanta : Nat) : Float :=
  ofOrdinal negative (ordinalOf quanta)

def nan : Float :=
  Float.ofBits 0x7ff8000000000000

def view (x : Float) : View :=
  let bits := x.toBits.toNat
  let ordinal := bits % signWeight
  let negative := decide (signWeight ≤ bits)
  if infinityOrdinal < ordinal then .nan
  else if ordinal = infinityOrdinal then .infinite negative
  else .finite negative (quantaAt ordinal)

/-- A quotient of naturals rounded to the nearest natural, a half to the even neighbour. -/
def roundQuotient (num den : Nat) : Nat :=
  let quotient := num / den
  let rest := num % den
  if 2 * rest < den then quotient
  else if den < 2 * rest then quotient + 1
  else quotient + quotient % 2

/--
The count of quanta nearest to a ratio among those a double can hold, were its
exponent unbounded above.

`shift` is how many low bits the ratio's own magnitude leaves no room for.
-/
def nearestQuanta (num den : Nat) : Nat :=
  let scaled := num * quantaPerUnit
  let shift := (scaled / den).log2 - 52
  roundQuotient scaled (den * twoTo shift) * twoTo shift

def ofRatio (negative : Bool) (num den : Nat) : Float :=
  ofQuanta negative (nearestQuanta num den)

def ofRatio? (negative : Bool) (num den : Nat) : Option Float :=
  let quanta := nearestQuanta num den
  if quanta < quantaLimit then some (ofQuanta negative quanta) else none

def ofInt? (n : Int) : Option Float :=
  ofRatio? (n < 0) n.natAbs 1

/--
The double nearest to a quotient of integers, unless that is infinite.

The sign is that of the operands taken together even where the quotient is zero.
-/
def ofQuotient? (a b : Int) : Option Float :=
  ofRatio? (decide (a < 0) != decide (b < 0)) a.natAbs b.natAbs

end Binary64

end Reckoner
