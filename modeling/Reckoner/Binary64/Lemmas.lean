import Reckoner.Binary64.Basic

/-!
# Doubles and their quanta

The two numberings of the non-negative doubles agree: a representable count of
quanta is found again at its ordinal, so the double built from it is read back as
that count, and rounding leaves it alone.
-/

namespace Reckoner

namespace Binary64

/--
A double can hold this count of quanta, were its exponent unbounded above: the
bits past the first 53 are zero.
-/
def Representable (quanta : Nat) : Prop :=
  twoTo (quanta.log2 - 52) ∣ quanta

instance (quanta : Nat) : Decidable (Representable quanta) :=
  inferInstanceAs (Decidable (_ ∣ _))

theorem quantaPerUnit_pos : 0 < quantaPerUnit :=
  twoTo_pos _

/-- A count of quanta below the first 53 bits is its own ordinal. -/
theorem ordinalOf_of_lt {quanta : Nat} (h : quanta < 2 * binade) : ordinalOf quanta = quanta := by
  have hshift : quanta.log2 - 52 = 0 := by
    by_cases hzero : quanta = 0
    · simp [hzero]
    · have : quanta.log2 < 53 := (log2_lt_iff hzero).mpr h
      omega
  simp only [ordinalOf, hshift, Nat.zero_mul, Nat.zero_add]
  exact Nat.div_one quanta

/-- An ordinal in the first two binades is its own count of quanta. -/
theorem quantaAt_of_lt {ordinal : Nat} (h : ordinal < 2 * binade) : quantaAt ordinal = ordinal := by
  have hshift : ordinal / binade - 1 = 0 := by
    have := Nat.div_lt_of_lt_mul (Nat.mul_comm 2 binade ▸ h)
    omega
  simp only [quantaAt, hshift, Nat.zero_mul, Nat.sub_zero]
  exact Nat.mul_one ordinal

/-- The leading 53 bits of a count of quanta that has more. -/
theorem significand_bounds {quanta : Nat} (h : 52 ≤ quanta.log2) :
    binade ≤ quanta / twoTo (quanta.log2 - 52) ∧
      quanta / twoTo (quanta.log2 - 52) < 2 * binade := by
  have hzero : quanta ≠ 0 := by
    rintro rfl
    simp at h
  have hlow : twoTo quanta.log2 ≤ quanta := Nat.log2_self_le hzero
  have hhigh : quanta < twoTo (quanta.log2 + 1) := Nat.lt_log2_self
  generalize hk : quanta.log2 - 52 = k
  have hsum : quanta.log2 = 52 + k := by omega
  rw [hsum] at hlow hhigh
  constructor
  · rw [Nat.le_div_iff_mul_le (twoTo_pos k)]
    exact twoTo_add 52 k ▸ hlow
  · rw [Nat.div_lt_iff_lt_mul (twoTo_pos k)]
    have hsplit : twoTo (52 + k + 1) = 2 * binade * twoTo k := by
      rw [show 52 + k + 1 = 1 + 52 + k by omega, twoTo_add, twoTo_add]
      rfl
    exact hsplit ▸ hhigh

theorem quantaAt_ordinalOf {quanta : Nat} (h : Representable quanta) :
    quantaAt (ordinalOf quanta) = quanta := by
  by_cases hsmall : quanta < 2 * binade
  · rw [ordinalOf_of_lt hsmall, quantaAt_of_lt hsmall]
  · have hlog : 52 ≤ quanta.log2 := by
      have hzero : quanta ≠ 0 := by
        rintro rfl
        exact hsmall (by decide)
      refine (Nat.le_log2 hzero).mpr (Nat.le_trans ?_ (Nat.le_of_not_lt hsmall))
      decide
    have hbounds := significand_bounds hlog
    unfold Representable at h
    unfold ordinalOf
    generalize quanta.log2 - 52 = k at h hbounds
    have hshift : (k * binade + quanta / twoTo k) / binade - 1 = k := by
      rw [show binade = 4503599627370496 from rfl] at hbounds ⊢
      omega
    simp only [quantaAt, hshift, Nat.add_sub_cancel_left]
    exact Nat.div_mul_cancel h

/-- Counts of quanta below the limit have the ordinals below infinity. -/
theorem ordinalOf_lt_infinityOrdinal {quanta : Nat} (h : quanta < quantaLimit) :
    ordinalOf quanta < infinityOrdinal := by
  by_cases hlog : 52 ≤ quanta.log2
  · have hzero : quanta ≠ 0 := by
      rintro rfl
      simp at hlog
    have hmost : quanta.log2 < 1024 + quantumHalvings := (log2_lt_iff hzero).mpr h
    have hbounds := significand_bounds hlog
    simp only [ordinalOf, show infinityOrdinal = 2047 * binade from rfl]
    rw [show binade = 4503599627370496 from rfl] at hbounds ⊢
    unfold quantumHalvings at hmost
    omega
  · have hsmall : quanta < 2 * binade := by
      by_cases hzero : quanta = 0
      · rw [hzero]
        decide
      · exact (log2_lt_iff hzero).mp (show quanta.log2 < 53 by omega)
    rw [ordinalOf_of_lt hsmall]
    exact Nat.lt_of_lt_of_le hsmall (by decide)

theorem toNat_bitsOf (negative : Bool) (ordinal : Nat) :
    (bitsOf negative ordinal).toNat =
      min ordinal infinityOrdinal + if negative then signWeight else 0 := by
  have hmost : min ordinal infinityOrdinal ≤ 9218868437227405312 := Nat.min_le_right _ _
  simp only [bitsOf, UInt64.toNat_ofNat', show signWeight = 9223372036854775808 from rfl]
  cases negative <;> simp <;> omega

/-- The bits without the sign are the ordinal. -/
theorem toNat_bitsOf_mod (negative : Bool) (ordinal : Nat) :
    (bitsOf negative ordinal).toNat % signWeight = min ordinal infinityOrdinal := by
  have hmost : min ordinal infinityOrdinal ≤ 9218868437227405312 := Nat.min_le_right _ _
  rw [toNat_bitsOf, show signWeight = 9223372036854775808 from rfl]
  cases negative <;> simp <;> omega

theorem signWeight_le_toNat_bitsOf (negative : Bool) (ordinal : Nat) :
    decide (signWeight ≤ (bitsOf negative ordinal).toNat) = negative := by
  have hmost : min ordinal infinityOrdinal ≤ 9218868437227405312 := Nat.min_le_right _ _
  rw [toNat_bitsOf, show signWeight = 9223372036854775808 from rfl]
  cases negative <;> simp
  omega

theorem view_ofOrdinal (negative : Bool) {ordinal : Nat} (h : ordinal < infinityOrdinal) :
    view (ofOrdinal negative ordinal) = .finite negative (quantaAt ordinal) := by
  rw [view, toBits_ofOrdinal]
  simp only [toNat_bitsOf_mod, signWeight_le_toNat_bitsOf,
    Nat.min_eq_left (Nat.le_of_lt h), Nat.not_lt.mpr (Nat.le_of_lt h), Nat.ne_of_lt h, ↓reduceIte]

theorem view_ofOrdinal_infinite (negative : Bool) {ordinal : Nat} (h : infinityOrdinal ≤ ordinal) :
    view (ofOrdinal negative ordinal) = .infinite negative := by
  rw [view, toBits_ofOrdinal]
  simp only [toNat_bitsOf_mod, signWeight_le_toNat_bitsOf,
    Nat.min_eq_right h, Nat.lt_irrefl, ↓reduceIte]

/-- A double built from a representable count of quanta is read back as it. -/
theorem view_ofQuanta (negative : Bool) {quanta : Nat} (hlimit : quanta < quantaLimit)
    (hquanta : Representable quanta) :
    view (ofQuanta negative quanta) = .finite negative quanta := by
  rw [ofQuanta, view_ofOrdinal negative (ordinalOf_lt_infinityOrdinal hlimit),
    quantaAt_ordinalOf hquanta]

/-- An exact quotient is not changed by rounding. -/
theorem roundQuotient_mul_self (n : Nat) {den : Nat} (h : 0 < den) :
    roundQuotient (n * den) den = n := by
  simp [roundQuotient, Nat.mul_div_cancel n h, h]

/-- A representable count of quanta is the nearest one to itself. -/
theorem nearestQuanta_self {quanta : Nat} (h : Representable quanta) :
    nearestQuanta quanta quantaPerUnit = quanta := by
  unfold Representable at h
  unfold nearestQuanta
  simp only [Nat.mul_div_cancel quanta quantaPerUnit_pos]
  generalize quanta.log2 - 52 = k at h
  obtain ⟨m, hm⟩ := h
  have hshape : quanta * quantaPerUnit = m * (quantaPerUnit * twoTo k) := by
    rw [hm, Nat.mul_comm (twoTo k) m, Nat.mul_assoc, Nat.mul_comm (twoTo k)]
  rw [hshape, roundQuotient_mul_self m (Nat.mul_pos quantaPerUnit_pos (twoTo_pos k)), hm,
    Nat.mul_comm]

end Binary64

end Reckoner
