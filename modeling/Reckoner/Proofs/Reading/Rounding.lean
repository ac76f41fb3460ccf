import Reckoner.Binary64.Lemmas

/-!
# Rounding ratios to doubles

The double nearest to a ratio depends only on the value of the ratio, it can
always be held, and from the limit on it is infinite.  Every finite double is
reached so: it is the one at the count of quanta that it stands for.
-/

namespace Reckoner

namespace Binary64

/-! ## The value of a ratio -/

theorem roundQuotient_mul_right (num den : Nat) {k : Nat} (hk : 0 < k) :
    roundQuotient (num * k) (den * k) = roundQuotient num den := by
  have hrest : 2 * (num % den * k) = 2 * (num % den) * k := (Nat.mul_assoc _ _ _).symm
  simp only [roundQuotient, Nat.mul_div_mul_right _ _ hk, Nat.mul_mod_mul_right, hrest,
    Nat.mul_lt_mul_right hk]

theorem nearestQuanta_mul_right (num den : Nat) {k : Nat} (hk : 0 < k) :
    nearestQuanta (num * k) (den * k) = nearestQuanta num den := by
  have hscaled : num * k * quantaPerUnit = num * quantaPerUnit * k := Nat.mul_right_comm _ _ _
  simp only [nearestQuanta, hscaled, Nat.mul_div_mul_right _ _ hk, Nat.mul_right_comm den k,
    roundQuotient_mul_right _ _ hk]

/-- Equal ratios round alike. -/
theorem nearestQuanta_congr {a b c d : Nat} (hb : 0 < b) (hd : 0 < d) (h : a * d = c * b) :
    nearestQuanta a b = nearestQuanta c d := by
  rw [← nearestQuanta_mul_right a b hd, ← nearestQuanta_mul_right c d hb, h, Nat.mul_comm b d]

/-! ## What rounding gives -/

theorem roundQuotient_le {num den bound : Nat} (hden : 0 < den) (h : num < bound * den) :
    roundQuotient num den ≤ bound := by
  have hquotient : num / den < bound := (Nat.div_lt_iff_lt_mul hden).mpr h
  unfold roundQuotient
  dsimp only
  split
  · omega
  · split <;> omega

/-- At most 53 bits, shifted; with all of them rounded up there is one more, but only zeros. -/
theorem representable_mul_twoTo {m : Nat} (h : m ≤ 2 * binade) (k : Nat) :
    Representable (m * twoTo k) := by
  unfold Representable
  rcases Nat.lt_or_eq_of_le h with hlt | rfl
  · by_cases hzero : m * twoTo k = 0
    · simp [hzero]
    · have hlog : (m * twoTo k).log2 < 53 + k := by
        rw [log2_lt_iff hzero, twoTo_add]
        exact Nat.mul_lt_mul_of_pos_right hlt (twoTo_pos k)
      have hshift : twoTo ((m * twoTo k).log2 - 52) ∣ twoTo k := Nat.pow_dvd_pow 2 (by omega)
      exact Nat.dvd_mul_left_of_dvd hshift m
  · have hpower : 2 * binade * twoTo k = 2 ^ (53 + k) := (twoTo_add 53 k).symm
    rw [hpower, Nat.log2_two_pow]
    exact Nat.pow_dvd_pow 2 (by omega)

/-- The nearest count of quanta to a ratio is one that a double can hold. -/
theorem representable_nearestQuanta (num : Nat) {den : Nat} (hden : 0 < den) :
    Representable (nearestQuanta num den) := by
  unfold nearestQuanta
  dsimp only
  generalize num * quantaPerUnit = scaled
  refine representable_mul_twoTo (roundQuotient_le (Nat.mul_pos hden (twoTo_pos _)) ?_) _
  have hpower : twoTo ((scaled / den).log2 + 1) ≤
      2 * binade * twoTo ((scaled / den).log2 - 52) := by
    rw [show 2 * binade = twoTo 53 from rfl, ← twoTo_add]
    exact twoTo_le_twoTo (by omega)
  have hquotient : scaled / den < 2 * binade * twoTo ((scaled / den).log2 - 52) :=
    Nat.lt_of_lt_of_le Nat.lt_log2_self hpower
  have hscaled := (Nat.div_lt_iff_lt_mul hden).mp hquotient
  rwa [Nat.mul_assoc, Nat.mul_comm (twoTo _) den] at hscaled

/-- Counts of quanta from the limit on have ordinals from infinity's on. -/
theorem infinityOrdinal_le_ordinalOf {quanta : Nat} (h : quantaLimit ≤ quanta) :
    infinityOrdinal ≤ ordinalOf quanta := by
  have hzero : quanta ≠ 0 := Nat.ne_of_gt (Nat.lt_of_lt_of_le (twoTo_pos _) h)
  have hlog : 1024 + quantumHalvings ≤ quanta.log2 := by
    rw [← Nat.not_lt, log2_lt_iff hzero]
    exact Nat.not_lt.mpr h
  have hbounds := significand_bounds (Nat.le_trans (by decide) hlog)
  unfold quantumHalvings at hlog
  simp only [ordinalOf, show infinityOrdinal = 2047 * binade from rfl]
  rw [show binade = 4503599627370496 from rfl] at hbounds ⊢
  omega

theorem view_ofQuanta_infinite (negative : Bool) {quanta : Nat} (h : quantaLimit ≤ quanta) :
    view (ofQuanta negative quanta) = .infinite negative :=
  view_ofOrdinal_infinite negative (infinityOrdinal_le_ordinalOf h)

/-- What a rounded ratio stands for. -/
theorem view_ofRatio (negative : Bool) (num : Nat) {den : Nat} (hden : 0 < den) :
    view (ofRatio negative num den) =
      if nearestQuanta num den < quantaLimit then .finite negative (nearestQuanta num den)
      else .infinite negative := by
  split
  · rename_i hlimit
    exact view_ofQuanta negative hlimit (representable_nearestQuanta num hden)
  · rename_i hlimit
    exact view_ofQuanta_infinite negative (Nat.le_of_not_lt hlimit)

/-! ## The quanta of a double -/

/-- Past the first two binades, an ordinal is a number of binades and 53 bits more. -/
theorem significandAt_bounds {ordinal : Nat} (h : 2 * binade ≤ ordinal) :
    binade ≤ ordinal - (ordinal / binade - 1) * binade ∧
      ordinal - (ordinal / binade - 1) * binade < 2 * binade := by
  rw [show binade = 4503599627370496 from rfl] at h ⊢
  omega

theorem ordinalOf_quantaAt (ordinal : Nat) : ordinalOf (quantaAt ordinal) = ordinal := by
  by_cases hsmall : ordinal < 2 * binade
  · rw [quantaAt_of_lt hsmall, ordinalOf_of_lt hsmall]
  · have hbounds := significandAt_bounds (Nat.le_of_not_lt hsmall)
    have hsum : (ordinal / binade - 1) * binade +
        (ordinal - (ordinal / binade - 1) * binade) = ordinal := by
      rw [show binade = 4503599627370496 from rfl] at hsmall ⊢
      omega
    simp only [quantaAt, ordinalOf]
    generalize ordinal / binade - 1 = shift at hbounds hsum ⊢
    generalize ordinal - shift * binade = significand at hbounds hsum ⊢
    have hpower : twoTo (52 + shift) = binade * twoTo shift := twoTo_add 52 shift
    have hpower' : twoTo (53 + shift) = 2 * binade * twoTo shift := twoTo_add 53 shift
    have hpos : significand * twoTo shift ≠ 0 := by
      have hone : 0 < binade := twoTo_pos 52
      exact Nat.mul_ne_zero (by omega) (Nat.ne_of_gt (twoTo_pos shift))
    have hlog : (significand * twoTo shift).log2 - 52 = shift := by
      have hlow : 52 + shift ≤ (significand * twoTo shift).log2 := by
        rw [← Nat.not_lt, log2_lt_iff hpos, hpower, Nat.not_lt]
        exact Nat.mul_le_mul_right _ hbounds.1
      have hhigh : (significand * twoTo shift).log2 < 53 + shift := by
        rw [log2_lt_iff hpos, hpower']
        exact Nat.mul_lt_mul_of_pos_right hbounds.2 (twoTo_pos shift)
      omega
    rw [hlog, Nat.mul_div_cancel _ (twoTo_pos shift), hsum]

theorem representable_quantaAt (ordinal : Nat) : Representable (quantaAt ordinal) := by
  by_cases hsmall : ordinal < 2 * binade
  · rw [quantaAt_of_lt hsmall, ← Nat.mul_one ordinal]
    exact representable_mul_twoTo (Nat.le_of_lt hsmall) 0
  · have hbounds := significandAt_bounds (Nat.le_of_not_lt hsmall)
    exact representable_mul_twoTo (Nat.le_of_lt hbounds.2) _

theorem quantaAt_lt_quantaLimit {ordinal : Nat} (h : ordinal < infinityOrdinal) :
    quantaAt ordinal < quantaLimit := by
  rcases Nat.lt_or_ge (quantaAt ordinal) quantaLimit with hlt | hle
  · exact hlt
  · have hordinal := infinityOrdinal_le_ordinalOf hle
    rw [ordinalOf_quantaAt] at hordinal
    omega

/-- The bits of a double are its sign and its ordinal. -/
theorem bitsOf_toBits {bits : UInt64} (h : bits.toNat % signWeight < infinityOrdinal) :
    bitsOf (decide (signWeight ≤ bits.toNat)) (bits.toNat % signWeight) = bits := by
  apply UInt64.toNat.inj
  have hbits := bits.toNat_lt
  rw [toNat_bitsOf, Nat.min_eq_left (Nat.le_of_lt h)]
  simp only [show signWeight = 9223372036854775808 from rfl, decide_eq_true_eq]
  split <;> omega

/-- Every finite double is built from the quanta it stands for. -/
theorem eq_ofQuanta_of_view {x : Float} {negative : Bool} {quanta : Nat}
    (h : view x = .finite negative quanta) :
    x = ofQuanta negative quanta ∧ quanta < quantaLimit ∧ Representable quanta := by
  obtain ⟨bits, hvalid⟩ := x
  unfold view at h
  dsimp only [Float.toBits] at h
  split at h
  · cases h
  · split at h
    · cases h
    · cases h
      have hordinal : bits.toNat % signWeight < infinityOrdinal := by omega
      refine ⟨?_, quantaAt_lt_quantaLimit hordinal, representable_quantaAt _⟩
      rw [ofQuanta, ordinalOf_quantaAt, ofOrdinal]
      exact congrArg Float.ofModel ((Float.Model.mk.injEq ..).mpr (bitsOf_toBits hordinal).symm)

end Binary64

end Reckoner
