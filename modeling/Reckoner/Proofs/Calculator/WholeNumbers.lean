import Reckoner.Datum.Basic
import Reckoner.Proofs.Reading.Rounding

/-!
# Whole numbers as operands

Where a function of the calculator counts things, it takes whatever is equal to an
integer: an integer, a double or a truth value.  The one thing in the way is that an
integer is judged by its nearest double.  There is one exactly below `integerLimit`,
which no double that is whole comes up to.
-/

namespace Reckoner

namespace Binary64

/-- The least natural number whose nearest double is infinite. -/
def integerLimit : Nat :=
  twoTo 1024 - twoTo 970

/-! ## Rounding integers -/

theorem div_le_roundQuotient (num den : Nat) : num / den ≤ roundQuotient num den := by
  unfold roundQuotient
  dsimp only
  split
  · omega
  · split <;> omega

/-- In the last binade of the finite doubles, the quotient by its spacing rounds to 53 bits. -/
theorem roundQuotient_lt_iff {n half : Nat} (hhalf : 0 < half) (h : n < 2 * binade * (2 * half)) :
    roundQuotient n (2 * half) < 2 * binade ↔ n < 2 * binade * (2 * half) - half := by
  have hsplit := Nat.div_add_mod n (2 * half)
  have hrest := Nat.mod_lt n (show 0 < 2 * half by omega)
  have hquotient : n / (2 * half) < 2 * binade := (Nat.div_lt_iff_lt_mul (by omega)).mpr h
  unfold roundQuotient
  dsimp only
  generalize n / (2 * half) = quotient at hsplit hquotient ⊢
  generalize n % (2 * half) = rest at hsplit hrest ⊢
  rw [show binade = 4503599627370496 from rfl] at hquotient h ⊢
  by_cases hlast : quotient = 9007199254740991
  · subst hlast
    split
    · omega
    · split <;> omega
  · have hbelow : 2 * half * quotient ≤ 2 * half * 9007199254740990 :=
      Nat.mul_le_mul_left _ (by omega)
    generalize 2 * half * quotient = product at hsplit hbelow
    split
    · omega
    · split <;> omega

theorem nearestQuanta_one (n : Nat) :
    nearestQuanta n 1 =
      roundQuotient (n * quantaPerUnit) (twoTo ((n * quantaPerUnit).log2 - 52)) *
        twoTo ((n * quantaPerUnit).log2 - 52) := by
  simp only [nearestQuanta, Nat.div_one, Nat.one_mul]

theorem nearestQuanta_le (n : Nat) :
    nearestQuanta n 1 ≤ twoTo ((n * quantaPerUnit).log2 + 1) := by
  rw [nearestQuanta_one]
  generalize n * quantaPerUnit = scaled
  have hpower : twoTo (scaled.log2 + 1) =
      twoTo (scaled.log2 + 1 - (scaled.log2 - 52)) * twoTo (scaled.log2 - 52) := by
    rw [← twoTo_add]
    exact congrArg twoTo (by omega)
  have hscaled : scaled < twoTo (scaled.log2 + 1) := Nat.lt_log2_self
  rw [hpower] at hscaled ⊢
  exact Nat.mul_le_mul_right _ (roundQuotient_le (twoTo_pos _) hscaled)

theorem le_nearestQuanta {n : Nat} (h : 52 ≤ (n * quantaPerUnit).log2) :
    twoTo (n * quantaPerUnit).log2 ≤ nearestQuanta n 1 := by
  rw [nearestQuanta_one]
  generalize n * quantaPerUnit = scaled at h ⊢
  have hpower : twoTo scaled.log2 = binade * twoTo (scaled.log2 - 52) := by
    rw [show binade = twoTo 52 from rfl, ← twoTo_add]
    exact congrArg twoTo (by omega)
  rw [hpower]
  exact Nat.mul_le_mul_right _
    (Nat.le_trans (significand_bounds h).1 (div_le_roundQuotient _ _))

/-- How a number and its count of quanta lie between powers of two. -/
theorem log2_mul_quantaPerUnit_lt_iff {n : Nat} (h : n ≠ 0) (k : Nat) :
    (n * quantaPerUnit).log2 < k + quantumHalvings ↔ n < twoTo k := by
  have hscaled : n * quantaPerUnit ≠ 0 := Nat.mul_ne_zero h (Nat.ne_of_gt quantaPerUnit_pos)
  rw [log2_lt_iff hscaled, twoTo_add]
  exact Nat.mul_lt_mul_right quantaPerUnit_pos

/--
A natural number rounds to less than a power of two exactly if it lies below it by
more than half of the spacing that doubles have there.
-/
theorem nearestQuanta_lt_twoTo_iff (n k : Nat) :
    nearestQuanta n 1 < twoTo (54 + k + quantumHalvings) ↔ n < twoTo (54 + k) - twoTo k := by
  have hhalf : 0 < twoTo k := twoTo_pos k
  have hspacing : twoTo (1 + k) = 2 * twoTo k := twoTo_add 1 k
  have htop : twoTo (54 + k) = 2 * binade * (2 * twoTo k) := by
    rw [← hspacing, show 54 + k = 53 + (1 + k) by omega, twoTo_add]
    rfl
  have hbelow : twoTo (54 + k) = 2 * twoTo (53 + k) := by
    rw [show 54 + k = 1 + (53 + k) by omega, twoTo_add 1]
    rfl
  by_cases hzero : n = 0
  · subst hzero
    have hrounded : nearestQuanta 0 1 = 0 := by
      simp [nearestQuanta, roundQuotient, twoTo_pos]
    rw [hrounded, htop, show binade = 4503599627370496 from rfl]
    exact iff_of_true (twoTo_pos _) (by omega)
  by_cases hsmall : n < twoTo (53 + k)
  · -- Below the last binade there is room for rounding up.
    have hhigh := (log2_mul_quantaPerUnit_lt_iff hzero (53 + k)).mpr hsmall
    have hrounded : nearestQuanta n 1 < twoTo (54 + k + quantumHalvings) := by
      refine Nat.lt_of_le_of_lt (nearestQuanta_le n) ?_
      exact Nat.pow_lt_pow_right (by decide) (by omega)
    refine iff_of_true hrounded ?_
    rw [htop, show binade = 4503599627370496 from rfl] at hbelow ⊢
    omega
  by_cases hlarge : n < twoTo (54 + k)
  · -- In the last binade, what counts is the quotient by the spacing.
    have hlow := mt (log2_mul_quantaPerUnit_lt_iff hzero (53 + k)).mp hsmall
    have hhigh := (log2_mul_quantaPerUnit_lt_iff hzero (54 + k)).mpr hlarge
    have hshift : (n * quantaPerUnit).log2 - 52 = 1 + k + quantumHalvings := by omega
    have hpos : 0 < 2 * twoTo k * quantaPerUnit := Nat.mul_pos (by omega) quantaPerUnit_pos
    have hscaled : ∀ m, twoTo (m + quantumHalvings) = twoTo m * quantaPerUnit :=
      fun m => twoTo_add m quantumHalvings
    rw [nearestQuanta_one, hshift, hscaled, hscaled, hspacing, htop,
      roundQuotient_mul_right _ _ quantaPerUnit_pos, Nat.mul_assoc (2 * binade),
      Nat.mul_lt_mul_right hpos]
    exact roundQuotient_lt_iff hhalf (htop ▸ hlarge)
  · -- From the power on, rounding does not lead below it.
    have hlow := mt (log2_mul_quantaPerUnit_lt_iff hzero (54 + k)).mp hlarge
    have hrounded : twoTo (54 + k + quantumHalvings) ≤ nearestQuanta n 1 :=
      Nat.le_trans (twoTo_le_twoTo (by omega)) (le_nearestQuanta (by omega))
    exact iff_of_false (Nat.not_lt.mpr hrounded) (by omega)

theorem one_lt_integerLimit : 1 < integerLimit := by
  decide +kernel

theorem isSome_ofInt?_iff (n : Int) : (ofInt? n).isSome = true ↔ n.natAbs < integerLimit := by
  have hlimit := nearestQuanta_lt_twoTo_iff n.natAbs 970
  rw [show 54 + 970 = 1024 from rfl] at hlimit
  unfold ofInt? ofRatio? integerLimit
  dsimp only
  rw [← hlimit, quantaLimit]
  split
  · rename_i hfinite
    exact iff_of_true rfl hfinite
  · rename_i hinfinite
    exact iff_of_false (by simp) hinfinite

end Binary64

/-! ## Numbers equal to an integer -/

namespace Number

open Binary64

theorem equal_iff (a b : Number) :
    a.equal b = true ↔ ∃ place, a.place? = some place ∧ b.place? = some place := by
  unfold equal
  cases a.place? with
  | none => simp
  | some place =>
      cases b.place? with
      | none => simp
      | some other =>
          simp only [beq_iff_eq, Option.some.injEq]
          constructor
          · rintro rfl
            exact ⟨_, rfl, rfl⟩
          · rintro ⟨_, rfl, rfl⟩
            rfl

/-- Equal numbers are equal to the same numbers. -/
theorem equal_congr {a b : Number} (h : a.equal b = true) (c : Number) : a.equal c = b.equal c := by
  obtain ⟨place, ha, hb⟩ := (equal_iff a b).mp h
  simp only [equal, ha, hb]

theorem equal_int_iff (a : Number) (n : Int) :
    a.equal (int n) = true ↔ a.place? = some (.quanta (n * quantaPerUnit)) := by
  rw [equal_iff]
  constructor
  · rintro ⟨place, ha, hplace⟩
    exact ha.trans hplace.symm
  · intro h
    exact ⟨_, h, rfl⟩

theorem equal_int_int_iff (m n : Int) : (int m).equal (int n) = true ↔ m = n := by
  have hunit : (quantaPerUnit : Int) ≠ 0 := Int.natCast_ne_zero.mpr (Nat.ne_of_gt quantaPerUnit_pos)
  rw [equal_int_iff]
  constructor
  · intro h
    exact Int.eq_of_mul_eq_mul_right hunit (Place.quanta.inj (Option.some.inj h))
  · rintro rfl
    rfl

theorem equal_float_int_iff (x : Float) (n : Int) :
    (float x).equal (int n) = true ↔
      ∃ negative quanta, view x = .finite negative quanta ∧
        signed negative quanta = n * quantaPerUnit := by
  rw [equal_int_iff, place?]
  cases view x with
  | nan => exact iff_of_false (by rintro ⟨⟩) (by rintro ⟨_, _, ⟨⟩, _⟩)
  | infinite negative =>
      cases negative <;> exact iff_of_false (by rintro ⟨⟩) (by rintro ⟨_, _, ⟨⟩, _⟩)
  | finite negative quanta =>
      constructor
      · intro h
        exact ⟨negative, quanta, rfl, Place.quanta.inj (Option.some.inj h)⟩
      · rintro ⟨_, _, hsame, h⟩
        cases hsame
        exact congrArg (fun place => some (Place.quanta place)) h

/-- A double that is whole is below the limit, since it is its own nearest double. -/
theorem natAbs_lt_integerLimit {x : Float} {n : Int} (h : (float x).equal (int n) = true) :
    n.natAbs < integerLimit := by
  obtain ⟨negative, quanta, hview, hvalue⟩ := (equal_float_int_iff x n).mp h
  obtain ⟨-, hlimit, hrepresentable⟩ := eq_ofQuanta_of_view hview
  have hquanta : quanta = n.natAbs * quantaPerUnit := by
    have habs := congrArg Int.natAbs hvalue
    rwa [natAbs_signed, Int.natAbs_mul, Int.natAbs_natCast] at habs
  have hrounded : nearestQuanta n.natAbs 1 = quanta := by
    rw [← nearestQuanta_self hrepresentable]
    exact nearestQuanta_congr Nat.one_pos quantaPerUnit_pos (by rw [hquanta, Nat.mul_one])
  simp only [← isSome_ofInt?_iff, ofInt?, ofRatio?, hrounded, hlimit, ↓reduceIte, Option.isSome_some]

end Number

namespace Calculator

open Binary64

/-- A magnitude is a whole number of units if the division leaves nothing. -/
theorem signed_quotient_eq_iff (negative : Bool) {unit : Nat} (hunit : 0 < unit) (quanta : Nat)
    (n : Int) :
    (if quanta % unit = 0 then some (signed negative (quanta / unit)) else none) = some n ↔
      signed negative quanta = n * unit := by
  have hscaled : ∀ m : Nat, signed negative (m * unit) = signed negative m * unit := by
    intro m
    cases negative with
    | true => rw [signed_true, signed_true, Int.natCast_mul, Int.neg_mul]
    | false => rw [signed_false, signed_false, Int.natCast_mul]
  constructor
  · intro h
    split at h
    · rename_i hrest
      rw [← Option.some.inj h, ← hscaled, Nat.div_mul_cancel (Nat.dvd_of_mod_eq_zero hrest)]
    · cases h
  · intro h
    have hquanta : quanta = n.natAbs * unit := by
      have habs := congrArg Int.natAbs h
      rwa [natAbs_signed, Int.natAbs_mul, Int.natAbs_natCast] at habs
    rw [hquanta, hscaled] at h
    have hvalue := Int.eq_of_mul_eq_mul_right (by omega) h
    rw [hquanta, if_pos (Nat.mul_mod_left _ _), Nat.mul_div_cancel _ hunit, hvalue]

theorem wholeOfFloat?_eq_some_iff (x : Float) (n : Int) :
    wholeOfFloat? x = some n ↔ (Number.float x).equal (.int n) = true := by
  rw [Number.equal_float_int_iff, wholeOfFloat?]
  cases view x with
  | nan => exact iff_of_false (by rintro ⟨⟩) (by rintro ⟨_, _, ⟨⟩, _⟩)
  | infinite negative => exact iff_of_false (by rintro ⟨⟩) (by rintro ⟨_, _, ⟨⟩, _⟩)
  | finite negative quanta =>
      refine (signed_quotient_eq_iff negative quantaPerUnit_pos quanta n).trans ?_
      constructor
      · intro h
        exact ⟨negative, quanta, rfl, h⟩
      · rintro ⟨_, _, hsame, h⟩
        cases hsame
        exact h

/-- An integer is judged by whether it has a nearest double. -/
theorem whole?_int (n : Int) :
    whole? (.number (.int n)) =
      if n.natAbs < integerLimit then .ok (some n) else .error .integerTooLarge := by
  have hlimit := isSome_ofInt?_iff n
  simp only [whole?]
  cases hnear : ofInt? n with
  | none =>
      have hlarge : ¬ n.natAbs < integerLimit := by simp [← hlimit, hnear]
      rw [if_neg hlarge, Option.elim_none]
  | some x =>
      have hsmall : n.natAbs < integerLimit := by simp [← hlimit, hnear]
      rw [if_pos hsmall, Option.elim_some]

end Calculator

/-! ## Data equal to an integer -/

namespace Datum

open Binary64 Calculator

variable {H : Type}

/-- The datum is a number or a truth value, and it is equal to an integer. -/
def IsInteger (d : Datum H) (n : Int) : Prop :=
  ∃ number, d.numeric? = some number ∧ number.equal (.int n) = true

/-- The datum is a number or a truth value, and a finite double is near it, or it is a double. -/
def Converts (d : Datum H) : Prop :=
  ∃ number x, d.numeric? = some number ∧ toFloat number = .ok x

theorem isInteger_int (n : Int) : (number (.int n) : Datum H).IsInteger n :=
  ⟨.int n, rfl, (Number.equal_int_int_iff n n).mpr rfl⟩

/-- How an operand is judged, by the number that it compares as. -/
theorem whole?_operand (d : Datum H) :
    whole? d.operand =
      match d.numeric? with
      | some (.int n) => if n.natAbs < integerLimit then .ok (some n) else .error .integerTooLarge
      | some (.float x) => .ok (wholeOfFloat? x)
      | none => .ok none := by
  cases d with
  | number n =>
      cases n with
      | int n => exact whole?_int n
      | float x => rfl
  | bool b =>
      have hlimit := one_lt_integerLimit
      have hsmall : (if b then 1 else 0 : Int).natAbs < integerLimit := by
        cases b <;> simp <;> omega
      simp only [operand, numeric?, whole?, if_pos hsmall]
  | _ => rfl

theorem whole?_of_isInteger {d : Datum H} {n : Int} (h : d.IsInteger n) :
    whole? d.operand =
      if n.natAbs < integerLimit then .ok (some n) else .error .integerTooLarge := by
  obtain ⟨number, hnumber, hequal⟩ := h
  rw [whole?_operand, hnumber]
  cases number with
  | int m =>
      obtain rfl := (Number.equal_int_int_iff m n).mp hequal
      rfl
  | float x =>
      rw [if_pos (Number.natAbs_lt_integerLimit hequal)]
      exact congrArg Except.ok ((wholeOfFloat?_eq_some_iff x n).mpr hequal)

theorem whole?_of_not_isInteger {d : Datum H} (h : ∀ n, ¬ d.IsInteger n) :
    whole? d.operand = .ok none := by
  rw [whole?_operand]
  cases hnumber : d.numeric? with
  | none => rfl
  | some number =>
      cases number with
      | int m => exact absurd ⟨_, hnumber, (Number.equal_int_int_iff m m).mpr rfl⟩ (h m)
      | float x =>
          refine congrArg Except.ok (Option.eq_none_iff_forall_ne_some.mpr fun n hwhole => ?_)
          exact h n ⟨_, hnumber, (wholeOfFloat?_eq_some_iff x n).mp hwhole⟩

theorem IsInteger.unique {d : Datum H} {m n : Int} (hm : d.IsInteger m) (hn : d.IsInteger n) :
    m = n := by
  obtain ⟨number, hnumber, hequal⟩ := hm
  obtain ⟨other, hother, hequal'⟩ := hn
  obtain rfl := Option.some.inj (hnumber.symm.trans hother)
  cases number with
  | int k =>
      rw [Number.equal_int_int_iff] at hequal hequal'
      exact hequal.symm.trans hequal'
  | float x =>
      rw [← wholeOfFloat?_eq_some_iff] at hequal hequal'
      exact Option.some.inj (hequal.symm.trans hequal')

theorem converts_iff_of_isInteger {d : Datum H} {n : Int} (h : d.IsInteger n) :
    d.Converts ↔ n.natAbs < integerLimit := by
  obtain ⟨number, hnumber, hequal⟩ := h
  have hconverts : d.Converts ↔ ∃ x, toFloat number = .ok x := by
    simp [Converts, hnumber]
  rw [hconverts]
  cases number with
  | float x => exact iff_of_true ⟨x, rfl⟩ (Number.natAbs_lt_integerLimit hequal)
  | int m =>
      obtain rfl := (Number.equal_int_int_iff m n).mp hequal
      rw [← isSome_ofInt?_iff, toFloat]
      cases ofInt? m <;> simp

def EqualNumbers (a b : Datum H) : Prop :=
  ∃ m n, a.numeric? = some m ∧ b.numeric? = some n ∧ m.equal n = true

theorem EqualNumbers.isInteger_iff {a b : Datum H} (h : a.EqualNumbers b) (k : Int) :
    a.IsInteger k ↔ b.IsInteger k := by
  obtain ⟨m, n, hm, hn, hequal⟩ := h
  simp [IsInteger, hm, hn, Number.equal_congr hequal]

/-- Equal numbers are judged alike, integers and doubles among them. -/
theorem EqualNumbers.whole?_eq {a b : Datum H} (h : a.EqualNumbers b) :
    whole? a.operand = whole? b.operand := by
  by_cases hinteger : ∃ k, a.IsInteger k
  · obtain ⟨k, hk⟩ := hinteger
    rw [whole?_of_isInteger hk, whole?_of_isInteger ((h.isInteger_iff k).mp hk)]
  · have hnone : ∀ k, ¬ a.IsInteger k := fun k hk => hinteger ⟨k, hk⟩
    rw [whole?_of_not_isInteger hnone,
      whole?_of_not_isInteger fun k hk => hnone k ((h.isInteger_iff k).mpr hk)]

end Datum

end Reckoner
