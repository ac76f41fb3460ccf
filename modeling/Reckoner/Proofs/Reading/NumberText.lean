import Reckoner.Proofs.Reading.Grammar
import Reckoner.Proofs.Reading.Rounding

/-!
# Number texts read back

The source text of an integer is a numeral that denotes the integer.  A finite
double is written as a decimal that rounds to it: the shortest decimal was tried
before it was chosen, and cutting zeros off and placing the point keep its value.
-/

namespace Reckoner

/-! ## Digits -/

theorem spelled_append (u v : List Char) :
    spelled (u ++ v) = spelled u * 10 ^ v.length + spelled v := by
  simp only [spelled, List.reverse_append, List.map_append, Nat.ofDigits_append, List.length_map,
    List.length_reverse]
  ring

theorem spelled_replicate_zero (count : Nat) : spelled (List.replicate count '0') = 0 := by
  simp [spelled, Nat.ofDigits_replicate_zero]

theorem spelled_toDigits (n : Nat) : spelled (Nat.toDigits 10 n) = n := by
  rw [← natOf_eq_spelled]
  exact Nat.ofDigitChars_ten_toDigits

theorem isDigits_toDigits (n : Nat) : IsDigits (Nat.toDigits 10 n) :=
  ⟨Nat.toDigits_ne_nil, fun _ hc => Nat.isDigit_of_mem_toDigits (by decide) (by decide) hc⟩

theorem length_toDigits_le {n k : Nat} (hk : 0 < k) :
    (Nat.toDigits 10 n).length ≤ k ↔ n < tenTo k :=
  Nat.length_toDigits_le_iff (by decide) hk

theorem isDigits_append {u v : List Char} (hu : IsDigits u) (hv : ∀ c ∈ v, c.isDigit = true) :
    IsDigits (u ++ v) :=
  ⟨by simp [hu.1], List.forall_mem_append.mpr ⟨hu.2, hv⟩⟩

theorem isDigit_of_mem_zeros {count : Nat} {c : Char} (h : c ∈ Decimal.zeros count) :
    c.isDigit = true := by
  rw [List.eq_of_mem_replicate h]
  decide

/-! ## Decimals -/

namespace Decimal

/-- A decimal as a ratio, whatever the sign of its exponent. -/
theorem nearestQuanta_eq (d : Decimal) :
    d.nearestQuanta = Binary64.nearestQuanta (d.coefficient * 10 ^ d.exponent.toNat)
      (10 ^ (-d.exponent).toNat) := by
  rcases d with ⟨coefficient, exponent⟩
  cases exponent with
  | ofNat k => simp [nearestQuanta, tenTo]
  | negSucc k => simp [nearestQuanta, tenTo]

/-- Digits with a point among them are what they are without it, over a power of ten. -/
theorem nearestQuanta_spelled {d : Decimal} {digits : List Char} {places : Nat}
    (h : spelled digits * 10 ^ (-d.exponent).toNat =
      d.coefficient * 10 ^ d.exponent.toNat * 10 ^ places) :
    Binary64.nearestQuanta (spelled digits) (10 ^ places) = d.nearestQuanta := by
  rw [nearestQuanta_eq]
  exact Binary64.nearestQuanta_congr (Nat.pow_pos (by decide)) (Nat.pow_pos (by decide)) h

/-- The zeros at the end of the digits are factors of ten. -/
theorem coefficient_eq_trimmed (d : Decimal) :
    ∃ m, d.coefficient = m * 10 ^ (d.digits.reverse.takeWhile (· == '0')).length := by
  have hsplit : d.digits.reverse.takeWhile (· == '0') ++ d.digits.reverse.dropWhile (· == '0') =
      d.digits.reverse := List.takeWhile_append_dropWhile
  generalize d.digits.reverse.dropWhile (· == '0') = before at hsplit
  have hzeros : d.digits.reverse.takeWhile (· == '0') =
      List.replicate (d.digits.reverse.takeWhile (· == '0')).length '0' :=
    List.eq_replicate_of_mem fun c hc => by simpa using List.mem_takeWhile_imp hc
  have hdigits := congrArg (fun chars => spelled chars.reverse) hsplit
  rw [List.reverse_reverse, hzeros, List.reverse_append, List.reverse_replicate, spelled_append,
    spelled_replicate_zero, List.length_replicate, digits, spelled_toDigits] at hdigits
  exact ⟨_, hdigits.symm⟩

theorem nearestQuanta_trim (d : Decimal) : d.trim.nearestQuanta = d.nearestQuanta := by
  obtain ⟨m, hm⟩ := coefficient_eq_trimmed d
  simp only [trim]
  generalize (d.digits.reverse.takeWhile (· == '0')).length = places at hm ⊢
  have hcut : d.coefficient / tenTo places = m := by
    rw [hm]
    exact Nat.mul_div_cancel m (tenTo_pos places)
  rw [hcut, nearestQuanta_eq, nearestQuanta_eq, hm]
  refine Binary64.nearestQuanta_congr (Nat.pow_pos (by decide)) (Nat.pow_pos (by decide)) ?_
  simp only [Nat.mul_assoc, ← Nat.pow_add]
  congr 2
  omega

theorem nearestQuanta_of_onGrid? {quanta : Nat} {exponent : Int} {d : Decimal}
    (h : onGrid? quanta exponent = some d) : d.nearestQuanta = quanta := by
  unfold onGrid? at h
  dsimp only at h
  split_ifs at h with hboth hnear hbelow habove
  · cases h
    exact eq_of_beq (Bool.and_eq_true_iff.mp hboth).1
  · cases h
    exact eq_of_beq (Bool.and_eq_true_iff.mp hboth).2
  · cases h
    exact eq_of_beq hbelow
  · cases h
    exact eq_of_beq habove

theorem nearestQuanta_exact {quanta : Nat} (h : Binary64.Representable quanta) :
    (exact quanta).nearestQuanta = quanta := by
  have hup : (exact quanta).exponent.toNat = 0 := by simp [exact]
  have hdown : (-(exact quanta).exponent).toNat = Binary64.quantumHalvings := by simp [exact]
  have hcoefficient : (exact quanta).coefficient = quanta * 5 ^ Binary64.quantumHalvings := by
    simp only [exact, Nat.pow_eq]
  have hunit : Binary64.quantaPerUnit = 2 ^ Binary64.quantumHalvings := by
    simp only [Binary64.quantaPerUnit, twoTo, Nat.pow_eq]
  have hratio : quanta * 5 ^ Binary64.quantumHalvings * 10 ^ 0 * Binary64.quantaPerUnit =
      quanta * 10 ^ Binary64.quantumHalvings := by
    rw [pow_zero, Nat.mul_one, Nat.mul_assoc, hunit, ← Nat.mul_pow]
  rw [nearestQuanta_eq, hup, hdown, hcoefficient,
    Binary64.nearestQuanta_congr (Nat.pow_pos (by decide)) Binary64.quantaPerUnit_pos hratio,
    Binary64.nearestQuanta_self h]

/-- The shortest decimal reads back. -/
theorem nearestQuanta_shortest {quanta : Nat} (h : Binary64.Representable quanta) :
    (shortest quanta).nearestQuanta = quanta := by
  unfold shortest
  dsimp only
  rw [nearestQuanta_trim]
  cases hfound : (List.range 17).findSome? fun i =>
      onGrid? quanta (pointOf quanta - (i + 1 : Nat)) with
  | none => exact nearestQuanta_exact h
  | some d =>
      obtain ⟨i, -, hi⟩ := List.exists_of_findSome?_eq_some hfound
      exact nearestQuanta_of_onGrid? hi

theorem text_source (d : Decimal) : d.text .source = d.positionalText :=
  rfl

/-- A decimal laid out positionally has digits on both sides of a point and reads as itself. -/
theorem positionalText_reads (d : Decimal) :
    ∃ whole fraction, d.positionalText = whole ++ '.' :: fraction ∧ IsDigits whole ∧
      IsDigits fraction ∧
      Binary64.nearestQuanta (spelled (whole ++ fraction)) (10 ^ fraction.length) =
        d.nearestQuanta := by
  have hdigits : IsDigits d.digits := isDigits_toDigits d.coefficient
  have hvalue : spelled d.digits = d.coefficient := spelled_toDigits d.coefficient
  have hpoint : d.point = d.digits.length + d.exponent := rfl
  have hlength : 0 < d.digits.length := List.length_pos_iff.mpr hdigits.1
  unfold positionalText
  dsimp only
  split_ifs with hsmall hlarge
  · have hall : ∀ c ∈ zeros (-d.point).toNat ++ d.digits, c.isDigit = true :=
      List.forall_mem_append.mpr ⟨fun c => isDigit_of_mem_zeros, hdigits.2⟩
    have hup : d.exponent.toNat = 0 := by omega
    have hdown : (-d.exponent).toNat = (-d.point).toNat + d.digits.length := by omega
    refine ⟨['0'], zeros (-d.point).toNat ++ d.digits, rfl, by simp [IsDigits],
      ⟨by simp [hdigits.1], hall⟩, nearestQuanta_spelled ?_⟩
    have hspelled : spelled (['0'] ++ (zeros (-d.point).toNat ++ d.digits)) = d.coefficient := by
      simp only [spelled_append, zeros, spelled_replicate_zero, hvalue]
      simp [spelled]
    rw [hspelled, hup, hdown, pow_zero, Nat.mul_one, List.length_append, zeros,
      List.length_replicate]
  · have hup : d.exponent.toNat = d.point.toNat - d.digits.length := by omega
    have hdown : (-d.exponent).toNat = 0 := by omega
    refine ⟨d.digits ++ zeros (d.point.toNat - d.digits.length), ['0'], by simp,
      isDigits_append hdigits fun c => isDigit_of_mem_zeros, by simp [IsDigits],
      nearestQuanta_spelled ?_⟩
    rw [spelled_append, spelled_append, hvalue, zeros, spelled_replicate_zero, hup, hdown,
      List.length_replicate]
    simp [spelled]
  · have hup : d.exponent.toNat = 0 := by omega
    have hdown : (-d.exponent).toNat = d.digits.length - d.point.toNat := by omega
    refine ⟨d.digits.take d.point.toNat, d.digits.drop d.point.toNat, rfl,
      ⟨?_, fun c hc => hdigits.2 c (List.mem_of_mem_take hc)⟩,
      ⟨?_, fun c hc => hdigits.2 c (List.mem_of_mem_drop hc)⟩, nearestQuanta_spelled ?_⟩
    · rw [← List.length_pos_iff, List.length_take]
      omega
    · rw [← List.length_pos_iff, List.length_drop]
      omega
    · rw [List.take_append_drop, hvalue, hup, hdown, pow_zero, Nat.mul_one, List.length_drop]

end Decimal

/-! ## Source texts of numbers -/

namespace Binary64

theorem nearestQuanta_zero (den : Nat) : nearestQuanta 0 den = 0 := by
  simp [nearestQuanta, roundQuotient]

theorem magnitudeText_reads {quanta : Nat} (h : Representable quanta) :
    ∃ whole fraction, magnitudeText .source quanta = whole ++ '.' :: fraction ∧ IsDigits whole ∧
      IsDigits fraction ∧
      nearestQuanta (spelled (whole ++ fraction)) (10 ^ fraction.length) = quanta := by
  have hreads := Decimal.nearestQuanta_shortest h
  unfold magnitudeText
  generalize Decimal.shortest quanta = d at hreads
  split_ifs with hzero
  · refine ⟨['0'], ['0'], rfl, by simp [IsDigits], by simp [IsDigits], ?_⟩
    have hspelled : spelled (['0'] ++ ['0']) = 0 := by decide
    rw [hspelled, hzero, nearestQuanta_zero]
  · rw [← hreads, Decimal.text_source]
    exact d.positionalText_reads

end Binary64

namespace Number

theorem denotes_text_int {n : Int} (h : n.natAbs < tenTo digitLimit) :
    Denotes (text .source (.int n)).toList (.int n) := by
  have hlength := (length_toDigits_le (by decide)).mpr h
  have hvalue : signed (decide (n < 0)) n.natAbs = n := by
    unfold signed
    split_ifs with hn
    · rw [decide_eq_true_eq] at hn
      omega
    · rw [decide_eq_true_eq] at hn
      omega
  have hdenotes := Denotes.int (decide (n < 0)) (isDigits_toDigits n.natAbs) hlength
  rw [spelled_toDigits, hvalue] at hdenotes
  simpa [text, signChars] using hdenotes

theorem denotes_text_float (negative : Bool) {quanta : Nat}
    (hlimit : quanta < Binary64.quantaLimit) (h : Binary64.Representable quanta) :
    Denotes (text .source (.float (Binary64.ofQuanta negative quanta))).toList
      (.float (Binary64.ofQuanta negative quanta)) := by
  obtain ⟨whole, fraction, htext, hwhole, hfraction, hreads⟩ := Binary64.magnitudeText_reads h
  have hdenotes := Denotes.decimal negative hwhole hfraction
  rw [Binary64.ofRatio, hreads] at hdenotes
  have hview := Binary64.view_ofQuanta negative hlimit h
  generalize Binary64.ofQuanta negative quanta = x at hview hdenotes ⊢
  rw [text, Binary64.text, hview, String.toList_ofList, htext]
  exact hdenotes

end Number

end Reckoner
