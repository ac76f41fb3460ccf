import Mathlib.Data.Nat.Choose.Basic
import Reckoner.CommandLine.Report
import Reckoner.Proofs.Calculator.WholeNumbers

/-!
# Factorials and selections

Factorials, ordered selections and unordered selections are exact wherever they are
given at all, and they are given together: for whole numbers that have a nearest
double, when no more is taken than there is, and no more than the machine can count.
All else is refused, as of the wrong kind or as too large.  The identities between the
three hold of what they return, whichever of the equal numbers they are given.

Unordered selections are defined where ordered ones are, though taking all but one
thing has as many ways as taking one: so `ncr` refuses selections that it could count.
-/

namespace Reckoner

open Calculator

variable {H : Type}

/-! ## Counting -/

namespace Calculator

theorem descending_eq_descFactorial (n count : Nat) :
    descending n count = n.descFactorial count := by
  induction count with
  | zero => rfl
  | succ count ih => rw [descending, Nat.descFactorial_succ, ih, Nat.mul_comm]

theorem descending_self (n : Nat) : descending n n = n.factorial := by
  rw [descending_eq_descFactorial, Nat.descFactorial_self]

theorem choose_eq_choose (n r : Nat) : choose n r = n.choose r := by
  rw [choose, descending_eq_descFactorial, descending_self,
    Nat.choose_eq_descFactorial_div_factorial]

end Calculator

/-! ## Where there is a result -/

namespace Datum

/-- The datum is equal to a natural number, and a finite double is near it. -/
structure Counts (d : Datum H) (n : Nat) : Prop where
  isInteger : d.IsInteger n
  converts : d.Converts

/-- The sizes of a selection that can be counted: of `n` things `r` are taken. -/
structure Selects (a b : Datum H) (n r : Nat) : Prop where
  things : a.Counts n
  taken : b.Counts r
  taken_le : r ≤ n
  within : r ≤ Fault.countLimit

theorem Counts.unique {d : Datum H} {m n : Nat} (hm : d.Counts m) (hn : d.Counts n) : m = n :=
  Int.ofNat.inj (hm.isInteger.unique hn.isInteger)

/-- An integer that counts is the number it counts. -/
theorem Counts.eq_of_int {k : Int} {n : Nat} (h : (number (.int k) : Datum H).Counts n) :
    k = n := by
  obtain ⟨number, hnumber, hequal⟩ := h.isInteger
  cases hnumber
  exact (Number.equal_int_int_iff k n).mp hequal

theorem counts_iff {d : Datum H} {n : Nat} (h : d.IsInteger n) :
    d.Counts n ↔ n < Binary64.integerLimit :=
  ⟨fun hcounts => (converts_iff_of_isInteger h).mp hcounts.converts,
    fun hlimit => ⟨h, (converts_iff_of_isInteger h).mpr hlimit⟩⟩

end Datum

namespace Calculator

theorem selectionSize_of_isInteger {d : Datum H} {n : Int} (h : d.IsInteger n) :
    selectionSize d.operand =
      if n.natAbs < Binary64.integerLimit then .ok n else .error .integerTooLarge := by
  unfold selectionSize
  rw [Datum.whole?_of_isInteger h]
  split <;> rfl

theorem selectionSize_of_not_isInteger {d : Datum H} (h : ∀ n, ¬ d.IsInteger n) :
    selectionSize d.operand = .error .selectionNotWhole := by
  unfold selectionSize
  rw [Datum.whole?_of_not_isInteger h]
  rfl

/-- A selection is one of its sizes after the other, and then what is asked of both. -/
theorem selection_eq {a b : Operand} {n r : Int} (ha : selectionSize a = .ok n)
    (hb : selectionSize b = .ok r) :
    selection a b =
      if n < 0 || r < 0 then .error .selectionNegative
      else if n < r then .error .selectionTooMany
      else if (Fault.countLimit : Int) < r then .error .selectionRange
      else .ok (n.toNat, r.toNat) := by
  unfold selection
  rw [ha, hb]
  rfl

def Fault.IsRefusal (fault : Fault) : Prop :=
  fault.kind = "SigmaTypeError" ∨ fault.kind = "OverflowError"

theorem selectionSize_of_counts {d : Datum H} {n : Nat} (h : d.Counts n) :
    selectionSize d.operand = .ok (n : Int) := by
  rw [selectionSize_of_isInteger h.isInteger, Int.natAbs_natCast,
    if_pos ((Datum.counts_iff h.isInteger).mp h)]

theorem selectionSize_cases (d : Datum H) :
    (∃ fault, fault.IsRefusal ∧ selectionSize d.operand = .error fault) ∨
      ∃ n : Int, d.IsInteger n ∧ n.natAbs < Binary64.integerLimit ∧
        selectionSize d.operand = .ok n := by
  by_cases hinteger : ∃ n, d.IsInteger n
  · obtain ⟨n, hn⟩ := hinteger
    rw [selectionSize_of_isInteger hn]
    by_cases hlimit : n.natAbs < Binary64.integerLimit
    · exact .inr ⟨n, hn, hlimit, if_pos hlimit⟩
    · exact .inl ⟨.integerTooLarge, .inr rfl, if_neg hlimit⟩
  · refine .inl ⟨.selectionNotWhole, .inl rfl, selectionSize_of_not_isInteger ?_⟩
    exact fun n hn => hinteger ⟨n, hn⟩

theorem selection_of_selects {a b : Datum H} {n r : Nat} (h : a.Selects b n r) :
    selection a.operand b.operand = .ok (n, r) := by
  have hle := h.taken_le
  have hlimit := h.within
  rw [selection_eq (selectionSize_of_counts h.things) (selectionSize_of_counts h.taken),
    if_neg (by simp), if_neg (by omega), if_neg (by omega)]
  rfl

/-- Sizes that cannot be selected by are refused. -/
theorem selection_cases (a b : Datum H) :
    (∃ fault, fault.IsRefusal ∧ selection a.operand b.operand = .error fault) ∨
      ∃ n r : Nat, a.Selects b n r := by
  rcases selectionSize_cases a with ⟨fault, hfault, ha⟩ | ⟨n, hn, hlarge, ha⟩
  · exact .inl ⟨fault, hfault, by rw [selection, ha]; rfl⟩
  rcases selectionSize_cases b with ⟨fault, hfault, hb⟩ | ⟨r, hr, hlarge', hb⟩
  · exact .inl ⟨fault, hfault, by rw [selection, ha, hb]; rfl⟩
  rw [selection_eq ha hb]
  by_cases hsign : (n < 0 || r < 0) = true
  · exact .inl ⟨.selectionNegative, .inl rfl, if_pos hsign⟩
  rw [if_neg hsign]
  by_cases hmany : n < r
  · exact .inl ⟨.selectionTooMany, .inl rfl, if_pos hmany⟩
  rw [if_neg hmany]
  by_cases hrange : (Fault.countLimit : Int) < r
  · exact .inl ⟨.selectionRange, .inr rfl, if_pos hrange⟩
  simp only [Bool.or_eq_true, decide_eq_true_eq, not_or, Int.not_lt] at hsign
  lift n to Nat using hsign.1
  lift r to Nat using hsign.2
  exact .inr ⟨n, r, (Datum.counts_iff hn).mpr hlarge, (Datum.counts_iff hr).mpr hlarge',
    by omega, by omega⟩

/-! ## Factorials -/

theorem factorial_of_isInteger {d : Datum H} {n : Int} (h : d.IsInteger n) :
    factorial d.operand =
      if n.natAbs < Binary64.integerLimit then
        if n < 0 then .error .negative
        else if (Fault.countLimit : Int) < n then .error .factorialRange
        else .ok (.int n.toNat.factorial)
      else .error .integerTooLarge := by
  unfold factorial
  simp only [Datum.whole?_of_isInteger h, descending_self]
  split <;> rfl

theorem factorial_of_counts {d : Datum H} {n : Nat} (h : d.Counts n) (hn : n ≤ Fault.countLimit) :
    factorial d.operand = .ok (.int n.factorial) := by
  rw [factorial_of_isInteger h.isInteger, Int.natAbs_natCast,
    if_pos ((Datum.counts_iff h.isInteger).mp h), if_neg (by omega), if_neg (by omega),
    Int.toNat_natCast]

theorem factorial_cases (d : Datum H) :
    (∃ fault, fault.IsRefusal ∧ factorial d.operand = .error fault) ∨
      ∃ n : Nat, d.Counts n ∧ n ≤ Fault.countLimit := by
  by_cases hinteger : ∃ n, d.IsInteger n
  · obtain ⟨n, hn⟩ := hinteger
    rw [factorial_of_isInteger hn]
    by_cases hlarge : n.natAbs < Binary64.integerLimit
    · rw [if_pos hlarge]
      by_cases hsign : n < 0
      · exact .inl ⟨.negative, .inl rfl, if_pos hsign⟩
      rw [if_neg hsign]
      by_cases hrange : (Fault.countLimit : Int) < n
      · exact .inl ⟨.factorialRange, .inr rfl, if_pos hrange⟩
      lift n to Nat using Int.not_lt.mp hsign
      exact .inr ⟨n, (Datum.counts_iff hn).mpr hlarge, by omega⟩
    · exact .inl ⟨.integerTooLarge, .inr rfl, if_neg hlarge⟩
  · have hnone : ∀ n, ¬ d.IsInteger n := fun n hn => hinteger ⟨n, hn⟩
    refine .inl ⟨.notWhole, .inl rfl, ?_⟩
    rw [factorial, Datum.whole?_of_not_isInteger hnone]
    rfl

end Calculator

/-! ## The three functions -/

namespace Builtin

/-- What a function makes of the sizes of a selection, or why they are refused. -/
def selected (count : Nat -> Nat -> Nat) (a b : Datum H) : Except Failure (Datum H) :=
  match selection a.operand b.operand with
  | .ok (n, r) => .ok (.number (.int (count n r)))
  | .error fault => .error (.calculation fault)

theorem call_npr (a b : Datum H) : call .npr [a, b] = selected Nat.descFactorial a b := by
  simp only [call, apply, List.map_cons, List.map_nil, binary, arrangements, selected]
  cases selection a.operand b.operand with
  | error fault => rfl
  | ok sizes => simp [bind, Except.bind, pure, Except.pure, descending_eq_descFactorial]

theorem call_ncr (a b : Datum H) : call .ncr [a, b] = selected Nat.choose a b := by
  simp only [call, apply, List.map_cons, List.map_nil, binary, combinations, selected]
  cases selection a.operand b.operand with
  | error fault => rfl
  | ok sizes => simp [bind, Except.bind, pure, Except.pure, choose_eq_choose]

theorem selected_of_selects (count : Nat -> Nat -> Nat) {a b : Datum H} {n r : Nat}
    (h : a.Selects b n r) : selected count a b = .ok (.number (.int (count n r))) := by
  rw [selected, selection_of_selects h]

theorem selected_cases (count : Nat -> Nat -> Nat) (a b : Datum H) :
    (∃ fault, fault.IsRefusal ∧ selected count a b = .error (.calculation fault)) ∨
      ∃ n r, a.Selects b n r := by
  rcases selection_cases a b with ⟨fault, hfault, hrefused⟩ | hselects
  · exact .inl ⟨fault, hfault, by rw [selected, hrefused]⟩
  · exact .inr hselects

theorem selected_eq_ok_iff (count : Nat -> Nat -> Nat) (a b value : Datum H) :
    selected count a b = .ok value ↔
      ∃ n r, a.Selects b n r ∧ value = .number (.int (count n r)) := by
  constructor
  · intro h
    rcases selected_cases count a b with ⟨fault, -, hrefused⟩ | ⟨n, r, hselects⟩
    · cases hrefused.symm.trans h
    · cases (selected_of_selects count hselects).symm.trans h
      exact ⟨n, r, hselects, rfl⟩
  · rintro ⟨n, r, hselects, rfl⟩
    exact selected_of_selects count hselects

theorem kind_of_selected {count : Nat -> Nat -> Nat} {a b : Datum H} {failure : Failure}
    (h : selected count a b = .error failure) :
    failure.kind = "SigmaTypeError" ∨ failure.kind = "OverflowError" := by
  rcases selected_cases count a b with ⟨fault, hfault, hrefused⟩ | ⟨n, r, hselects⟩
  · cases hrefused.symm.trans h
    exact hfault
  · cases (selected_of_selects count hselects).symm.trans h

theorem call_factorial_of_counts {a : Datum H} {n : Nat} (h : a.Counts n)
    (hn : n ≤ Fault.countLimit) : call .factorial [a] = .ok (.number (.int n.factorial)) := by
  simp only [call, apply, List.map_cons, List.map_nil, unary, factorial_of_counts h hn]

theorem call_factorial_cases (a : Datum H) :
    (∃ fault, fault.IsRefusal ∧ call .factorial [a] = .error (.calculation fault)) ∨
      ∃ n, a.Counts n ∧ n ≤ Fault.countLimit := by
  rcases factorial_cases a with ⟨fault, hfault, hrefused⟩ | hcounts
  · refine .inl ⟨fault, hfault, ?_⟩
    simp only [call, apply, List.map_cons, List.map_nil, unary, hrefused]
  · exact .inr hcounts

theorem call_factorial_eq_ok_iff (a value : Datum H) :
    call .factorial [a] = .ok value ↔
      ∃ n : Nat, a.Counts n ∧ n ≤ Fault.countLimit ∧ value = .number (.int n.factorial) := by
  constructor
  · intro h
    rcases call_factorial_cases a with ⟨fault, -, hrefused⟩ | ⟨n, hcounts, hn⟩
    · cases hrefused.symm.trans h
    · cases (call_factorial_of_counts hcounts hn).symm.trans h
      exact ⟨n, hcounts, hn, rfl⟩
  · rintro ⟨n, hcounts, hn, rfl⟩
    exact call_factorial_of_counts hcounts hn

theorem kind_of_call_factorial {a : Datum H} {failure : Failure}
    (h : call .factorial [a] = .error failure) :
    failure.kind = "SigmaTypeError" ∨ failure.kind = "OverflowError" := by
  rcases call_factorial_cases a with ⟨fault, hfault, hrefused⟩ | ⟨n, hcounts, hn⟩
  · cases hrefused.symm.trans h
    exact hfault
  · cases (call_factorial_of_counts hcounts hn).symm.trans h

/-- The functions see no difference between equal numbers. -/
theorem selected_congr (count : Nat -> Nat -> Nat) {a b : Datum H} (h : a.EqualNumbers b)
    (c : Datum H) :
    selected count a c = selected count b c ∧ selected count c a = selected count c b := by
  simp only [selected, selection, selectionSize, h.whole?_eq, and_self]

theorem call_factorial_congr {a b : Datum H} (h : a.EqualNumbers b) :
    call .factorial [a] = call .factorial [b] := by
  have hsame : Calculator.factorial a.operand = Calculator.factorial b.operand := by
    simp only [Calculator.factorial, h.whole?_eq]
  simp only [call, apply, List.map_cons, List.map_nil, unary, hsame]

/-! ## Identities -/

/-- Of the ordered selections as many belong together as there are orders of what is taken. -/
theorem npr_eq_ncr_mul_factorial {a b p c f : Datum H}
    (hp : selected Nat.descFactorial a b = .ok p) (hc : selected Nat.choose a b = .ok c)
    (hf : call .factorial [b] = .ok f) :
    ∃ x y : Int, c = .number (.int x) ∧ f = .number (.int y) ∧ p = .number (.int (x * y)) := by
  obtain ⟨n, r, hselects, rfl⟩ := (selected_eq_ok_iff _ a b p).mp hp
  obtain ⟨n', r', hselects', rfl⟩ := (selected_eq_ok_iff _ a b c).mp hc
  obtain ⟨r'', hcounts, -, rfl⟩ := (call_factorial_eq_ok_iff b f).mp hf
  obtain rfl := hselects.things.unique hselects'.things
  obtain rfl := hselects.taken.unique hselects'.taken
  obtain rfl := hselects.taken.unique hcounts
  refine ⟨_, _, rfl, rfl, ?_⟩
  rw [Nat.descFactorial_eq_factorial_mul_choose, Nat.mul_comm, Int.natCast_mul]

/-- All things in a row are some of them in a row, followed by the others. -/
theorem factorial_eq_npr_mul_factorial {n r : Int} {f p g : Datum H}
    (hf : call .factorial [.number (.int n)] = .ok f)
    (hp : selected Nat.descFactorial (.number (.int n)) (.number (.int r)) = .ok p)
    (hg : call .factorial [.number (.int (n - r))] = .ok g) :
    ∃ x y : Int, p = .number (.int x) ∧ g = .number (.int y) ∧ f = .number (.int (x * y)) := by
  obtain ⟨things, hthings, -, rfl⟩ := (call_factorial_eq_ok_iff _ f).mp hf
  obtain ⟨n', taken, hselects, rfl⟩ := (selected_eq_ok_iff _ _ _ p).mp hp
  obtain ⟨rest, hrest, -, rfl⟩ := (call_factorial_eq_ok_iff _ g).mp hg
  obtain rfl := hthings.unique hselects.things
  have hn := hthings.eq_of_int
  have hr := hselects.taken.eq_of_int
  have hsum := hrest.eq_of_int
  have hle := hselects.taken_le
  obtain rfl : rest = things - taken := by omega
  refine ⟨_, _, rfl, rfl, ?_⟩
  rw [← Int.natCast_mul, Nat.mul_comm, Nat.factorial_mul_descFactorial hle]

/-- Selections with a given thing and selections without it. -/
theorem ncr_succ_eq_add {n r : Int} {c d e : Datum H}
    (hc : selected Nat.choose (.number (.int (n + 1))) (.number (.int (r + 1))) = .ok c)
    (hd : selected Nat.choose (.number (.int n)) (.number (.int r)) = .ok d)
    (he : selected Nat.choose (.number (.int n)) (.number (.int (r + 1))) = .ok e) :
    ∃ x y : Int, d = .number (.int x) ∧ e = .number (.int y) ∧ c = .number (.int (x + y)) := by
  obtain ⟨more, another, hmore, rfl⟩ := (selected_eq_ok_iff _ _ _ c).mp hc
  obtain ⟨things, taken, hselects, rfl⟩ := (selected_eq_ok_iff _ _ _ d).mp hd
  obtain ⟨things', another', hselects', rfl⟩ := (selected_eq_ok_iff _ _ _ e).mp he
  have hn := hselects.things.eq_of_int
  have hr := hselects.taken.eq_of_int
  obtain rfl := hselects.things.unique hselects'.things
  obtain rfl := hmore.taken.unique hselects'.taken
  obtain rfl : more = things + 1 := by
    have := hmore.things.eq_of_int
    omega
  obtain rfl : another = taken + 1 := by
    have := hmore.taken.eq_of_int
    omega
  exact ⟨_, _, rfl, rfl, by rw [Nat.choose_succ_succ, Int.natCast_add]⟩

end Builtin

open Builtin in
/--
Ordered and unordered selections are given for the same operands: both are numbers or
truth values that are whole and have a nearest double, no more is taken than there is,
and no more than the machine counts.  Factorials are given for such operands as they
stand.  All else is refused as of the wrong kind or too large.

Where they are given, an ordered selection is an unordered one times the orders of what
is taken, a factorial is an ordered selection times the factorial of the rest, selections
add up as in a triangle, and equal operands give the same.
-/
theorem selections_agree (H : Type) :
    (∀ a b : Datum H, (∃ value, call .npr [a, b] = .ok value) ↔ ∃ n r, a.Selects b n r) ∧
    (∀ a b : Datum H, (∃ value, call .ncr [a, b] = .ok value) ↔ ∃ n r, a.Selects b n r) ∧
    (∀ a : Datum H, (∃ value, call .factorial [a] = .ok value) ↔
      ∃ n, a.Counts n ∧ n ≤ Fault.countLimit) ∧
    (∀ (a b : Datum H) (failure : Failure),
      call .npr [a, b] = .error failure ∨ call .ncr [a, b] = .error failure ∨
        call .factorial [a] = .error failure ->
      failure.kind = "SigmaTypeError" ∨ failure.kind = "OverflowError") ∧
    (∀ a b p c f : Datum H, call .npr [a, b] = .ok p -> call .ncr [a, b] = .ok c ->
      call .factorial [b] = .ok f ->
      ∃ x y : Int, c = .number (.int x) ∧ f = .number (.int y) ∧ p = .number (.int (x * y))) ∧
    (∀ (n r : Int) (f p g : Datum H), call .factorial [.number (.int n)] = .ok f ->
      call .npr [.number (.int n), .number (.int r)] = .ok p ->
      call .factorial [.number (.int (n - r))] = .ok g ->
      ∃ x y : Int, p = .number (.int x) ∧ g = .number (.int y) ∧ f = .number (.int (x * y))) ∧
    (∀ (n r : Int) (c d e : Datum H), r < n ->
      call .ncr [.number (.int (n + 1)), .number (.int (r + 1))] = .ok c ->
      call .ncr [.number (.int n), .number (.int r)] = .ok d ->
      call .ncr [.number (.int n), .number (.int (r + 1))] = .ok e ->
      ∃ x y : Int, d = .number (.int x) ∧ e = .number (.int y) ∧ c = .number (.int (x + y))) ∧
    (∀ a b c : Datum H, a.EqualNumbers b ->
      call .npr [a, c] = call .npr [b, c] ∧ call .npr [c, a] = call .npr [c, b] ∧
      call .ncr [a, c] = call .ncr [b, c] ∧ call .ncr [c, a] = call .ncr [c, b] ∧
      call .factorial [a] = call .factorial [b]) := by
  simp only [call_npr, call_ncr]
  have hdomain : ∀ (count : Nat -> Nat -> Nat) (a b : Datum H),
      (∃ value, selected count a b = .ok value) ↔ ∃ n r, a.Selects b n r := by
    intro count a b
    constructor
    · rintro ⟨value, hvalue⟩
      obtain ⟨n, r, hselects, -⟩ := (selected_eq_ok_iff count a b value).mp hvalue
      exact ⟨n, r, hselects⟩
    · rintro ⟨n, r, hselects⟩
      exact ⟨_, selected_of_selects count hselects⟩
  refine ⟨hdomain _, hdomain _, ?_, ?_, ?_, ?_, ?_, ?_⟩
  · intro a
    constructor
    · rintro ⟨value, hvalue⟩
      obtain ⟨n, hcounts, hn, -⟩ := (call_factorial_eq_ok_iff a value).mp hvalue
      exact ⟨n, hcounts, hn⟩
    · rintro ⟨n, hcounts, hn⟩
      exact ⟨_, call_factorial_of_counts hcounts hn⟩
  · rintro a b failure (h | h | h)
    · exact kind_of_selected h
    · exact kind_of_selected h
    · exact kind_of_call_factorial h
  · intro a b p c f hp hc hf
    exact npr_eq_ncr_mul_factorial hp hc hf
  · intro n r f p g hf hp hg
    exact factorial_eq_npr_mul_factorial hf hp hg
  · intro n r c d e _ hc hd he
    exact ncr_succ_eq_add hc hd he
  · intro a b c h
    obtain ⟨hfirst, hsecond⟩ := selected_congr Nat.descFactorial h c
    obtain ⟨hfirst', hsecond'⟩ := selected_congr Nat.choose h c
    exact ⟨hfirst, hsecond, hfirst', hsecond', call_factorial_congr h⟩

/-! ## Unordered selections of any size -/

namespace Builtin

/-- What becomes of an unordered selection of no more than there is. -/
theorem call_ncr_of_isInteger {a b : Datum H} {n r : Nat} (ha : a.IsInteger n)
    (hb : b.IsInteger r) (hle : r ≤ n) :
    call .ncr [a, b] =
      if n < Binary64.integerLimit then
        if r ≤ Fault.countLimit then .ok (.number (.int (n.choose r)))
        else .error (.calculation .selectionRange)
      else .error (.calculation .integerTooLarge) := by
  have hthings := selectionSize_of_isInteger ha
  have htaken := selectionSize_of_isInteger hb
  rw [Int.natAbs_natCast] at hthings htaken
  rw [call_ncr, selected]
  by_cases hlarge : n < Binary64.integerLimit
  · rw [if_pos hlarge] at hthings ⊢
    rw [if_pos (by omega)] at htaken
    rw [selection_eq hthings htaken, if_neg (by simp), if_neg (by omega)]
    by_cases hcount : r ≤ Fault.countLimit
    · rw [if_neg (by omega), if_pos hcount]
      rfl
    · rw [if_pos (by omega), if_neg hcount]
  · rw [if_neg hlarge] at hthings ⊢
    rw [selection, hthings]
    rfl

end Builtin

open Builtin in
/--
For whole numbers of which no more are taken than there are, `ncr` gives exactly the
number of unordered selections, up to two limits: how many things there are has to have
a nearest double, and how many are taken must not exceed what the machine counts.
Beyond them it fails as too large.  Within them, to take things is to leave the others.
-/
theorem ncr_exact_within_limits {a b : Datum H} {n r : Nat} (ha : a.IsInteger n)
    (hb : b.IsInteger r) (hle : r ≤ n) :
    call .ncr [a, b] =
        (if n < Binary64.integerLimit then
          if r ≤ Fault.countLimit then
            .ok (.number (.int ↑(n.factorial / (r.factorial * (n - r).factorial))))
          else .error (.calculation .selectionRange)
        else .error (.calculation .integerTooLarge)) ∧
      ∀ c : Datum H, c.IsInteger ↑(n - r) -> r ≤ Fault.countLimit -> n - r ≤ Fault.countLimit ->
        call .ncr [a, c] = call .ncr [a, b] := by
  constructor
  · rw [call_ncr_of_isInteger ha hb hle, Nat.choose_eq_factorial_div_factorial hle]
  · intro c hc hcount hcount'
    rw [call_ncr_of_isInteger ha hb hle, call_ncr_of_isInteger ha hc (Nat.sub_le n r),
      if_pos hcount, if_pos hcount', Nat.choose_symm hle]

open Builtin in
/-- Five of fifty-two, the five being a double, and the other forty-seven. -/
theorem five_of_fiftyTwo_exact :
    let deck : Datum Builtin := .number (.int 52)
    let hand : Datum Builtin := .number (.float (Float.ofBits 0x4014000000000000))
    let rest : Datum Builtin := .number (.int 47)
    deck.IsInteger 52 ∧ hand.IsInteger 5 ∧ rest.IsInteger 47 ∧
      call .ncr [deck, hand] = .ok (.number (.int 2598960)) ∧
      call .ncr [deck, rest] = call .ncr [deck, hand] := by
  intro deck hand rest
  have hdeck : deck.IsInteger (52 : Nat) := Datum.isInteger_int 52
  have hhand : hand.IsInteger (5 : Nat) := ⟨_, rfl, by decide +kernel⟩
  have hrest : rest.IsInteger (47 : Nat) := Datum.isInteger_int 47
  obtain ⟨hexact, hsymm⟩ := ncr_exact_within_limits hdeck hhand (by decide)
  refine ⟨hdeck, hhand, hrest, ?_, hsymm rest hrest (by decide) (by decide)⟩
  have hvalue : Nat.factorial 52 / (Nat.factorial 5 * Nat.factorial (52 - 5)) = 2598960 := by
    decide +kernel
  rw [hexact, if_pos (by decide +kernel), if_pos (by decide), hvalue]
  rfl

open Builtin in
/-- All but one of 2^64 things are refused, though one of them is not; and so is one of 2^1024. -/
theorem all_but_one_refused :
    let things : Datum Builtin := .number (.int (twoTo 64))
    let others : Datum Builtin := .number (.int (twoTo 64 - 1 : Nat))
    let one : Datum Builtin := .number (.int 1)
    let more : Datum Builtin := .number (.int (twoTo 1024))
    things.IsInteger (twoTo 64) ∧ others.IsInteger (twoTo 64 - 1 : Nat) ∧ more.IsInteger (twoTo 1024) ∧
      call .ncr [things, others] = .error (.calculation .selectionRange) ∧
      call .ncr [things, one] = .ok things ∧
      call .ncr [more, one] = .error (.calculation .integerTooLarge) := by
  intro things others one more
  have hthings : things.IsInteger (twoTo 64) := Datum.isInteger_int _
  have hothers : others.IsInteger (twoTo 64 - 1 : Nat) := Datum.isInteger_int _
  have hone : one.IsInteger (1 : Nat) := Datum.isInteger_int 1
  have hmore : more.IsInteger (twoTo 1024) := Datum.isInteger_int _
  refine ⟨hthings, hothers, hmore, ?_, ?_, ?_⟩
  · rw [call_ncr_of_isInteger hthings hothers (Nat.sub_le _ _), if_pos (by decide +kernel),
      if_neg (by decide +kernel)]
  · rw [call_ncr_of_isInteger hthings hone (by decide +kernel), if_pos (by decide +kernel),
      if_pos (by decide +kernel), Nat.choose_one_right]
  · rw [call_ncr_of_isInteger hmore hone (by decide +kernel), if_neg (by decide +kernel)]

end Reckoner
