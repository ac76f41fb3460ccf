import Mathlib.Data.List.TakeWhile
import Mathlib.Data.Nat.Digits.Defs
import Reckoner.Datum.Basic
import Reckoner.Token

/-!
# The grammar

What token lists spell expressions, said without a reader: a numeral, a symbol, or
a parenthesised sequence of expressions.  The classes of tokens are said by their
characters, and `Lexeme.ofToken` is shown to decide them.
-/

namespace Reckoner

/-! ## Numerals and symbols -/

def IsDigits (chars : List Char) : Prop :=
  chars ≠ [] ∧ ∀ c ∈ chars, c.isDigit = true

/-- The number that digits spell: the last one counts ones, the one before it tens, and so on. -/
def spelled (digits : List Char) : Nat :=
  Nat.ofDigits 10 (digits.reverse.map fun c => c.toNat - '0'.toNat)

def signChars (negative : Bool) : List Char :=
  if negative then ['-'] else []

inductive IsNumeral : List Char -> Prop where
  | int (negative : Bool) {digits : List Char} (hdigits : IsDigits digits) :
      IsNumeral (signChars negative ++ digits)
  | decimal (negative : Bool) {whole fraction : List Char} (hwhole : IsDigits whole)
      (hfraction : IsDigits fraction) :
      IsNumeral (signChars negative ++ (whole ++ '.' :: fraction))

/-- Numerals and what they denote; an integer has a bounded number of digits. -/
inductive Denotes : List Char -> Number -> Prop where
  | int (negative : Bool) {digits : List Char} (hdigits : IsDigits digits)
      (hlength : digits.length ≤ 4300) :
      Denotes (signChars negative ++ digits) (.int (signed negative (spelled digits)))
  | decimal (negative : Bool) {whole fraction : List Char} (hwhole : IsDigits whole)
      (hfraction : IsDigits fraction) :
      Denotes (signChars negative ++ (whole ++ '.' :: fraction))
        (.float (Binary64.ofRatio negative (spelled (whole ++ fraction)) (10 ^ fraction.length)))

/-- A letter or a mark, then letters, digits and marks; the slash may only come first. -/
inductive IsName : List Char -> Prop where
  | intro {c : Char} {rest : List Char} (hfirst : c.isAlpha = true ∨ c ∈ "+-!/*_".toList)
      (hrest : ∀ d ∈ rest, d.isAlpha = true ∨ d.isDigit = true ∨ d ∈ "+-!?*_'".toList) :
      IsName (c :: rest)

inductive Derives {H : Type} : List String -> Datum H -> Prop where
  | number {token : String} {n : Number} (h : Denotes token.toList n) :
      Derives [token] (.number n)
  | symbol {token : String} (hname : IsName token.toList)
      (hnumeral : ¬ IsNumeral token.toList) : Derives [token] (.symbol token)
  | combination {parts : List (List String × Datum H)}
      (h : ∀ part ∈ parts, Derives part.1 part.2) :
      Derives ("(" :: (parts.flatMap Prod.fst ++ [")"])) (.combination (parts.map Prod.snd))

/-! ## Recognising numerals -/

theorem natOf_eq_spelled (digits : List Char) : Numeral.natOf digits = spelled digits := by
  unfold spelled Numeral.natOf
  rw [Nat.ofDigits_eq_foldr, List.foldr_map, List.foldr_reverse]
  simp only [Nat.add_comm, Nat.cast_id]

namespace Numeral

def IsProper (n : Numeral) : Prop :=
  IsDigits n.whole ∧ ∀ fraction, n.fraction = some fraction -> IsDigits fraction

theorem isDigits_eq_true_iff (chars : List Char) : isDigits chars = true ↔ IsDigits chars := by
  simp [isDigits, IsDigits]

theorem splitSign_append (negative : Bool) {body : List Char} (h : body.head? ≠ some '-') :
    splitSign (signChars negative ++ body) = (negative, body) := by
  cases negative with
  | true => rfl
  | false =>
      simp only [signChars, Bool.false_eq_true, ↓reduceIte, List.nil_append, splitSign]
      split
      · simp at h
      · rfl

theorem head?_ne_minus {whole : List Char} (h : IsDigits whole) (rest : List Char) :
    (whole ++ rest).head? ≠ some '-' := by
  obtain ⟨hne, hall⟩ := h
  cases whole with
  | nil => exact absurd rfl hne
  | cons c whole =>
      simp only [List.cons_append, List.head?_cons, ne_eq, Option.some.injEq]
      rintro rfl
      exact absurd (hall '-' List.mem_cons_self) (by decide)

theorem span_isDigit_append {whole rest : List Char} (hwhole : IsDigits whole)
    (hrest : ∀ c ∈ rest.head?, c.isDigit = false) :
    (whole ++ rest).takeWhile Char.isDigit = whole ∧
      (whole ++ rest).dropWhile Char.isDigit = rest := by
  rw [List.takeWhile_append_of_pos hwhole.2, List.dropWhile_append_of_pos hwhole.2]
  cases rest with
  | nil => simp
  | cons c rest => simp [hrest c rfl]

theorem ofChars?_int (negative : Bool) {digits : List Char} (h : IsDigits digits) :
    ofChars? (signChars negative ++ digits) = some ⟨negative, digits, none⟩ := by
  have hsplit := splitSign_append negative (head?_ne_minus h [])
  have hend : ∀ c ∈ ([] : List Char).head?, c.isDigit = false := by simp
  obtain ⟨hbefore, hafter⟩ := span_isDigit_append h hend
  rw [List.append_nil] at hsplit hbefore hafter
  simp [ofChars?, hsplit, hbefore, hafter, h.1]

theorem ofChars?_decimal (negative : Bool) {whole fraction : List Char} (hwhole : IsDigits whole)
    (hfraction : IsDigits fraction) :
    ofChars? (signChars negative ++ (whole ++ '.' :: fraction)) =
      some ⟨negative, whole, some fraction⟩ := by
  have hsplit := splitSign_append negative (head?_ne_minus hwhole ('.' :: fraction))
  have hpoint : ∀ c ∈ ('.' :: fraction).head?, c.isDigit = false := by simp
  obtain ⟨hbefore, hafter⟩ := span_isDigit_append hwhole hpoint
  simp [ofChars?, hsplit, hbefore, hafter, hwhole.1, (isDigits_eq_true_iff fraction).mpr hfraction]

theorem isProper_of_ofChars? {text : List Char} {n : Numeral} (h : ofChars? text = some n) :
    n.IsProper := by
  unfold ofChars? at h
  generalize splitSign text = parts at h
  rcases parts with ⟨negative, body⟩
  have hwhole : ∀ c ∈ body.takeWhile Char.isDigit, c.isDigit = true := fun c hc =>
    List.mem_takeWhile_imp hc
  dsimp only at h
  split at h
  · split at h
    · cases h
    · rename_i hempty
      cases h
      exact ⟨⟨by simpa using hempty, hwhole⟩, by simp⟩
  · split at h
    · rename_i hpoint
      cases h
      simp only [Bool.and_eq_true, Bool.not_eq_true', List.isEmpty_eq_false_iff] at hpoint
      refine ⟨⟨hpoint.1.2, hwhole⟩, ?_⟩
      intro fraction hfraction
      cases hfraction
      exact (isDigits_eq_true_iff _).mp hpoint.2
    · cases h

/-- What is recognised is one of the two kinds of numerals. -/
theorem chars_cases {text : List Char} {n : Numeral} (h : ofChars? text = some n) :
    (n.fraction = none ∧ IsDigits n.whole ∧ text = signChars n.negative ++ n.whole) ∨
      ∃ fraction, n.fraction = some fraction ∧ IsDigits n.whole ∧ IsDigits fraction ∧
        text = signChars n.negative ++ (n.whole ++ '.' :: fraction) := by
  have htext := chars_ofChars? h
  obtain ⟨hwhole, hproper⟩ := isProper_of_ofChars? h
  rcases n with ⟨negative, whole, fraction⟩
  cases fraction with
  | none => exact .inl ⟨rfl, hwhole, by simpa [chars, signChars] using htext.symm⟩
  | some fraction =>
      refine .inr ⟨fraction, rfl, hwhole, hproper fraction rfl, ?_⟩
      simpa [chars, signChars] using htext.symm

end Numeral

/-- The numerals are what the recogniser takes for one. -/
theorem isNumeral_iff {text : List Char} :
    IsNumeral text ↔ ∃ n, Numeral.ofChars? text = some n := by
  constructor
  · rintro (⟨negative, hdigits⟩ | ⟨negative, hwhole, hfraction⟩)
    · exact ⟨_, Numeral.ofChars?_int negative hdigits⟩
    · exact ⟨_, Numeral.ofChars?_decimal negative hwhole hfraction⟩
  · rintro ⟨n, h⟩
    rcases Numeral.chars_cases h with ⟨-, hdigits, rfl⟩ | ⟨fraction, -, hwhole, hfraction, rfl⟩
    · exact .int n.negative hdigits
    · exact .decimal n.negative hwhole hfraction

theorem denotes_iff {text : List Char} {number : Number} :
    Denotes text number ↔
      ∃ n, Numeral.ofChars? text = some n ∧ Number.ofNumeral? n = some number := by
  constructor
  · rintro (⟨negative, hdigits, hlength⟩ | ⟨negative, hwhole, hfraction⟩)
    · refine ⟨_, Numeral.ofChars?_int negative hdigits, ?_⟩
      simp [Number.ofNumeral?, Number.digitLimit, hlength, Numeral.toInt, natOf_eq_spelled]
    · refine ⟨_, Numeral.ofChars?_decimal negative hwhole hfraction, ?_⟩
      simp [Number.ofNumeral?, Numeral.toFloat, natOf_eq_spelled, tenTo]
  · rintro ⟨n, h, hnumber⟩
    unfold Number.ofNumeral? at hnumber
    rcases Numeral.chars_cases h with
      ⟨hkind, hdigits, rfl⟩ | ⟨fraction, hkind, hwhole, hfraction, rfl⟩
    · rw [hkind] at hnumber
      simp only [Option.ite_none_right_eq_some, Option.some.injEq] at hnumber
      obtain ⟨hlength, rfl⟩ := hnumber
      rw [Numeral.toInt, natOf_eq_spelled]
      exact .int n.negative hdigits hlength
    · rw [hkind] at hnumber
      cases hnumber
      rw [Numeral.toFloat, natOf_eq_spelled]
      exact .decimal n.negative hwhole hfraction

/-! ## Classes of tokens -/

theorem isValid_iff {name : String} : Identifier.isValid name = true ↔ IsName name.toList := by
  unfold Identifier.isValid
  cases name.toList with
  | nil =>
      constructor
      · rintro ⟨⟩
      · rintro ⟨⟩
  | cons c rest =>
      have hfirst : Identifier.isInitial c = true ↔ c.isAlpha = true ∨ c ∈ "+-!/*_".toList := by
        simp [Identifier.isInitial]
      have hrest : ∀ d, Identifier.isSubsequent d = true ↔
          d.isAlpha = true ∨ d.isDigit = true ∨ d ∈ "+-!?*_'".toList := by
        intro d
        simp [Identifier.isSubsequent, Char.isAlphanum, or_assoc]
      simp only [Identifier.isValidChars, Bool.and_eq_true, List.all_eq_true, hfirst, hrest]
      exact ⟨fun h => .intro h.1 h.2, fun ⟨hfirst, hrest⟩ => ⟨hfirst, hrest⟩⟩

namespace Lexeme

theorem ofToken_eq_literal_iff {token : String} {n : Number} :
    ofToken token = .literal n ↔ Denotes token.toList n := by
  rw [denotes_iff]
  unfold ofToken
  split
  · rename_i numeral hnumeral
    split <;> simp_all
  · rename_i hnumeral
    simp only [hnumeral, reduceCtorEq, false_and, exists_false, iff_false]
    split_ifs <;> simp

theorem ofToken_eq_name_iff {token name : String} :
    ofToken token = .name name ↔
      name = token ∧ IsName token.toList ∧ ¬ IsNumeral token.toList := by
  rw [isNumeral_iff, ← isValid_iff]
  unfold ofToken
  split
  · rename_i numeral hnumeral
    split <;> simp [hnumeral]
  · rename_i hnumeral
    split_ifs with hvalid <;> simp [hnumeral, hvalid, eq_comm]

theorem ofToken_eq_opening_iff {token : String} : ofToken token = .opening ↔ token = "(" := by
  constructor
  · intro h
    unfold ofToken at h
    split at h
    · split at h <;> cases h
    · split_ifs at h with _ hopening
      exact eq_of_beq hopening
  · rintro rfl
    decide

end Lexeme

end Reckoner
