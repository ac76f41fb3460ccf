import Reckoner.Proofs.Reading.Grammar
import Reckoner.Proofs.Reading.Scanner

/-!
# Atoms

Numerals and identifiers have neither parentheses nor blanks in them, so each of
them is a token by itself.
-/

namespace Reckoner

namespace Token

/-- Between two visible characters, both past the parentheses, there is no break. -/
theorem isBreak_of_between {c low high : Char} (habove : low.val ≤ c.val)
    (hbelow : c.val ≤ high.val) (hlow : 42 ≤ low.toNat) (hhigh : high.toNat ≤ 126) :
    isBreak c = false := by
  have hmin : 42 ≤ c.toNat := Nat.le_trans hlow (UInt32.le_iff_toNat_le.mp habove)
  have hmax : c.toNat ≤ 126 := Nat.le_trans (UInt32.le_iff_toNat_le.mp hbelow) hhigh
  have hopening : c ≠ '(' := by
    rintro rfl
    exact absurd hmin (by decide)
  have hclosing : c ≠ ')' := by
    rintro rfl
    exact absurd hmin (by decide)
  simp [isBreak, isParenthesis, hopening, hclosing, Text.isBlank, Text.blankRanges]
  omega

theorem isBreak_of_isDigit {c : Char} (h : c.isDigit = true) : isBreak c = false := by
  obtain ⟨habove, hbelow⟩ := Bool.and_eq_true_iff.mp h
  exact isBreak_of_between (of_decide_eq_true habove) (of_decide_eq_true hbelow)
    (by decide) (by decide)

theorem isBreak_of_isAlpha {c : Char} (h : c.isAlpha = true) : isBreak c = false := by
  rcases Bool.or_eq_true_iff.mp h with hupper | hlower
  · obtain ⟨habove, hbelow⟩ := of_decide_eq_true hupper
    exact isBreak_of_between habove hbelow (by decide) (by decide)
  · obtain ⟨habove, hbelow⟩ := Bool.and_eq_true_iff.mp hlower
    exact isBreak_of_between (of_decide_eq_true habove) (of_decide_eq_true hbelow)
      (by decide) (by decide)

theorem isBreak_of_mem {c : Char} {marks : List Char}
    (hmarks : marks.all (fun d => !isBreak d) = true) (h : c ∈ marks) : isBreak c = false := by
  simpa using List.all_eq_true.mp hmarks c h

end Token

theorem IsNumeral.tokenize_eq {token : String} (h : IsNumeral token.toList) :
    tokenize token = [token] := by
  have hsign : ∀ negative, ∀ c ∈ signChars negative, Token.isBreak c = false := by
    intro negative c
    exact Token.isBreak_of_mem (by cases negative <;> decide)
  have hdigits : ∀ {digits}, IsDigits digits -> ∀ c ∈ digits, Token.isBreak c = false :=
    fun h c hc => Token.isBreak_of_isDigit (h.2 c hc)
  generalize htext : token.toList = text at h
  refine tokenize_atom ?_ ?_
  · rw [htext]
    cases h with
    | int negative h => simp [h.1]
    | decimal negative hwhole hfraction => simp
  · rw [htext]
    cases h with
    | int negative h => exact List.forall_mem_append.mpr ⟨hsign negative, hdigits h⟩
    | decimal negative hwhole hfraction =>
        refine List.forall_mem_append.mpr ⟨hsign negative, List.forall_mem_append.mpr
          ⟨hdigits hwhole, List.forall_mem_cons.mpr ⟨by decide, hdigits hfraction⟩⟩⟩

theorem Denotes.isNumeral {text : List Char} {n : Number} (h : Denotes text n) :
    IsNumeral text := by
  cases h with
  | int negative hdigits _ => exact .int negative hdigits
  | decimal negative hwhole hfraction => exact .decimal negative hwhole hfraction

theorem IsName.tokenize_eq {name : String} (h : IsName name.toList) : tokenize name = [name] := by
  generalize htext : name.toList = text at h
  obtain ⟨hfirst, hrest⟩ := h
  refine tokenize_atom (by simp [htext]) ?_
  rw [htext, List.forall_mem_cons]
  refine ⟨?_, ?_⟩
  · rcases hfirst with halpha | hmark
    · exact Token.isBreak_of_isAlpha halpha
    · exact Token.isBreak_of_mem (by decide) hmark
  · intro d hd
    rcases hrest d hd with halpha | hdigit | hmark
    · exact Token.isBreak_of_isAlpha halpha
    · exact Token.isBreak_of_isDigit hdigit
    · exact Token.isBreak_of_mem (by decide) hmark

end Reckoner
