import Mathlib.Data.List.Basic
import Reckoner.Calculator.Builtin

/-!
# Counting operands

Seven of the calculator's functions take one operand and three take two; the others
judge the number of their operands themselves.  A function of fixed parameters that is
given another number of operands fails for that reason, and nothing else fails for it.
-/

namespace Reckoner

namespace Calculator

/-- Whether a fault is that a function of fixed parameters had another number of operands. -/
def Fault.isMiscount : Fault -> Bool
  | .operandCount _ _ _ => true
  | _ => false

theorem Fault.kind_eq_typeError_iff (fault : Fault) :
    fault.kind = "TypeError" ↔ fault.isMiscount = true := by
  cases fault <;> simp [kind, isMiscount]

/-- A calculation that fails for other reasons only. -/
def Counted {α : Type} (result : Except Fault α) : Prop :=
  ∀ fault, result = .error fault -> fault.isMiscount = false

namespace Counted

variable {α β : Type}

theorem ok (value : α) : Counted (.ok value) := by
  intro fault h
  cases h

theorem error {fault : Fault} (h : fault.isMiscount = false) :
    Counted (.error fault : Except Fault α) := by
  intro other hother
  cases hother
  exact h

theorem bind {first : Except Fault α} {next : α -> Except Fault β} (hfirst : Counted first)
    (hnext : ∀ value, Counted (next value)) : Counted (first >>= next) := by
  cases first with
  | ok value => exact hnext value
  | error fault => exact error (hfirst fault rfl)

theorem elim {fault : Fault} (found : Option α) {next : α -> Except Fault β}
    (hnext : ∀ value, Counted (next value)) (hfault : fault.isMiscount = false) :
    Counted (found.elim (.error fault) next) := by
  cases found with
  | some value => exact hnext value
  | none => exact error hfault

end Counted

/-! ## Operands -/

theorem counted_numbers (operation : String) (operands : List Operand) :
    Counted (numbers operation operands) := by
  induction operands with
  | nil => exact .ok []
  | cons operand rest ih =>
      cases operand with
      | number n =>
          unfold numbers
          cases h : numbers operation rest with
          | ok ns => exact .ok (n :: ns)
          | error fault => exact .error (ih fault h)
      | truth b => exact .error rfl
      | other => exact .error rfl

theorem counted_number (operation : String) (operand : Operand) :
    Counted (number operation operand) := by
  cases operand with
  | number n => exact .ok n
  | truth b => exact .error rfl
  | other => exact .error rfl

theorem counted_toFloat (n : Number) : Counted (toFloat n) := by
  unfold toFloat
  split
  · exact .ok _
  · apply Counted.elim _ .ok
    rfl

theorem counted_toFloats (ns : List Number) : Counted (toFloats ns) := by
  induction ns with
  | nil => exact .ok []
  | cons n rest ih => exact .bind (counted_toFloat n) fun _ => .bind ih fun _ => .ok _

theorem counted_whole? (operand : Operand) : Counted (whole? operand) := by
  unfold whole?
  split
  · apply Counted.elim _ fun _ => .ok _
    rfl
  · exact .ok _
  · exact .ok _
  · exact .ok _

/-! ## Arithmetic -/

theorem counted_combine (exact : Int -> Int -> Int) (rounded : Float -> Float -> Float)
    (a b : Number) : Counted (combine exact rounded a b) := by
  unfold combine
  split
  · exact .ok _
  · exact .bind (counted_toFloat a) fun _ => .bind (counted_toFloat b) fun _ => .ok _

theorem counted_accumulate {step : Number -> Number -> Except Fault Number}
    (hstep : ∀ a b, Counted (step a b)) (acc : Number) (ns : List Number) :
    Counted (accumulate step acc ns) := by
  induction ns generalizing acc with
  | nil => exact .ok acc
  | cons n rest ih =>
      unfold accumulate
      split
      · exact ih _
      · rename_i fault hfault
        exact .error (hstep acc n fault hfault)

theorem counted_sum (operands : List Operand) : Counted (sum operands) :=
  .bind (counted_numbers "+" operands) fun ns => counted_accumulate (counted_combine _ _) _ ns

theorem counted_product (operands : List Operand) : Counted (product operands) :=
  .bind (counted_numbers "*" operands) fun ns => counted_accumulate (counted_combine _ _) _ ns

theorem counted_difference (operands : List Operand) : Counted (difference operands) := by
  refine .bind (counted_numbers "-" operands) fun ns => ?_
  split
  · exact .ok _
  · exact counted_combine _ _ _ _
  · exact .error rfl

theorem counted_divide (a b : Number) : Counted (divide a b) := by
  unfold divide
  split
  · apply Counted.elim _ fun _ => .ok _
    rfl
  · exact .bind (counted_toFloat a) fun _ => .bind (counted_toFloat b) fun _ => .ok _

theorem counted_quotient (operands : List Operand) : Counted (quotient operands) := by
  unfold quotient
  split
  · refine .bind (counted_number "/" _) fun _ => .bind (counted_number "/" _) fun divisor => ?_
    split
    · exact .error rfl
    · exact counted_divide _ divisor
  · exact .error rfl

theorem counted_roundWith (rule : Int -> Int) (n : Number) : Counted (roundWith rule n) := by
  unfold roundWith
  split
  · exact .ok _
  · split
    · exact .error rfl
    · exact .error rfl
    · exact .ok _

theorem counted_power (a b : Operand) : Counted (power a b) := by
  have hreal : ∀ base exponent, Counted (realPower base exponent) := by
    intro base exponent
    unfold realPower
    split
    · exact .bind (counted_toFloat exponent) fun _ => .ok _
    · exact .ok true
  have hfloat : ∀ x y, Counted (powFloat x y) := by
    intro x y
    unfold powFloat
    dsimp only
    split
    · split
      · exact .error rfl
      · exact .error rfl
    · exact .ok _
  refine .bind (counted_number "pow" a) fun base => .bind (counted_number "pow" b) fun exponent =>
    .bind (hreal base exponent) fun isReal => ?_
  split
  · exact .bind (counted_toFloat base) fun x => .bind (counted_toFloat exponent) fun y => hfloat x y
  · exact .error rfl

theorem counted_sqrt (a : Operand) : Counted (sqrt a) := by
  refine .bind (counted_number "sqrt" a) fun radicand => ?_
  split
  · exact .error rfl
  · exact .bind (counted_toFloat radicand) fun _ => .ok _

theorem counted_ofAngle (operation : String) (f : Float -> Float) (a : Operand) :
    Counted (ofAngle operation f a) := by
  refine .bind (counted_number operation a) fun n => .bind (counted_toFloat n) fun angle => ?_
  split
  · exact .error rfl
  · exact .ok _

/-! ## Selections and samples -/

theorem counted_factorial (a : Operand) : Counted (factorial a) := by
  refine .bind (counted_whole? a) fun whole => ?_
  split
  · exact .error rfl
  · split
    · exact .error rfl
    · split
      · exact .error rfl
      · exact .ok _

theorem counted_selection (a b : Operand) : Counted (selection a b) := by
  have hsize : ∀ operand, Counted (selectionSize operand) := by
    intro operand
    refine .bind (counted_whole? operand) fun whole => ?_
    split
    · exact .error rfl
    · exact .ok _
  refine .bind (hsize a) fun n => .bind (hsize b) fun r => ?_
  split
  · exact .error rfl
  · split
    · exact .error rfl
    · split
      · exact .error rfl
      · exact .ok _

theorem counted_sample (operation : String) (operands : List Operand) :
    Counted (sample operation operands) := by
  unfold sample
  split
  · exact .error rfl
  · exact .bind (counted_numbers operation operands) counted_toFloats

end Calculator

/-! ## The functions -/

namespace Builtin

open Calculator

def arity? : Builtin -> Option Nat
  | .floor | .ceil | .sqrt | .sin | .cos | .tan | .factorial => some 1
  | .pow | .npr | .ncr => some 2
  | _ => none

theorem length_ne_of_unary {b : Builtin} {parameter : String}
    {f : Operand -> Except Fault Number} (hf : ∀ x, Counted (f x)) {operands : List Operand}
    {fault : Fault} (h : unary b parameter f operands = .error fault)
    (hmiscount : fault.isMiscount = true) : operands.length ≠ 1 := by
  intro hlength
  obtain ⟨x, rfl⟩ := List.length_eq_one_iff.mp hlength
  rw [hf x fault h] at hmiscount
  cases hmiscount

theorem length_ne_of_binary {b : Builtin} {first second : String}
    {f : Operand -> Operand -> Except Fault Number} (hf : ∀ x y, Counted (f x y))
    {operands : List Operand} {fault : Fault} (h : binary b first second f operands = .error fault)
    (hmiscount : fault.isMiscount = true) : operands.length ≠ 2 := by
  intro hlength
  obtain ⟨x, y, rfl⟩ := List.length_eq_two.mp hlength
  rw [hf x y fault h] at hmiscount
  cases hmiscount

/-- Only a function of fixed parameters fails for the number of its operands, and it is wrong. -/
theorem exists_arity_of_miscount {b : Builtin} {operands : List Operand} {fault : Fault}
    (h : b.apply operands = .error fault) (hmiscount : fault.isMiscount = true) :
    ∃ count, b.arity? = some count ∧ operands.length ≠ count := by
  have hnot : ∀ {result : Except Fault Number}, Counted result -> result ≠ .error fault := by
    intro result hcounted hresult
    rw [hcounted fault hresult] at hmiscount
    cases hmiscount
  cases b with
  | add => exact absurd h (hnot (counted_sum operands))
  | sub => exact absurd h (hnot (counted_difference operands))
  | mul => exact absurd h (hnot (counted_product operands))
  | div => exact absurd h (hnot (counted_quotient operands))
  | floor =>
      exact ⟨1, rfl, length_ne_of_unary
        (fun x => .bind (counted_number _ x) (counted_roundWith _)) h hmiscount⟩
  | ceil =>
      exact ⟨1, rfl, length_ne_of_unary
        (fun x => .bind (counted_number _ x) (counted_roundWith _)) h hmiscount⟩
  | pow => exact ⟨2, rfl, length_ne_of_binary counted_power h hmiscount⟩
  | sqrt => exact ⟨1, rfl, length_ne_of_unary counted_sqrt h hmiscount⟩
  | sin => exact ⟨1, rfl, length_ne_of_unary (counted_ofAngle _ _) h hmiscount⟩
  | cos => exact ⟨1, rfl, length_ne_of_unary (counted_ofAngle _ _) h hmiscount⟩
  | tan => exact ⟨1, rfl, length_ne_of_unary (counted_ofAngle _ _) h hmiscount⟩
  | factorial => exact ⟨1, rfl, length_ne_of_unary counted_factorial h hmiscount⟩
  | npr =>
      exact ⟨2, rfl, length_ne_of_binary
        (fun x y => .bind (counted_selection x y) fun _ => .ok _) h hmiscount⟩
  | ncr =>
      exact ⟨2, rfl, length_ne_of_binary
        (fun x y => .bind (counted_selection x y) fun _ => .ok _) h hmiscount⟩
  | mean => exact absurd h (hnot (.bind (counted_sample _ operands) fun _ => .ok _))
  | variance => exact absurd h (hnot (.bind (counted_sample _ operands) fun _ => .ok _))
  | stddev => exact absurd h (hnot (.bind (counted_sample _ operands) fun _ => .ok _))

end Builtin

end Reckoner
