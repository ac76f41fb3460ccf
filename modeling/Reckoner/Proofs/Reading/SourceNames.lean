import Reckoner.Proofs.Correspondence.Discipline
import Reckoner.Proofs.Reading.Atoms
import Reckoner.Proofs.Reading.Defects
import Reckoner.Proofs.Semantics.Steps

/-!
# Names that sources can mention

A table, a definition and a lambda accept the same names, the identifiers.  A source
that is such a name refers to what the table binds to it last, with one exception: a
minus sign with digits is an identifier, but the reader takes it for a number, so a
table may bind it and no source can refer to the binding.  Names that a table skips
occur in no source.
-/

namespace Reckoner

open Evaluation

variable {H : Type}

/-! ## Identifiers and numerals -/

theorem not_isDigit_of_isAlpha {c : Char} (h : c.isAlpha = true) : c.isDigit = false := by
  by_contra hdigit
  have hmax : c.toNat ≤ 57 := (Char.isDigit_iff_toNat.mp (by simpa using hdigit)).2
  rcases Bool.or_eq_true_iff.mp h with hupper | hlower
  · have hmin : 65 ≤ c.toNat := UInt32.le_iff_toNat_le.mp (of_decide_eq_true hupper).1
    omega
  · have habove := (Bool.and_eq_true_iff.mp hlower).1
    have hmin : 97 ≤ c.toNat := UInt32.le_iff_toNat_le.mp (of_decide_eq_true habove)
    omega

namespace IsName

theorem not_isDigit_head {c : Char} {rest : List Char} (h : IsName (c :: rest)) :
    c.isDigit = false := by
  cases h with
  | intro hfirst _ =>
      rcases hfirst with halpha | hmark
      · exact not_isDigit_of_isAlpha halpha
      · have hmarks : "+-!/*_".toList.all (fun mark => !mark.isDigit) = true := by decide
        simpa using List.all_eq_true.mp hmarks c hmark

theorem point_not_mem {text : List Char} (h : IsName text) : '.' ∉ text := by
  cases h with
  | intro hfirst hrest =>
      intro hmem
      rcases List.mem_cons.mp hmem with rfl | hmem
      · exact absurd hfirst (by decide)
      · exact absurd (hrest '.' hmem) (by decide)

/-- An identifier that is a numeral is a minus sign with digits. -/
theorem isNumeral_iff {text : List Char} (h : IsName text) :
    IsNumeral text ↔ ∃ digits, IsDigits digits ∧ text = '-' :: digits := by
  constructor
  · intro hnumeral
    cases hnumeral with
    | @int negative digits hdigits =>
        cases negative with
        | true => exact ⟨digits, hdigits, rfl⟩
        | false =>
            obtain ⟨c, rest, rfl⟩ := List.exists_cons_of_ne_nil hdigits.1
            have hdigit := hdigits.2 c List.mem_cons_self
            rw [not_isDigit_head h] at hdigit
            cases hdigit
    | decimal negative hwhole hfraction => exact absurd (by simp) h.point_not_mem
  · rintro ⟨digits, hdigits, rfl⟩
    exact .int true hdigits

end IsName

def IsSourceName (H : Type) (name : String) : Prop :=
  ∃ (depth : Nat) (source : String) (e : Datum H),
    parse depth source = .ok e ∧ Datum.Occurs (.symbol name) e

theorem Derives.isName_of_occurs {tokens : List String} {e : Datum H} (h : Derives tokens e)
    {name : String} (hname : Datum.Occurs (.symbol name) e) :
    IsName name.toList ∧ ¬ IsNumeral name.toList := by
  induction h with
  | number _ => cases hname.eq_of_atom rfl rfl
  | symbol hvalid hnumeral =>
      cases hname.eq_of_atom rfl rfl
      exact ⟨hvalid, hnumeral⟩
  | combination _ ih =>
      cases hname with
      | item hitems hmem hname =>
          cases hitems
          obtain ⟨part, hpart, rfl⟩ := List.mem_map.mp hmem
          exact ih part hpart hname

theorem parse_name {name : String} (hname : IsName name.toList) (hnumeral : ¬ IsNumeral name.toList)
    (depth : Nat) : parse (depth + 1) name = .ok (.symbol name : Datum H) := by
  apply parse_of_derives
  · rw [hname.tokenize_eq]
    exact .symbol hname hnumeral
  · exact Nat.succ_le_succ (Nat.zero_le depth)

theorem isSourceName_iff {name : String} :
    IsSourceName H name ↔ Identifier.isValid name = true ∧ ¬ IsNumeral name.toList := by
  rw [isValid_iff]
  constructor
  · rintro ⟨depth, source, e, hparse, hoccurs⟩
    exact (derives_of_parse hparse).1.isName_of_occurs hoccurs
  · rintro ⟨hname, hnumeral⟩
    exact ⟨1, name, .symbol name, parse_name hname hnumeral 0, .self⟩

/-- A minus sign with digits is read as an integer, or refused if there are too many of them. -/
theorem parse_negative {name : String} {digits : List Char} (hdigits : IsDigits digits)
    (hname : name.toList = '-' :: digits) (depth : Nat) :
    parse (depth + 1) name =
      if digits.length ≤ 4300 then .ok (.number (.int (-spelled digits)) : Datum H)
      else .error (.numeralTooLong name.length) := by
  have hsign : name.toList = signChars true ++ digits := hname
  have hnumeral : IsNumeral name.toList := hsign ▸ .int true hdigits
  have htokens := hnumeral.tokenize_eq
  split
  · rename_i hlength
    apply parse_of_derives
    · rw [htokens]
      have hdenotes := Denotes.int true hdigits hlength
      rw [← hsign] at hdenotes
      exact .number hdenotes
    · exact Nat.succ_le_succ (Nat.zero_le depth)
  · rename_i hlength
    have hlong : IsOverlong name.toList := ⟨true, digits, hdigits, Nat.not_le.mp hlength, hsign⟩
    have hlexeme := Lexeme.ofToken_eq_overlong_iff.mpr ⟨rfl, hlong⟩
    simp [parse, htokens, Reader.read, Reader.resume, Reader.step, Reader.start, hlexeme]

/-! ## Tables -/

def Datum.Names (name : String) (key : Datum H) : Prop :=
  key = .text name ∨ key = .symbol name

namespace Table

theorem nameOf?_of_names {key : Datum H} {name : String} (h : key.Names name) :
    nameOf? key = if Identifier.isValid name then some name else none := by
  rcases h with rfl | rfl
  · rfl
  · rfl

/-- Keys of one name are skipped together: where the name is not an identifier. -/
theorem mem_skipped_iff {table : Table H} {key : Datum H} {name : String} (hkey : key.Names name) :
    key ∈ table.skipped ↔ key ∈ table.map Prod.fst ∧ Identifier.isValid name = false := by
  rw [skipped, List.mem_filter, nameOf?_of_names hkey]
  cases Identifier.isValid name <;> simp

theorem bindInto_append (bindings : Bindings H) (first second : Table H) :
    bindInto bindings (first ++ second) = bindInto (bindInto bindings first) second := by
  induction first generalizing bindings with
  | nil => rfl
  | cons entry rest ih =>
      rw [List.cons_append, bindInto, bindInto]
      split
      · exact ih _
      · exact ih _

theorem get?_bindInto_of_not_names {name : String} {table : Table H}
    (h : ∀ entry ∈ table, ¬ entry.1.Names name) (bindings : Bindings H) :
    Entries.get? (· == ·) name (bindInto bindings table) =
      Entries.get? (· == ·) name bindings := by
  induction table generalizing bindings with
  | nil => rfl
  | cons entry rest ih =>
      obtain ⟨hentry, hrest⟩ := List.forall_mem_cons.mp h
      unfold bindInto
      split
      · rename_i other hother
        have hne : other ≠ name := by
          rintro rfl
          exact hentry (nameOf?_eq_some_iff.mp hother).1
        rw [ih hrest, Entries.get?_put, if_neg hne]
      · exact ih hrest bindings

/-- The table keeps a key of the name, and the last such key has the value. -/
def Keeps (table : Table H) (name : String) (value : Datum H) : Prop :=
  ∃ front key back, table = front ++ (key, value) :: back ∧ key.Names name ∧
    key ∉ table.skipped ∧ ∀ entry ∈ back, ¬ entry.1.Names name

theorem Keeps.isValid {table : Table H} {name : String} {value : Datum H}
    (h : table.Keeps name value) : Identifier.isValid name = true := by
  obtain ⟨front, key, back, rfl, hkey, hkept, -⟩ := h
  by_contra hinvalid
  apply hkept
  rw [mem_skipped_iff hkey]
  exact ⟨by simp, by simpa using hinvalid⟩

theorem Keeps.get?_bindings {table : Table H} {name : String} {value : Datum H}
    (h : table.Keeps name value) :
    Entries.get? (· == ·) name table.bindings = some value := by
  have hvalid := h.isValid
  obtain ⟨front, key, back, rfl, hkey, -, hback⟩ := h
  rw [bindings, bindInto_append, bindInto, nameOf?_of_names hkey, if_pos hvalid]
  dsimp only
  rw [get?_bindInto_of_not_names hback, Entries.get?_put, if_pos rfl]

end Table

theorem lookup?_withRoot {machine : Machine H} {table : Table H} {name : String} {value : Datum H}
    (h : Entries.get? (· == ·) name table.bindings = some value) :
    (machine.withRoot table).store.lookup? machine.store.frames.size name = some value := by
  rw [Store.lookup?_eq_some_iff]
  exact .own (Store.frame?_push_self machine.store ⟨table.bindings, none⟩) h

/-! ## What a name refers to -/

/-- A name that is read as a symbol refers to what the table binds to it last. -/
theorem interpret_name [Host H] {table : Table H} {name : String} {value : Datum H}
    (hkeeps : table.Keeps name value) (hnumeral : ¬ IsNumeral name.toList) (depth : Nat)
    (strict : Bool) (machine : Machine H) :
    (interpret (depth + 1) strict machine table name).result = .ok value := by
  have hparse := parse_name (H := H) (isValid_iff.mp hkeeps.isValid) hnumeral depth
  rw [interpret_of_ok hparse, evaluate_succ]
  dsimp only [activate, lookup]
  rw [lookup?_withRoot hkeeps.get?_bindings]
  rfl

theorem interpret_number [Host H] {depth : Nat} {source : String} {n : Number}
    (hparse : parse (depth + 1) source = .ok (.number n : Datum H)) (strict : Bool)
    (machine : Machine H) (table : Table H) :
    (interpret (depth + 1) strict machine table source).result = .ok (.number n) := by
  rw [interpret_of_ok hparse, evaluate_succ]
  rfl

/-! ## What accepts a name -/

section

variable [Host H] (name : String) (scope : Nat) (machine : Machine H)

theorem bind_accepts_iff (value : Datum H) :
    (∃ after, define scope (.symbol name) value machine = .ok () after) ↔
      Identifier.isValid name = true := by
  unfold define
  by_cases hvalid : Identifier.isValid name = true
  · simp [Datum.identifier?, hvalid]
  · simp [Datum.identifier?, hvalid]

theorem define_accepts_iff (strict : Bool) (depth : Nat) (n : Number) :
    (∃ value after, evaluate strict (depth + 2) scope
      (.combination [.symbol "define", .symbol name, .number n]) machine = .ok value after) ↔
        Identifier.isValid name = true := by
  rw [evaluate_succ, activate_of_items _ _ rfl, evaluateItems_define, evaluateDefine]
  by_cases hvalid : Identifier.isValid name = true
  · have hsome : (.symbol name : Datum H).identifier? = some name :=
      Datum.identifier?_eq_some_iff.mpr ⟨rfl, hvalid⟩
    obtain ⟨after, hafter⟩ := (bind_accepts_iff name scope machine (.number n)).mpr hvalid
    simp only [hsome, hvalid, iff_true]
    exact ⟨.number n, after, (Action.bind_of_ok rfl).trans (Action.bind_of_ok hafter)⟩
  · have hnone : (.symbol name : Datum H).identifier? = none := by
      simp [Datum.identifier?, hvalid]
    rw [hnone]
    constructor
    · rintro ⟨value, after, hended⟩
      cases hended
    · exact fun h => absurd h hvalid

theorem lambda_accepts_iff (strict : Bool) (depth : Nat) (body : Datum H) :
    (∃ value after, evaluate strict (depth + 1) scope
      (.combination [.symbol "lambda", .combination [.symbol name], body]) machine =
        .ok value after) ↔ Identifier.isValid name = true := by
  have hform : evaluate strict (depth + 1) scope
      (.combination [.symbol "lambda", .combination [.symbol name], body]) machine =
        evaluateLambda scope [.combination [.symbol name], body] machine := rfl
  rw [hform]
  by_cases hvalid : Identifier.isValid name = true
  · simp [evaluateLambda, Datum.items?, Datum.identifier?, hvalid, newClosure]
  · have hnone : (.symbol name : Datum H).identifier? = none := by
      simp [Datum.identifier?, hvalid]
    have hrefused : evaluateLambda scope [.combination [.symbol name], body] machine =
        .error ((.symbol name : Datum H).blame .lambdaParameter) machine := by
      simp only [evaluateLambda, Datum.items?, List.find?, hnone, Option.isNone_none]
      rfl
    simp [hrefused, hvalid]

end

/--
Tables, definitions and lambdas accept exactly the identifiers.  Those of them that are
no numerals are the names of symbols in sources, and what a table binds to such a name
last is what the name as a source refers to.  The other identifiers are a minus sign
with digits: as a source they are integers, whatever a table binds to them.
-/
theorem kept_names_referable [Host H] :
    (∀ (table : Table H) (name : String) (value : Datum H) (depth : Nat) (strict : Bool)
      (machine : Machine H), table.Keeps name value ->
        let result := (interpret (depth + 1) strict machine table name).result
        (¬ IsNumeral name.toList -> result = .ok value) ∧
        (∀ digits, IsDigits digits -> name.toList = '-' :: digits ->
          result = if digits.length ≤ 4300 then .ok (.number (.int (-spelled digits)))
            else .error (.numeralTooLong name.length))) ∧
    (∀ (table : Table H) (key : Datum H) (name : String), key ∈ table.skipped ->
      key.Names name -> ¬ IsSourceName H name) ∧
    (∀ name : String,
      (∀ (table : Table H) key, key ∈ table.map Prod.fst -> key.Names name ->
        (key ∉ table.skipped ↔ Identifier.isValid name = true)) ∧
      (∀ (scope : Nat) (machine : Machine H) (value : Datum H),
        (∃ after, define scope (.symbol name) value machine = .ok () after) ↔
          Identifier.isValid name = true) ∧
      (∀ (scope : Nat) (machine : Machine H) (strict : Bool) (depth : Nat) (n : Number),
        (∃ value after, evaluate strict (depth + 2) scope
          (.combination [.symbol "define", .symbol name, .number n]) machine = .ok value after) ↔
            Identifier.isValid name = true) ∧
      (∀ (scope : Nat) (machine : Machine H) (strict : Bool) (depth : Nat) (body : Datum H),
        (∃ value after, evaluate strict (depth + 1) scope
          (.combination [.symbol "lambda", .combination [.symbol name], body]) machine =
            .ok value after) ↔ Identifier.isValid name = true) ∧
      (IsSourceName H name ↔ Identifier.isValid name = true ∧
        ¬ ∃ digits, IsDigits digits ∧ name.toList = '-' :: digits)) := by
  refine ⟨?_, ?_, ?_⟩
  · intro table name value depth strict machine hkeeps
    refine ⟨fun hnumeral => interpret_name hkeeps hnumeral depth strict machine, ?_⟩
    intro digits hdigits hname
    have hparse := parse_negative (H := H) hdigits hname depth
    split
    · rename_i hlength
      rw [if_pos hlength] at hparse
      exact interpret_number hparse strict machine table
    · rename_i hlength
      rw [if_neg hlength] at hparse
      rw [interpret_of_error hparse]
  · intro table key name hskipped hkey hsource
    have hinvalid := ((Table.mem_skipped_iff hkey).mp hskipped).2
    rw [(isSourceName_iff.mp hsource).1] at hinvalid
    cases hinvalid
  · intro name
    refine ⟨?_, bind_accepts_iff name, define_accepts_iff name, lambda_accepts_iff name, ?_⟩
    · intro table key hmem hkey
      rw [Table.mem_skipped_iff hkey]
      simp [hmem]
    · rw [isSourceName_iff]
      refine and_congr_right fun hvalid => ?_
      rw [(isValid_iff.mp hvalid).isNumeral_iff]

/-- A table that binds `-5` keeps it, and yet the source `-5` is the number. -/
theorem negative_key_unreachable :
    let table : Table Builtin := [(.text "-5", .number (.int 1))]
    table.skipped = [] ∧ table.Keeps "-5" (.number (.int 1)) ∧
      (interpret defaultDepth true .empty table "-5").result = .ok (.number (.int (-5))) ∧
      ¬ IsSourceName Builtin "-5" := by
  have hvalid : Identifier.isValid "-5" = true := by decide
  have hdigits : IsDigits ['5'] := ⟨List.cons_ne_nil _ _, List.forall_mem_singleton.mpr rfl⟩
  have hkept : (.text "-5" : Datum Builtin) ∉
      Table.skipped [(.text "-5", .number (.int 1))] := by
    rw [Table.mem_skipped_iff (.inl rfl), hvalid]
    simp
  refine ⟨rfl, ⟨[], _, [], rfl, .inl rfl, hkept, by simp⟩, rfl, ?_⟩
  intro hsource
  exact (isSourceName_iff.mp hsource).2 (.int true hdigits)

end Reckoner
