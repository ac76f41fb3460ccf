import Reckoner.CommandLine.Report
import Reckoner.Datum.Equality
import Reckoner.Datum.Source
import Reckoner.Proofs.Reading.Acceptance
import Reckoner.Proofs.Reading.Atoms
import Reckoner.Proofs.Reading.NumberText

/-!
# Writing and reading again

What has been read can be written, and reading it again gives the same
expression with one exception.  A decimal too large for a double is read as an
infinity, whose text is a name: there a number has become a symbol.
-/

namespace Reckoner

/-! ## What is read again -/

variable {H : Type}

namespace Number

def isFinite : Number -> Bool
  | .int _ => true
  | .float x =>
      match Binary64.view x with
      | .finite _ _ => true
      | _ => false

/-- What the source text of a number is read as: that of an infinity is a name. -/
def reread : Number -> Datum H
  | .int n => .number (.int n)
  | .float x =>
      match Binary64.view x with
      | .infinite negative => .symbol (if negative then "-inf" else "inf")
      | _ => .number (.float x)

end Number

namespace Datum

mutual

def isFinite : Datum H -> Bool
  | .number n => n.isFinite
  | .combination items => allFinite items
  | _ => true

def allFinite : List (Datum H) -> Bool
  | [] => true
  | item :: rest => isFinite item && allFinite rest

end

mutual

def reread : Datum H -> Datum H
  | .number n => n.reread
  | .combination items => .combination (rereadAll items)
  | d => d

def rereadAll : List (Datum H) -> List (Datum H)
  | [] => []
  | item :: rest => reread item :: rereadAll rest

end

theorem sourceAll_eq_map [Host H] (items : List (Datum H)) :
    sourceAll items = items.map source := by
  induction items with
  | nil => rfl
  | cons item rest ih => rw [sourceAll, ih, List.map_cons]

theorem rereadAll_eq_map (items : List (Datum H)) : rereadAll items = items.map reread := by
  induction items with
  | nil => rfl
  | cons item rest ih => rw [rereadAll, ih, List.map_cons]

theorem nestingAll_rereadAll {items : List (Datum H)}
    (h : ∀ item ∈ items, item.reread.nesting = item.nesting) :
    nestingAll (rereadAll items) = nestingAll items := by
  induction items with
  | nil => rfl
  | cons item rest ih =>
      obtain ⟨hitem, hrest⟩ := List.forall_mem_cons.mp h
      rw [rereadAll, nestingAll, nestingAll, hitem, ih hrest]

theorem allFinite_iff {items : List (Datum H)} :
    allFinite items = true ↔ ∀ item ∈ items, item.isFinite = true := by
  induction items with
  | nil => simp [allFinite]
  | cons item rest ih => simp [allFinite, ih]

end Datum

theorem spelled_lt {digits : List Char} {k : Nat} (h : IsDigits digits)
    (hlength : digits.length ≤ k) : spelled digits < tenTo k := by
  have hsmall : ∀ n ∈ digits.reverse.map (fun c => c.toNat - '0'.toNat), n < 10 := by
    intro n hn
    obtain ⟨c, hc, rfl⟩ := List.mem_map.mp hn
    have hrange : 48 ≤ c.toNat ∧ c.toNat ≤ 57 :=
      Char.isDigit_iff_toNat.mp (h.2 c (List.mem_reverse.mp hc))
    change c.toNat - 48 < 10
    omega
  have hbound := Nat.ofDigits_lt_base_pow_length (by decide) hsmall
  rw [List.length_map, List.length_reverse] at hbound
  exact Nat.lt_of_lt_of_le hbound (Nat.pow_le_pow_right (by decide) hlength)

theorem Denotes.isWritable {text : List Char} {n : Number} (h : Denotes text n) :
    n.isWritable = true := by
  cases h with
  | int negative hdigits hlength =>
      rw [Number.isWritable, natAbs_signed, decide_eq_true_eq]
      exact spelled_lt hdigits hlength
  | decimal negative hwhole hfraction => rfl

/-- A number that was read is finite, and its source text denotes it, or it is an infinity. -/
theorem Denotes.text_cases {text : List Char} {n : Number} (h : Denotes text n) :
    (n.isFinite = true ∧ Denotes (n.text .source).toList n) ∨
      ∃ x negative, n = .float x ∧ Binary64.view x = .infinite negative := by
  cases h with
  | int negative hdigits hlength =>
      refine .inl ⟨rfl, Number.denotes_text_int ?_⟩
      rw [natAbs_signed]
      exact spelled_lt hdigits hlength
  | @decimal negative whole fraction hwhole hfraction =>
      have hpower : 0 < 10 ^ fraction.length := Nat.pow_pos (by decide)
      have hview := Binary64.view_ofRatio negative (spelled (whole ++ fraction)) hpower
      split_ifs at hview with hlimit
      · refine .inl ⟨by rw [Number.isFinite, hview], ?_⟩
        exact Number.denotes_text_float negative hlimit
          (Binary64.representable_nearestQuanta _ hpower)
      · exact .inr ⟨_, negative, rfl, hview⟩

namespace Number

theorem exists_view_of_isFinite {x : Float} (h : (float x).isFinite = true) :
    ∃ negative quanta, Binary64.view x = .finite negative quanta := by
  rw [isFinite] at h
  cases hview : Binary64.view x with
  | nan => simp [hview] at h
  | infinite negative => simp [hview] at h
  | finite negative quanta => exact ⟨negative, quanta, rfl⟩

theorem reread_of_isFinite {n : Number} (h : n.isFinite = true) :
    (n.reread : Datum H) = .number n := by
  cases n with
  | int n => rfl
  | float x =>
      obtain ⟨negative, quanta, hview⟩ := exists_view_of_isFinite h
      rw [reread, hview]

theorem exists_place?_of_isFinite {n : Number} (h : n.isFinite = true) :
    ∃ place, n.place? = some place := by
  cases n with
  | int n => exact ⟨_, rfl⟩
  | float x =>
      obtain ⟨negative, quanta, hview⟩ := exists_view_of_isFinite h
      exact ⟨.quanta (signed negative quanta), by rw [place?, hview]⟩

theorem equal_self_of_isFinite {n : Number} (h : n.isFinite = true) : n.equal n = true := by
  obtain ⟨place, hplace⟩ := exists_place?_of_isFinite h
  simp [equal, hplace]

end Number

theorem derives_infinity (negative : Bool) :
    Derives (tokenize (if negative then "-inf" else "inf"))
      (.symbol (if negative then "-inf" else "inf") : Datum H) := by
  generalize hname : (if negative then "-inf" else "inf") = name
  have hvalid : Identifier.isValid name = true := by
    cases negative <;> cases hname <;> decide
  have hnumeral : Numeral.ofChars? name.toList = none := by
    cases negative <;> cases hname <;> decide
  have hsymbol := isValid_iff.mp hvalid
  rw [hsymbol.tokenize_eq]
  exact .symbol hsymbol (by simp [isNumeral_iff, hnumeral])

namespace Derives

variable {tokens : List String} {e : Datum H}

theorem isWritable (h : Derives tokens e) : e.isWritable = true := by
  induction h with
  | number h => exact h.isWritable
  | symbol hname hnumeral => rfl
  | combination h ih =>
      rw [Datum.isWritable, Datum.allWritable_eq_true_iff]
      exact List.forall_mem_map.mpr ih

/-- The tokens of the source text spell what is read again. -/
theorem tokenize_source [Host H] (h : Derives tokens e) :
    Derives (tokenize e.source) e.reread := by
  induction h with
  | @number token n h =>
      rcases h.text_cases with ⟨hfinite, htext⟩ | ⟨x, negative, rfl, hview⟩
      · rw [Datum.source, Datum.reread, Number.reread_of_isFinite hfinite,
          htext.isNumeral.tokenize_eq]
        exact .number htext
      · rw [Datum.source, Datum.reread, Number.reread, Number.text, Binary64.text, hview]
        exact derives_infinity negative
  | @symbol token hname hnumeral =>
      change Derives (tokenize token) (.symbol token)
      rw [hname.tokenize_eq]
      exact .symbol hname hnumeral
  | @combination parts h ih =>
      rw [Datum.source, Datum.reread, tokenize_enclosed, tokenize_intercalate,
        Datum.sourceAll_eq_map, Datum.rereadAll_eq_map]
      let again (part : List String × Datum H) := (tokenize part.2.source, part.2.reread)
      have hagain : ∀ part ∈ parts.map again, Derives part.1 part.2 :=
        List.forall_mem_map.mpr ih
      simpa [again, List.flatMap_map, Function.comp_def] using combination hagain

theorem nesting_reread (h : Derives tokens e) : e.reread.nesting = e.nesting := by
  induction h with
  | @number token n h =>
      rcases h.text_cases with ⟨hfinite, -⟩ | ⟨x, negative, rfl, hview⟩
      · rw [Datum.reread, Number.reread_of_isFinite hfinite]
      · rw [Datum.reread, Number.reread, hview]
        rfl
  | symbol hname hnumeral => rfl
  | combination h ih =>
      rw [Datum.reread, Datum.nesting, Datum.nesting,
        Datum.nestingAll_rereadAll (List.forall_mem_map.mpr ih)]

theorem reread_eq_self (h : Derives tokens e) (hfinite : e.isFinite = true) : e.reread = e := by
  induction h with
  | number h => exact Number.reread_of_isFinite hfinite
  | symbol hname hnumeral => rfl
  | combination h ih =>
      rw [Datum.isFinite, Datum.allFinite_iff, List.forall_mem_map] at hfinite
      rw [Datum.reread, Datum.rereadAll_eq_map, List.map_map]
      refine congrArg Datum.combination (List.map_congr_left fun part hpart => ?_)
      exact ih part hpart (hfinite part hpart)

theorem isSameNaN_eq_false (h : Derives tokens e) (d : Datum H) :
    Datum.isSameNaN d e = false := by
  cases h <;> cases d <;> rfl

/-- What is read again equals the expression exactly if its numbers are finite. -/
theorem equal_reread_iff [DecidableEq H] (h : Derives tokens e) :
    e.reread.equal e = true ↔ e.isFinite = true := by
  induction h with
  | @number token n h =>
      rcases h.text_cases with ⟨hfinite, -⟩ | ⟨x, negative, rfl, hview⟩
      · rw [Datum.reread, Number.reread_of_isFinite hfinite, Datum.isFinite]
        simp [Datum.equal, Datum.numeric?, hfinite, Number.equal_self_of_isFinite hfinite]
      · simp [Datum.reread, Number.reread, hview, Datum.equal, Datum.isFinite, Number.isFinite]
  | symbol hname hnumeral => simp [Datum.reread, Datum.equal, Datum.isFinite]
  | @combination parts h ih =>
      rw [Datum.reread, Datum.equal, Datum.isFinite]
      induction parts with
      | nil => simp [Datum.rereadAll, Datum.equalAll, Datum.allFinite]
      | cons part parts ihparts =>
          obtain ⟨hpart, hparts⟩ := List.forall_mem_cons.mp h
          obtain ⟨ihpart, ihrest⟩ := List.forall_mem_cons.mp ih
          simp only [List.map_cons, Datum.rereadAll, Datum.equalAll, Datum.allFinite,
            hpart.isSameNaN_eq_false, Bool.false_or, Bool.and_eq_true, ihpart,
            ihparts hparts ihrest]

end Derives

/--
The law of writing and reading, with its exact condition.  An expression that was
read can be written, and its text is read within the same depth.  What is read
then is the expression itself if its numbers are finite, and only then equal to
it: an infinity, which a decimal too large for a double denotes, comes back as a
symbol.
-/
theorem source_rereads_iff_isFinite [Host H] [DecidableEq H] {depth : Nat} {source : String}
    {e : Datum H} (h : parse depth source = .ok e) :
    ∃ text, e.source? = .ok text ∧ parse depth text = .ok e.reread ∧
      (e.isFinite = true -> e.reread = e) ∧ (e.reread.equal e = true ↔ e.isFinite = true) := by
  obtain ⟨hderives, hdepth⟩ := derives_of_parse h
  refine ⟨e.source, if_pos hderives.isWritable, ?_, hderives.reread_eq_self,
    hderives.equal_reread_iff⟩
  refine parse_of_derives hderives.tokenize_source ?_
  rwa [hderives.nesting_reread]

theorem padded_numerals_reread :
    let e : Datum Builtin := .combination
      [.symbol "f", .number (.float (Binary64.ofRatio true 10 100)), .number (.int 7)]
    parse 2 "(f -0.10 007)" = .ok e ∧ e.isFinite = true ∧ e.source = "(f -0.1 7)" ∧
      ∃ text, e.source? = .ok text ∧ parse 2 text = .ok e := by
  intro e
  have hread : parse 2 "(f -0.10 007)" = .ok e := rfl
  have hfinite : e.isFinite = true := by decide +kernel
  obtain ⟨text, htext, hreread, hself, -⟩ := source_rereads_iff_isFinite hread
  rw [hself hfinite] at hreread
  exact ⟨hread, hfinite, by decide +kernel, text, htext, hreread⟩

def overflowing : String :=
  String.ofList ('1' :: (Decimal.zeros 400 ++ ['.', '0']))

theorem overflowing_becomes_symbol :
    ∃ e : Datum Builtin, parse 1 overflowing = .ok e ∧ e.source? = .ok "inf" ∧
      parse 1 "inf" = .ok (.symbol "inf" : Datum Builtin) ∧
      (Datum.symbol "inf").equal e = false := by
  have hwhole : IsDigits ('1' :: Decimal.zeros 400) :=
    ⟨List.cons_ne_nil _ _, List.forall_mem_cons.mpr ⟨by decide, fun c => isDigit_of_mem_zeros⟩⟩
  have hdenotes := Denotes.decimal false hwhole (show IsDigits ['0'] by simp [IsDigits])
  have hchars : signChars false ++ ('1' :: Decimal.zeros 400 ++ '.' :: ['0']) =
      overflowing.toList := by
    rw [overflowing, String.toList_ofList]
    rfl
  rw [hchars] at hdenotes
  have hview : Binary64.view (Binary64.ofRatio false
      (spelled ('1' :: Decimal.zeros 400 ++ ['0'])) (10 ^ ['0'].length)) = .infinite false := by
    rw [Binary64.view_ofRatio false _ (by decide)]
    exact if_neg (by decide +kernel)
  generalize Binary64.ofRatio false (spelled ('1' :: Decimal.zeros 400 ++ ['0']))
    (10 ^ ['0'].length) = x at hdenotes hview
  refine ⟨.number (.float x), ?_, ?_, rfl, rfl⟩
  · refine parse_of_derives ?_ (Nat.le_refl 1)
    rw [hdenotes.isNumeral.tokenize_eq]
    exact .number hdenotes
  · simp [Datum.source?, Datum.isWritable, Number.isWritable, Datum.source, Number.text,
      Binary64.text, hview]

end Reckoner
