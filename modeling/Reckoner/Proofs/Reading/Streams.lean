import Reckoner.Proofs.Reading.RoundTrip

/-!
# Streams of expressions

The source texts of expressions delimit themselves: written one after the other with
blanks between them, they are read back one by one from a cursor over the tokens,
whatever the blanks are, and then no token is left.
-/

namespace Reckoner

variable {H : Type}

/-! ## Expressions that can be read back -/

/-- Expressions of integers that can be written, finite doubles and symbols. -/
inductive Datum.Readable : Datum H -> Prop where
  | int {n : Int} (h : (Nat.toDigits 10 n.natAbs).length ≤ 4300) : Readable (.number (.int n))
  | float {x : Float} (h : (Number.float x).isFinite = true) : Readable (.number (.float x))
  | symbol {name : String} (hname : IsName name.toList) (hnumeral : ¬ IsNumeral name.toList) :
      Readable (.symbol name)
  | combination {items : List (Datum H)} (h : ∀ item ∈ items, Readable item) :
      Readable (.combination items)

theorem Denotes.derives_text {n : Number} (h : Denotes (n.text .source).toList n) :
    Derives (tokenize (n.text .source)) (.number n : Datum H) := by
  rw [h.isNumeral.tokenize_eq]
  exact .number h

theorem Number.denotes_text_of_isFinite {x : Float} (h : (float x).isFinite = true) :
    Denotes (text .source (.float x)).toList (.float x) := by
  obtain ⟨negative, quanta, hview⟩ := exists_view_of_isFinite h
  obtain ⟨rfl, hlimit, hquanta⟩ := Binary64.eq_ofQuanta_of_view hview
  exact denotes_text_float negative hlimit hquanta

theorem Datum.Readable.derives [Host H] {e : Datum H} (h : e.Readable) :
    Derives (tokenize e.source) e := by
  induction h with
  | int h =>
      have hsmall := (length_toDigits_le (by decide)).mp h
      exact (Number.denotes_text_int hsmall).derives_text
  | float h => exact (Number.denotes_text_of_isFinite h).derives_text
  | @symbol name hname hnumeral =>
      change Derives (tokenize name) (.symbol name)
      rw [hname.tokenize_eq]
      exact .symbol hname hnumeral
  | @combination items h ih =>
      have hparts : ∀ part ∈ items.map fun item => (tokenize item.source, item),
          Derives part.1 part.2 := by
        rw [List.forall_mem_map]
        simpa only using ih
      rw [Datum.source, tokenize_enclosed, tokenize_intercalate, Datum.sourceAll_eq_map]
      simpa [List.flatMap_map, Function.comp_def] using Derives.combination hparts

/-! ## Texts of several expressions -/

/-- The source texts of expressions, each with the gap that follows it. -/
def Datum.spread [Host H] : List (Datum H × String) -> String
  | [] => ""
  | (e, gap) :: rest => e.source ++ gap ++ spread rest

/-- The gaps between expressions are not empty; the last expression may end the text. -/
theorem tokenize_spread [Host H] {pieces : List (Datum H × String)}
    (hgaps : ∀ piece ∈ pieces, IsGap piece.2) (hbetween : ∀ piece ∈ pieces.dropLast, piece.2 ≠ "") :
    tokenize (Datum.spread pieces) = pieces.flatMap fun piece => tokenize piece.1.source := by
  induction pieces with
  | nil => exact show tokenize "" = [] by decide
  | cons piece rest ih =>
      obtain ⟨hgap, hrest⟩ := List.forall_mem_cons.mp hgaps
      rw [Datum.spread, List.flatMap_cons]
      by_cases hempty : piece.2 = ""
      · -- Only the last piece has no gap after it.
        have hlast : rest = [] := by
          cases rest with
          | nil => rfl
          | cons next rest => exact absurd hempty (hbetween piece (by simp))
        simp [hlast, hempty, Datum.spread]
      · have hbetween' : ∀ next ∈ rest.dropLast, next.2 ≠ "" := by
          intro next hmem
          refine hbetween next ?_
          cases rest with
          | nil => cases hmem
          | cons _ _ => exact List.mem_cons_of_mem piece hmem
        rw [tokenize_append_gap hempty hgap, ih hrest hbetween']

/-! ## Reading from a cursor -/

namespace Cursor

theorem isExhausted_iff (cursor : Cursor) :
    cursor.isExhausted = true ↔ cursor.remaining = [] := by
  rw [isExhausted, decide_eq_true_eq, remaining, List.drop_eq_nil_iff]

theorem remaining_ofTokens (tokens : List String) : (ofTokens tokens).remaining = tokens := by
  rw [remaining, ofTokens, List.drop_zero]

def skip (cursor : Cursor) (count : Nat) : Cursor :=
  ⟨cursor.tokens, cursor.position + count⟩

theorem remaining_skip {cursor : Cursor} {used rest : List String}
    (h : cursor.remaining = used ++ rest) : (cursor.skip used.length).remaining = rest := by
  rw [remaining, skip, ← List.drop_drop]
  change cursor.remaining.drop used.length = rest
  rw [h, List.drop_left]

/-- Reading takes the tokens of the expression that comes next, and leaves the others. -/
theorem read_of_derives {depth : Nat} {cursor : Cursor} {used rest : List String} {e : Datum H}
    (hremaining : cursor.remaining = used ++ rest) (h : Derives used e)
    (hdepth : e.nesting ≤ depth) : cursor.read depth = (.ok e, cursor.skip used.length) := by
  simp [read, hremaining, Reader.read_of_derives h hdepth, skip]

def readMany (depth : Nat) : Nat -> Cursor -> List (Except Failure (Datum H)) × Cursor
  | 0, cursor => ([], cursor)
  | count + 1, cursor =>
      let (outcome, next) := cursor.read depth
      let (outcomes, last) := readMany depth count next
      (outcome :: outcomes, last)

theorem readMany_of_derives {depth : Nat} {cursor : Cursor} {rest : List String}
    {parts : List (List String × Datum H)}
    (hremaining : cursor.remaining = parts.flatMap Prod.fst ++ rest)
    (h : ∀ part ∈ parts, Derives part.1 part.2) (hdepth : ∀ part ∈ parts, part.2.nesting ≤ depth) :
    let run := cursor.readMany (H := H) depth parts.length
    run.1 = parts.map (fun part => .ok part.2) ∧ run.2.remaining = rest := by
  induction parts generalizing cursor with
  | nil => exact ⟨rfl, hremaining⟩
  | cons part parts ih =>
      obtain ⟨hfirst, hrest⟩ := List.forall_mem_cons.mp h
      obtain ⟨hroom, hrooms⟩ := List.forall_mem_cons.mp hdepth
      rw [List.flatMap_cons, List.append_assoc] at hremaining
      obtain ⟨houtcomes, hlast⟩ := ih (remaining_skip hremaining) hrest hrooms
      simp only [List.length_cons, readMany, read_of_derives hremaining hfirst hroom, List.map_cons]
      exact ⟨congrArg _ houtcomes, hlast⟩

end Cursor

/--
Source texts delimit themselves.  Take expressions of integers within the digit limit,
finite doubles and symbols, and write their source texts one after the other, with
blanks before, between and behind them, of which only those between must be there.
From a cursor over the tokens of that text the expressions are read back one by one,
each exactly as it was, and then the cursor is exhausted.  Reading needs the depth of
the expressions' own nesting.
-/
theorem spread_reads_back [Host H] {depth : Nat} {lead : String}
    {pieces : List (Datum H × String)} (hreadable : ∀ piece ∈ pieces, piece.1.Readable)
    (hdepth : ∀ piece ∈ pieces, piece.1.nesting ≤ depth) (hlead : IsGap lead)
    (hgaps : ∀ piece ∈ pieces, IsGap piece.2)
    (hbetween : ∀ piece ∈ pieces.dropLast, piece.2 ≠ "") :
    let cursor := Cursor.ofTokens (tokenize (lead ++ Datum.spread pieces))
    let run := cursor.readMany (H := H) depth pieces.length
    run.1 = pieces.map (fun piece => .ok piece.1) ∧ run.2.isExhausted = true ∧
      ∀ piece ∈ pieces, piece.1.source? = .ok piece.1.source := by
  dsimp only
  generalize hparts : pieces.map (fun piece => (tokenize piece.1.source, piece.1)) = parts
  have htokens : tokenize (lead ++ Datum.spread pieces) = parts.flatMap Prod.fst ++ [] := by
    rw [List.append_nil, ← hparts, List.flatMap_map, tokenize_gap_append hlead,
      tokenize_spread hgaps hbetween]
  have hderives : ∀ part ∈ parts, Derives part.1 part.2 := by
    rw [← hparts, List.forall_mem_map]
    intro piece hmem
    dsimp only
    exact (hreadable piece hmem).derives
  have hroom : ∀ part ∈ parts, part.2.nesting ≤ depth := by
    rw [← hparts, List.forall_mem_map]
    exact hdepth
  generalize tokenize (lead ++ Datum.spread pieces) = tokens at htokens ⊢
  have hread := Cursor.readMany_of_derives ((Cursor.remaining_ofTokens tokens).trans htokens)
    hderives hroom
  subst hparts
  rw [List.length_map, List.map_map] at hread
  refine ⟨hread.1, (Cursor.isExhausted_iff _).mpr hread.2, fun piece hmem => ?_⟩
  exact if_pos (hreadable piece hmem).derives.isWritable

theorem call_and_symbol_read_back :
    let zero : Datum Builtin := .number (.float (Binary64.ofQuanta true 0))
    let call : Datum Builtin := .combination [.symbol "f", zero, .combination []]
    let pieces := [(call, "\n\u3000"), (.symbol "x-1", "")]
    let run := (Cursor.ofTokens (tokenize "\t(f -0.0 ())\n\u3000x-1")).readMany (H := Builtin) 2 2
    (∀ piece ∈ pieces, piece.1.Readable) ∧ "\t" ++ Datum.spread pieces = "\t(f -0.0 ())\n\u3000x-1" ∧
      run.1 = [.ok call, .ok (.symbol "x-1")] ∧ run.2.isExhausted = true := by
  intro zero call pieces run
  have hname : ∀ name ∈ ["f", "x-1"], (Datum.symbol name : Datum Builtin).Readable := by
    intro name hmem
    have hvalid : Identifier.isValid name = true := by revert name; decide
    have hnumeral : Numeral.ofChars? name.toList = none := by revert name; decide
    exact .symbol (isValid_iff.mp hvalid) (by simp [isNumeral_iff, hnumeral])
  have hzero : zero.Readable := .float (by decide +kernel)
  have hreadable : ∀ piece ∈ pieces, piece.1.Readable := by
    simp only [pieces, List.forall_mem_cons]
    refine ⟨.combination ?_, hname _ (by simp), List.forall_mem_nil _⟩
    simp only [List.forall_mem_cons]
    exact ⟨hname _ (by simp), hzero, .combination (List.forall_mem_nil _), List.forall_mem_nil _⟩
  have htext : "\t" ++ Datum.spread pieces = "\t(f -0.0 ())\n\u3000x-1" := by decide +kernel
  have hdepth : ∀ piece ∈ pieces, piece.1.nesting ≤ 2 := by
    simp [pieces, call, zero, Datum.nesting, Datum.nestingAll]
  have hlead : IsGap "\t" := by
    simp [IsGap]
    decide
  have hgaps : ∀ piece ∈ pieces, IsGap piece.2 := by
    simp [IsGap, pieces]
    decide
  have hread := spread_reads_back hreadable hdepth hlead hgaps (by simp [pieces])
  rw [htext] at hread
  exact ⟨hreadable, htext, hread.1, hread.2.1⟩

end Reckoner
