import Reckoner.Proofs.Reading.Grammar
import Reckoner.Reader

/-!
# Acceptance

The reader accepts exactly the token lists of the grammar, and reads each as the
one expression it spells.  Forwards, the tokens of an expression hand the
expression to the stack.  Backwards, the tokens consumed so far always spell the
stack: for each open combination a parenthesis and the items read for it.
-/

namespace Reckoner

namespace Datum

variable {H : Type}

mutual

/-- How deep combinations are nested; an atom and an empty combination count one. -/
def nesting : Datum H -> Nat
  | .combination items => 1 + nestingAll items
  | _ => 1

def nestingAll : List (Datum H) -> Nat
  | [] => 0
  | item :: rest => max (nesting item) (nestingAll rest)

end

theorem nestingAll_le_iff {items : List (Datum H)} {bound : Nat} :
    nestingAll items ≤ bound ↔ ∀ item ∈ items, item.nesting ≤ bound := by
  induction items with
  | nil => simp [nestingAll]
  | cons item rest ih => simp [nestingAll, ih]

theorem nesting_le_nestingAll {items : List (Datum H)} {item : Datum H} (h : item ∈ items) :
    item.nesting ≤ nestingAll items :=
  nestingAll_le_iff.mp (Nat.le_refl _) item h

theorem nestingAll_reverse (items : List (Datum H)) :
    nestingAll items.reverse = nestingAll items :=
  eq_of_forall_ge_iff fun bound => by simp [nestingAll_le_iff]

end Datum

namespace Reader

variable {H : Type}

def proceed (depth : Nat) (rest : List String) : Step H -> Reading H
  | .finished value => ⟨.ok value, rest⟩
  | .failed failure => ⟨.error failure, rest⟩
  | .more stack => resume depth stack rest

theorem resume_cons (depth : Nat) (stack : Stack H) (token : String) (rest : List String) :
    resume depth stack (token :: rest) = proceed depth rest (step depth token stack) := by
  rw [resume]
  cases step depth token stack <;> rfl

/-! ## The tokens of an expression -/

theorem step_eq_start {depth : Nat} {token : String} {stack : Stack H}
    (hdepth : stack.length < depth) (htoken : Lexeme.ofToken token ≠ .closing) :
    step depth token stack = start token stack := by
  cases stack with
  | nil => exact if_neg (Nat.ne_of_gt hdepth)
  | cons items outer =>
      have hname : ¬ (token == ")") = true := by
        rw [beq_iff_eq]
        rintro rfl
        exact htoken (by decide)
      rw [step, if_neg hname, if_neg (Nat.not_le.mpr hdepth)]

theorem step_closing (depth : Nat) (items : List (Datum H)) (outer : Stack H) :
    step depth ")" (items :: outer) = deliver (.combination items.reverse) outer := by
  simp [step]

/-- The tokens of items hand the items to the combination that is open. -/
theorem resume_parts {depth : Nat} {outer : Stack H} {parts : List (List String × Datum H)}
    (h : ∀ part ∈ parts, ∀ (items : List (Datum H)) (rest : List String),
      resume depth (items :: outer) (part.1 ++ rest) =
        resume depth ((part.2 :: items) :: outer) rest)
    (items : List (Datum H)) (rest : List String) :
    resume depth (items :: outer) (parts.flatMap Prod.fst ++ rest) =
      resume depth (((parts.map Prod.snd).reverse ++ items) :: outer) rest := by
  induction parts generalizing items with
  | nil => rfl
  | cons part parts ih =>
      rw [List.flatMap_cons, List.append_assoc, h part List.mem_cons_self,
        ih (fun part hpart => h part (List.mem_cons_of_mem _ hpart))]
      simp

/-- The tokens of an expression hand it to the stack, whatever follows them. -/
theorem resume_of_derives {depth : Nat} {tokens : List String} {value : Datum H}
    (h : Derives tokens value) {stack : Stack H} (hdepth : stack.length + value.nesting ≤ depth)
    (rest : List String) :
    resume depth stack (tokens ++ rest) = proceed depth rest (deliver value stack) := by
  induction h generalizing stack rest with
  | number h =>
      have htoken := Lexeme.ofToken_eq_literal_iff.mpr h
      rw [List.singleton_append, resume_cons, step_eq_start hdepth (by simp [htoken]), start,
        htoken]
  | symbol hname hnumeral =>
      have htoken := Lexeme.ofToken_eq_name_iff.mpr ⟨rfl, hname, hnumeral⟩
      rw [List.singleton_append, resume_cons, step_eq_start hdepth (by simp [htoken]), start,
        htoken]
  | @combination parts h ih =>
      have hopening := Lexeme.ofToken_eq_opening_iff.mpr rfl
      have hroom : stack.length < depth := by
        simp only [Datum.nesting] at hdepth
        omega
      have hparts : ∀ part ∈ parts, stack.length + 1 + part.2.nesting ≤ depth := by
        intro part hpart
        have hitem : part.2.nesting ≤ Datum.nestingAll (parts.map Prod.snd) :=
          Datum.nesting_le_nestingAll (List.mem_map_of_mem hpart)
        simp only [Datum.nesting] at hdepth
        omega
      rw [List.cons_append, resume_cons, step_eq_start hroom (by simp [hopening]), start, hopening]
      change resume depth ([] :: stack) (_ ++ [")"] ++ rest) = _
      rw [List.append_assoc, resume_parts, List.singleton_append, resume_cons]
      · rw [List.append_nil, step_closing, List.reverse_reverse]
      · intro part hpart items rest
        have hinside : (items :: stack).length + part.2.nesting ≤ depth := hparts part hpart
        exact ih part hpart hinside rest

/-! ## The tokens consumed so far -/

/-- The tokens that spell open combinations, outermost first. -/
inductive Opens : List String -> Stack H -> Prop where
  | nil : Opens [] []
  | cons {tokens : List String} {outer : Stack H} {parts : List (List String × Datum H)}
      (houter : Opens tokens outer) (h : ∀ part ∈ parts, Derives part.1 part.2) :
      Opens (tokens ++ "(" :: parts.flatMap Prod.fst) ((parts.map Prod.snd).reverse :: outer)

/-- The items of open combinations leave room for the nesting around them. -/
def Fits (depth : Nat) : Stack H -> Prop
  | [] => True
  | items :: outer => outer.length + 1 + Datum.nestingAll items ≤ depth ∧ Fits depth outer

/-- What a step leads to accounts for all tokens consumed. -/
def Step.Accounts (depth : Nat) (consumed : List String) : Step H -> Prop
  | .finished value => Derives consumed value ∧ value.nesting ≤ depth
  | .failed _ => True
  | .more stack => Opens consumed stack ∧ Fits depth stack

theorem deliver_accounts {depth : Nat} {consumed tokens : List String} {stack : Stack H}
    {value : Datum H} (hstack : Opens consumed stack) (hfits : Fits depth stack)
    (h : Derives tokens value) (hdepth : stack.length + value.nesting ≤ depth) :
    (deliver value stack).Accounts depth (consumed ++ tokens) := by
  cases hstack with
  | nil => exact ⟨h, by simpa using hdepth⟩
  | @cons before outer parts houter hparts =>
      have hopens := Opens.cons houter (List.forall_mem_append.mpr
        ⟨hparts, List.forall_mem_singleton.mpr (show Derives (tokens, value).1 _ from h)⟩)
      obtain ⟨hitems, hrest⟩ := hfits
      refine ⟨by simpa using hopens, ?_, hrest⟩
      simp only [List.length_cons] at hdepth
      simp only [Datum.nestingAll]
      omega

theorem start_accounts {depth : Nat} {consumed : List String} {stack : Stack H}
    (hstack : Opens consumed stack) (hfits : Fits depth stack) (hdepth : stack.length < depth)
    (token : String) : (start token stack).Accounts depth (consumed ++ [token]) := by
  unfold start
  split
  · rename_i n hn
    exact deliver_accounts hstack hfits (.number (Lexeme.ofToken_eq_literal_iff.mp hn)) hdepth
  · trivial
  · rename_i name hname
    obtain ⟨rfl, hvalid, hnumeral⟩ := Lexeme.ofToken_eq_name_iff.mp hname
    exact deliver_accounts hstack hfits (.symbol hvalid hnumeral) hdepth
  · rename_i hopening
    rw [Lexeme.ofToken_eq_opening_iff.mp hopening]
    exact ⟨.cons hstack (List.forall_mem_nil _), hdepth, hfits⟩
  · trivial
  · trivial

theorem step_accounts {depth : Nat} {consumed : List String} {stack : Stack H}
    (hstack : Opens consumed stack) (hfits : Fits depth stack) (token : String) :
    (step depth token stack).Accounts depth (consumed ++ [token]) := by
  cases hstack with
  | nil =>
      rw [step]
      split
      · trivial
      · exact start_accounts .nil hfits (by simp; omega) token
  | @cons before outer parts houter hparts =>
      rw [step]
      split
      · rename_i hclosing
        rw [eq_of_beq hclosing, List.append_assoc, List.cons_append, List.reverse_reverse]
        refine deliver_accounts houter hfits.2 (.combination hparts) ?_
        have hitems := hfits.1
        rw [Datum.nestingAll_reverse] at hitems
        simp only [Datum.nesting]
        omega
      · split
        · trivial
        · rename_i hroom
          exact start_accounts (.cons houter hparts) hfits (by omega) token

/-- An expression that is read is spelled by the tokens consumed before and while reading. -/
theorem derives_of_resume {depth : Nat} {consumed tokens : List String} {stack : Stack H}
    {value : Datum H} (hstack : Opens consumed stack) (hfits : Fits depth stack)
    (h : (resume depth stack tokens).outcome = .ok value) :
    ∃ used, tokens = used ++ (resume depth stack tokens).rest ∧
      Derives (consumed ++ used) value ∧ value.nesting ≤ depth := by
  induction tokens generalizing consumed stack with
  | nil => cases h
  | cons token tokens ih =>
      have hstep := step_accounts hstack hfits token
      rw [resume_cons] at h ⊢
      cases hresult : step depth token stack with
      | finished result =>
          rw [hresult] at h hstep
          cases h
          exact ⟨[token], rfl, hstep⟩
      | failed failure =>
          rw [hresult] at h
          cases h
      | more next =>
          rw [hresult] at h hstep
          obtain ⟨used, htokens, hderives⟩ := ih hstep.1 hstep.2 h
          refine ⟨token :: used, congrArg (List.cons token) htokens, ?_⟩
          simpa using hderives

/-- An expression is read from exactly its own tokens, and what follows them is left. -/
theorem read_of_derives {depth : Nat} {tokens : List String} {value : Datum H}
    (h : Derives tokens value) (hdepth : value.nesting ≤ depth) (rest : List String) :
    read depth (tokens ++ rest) = ⟨.ok value, rest⟩ := by
  have hroom : ([] : Stack H).length + value.nesting ≤ depth := by simpa using hdepth
  exact resume_of_derives h hroom rest

theorem derives_of_read {depth : Nat} {tokens : List String} {value : Datum H}
    (h : (read depth tokens : Reading H).outcome = .ok value) :
    ∃ used, tokens = used ++ (read depth tokens : Reading H).rest ∧
      Derives used value ∧ value.nesting ≤ depth :=
  derives_of_resume .nil trivial h

end Reader

variable {H : Type}

theorem parse_of_derives {depth : Nat} {source : String} {e : Datum H}
    (h : Derives (tokenize source) e) (hdepth : e.nesting ≤ depth) :
    parse depth source = .ok e := by
  have hread := Reader.read_of_derives h hdepth []
  rw [List.append_nil] at hread
  simp [parse, hread]

theorem derives_of_parse {depth : Nat} {source : String} {e : Datum H}
    (h : parse depth source = .ok e) : Derives (tokenize source) e ∧ e.nesting ≤ depth := by
  unfold parse at h
  dsimp only at h
  split at h
  · cases h
  · rename_i value hvalue
    split at h
    · rename_i hrest
      cases h
      obtain ⟨used, htokens, hderives⟩ := Reader.derives_of_read hvalue
      rw [List.isEmpty_iff.mp hrest, List.append_nil] at htokens
      rwa [htokens]
    · cases h

/-- The expressions that one token list spells are equal: reading it finds both. -/
theorem Derives.unique {tokens : List String} {a b : Datum H} (ha : Derives tokens a)
    (hb : Derives tokens b) : a = b := by
  have hreada := Reader.read_of_derives ha (Nat.le_max_left a.nesting b.nesting) []
  have hreadb := Reader.read_of_derives hb (Nat.le_max_right a.nesting b.nesting) []
  rw [hreada] at hreadb
  simpa using hreadb

/--
Reading accepts exactly the grammar: a text is read as an expression if and only
if its tokens spell it and it is not nested too deep.  And the grammar is
unambiguous.
-/
theorem parse_accepts_grammar :
    (∀ (depth : Nat) (source : String) (e : Datum H),
      parse depth source = .ok e ↔ Derives (tokenize source) e ∧ e.nesting ≤ depth) ∧
    (∀ (tokens : List String) (a b : Datum H),
      Derives tokens a -> Derives tokens b -> a = b) := by
  refine ⟨?_, ?_⟩
  · intro depth source e
    exact ⟨derives_of_parse, fun h => parse_of_derives h.1 h.2⟩
  · intro tokens a b ha hb
    exact ha.unique hb

end Reckoner
