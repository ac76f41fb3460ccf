import Reckoner.Proofs.Reading.Defects
import Reckoner.Proofs.Reading.Streams

/-!
# Cursors

A cursor may be used further after a failed reading, so where a reading leaves it matters
in every case.  A reading that succeeds takes exactly the tokens of its expression; one
that runs out of tokens leaves none; and one that is refused stops behind the first token
that cannot come next.  What lies behind that position has no part in the outcome.
-/

namespace Reckoner

variable {H : Type}

namespace Reader

/--
A reading fails at the end of the tokens, or at the token it took last.

In the second case the tokens before that one only left it wanting more, and with that
one it fails whether or not any follow.
-/
theorem resume_error_cases {depth : Nat} {stack : Stack H} {tokens rest : List String}
    {failure : Failure} (h : resume depth stack tokens = ⟨.error failure, rest⟩) :
    failure = .endOfInput ∧ rest = [] ∨
      ∃ used token, tokens = used ++ token :: rest ∧
        (failure = .depthExceeded ∨ Refuses token failure) ∧
        resume depth stack used = ⟨.error .endOfInput, []⟩ ∧
        resume depth stack (used ++ [token]) = ⟨.error failure, []⟩ := by
  -- What a token adds to the stack is known from its step, so the stack is general here.
  induction tokens generalizing stack with
  | nil =>
      cases h
      exact .inl ⟨rfl, rfl⟩
  | cons token tokens ih =>
      rw [resume_cons] at h
      cases hstep : step depth token stack with
      | finished value =>
          rw [hstep] at h
          cases h
      | failed reason =>
          have hreason := (step_failed_cases hstep).imp_right And.left
          rw [hstep] at h
          cases h
          refine .inr ⟨[], token, rfl, hreason, rfl, ?_⟩
          rw [List.nil_append, resume_cons, hstep]
          rfl
      | more next =>
          rw [hstep] at h
          rcases ih h with hended | ⟨used, last, htokens, hreason, hbefore, hat⟩
          · exact .inl hended
          · refine .inr ⟨token :: used, last, by rw [htokens, List.cons_append], hreason, ?_, ?_⟩
            · rw [resume_cons, hstep]
              exact hbefore
            · rw [List.cons_append, resume_cons, hstep]
              exact hat

theorem reports_of_read {depth : Nat} {tokens rest : List String} {failure : Failure}
    (h : (read depth tokens : Reading H) = ⟨.error failure, rest⟩) : Reports H tokens failure := by
  have hreports : Reports H ([] ++ tokens) failure :=
    reports_of_resume .nil trivial (congrArg Reading.outcome h)
  rwa [List.nil_append] at hreports

/-- Tokens that leave a reading wanting more begin an expression. -/
theorem viable_of_read {depth : Nat} {tokens : List String}
    (h : (read depth tokens : Reading H) = ⟨.error .endOfInput, []⟩) : Viable H tokens := by
  cases reports_of_read h with
  | endOfInput hstands => exact hstands.viable_iff.mpr rfl
  | refused _ hrefuses => cases hrefuses

/-- The token that a reading is refused at is the first that cannot come next. -/
theorem stray_of_refused {depth : Nat} {used rest : List String} {token : String}
    {failure : Failure} (hrefuses : Refuses token failure)
    (hbefore : (read depth used : Reading H) = ⟨.error .endOfInput, []⟩)
    (hat : (read depth (used ++ [token]) : Reading H) = ⟨.error failure, []⟩) :
    Stands H (used ++ token :: rest) (.stray used token) := by
  cases reports_of_read hat with
  | depthExceeded => cases hrefuses
  | endOfInput _ => cases hrefuses
  | refused hstands _ =>
      refine .stray rfl (viable_of_read hbefore) ?_ ?_
      · rw [hstands.derivable_iff]
        exact Standing.noConfusion
      · rw [hstands.viable_iff]
        exact Standing.noConfusion

end Reader

theorem Derives.ne_nil {tokens : List String} {e : Datum H} (h : Derives tokens e) :
    tokens ≠ [] := by
  cases h with
  | number _ => exact List.cons_ne_nil _ _
  | symbol _ _ => exact List.cons_ne_nil _ _
  | combination _ => exact List.cons_ne_nil _ _

/-! ## Positions -/

namespace Cursor

section

variable {cursor : Cursor} {used rest : List String}

theorem position_skip_le (h : cursor.remaining = used ++ rest) (hne : used ≠ []) :
    cursor.position < (cursor.skip used.length).position ∧
      (cursor.skip used.length).position ≤ cursor.tokens.length := by
  have hlength := congrArg List.length h
  have hpos := List.length_pos_of_ne_nil hne
  rw [remaining, List.length_drop, List.length_append] at hlength
  rw [skip]
  dsimp only
  omega

theorem extract_skip (h : cursor.remaining = used ++ rest) :
    cursor.tokens.extract cursor.position (cursor.skip used.length).position = used := by
  rw [List.extract_eq_take_drop]
  change cursor.remaining.take (cursor.position + used.length - cursor.position) = used
  rw [Nat.add_sub_cancel_left, h, List.take_left]

theorem getElem?_skip {token : String} (h : cursor.remaining = used ++ token :: rest) :
    cursor.tokens[(cursor.skip used.length).position]? = some token := by
  have hget : cursor.remaining[used.length]? = some token := by
    rw [h, List.getElem?_append_right (Nat.le_refl _), Nat.sub_self]
    rfl
  rwa [remaining, List.getElem?_drop] at hget

/-- The cursor goes on by as many tokens as are not left. -/
theorem read_of_rest {depth : Nat} {outcome : Except Failure (Datum H)}
    (h : cursor.remaining = used ++ rest)
    (hread : Reader.read depth cursor.remaining = ⟨outcome, rest⟩) :
    cursor.read depth = (outcome, cursor.skip used.length) := by
  have hlength : cursor.remaining.length - rest.length = used.length := by
    rw [h, List.length_append, Nat.add_sub_cancel]
  simp only [read, hread, hlength, skip]

end

/-- Where reading succeeds, it takes the tokens of the expression. -/
theorem derives_of_read {depth : Nat} {cursor : Cursor} {e : Datum H}
    (h : (cursor.read depth).1 = .ok e) :
    ∃ used rest, cursor.remaining = used ++ rest ∧ Derives used e ∧ e.nesting ≤ depth ∧
      (cursor.read (H := H) depth).2 = cursor.skip used.length := by
  obtain ⟨used, hremaining, hderives, hdepth⟩ := Reader.derives_of_read h
  refine ⟨used, _, hremaining, hderives, hdepth, ?_⟩
  rw [read_of_derives hremaining hderives hdepth]

/-- Where reading fails, it has taken all tokens or stands behind the token that was refused. -/
theorem read_error_cases {depth : Nat} {cursor : Cursor} {failure : Failure}
    (h : (cursor.read (H := H) depth).1 = .error failure) (hdepth : failure ≠ .depthExceeded) :
    failure = .endOfInput ∧
        (cursor.read (H := H) depth).2 = cursor.skip cursor.remaining.length ∨
      ∃ used token rest, cursor.remaining = used ++ token :: rest ∧ Reader.Refuses token failure ∧
        Stands H cursor.remaining (.stray used token) ∧
        (cursor.read (H := H) depth).2 = cursor.skip (used ++ [token]).length := by
  have hread : Reader.read depth cursor.remaining =
      (⟨.error failure, (Reader.read depth cursor.remaining : Reader.Reading H).rest⟩ :
        Reader.Reading H) := by
    rw [← h]
    rfl
  rcases Reader.resume_error_cases hread with
    ⟨rfl, hrest⟩ | ⟨used, token, htokens, hreason, hbefore, hat⟩
  · refine .inl ⟨rfl, ?_⟩
    rw [hrest] at hread
    rw [read_of_rest (List.append_nil _).symm hread]
  · have hrefuses := hreason.resolve_left hdepth
    refine .inr ⟨used, token, _, htokens, hrefuses, ?_, ?_⟩
    · rw [htokens]
      exact Reader.stray_of_refused hrefuses hbefore hat
    · rw [List.append_cons] at htokens
      rw [read_of_rest htokens hread]

/-! ## Using a cursor further -/

/-- The same tokens, and a position that has not gone back nor past the end. -/
structure Onward (cursor after : Cursor) : Prop where
  tokens_eq : after.tokens = cursor.tokens
  position_le : cursor.position ≤ after.position
  le_max : after.position ≤ max cursor.position cursor.tokens.length

namespace Onward

theorem refl (cursor : Cursor) : cursor.Onward cursor :=
  ⟨rfl, Nat.le_refl _, Nat.le_max_left _ _⟩

theorem trans {first second third : Cursor} (h : first.Onward second) (h' : second.Onward third) :
    first.Onward third := by
  have hmax := h'.le_max
  rw [h.tokens_eq] at hmax
  refine ⟨h'.tokens_eq.trans h.tokens_eq, Nat.le_trans h.position_le h'.position_le, ?_⟩
  have hmax' := h.le_max
  omega

theorem skip {cursor : Cursor} {count : Nat} (h : count ≤ cursor.remaining.length) :
    cursor.Onward (cursor.skip count) := by
  rw [remaining, List.length_drop] at h
  refine ⟨rfl, Nat.le_add_right _ _, ?_⟩
  rw [Cursor.skip]
  dsimp only
  omega

end Onward

theorem onward_read (depth : Nat) (cursor : Cursor) :
    cursor.Onward (cursor.read (H := H) depth).2 :=
  .skip (Nat.sub_le _ _)

theorem onward_advance (cursor : Cursor) : cursor.Onward cursor.advance.2 := by
  unfold advance
  split
  · rename_i token htoken
    have hlt : cursor.position < cursor.tokens.length := (List.getElem?_eq_some_iff.mp htoken).1
    have hleft : 1 ≤ cursor.remaining.length := by
      rw [remaining, List.length_drop]
      omega
    exact .skip hleft
  · exact .refl cursor

inductive Request where
  | read (depth : Nat)
  | advance
  | peek
  | exhausted

inductive Answer (H : Type) where
  | expression (outcome : Except Failure (Datum H))
  | token (outcome : Except Failure String)
  | next (token : Option String)
  | flag (exhausted : Bool)

def answer (cursor : Cursor) : Request -> Answer H × Cursor
  | .read depth => (.expression (cursor.read depth).1, (cursor.read (H := H) depth).2)
  | .advance => (.token cursor.advance.1, cursor.advance.2)
  | .peek => (.next cursor.peek?, cursor)
  | .exhausted => (.flag cursor.isExhausted, cursor)

def afterAll (H : Type) (cursor : Cursor) (requests : List Request) : Cursor :=
  requests.foldl (fun cursor request => (cursor.answer (H := H) request).2) cursor

theorem onward_answer (cursor : Cursor) (request : Request) :
    cursor.Onward (cursor.answer (H := H) request).2 := by
  cases request with
  | read depth => exact onward_read depth cursor
  | advance => exact onward_advance cursor
  | peek => exact .refl cursor
  | exhausted => exact .refl cursor

theorem onward_afterAll (cursor : Cursor) (requests : List Request) :
    cursor.Onward (cursor.afterAll H requests) := by
  induction requests generalizing cursor with
  | nil => exact .refl cursor
  | cons request requests ih => exact (onward_answer (H := H) cursor request).trans (ih _)

/-- Looking ahead does not move a cursor. -/
theorem afterAll_of_looks {requests : List Request}
    (h : ∀ request ∈ requests, request = .peek ∨ request = .exhausted) (cursor : Cursor) :
    cursor.afterAll H requests = cursor := by
  induction requests with
  | nil => rfl
  | cons request requests ih =>
      obtain ⟨hfirst, hrest⟩ := List.forall_mem_cons.mp h
      rcases hfirst with rfl | rfl
      · exact ih hrest
      · exact ih hrest

end Cursor

/-! ## Discipline -/

namespace Cursor

/-- From the tokens of an expression alone the expression is read, and none is left. -/
theorem read_alone {depth : Nat} {used : List String} {e : Datum H} (h : Derives used e)
    (hdepth : e.nesting ≤ depth) :
    ((ofTokens used).read depth).1 = .ok e ∧
      ((ofTokens used).read (H := H) depth).2.isExhausted = true := by
  have hremaining : (ofTokens used).remaining = used ++ [] := by
    rw [remaining_ofTokens, List.append_nil]
  rw [read_of_derives hremaining h hdepth, isExhausted_iff]
  exact ⟨rfl, remaining_skip hremaining⟩

/-- No expression is read from a proper beginning of another one's tokens. -/
theorem read_ne_ok_of_beginning {used part : List String} {e : Datum H} (h : Derives used e)
    (hpart : part <+: used) (hne : part ≠ used) (bound : Nat) (other : Datum H) :
    ((ofTokens part).read bound).1 ≠ .ok other := by
  intro hread
  obtain ⟨first, surplus, hremaining, hfirst, -⟩ := derives_of_read hread
  rw [remaining_ofTokens] at hremaining
  subst hremaining
  obtain ⟨more, rfl⟩ := hpart
  rw [List.append_assoc] at h
  have hnil := hfirst.eq_nil_of_append h
  rw [(List.append_eq_nil_iff.mp hnil).2, List.append_nil] at hne
  exact hne rfl

end Cursor

/--
Reading from a cursor takes the tokens between two positions and depends on no others.

Where it gives an expression, these are at least one and lie within the list; wherever
they come next, also in a list of them alone, the same expression is read and the cursor
moves behind them; and from no proper beginning of them is any expression read.  Where it
fails, but not for want of depth, it ends for want of tokens, with none left, or it is
refused right behind the first token that cannot come next, and reports which.  For want
of depth it does not fail if it has as many as there are tokens left.  Whatever is asked
of a cursor, its list of tokens stays as it is and its position goes neither back nor past
the end; and looking ahead does not move it.
-/
theorem read_moves_cursor (depth : Nat) (cursor : Cursor) :
    let outcome : Except Failure (Datum H) := (cursor.read depth).1
    let start := cursor.position
    let stop := (cursor.read (H := H) depth).2.position
    let used := cursor.tokens.extract start stop
    (∀ e, outcome = .ok e ->
      (start < stop ∧ stop ≤ cursor.tokens.length) ∧
      (∀ (other : Cursor) (bound : Nat), used <+: other.remaining -> depth ≤ bound ->
        other.read bound = (.ok e, other.skip used.length)) ∧
      (((Cursor.ofTokens used).read depth).1 = .ok e ∧
        ((Cursor.ofTokens used).read (H := H) depth).2.isExhausted = true) ∧
      (∀ part, part <+: used -> part ≠ used ->
        ∀ (bound : Nat) (other : Datum H), ((Cursor.ofTokens part).read bound).1 ≠ .ok other)) ∧
    (∀ failure, outcome = .error failure -> failure ≠ .depthExceeded ->
      failure = .endOfInput ∧ RefusedWith "unexpected end of input" outcome ∧
        stop = max start cursor.tokens.length ∨
      ∃ token, let stray := Standing.stray (cursor.tokens.extract start (stop - 1)) token
        Reader.Refuses token failure ∧ stray.Answers cursor.remaining outcome ∧
        (start < stop ∧ stop ≤ cursor.tokens.length) ∧ cursor.tokens[stop - 1]? = some token ∧
        Stands H cursor.remaining stray) ∧
    (cursor.remaining.length ≤ depth -> outcome ≠ .error .depthExceeded) ∧
    (∀ requests, cursor.Onward (cursor.afterAll H requests)) ∧
    (∀ requests, (∀ request ∈ requests, request = .peek ∨ request = .exhausted) ->
      cursor.afterAll H requests = cursor) := by
  dsimp only
  refine ⟨fun e he => ?_, fun failure hfailure hdepth => ?_, fun hroom => ?_,
    cursor.onward_afterAll, fun requests hlooks => Cursor.afterAll_of_looks hlooks cursor⟩
  · obtain ⟨used, rest, hremaining, hderives, hdepth, hafter⟩ := Cursor.derives_of_read he
    rw [hafter, Cursor.extract_skip hremaining]
    refine ⟨Cursor.position_skip_le hremaining hderives.ne_nil, ?_,
      Cursor.read_alone hderives hdepth, fun part => Cursor.read_ne_ok_of_beginning hderives⟩
    rintro other bound ⟨behind, hother⟩ hbound
    exact Cursor.read_of_derives hother.symm hderives (Nat.le_trans hdepth hbound)
  · rcases Cursor.read_error_cases hfailure hdepth with
      ⟨rfl, hafter⟩ | ⟨used, token, rest, hremaining, hrefuses, hstands, hafter⟩
    · refine .inl ⟨rfl, ⟨_, hfailure, rfl, rfl⟩, ?_⟩
      rw [hafter, Cursor.skip, Cursor.remaining, List.length_drop]
      dsimp only
      omega
    · -- The refused token is the last one taken, so it stands one before the cursor.
      have htaken := hremaining
      rw [List.append_cons] at htaken
      have hbounds := Cursor.position_skip_le htaken (by simp)
      have hlast : (cursor.skip (used ++ [token]).length).position - 1 =
          (cursor.skip used.length).position := by
        simp [Cursor.skip]
      rw [hafter, hlast, Cursor.extract_skip hremaining, hfailure]
      exact .inr ⟨token, hrefuses, hrefuses.answers, hbounds, Cursor.getElem?_skip hremaining,
        hstands⟩
  · exact Reader.resume_ne_depthExceeded (by simpa using hroom)

/-- A combination that a token ends which no text has: reading stops behind it. -/
example : Cursor.read (H := Builtin) 4 ⟨["y", "(", "x", "x\n", ")", "z"], 1⟩ =
    (.error (.unexpectedToken "x\n"), ⟨["y", "(", "x", "x\n", ")", "z"], 4⟩) :=
  rfl

end Reckoner
