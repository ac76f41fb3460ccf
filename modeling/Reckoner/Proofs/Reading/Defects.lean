import Reckoner.Proofs.Reading.Acceptance

/-!
# Defects of token lists

A token list that spells no expression is wrong in one of three ways.  It goes on
after an expression; it ends inside one; or there is a first token with which it
stops being the beginning of one.  Reading reports which, and the token.

No expression is the beginning of another, so these ways exclude one another.
-/

namespace Reckoner

variable {H : Type}

/-! ## Beginnings of expressions -/

def Derivable (H : Type) (tokens : List String) : Prop :=
  ∃ e : Datum H, Derives tokens e

/-- The tokens are a proper beginning of those of an expression. -/
def Viable (H : Type) (tokens : List String) : Prop :=
  ∃ more, more ≠ [] ∧ Derivable H (tokens ++ more)

def IsOverlong (text : List Char) : Prop :=
  ∃ (negative : Bool) (digits : List Char), IsDigits digits ∧ 4300 < digits.length ∧
    text = signChars negative ++ digits

inductive Standing where
  /-- It spells an expression. -/
  | whole
  /-- It goes on after an expression. -/
  | surplus
  /-- It ends inside an expression. -/
  | unfinished
  /-- It begins an expression up to a token that cannot come next. -/
  | stray (before : List String) (token : String)

/-- The standing of a token list, said by the grammar alone. -/
inductive Stands (H : Type) (tokens : List String) : Standing -> Prop where
  | whole (h : Derivable H tokens) : Stands H tokens .whole
  | surplus {first rest : List String} (htokens : tokens = first ++ rest) (hrest : rest ≠ [])
      (h : Derivable H first) : Stands H tokens .surplus
  | unfinished (h : Viable H tokens) : Stands H tokens .unfinished
  | stray {before rest : List String} {token : String} (htokens : tokens = before ++ token :: rest)
      (hbefore : Viable H before) (hderivable : ¬ Derivable H (before ++ [token]))
      (hviable : ¬ Viable H (before ++ [token])) : Stands H tokens (.stray before token)

/-- An expression goes on to no other: reading both finds where the first one ends. -/
theorem Derives.eq_nil_of_append {tokens more : List String} {a b : Datum H}
    (ha : Derives tokens a) (hb : Derives (tokens ++ more) b) : more = [] := by
  have hread := Reader.read_of_derives ha (Nat.le_max_left a.nesting b.nesting) more
  have hread' := Reader.read_of_derives hb (Nat.le_max_right a.nesting b.nesting) []
  rw [List.append_nil, hread] at hread'
  exact congrArg Reader.Reading.rest hread'

theorem Derivable.not_viable {tokens : List String} (h : Derivable H tokens) :
    ¬ Viable H tokens := by
  rintro ⟨more, hne, b, hb⟩
  obtain ⟨a, ha⟩ := h
  exact hne (ha.eq_nil_of_append hb)

theorem derivable_or_viable_of_append {tokens more : List String}
    (h : Derivable H (tokens ++ more)) : Derivable H tokens ∨ Viable H tokens := by
  cases more with
  | nil => exact .inl (by rwa [List.append_nil] at h)
  | cons token more => exact .inr ⟨token :: more, List.cons_ne_nil _ _, h⟩

theorem Viable.of_append {tokens more : List String} (h : Viable H (tokens ++ more)) :
    Viable H tokens := by
  obtain ⟨rest, hne, hderivable⟩ := h
  rw [List.append_assoc] at hderivable
  exact ⟨more ++ rest, by simp [hne], hderivable⟩

/-- Past a token that cannot come next there is no expression, however the list goes on. -/
theorem not_derivable_of_stray {before : List String} {token : String}
    (hderivable : ¬ Derivable H (before ++ [token])) (hviable : ¬ Viable H (before ++ [token]))
    (rest : List String) : ¬ Derivable H (before ++ token :: rest) := by
  intro h
  rw [List.append_cons] at h
  exact (derivable_or_viable_of_append h).elim hderivable hviable

namespace Stands

variable {tokens : List String} {standing : Standing}

theorem derivable_iff (h : Stands H tokens standing) :
    Derivable H tokens ↔ standing = .whole := by
  cases h with
  | whole h => exact ⟨fun _ => rfl, fun _ => h⟩
  | surplus htokens hrest hfirst =>
      subst htokens
      exact ⟨fun h => absurd ⟨_, hrest, h⟩ hfirst.not_viable, fun h => by cases h⟩
  | unfinished hviable => exact ⟨fun h => absurd hviable h.not_viable, fun h => by cases h⟩
  | stray htokens _ hderivable hviable =>
      subst htokens
      exact ⟨fun h => absurd h (not_derivable_of_stray hderivable hviable _), fun h => by cases h⟩

theorem viable_iff (h : Stands H tokens standing) :
    Viable H tokens ↔ standing = .unfinished := by
  cases h with
  | whole h => exact ⟨fun hviable => absurd hviable h.not_viable, fun h => by cases h⟩
  | surplus htokens _ hfirst =>
      subst htokens
      exact ⟨fun h => absurd h.of_append hfirst.not_viable, fun h => by cases h⟩
  | unfinished h => exact ⟨fun _ => rfl, fun _ => h⟩
  | stray htokens _ _ hviable =>
      subst htokens
      rw [List.append_cons]
      exact ⟨fun h => absurd h.of_append hviable, fun h => by cases h⟩

/-- A stray token does not come after an expression. -/
theorem not_derivable_before_stray {before rest first more : List String} {token : String}
    (htokens : before ++ token :: rest = first ++ more) (hbefore : Viable H before)
    (hderivable : ¬ Derivable H (before ++ [token])) (hviable : ¬ Viable H (before ++ [token])) :
    ¬ Derivable H first := by
  intro h
  rcases List.append_eq_append_iff.mp htokens with ⟨used, rfl, hused⟩ | ⟨used, rfl, -⟩
  · cases used with
    | nil => exact h.not_viable (by simpa using hbefore)
    | cons next used =>
        obtain ⟨rfl, -⟩ := List.cons_eq_cons.mp hused
        exact not_derivable_of_stray hderivable hviable used h
  · exact h.not_viable hbefore.of_append

/-- No token cannot come next before the first one that cannot. -/
theorem length_le_of_stray {before rest before' rest' : List String} {token token' : String}
    (htokens : before ++ token :: rest = before' ++ token' :: rest')
    (hviable : ¬ Viable H (before ++ [token])) (hbefore' : Viable H before') :
    before'.length ≤ before.length := by
  by_contra hlonger
  have htaken : (before ++ [token]) <+: before' := by
    refine List.prefix_of_prefix_length_le ⟨rest, ?_⟩ ⟨token' :: rest', rfl⟩ ?_
    · rw [← List.append_cons, htokens]
    · rw [List.length_append, List.length_singleton]
      omega
  obtain ⟨more, rfl⟩ := htaken
  exact hviable hbefore'.of_append

/-- A token list has one standing, and at most one token is the stray one. -/
theorem unique {other : Standing} (h : Stands H tokens standing) (h' : Stands H tokens other) :
    standing = other := by
  cases h with
  | whole h => exact (h'.derivable_iff.mp h).symm
  | unfinished h => exact (h'.viable_iff.mp h).symm
  | surplus htokens hrest hfirst =>
      have hsurplus : Stands H tokens .surplus := .surplus htokens hrest hfirst
      cases h' with
      | whole h => exact hsurplus.derivable_iff.mp h
      | surplus _ _ _ => rfl
      | unfinished h => exact hsurplus.viable_iff.mp h
      | stray htokens' hbefore hderivable hviable =>
          have hnone := not_derivable_before_stray (htokens'.symm.trans htokens) hbefore hderivable
            hviable
          exact absurd hfirst hnone
  | stray htokens hbefore hderivable hviable =>
      have hstray : Stands H tokens (.stray _ _) := .stray htokens hbefore hderivable hviable
      cases h' with
      | whole h => exact hstray.derivable_iff.mp h
      | surplus htokens' _ hfirst =>
          have hnone := not_derivable_before_stray (htokens.symm.trans htokens') hbefore hderivable
            hviable
          exact absurd hfirst hnone
      | unfinished h => exact hstray.viable_iff.mp h
      | stray htokens' hbefore' _ hviable' =>
          have heq := htokens.symm.trans htokens'
          have hlength := Nat.le_antisymm (length_le_of_stray heq.symm hviable' hbefore)
            (length_le_of_stray heq hviable hbefore')
          obtain ⟨rfl, hrest⟩ := List.append_inj heq hlength
          obtain ⟨rfl, -⟩ := List.cons_eq_cons.mp hrest
          rfl

end Stands

/-! ## Open combinations -/

namespace Reader

/-- Whatever is open can be closed, around an expression that comes next. -/
theorem Opens.derivable_closed {consumed tokens : List String} {stack : Stack H} {value : Datum H}
    (hstack : Opens consumed stack) (h : Derives tokens value) :
    Derivable H (consumed ++ tokens ++ List.replicate stack.length ")") := by
  induction hstack generalizing tokens value with
  | nil => exact ⟨value, by simpa using h⟩
  | @cons before outer parts houter hparts ih =>
      have hall : ∀ part ∈ parts ++ [(tokens, value)], Derives part.1 part.2 :=
        List.forall_mem_append.mpr ⟨hparts, List.forall_mem_singleton.mpr h⟩
      have hclosed := ih (.combination hall)
      simpa [List.replicate_succ] using hclosed

theorem Opens.viable {consumed : List String} {stack : Stack H} (h : Opens consumed stack) :
    Viable H consumed := by
  have hempty : Derives ["(", ")"] (.combination [] : Datum H) :=
    .combination (List.forall_mem_nil _)
  obtain ⟨e, he⟩ := h.derivable_closed hempty
  rw [List.append_assoc] at he
  exact ⟨_, by simp, e, he⟩

/-- The tokens of open combinations are read into the stack that they open. -/
theorem resume_of_opens {depth : Nat} {consumed : List String} {stack : Stack H}
    (h : Opens consumed stack) (hfits : Fits depth stack) (rest : List String) :
    resume depth [] (consumed ++ rest) = resume depth stack rest := by
  induction h generalizing rest with
  | nil => rfl
  | @cons before outer parts houter hparts ih =>
      obtain ⟨hitems, houterFits⟩ := hfits
      have hroom : outer.length < depth := by omega
      have hopening := Lexeme.ofToken_eq_opening_iff.mpr rfl
      rw [List.append_assoc, ih houterFits, List.cons_append, resume_cons,
        step_eq_start hroom (by simp [hopening]), start, hopening]
      change resume depth ([] :: outer) _ = _
      rw [resume_parts, List.append_nil]
      intro part hpart items rest
      have hitem : part.2.nesting ≤ Datum.nestingAll (parts.map Prod.snd) :=
        Datum.nesting_le_nestingAll (List.mem_map_of_mem hpart)
      rw [Datum.nestingAll_reverse] at hitems
      have hinside : (items :: outer).length + part.2.nesting ≤ depth := by
        rw [List.length_cons]
        omega
      exact resume_of_derives (hparts part hpart) hinside rest

theorem Fits.mono {depth more : Nat} {stack : Stack H} (h : Fits depth stack)
    (hle : depth ≤ more) : Fits more stack := by
  induction stack with
  | nil => trivial
  | cons items outer ih => exact ⟨Nat.le_trans h.1 hle, ih h.2⟩

/-! ## Tokens that are refused -/

inductive Refuses (token : String) : Failure -> Prop where
  | overlong (h : IsOverlong token.toList) : Refuses token (.numeralTooLong token.length)
  | unexpected (h : ¬ IsOverlong token.toList) : Refuses token (.unexpectedToken token)

end Reader

theorem Lexeme.ofToken_eq_overlong_iff {token : String} {characters : Nat} :
    ofToken token = .overlong characters ↔
      characters = token.length ∧ IsOverlong token.toList := by
  constructor
  · intro h
    unfold ofToken at h
    split at h
    · rename_i numeral hnumeral
      split at h
      · cases h
      · rename_i hnone
        cases h
        refine ⟨rfl, numeral.negative, numeral.whole, ?_⟩
        unfold Number.ofNumeral? at hnone
        rcases Numeral.chars_cases hnumeral with ⟨hkind, hdigits, htext⟩ | ⟨_, hkind, _⟩
        · rw [hkind] at hnone
          dsimp only at hnone
          split at hnone
          · cases hnone
          · rename_i hlength
            exact ⟨hdigits, Nat.not_le.mp hlength, htext⟩
        · rw [hkind] at hnone
          cases hnone
    · split_ifs at h
  · rintro ⟨rfl, negative, digits, hdigits, hlength, htext⟩
    have hlong : ¬ digits.length ≤ Number.digitLimit := Nat.not_le.mpr hlength
    simp only [ofToken, htext, Numeral.ofChars?_int negative hdigits, Number.ofNumeral?, hlong,
      ↓reduceIte]

namespace Reader

theorem refuses_of_start {token : String} {stack : Stack H} {failure : Failure}
    (h : start token stack = .failed failure) : Refuses token failure := by
  have hshort : ∀ {lexeme : Lexeme}, Lexeme.ofToken token = lexeme ->
      (∀ characters, lexeme ≠ .overlong characters) -> ¬ IsOverlong token.toList := by
    intro lexeme htoken hne hlong
    exact hne _ (htoken.symm.trans (Lexeme.ofToken_eq_overlong_iff.mpr ⟨rfl, hlong⟩))
  unfold start at h
  split at h
  · cases stack <;> cases h
  · rename_i hoverlong
    obtain ⟨rfl, hlong⟩ := Lexeme.ofToken_eq_overlong_iff.mp hoverlong
    cases h
    exact .overlong hlong
  · cases stack <;> cases h
  · cases h
  · rename_i hclosing
    cases h
    exact .unexpected (hshort hclosing (by simp))
  · rename_i hunknown
    cases h
    exact .unexpected (hshort hunknown (by simp))

/-- A step fails for want of depth, or it fails on the token at any depth. -/
theorem step_failed_cases {depth : Nat} {token : String} {stack : Stack H} {failure : Failure}
    (h : step depth token stack = .failed failure) :
    failure = .depthExceeded ∨ Refuses token failure ∧
      ∀ more, stack.length < more -> step more token stack = .failed failure := by
  cases stack with
  | nil =>
      rw [step] at h
      split at h
      · cases h
        exact .inl rfl
      · refine .inr ⟨refuses_of_start h, fun more hmore => ?_⟩
        rw [step, if_neg (Nat.ne_of_gt (show 0 < more from hmore)), h]
  | cons items outer =>
      rw [step] at h
      split at h
      · cases outer <;> cases h
      · rename_i hclosing
        split at h
        · cases h
          exact .inl rfl
        · refine .inr ⟨refuses_of_start h, fun more hmore => ?_⟩
          rw [step, if_neg hclosing, if_neg (Nat.not_le.mpr hmore), h]

/-- A token that is refused after open combinations cannot come next in any expression. -/
theorem not_derivable_of_refused {depth : Nat} {consumed : List String} {stack : Stack H}
    {token : String} {failure : Failure} (hstack : Opens consumed stack) (hfits : Fits depth stack)
    (hstep : ∀ more, stack.length < more -> step more token stack = .failed failure)
    (rest : List String) : ¬ Derivable H (consumed ++ token :: rest) := by
  rintro ⟨e, he⟩
  -- A depth at which the expression would be read, and the open combinations as well.
  let more := max e.nesting (max depth (stack.length + 1))
  have hread := read_of_derives he (show e.nesting ≤ more from Nat.le_max_left _ _) []
  have hroom : stack.length < more := by omega
  rw [List.append_nil, read, resume_of_opens hstack (hfits.mono (by omega)), resume_cons,
    hstep more hroom] at hread
  cases hread

/-! ## What reading reports -/

/-- Where reading fails, but not for want of depth, it reports how the tokens stand. -/
inductive Reports (H : Type) (tokens : List String) : Failure -> Prop where
  | depthExceeded : Reports H tokens .depthExceeded
  | endOfInput (h : Stands H tokens .unfinished) : Reports H tokens .endOfInput
  | refused {before : List String} {token : String} {failure : Failure}
      (h : Stands H tokens (.stray before token)) (hrefuses : Refuses token failure) :
      Reports H tokens failure

theorem reports_of_resume {depth : Nat} {consumed tokens : List String} {stack : Stack H}
    {failure : Failure} (hstack : Opens consumed stack) (hfits : Fits depth stack)
    (h : (resume depth stack tokens).outcome = .error failure) :
    Reports H (consumed ++ tokens) failure := by
  induction tokens generalizing consumed stack with
  | nil =>
      cases h
      rw [List.append_nil]
      exact .endOfInput (.unfinished hstack.viable)
  | cons token rest ih =>
      have haccounts := step_accounts hstack hfits token
      rw [resume_cons] at h
      cases hstep : step depth token stack with
      | finished value =>
          rw [hstep] at h
          cases h
      | failed reason =>
          rw [hstep] at h
          cases h
          rcases step_failed_cases hstep with rfl | ⟨hrefuses, hall⟩
          · exact .depthExceeded
          · have hnone := not_derivable_of_refused hstack hfits hall
            refine .refused (.stray rfl hstack.viable (hnone []) ?_) hrefuses
            rintro ⟨more, -, hmore⟩
            rw [← List.append_cons] at hmore
            exact hnone more hmore
      | more next =>
          rw [hstep] at h haccounts
          rw [List.append_cons]
          exact ih haccounts.1 haccounts.2 h

theorem length_le_of_step {depth : Nat} {token : String} {stack next : Stack H}
    (h : step depth token stack = .more next) : next.length ≤ stack.length + 1 := by
  have hdeliver : ∀ (value : Datum H) (outer : Stack H),
      deliver value outer = .more next -> next.length ≤ outer.length := by
    intro value outer hdelivered
    cases outer <;> cases hdelivered
    simp
  have hstart : start token stack = .more next -> next.length ≤ stack.length + 1 := by
    intro hstarted
    unfold start at hstarted
    split at hstarted
    · exact Nat.le_succ_of_le (hdeliver _ _ hstarted)
    · cases hstarted
    · exact Nat.le_succ_of_le (hdeliver _ _ hstarted)
    · cases hstarted
      simp
    · cases hstarted
    · cases hstarted
  cases stack with
  | nil =>
      rw [step] at h
      split at h
      · cases h
      · exact hstart h
  | cons items outer =>
      rw [step] at h
      split at h
      · have hlength := hdeliver _ _ h
        simp only [List.length_cons]
        omega
      · split at h
        · cases h
        · exact hstart h

/-- A depth of as many as there are tokens is enough, since every opening takes one. -/
theorem resume_ne_depthExceeded {depth : Nat} {stack : Stack H} {tokens : List String}
    (h : stack.length + tokens.length ≤ depth) :
    (resume depth stack tokens).outcome ≠ .error .depthExceeded := by
  induction tokens generalizing stack with
  | nil => simp [resume]
  | cons token rest ih =>
      rw [List.length_cons] at h
      rw [resume_cons]
      cases hstep : step depth token stack with
      | finished value => simp [proceed]
      | failed failure =>
          rintro ⟨⟩
          cases stack with
          | nil =>
              rw [step, if_neg (by omega)] at hstep
              cases refuses_of_start hstep
          | cons items outer =>
              rw [step] at hstep
              split at hstep
              · cases outer <;> cases hstep
              · rw [if_neg (by omega)] at hstep
                cases refuses_of_start hstep
      | more next =>
          have hlength := length_le_of_step hstep
          exact ih (by omega)

end Reader

/-! ## Syntax errors -/

def RefusedWith (message : String) (answer : Except Failure (Datum H)) : Prop :=
  ∃ failure, answer = .error failure ∧ failure.kind = "SigmaSyntaxError" ∧
    failure.message = message

def Standing.Answers (tokens : List String) : Standing -> Except Failure (Datum H) -> Prop
  | .whole, answer => ∃ e, Derives tokens e ∧ answer = .ok e
  | .surplus, answer => RefusedWith "unexpected tokens at end of input" answer
  | .unfinished, answer => RefusedWith "unexpected end of input" answer
  | .stray _ token, answer =>
      (IsOverlong token.toList -> RefusedWith
        ("numeric literal too long: " ++ toString token.length ++ " characters") answer) ∧
      (¬ IsOverlong token.toList -> RefusedWith ("unexpected token: " ++ token) answer)

theorem Reader.Refuses.answers {tokens before : List String} {token : String} {failure : Failure}
    (h : Refuses token failure) :
    (Standing.stray before token).Answers tokens (.error failure : Except Failure (Datum H)) := by
  cases h with
  | overlong hlong =>
      exact ⟨fun _ => ⟨_, rfl, rfl, rfl⟩, fun hshort => absurd hlong hshort⟩
  | unexpected hshort =>
      exact ⟨fun hlong => absurd hlong hshort, fun _ => ⟨_, rfl, rfl, rfl⟩⟩

/-- Unless it runs out of depth, reading answers as the tokens stand. -/
theorem stands_of_parse (depth : Nat) (source : String) :
    (parse depth source : Except Failure (Datum H)) = .error .depthExceeded ∨
      ∃ standing, Stands H (tokenize source) standing ∧
        standing.Answers (tokenize source) (parse depth source : Except Failure (Datum H)) := by
  unfold parse
  dsimp only
  cases houtcome : (Reader.read depth (tokenize source) : Reader.Reading H).outcome with
  | error failure =>
      have hreports : Reader.Reports H ([] ++ tokenize source) failure :=
        Reader.reports_of_resume .nil trivial houtcome
      rw [List.nil_append] at hreports
      cases hreports with
      | depthExceeded => exact .inl rfl
      | endOfInput h => exact .inr ⟨_, h, _, rfl, rfl, rfl⟩
      | refused h hrefuses => exact .inr ⟨_, h, hrefuses.answers⟩
  | ok e =>
      obtain ⟨used, htokens, hderives, -⟩ := Reader.derives_of_read houtcome
      dsimp only
      split
      · rename_i hrest
        rw [List.isEmpty_iff.mp hrest, List.append_nil] at htokens
        rw [htokens]
        exact .inr ⟨.whole, .whole ⟨e, hderives⟩, e, hderives, rfl⟩
      · rename_i hrest
        have hne := mt List.isEmpty_iff.mpr hrest
        exact .inr ⟨.surplus, .surplus htokens hne ⟨e, hderives⟩, _, rfl, rfl, rfl⟩

theorem parse_ne_depthExceeded {depth : Nat} {source : String}
    (h : (tokenize source).length ≤ depth) :
    (parse depth source : Except Failure (Datum H)) ≠ .error .depthExceeded := by
  have hread : (Reader.read depth (tokenize source) : Reader.Reading H).outcome ≠
      .error .depthExceeded :=
    Reader.resume_ne_depthExceeded (by simpa using h)
  unfold parse
  dsimp only
  split
  · rename_i failure houtcome
    rw [houtcome] at hread
    simpa using hread
  · split <;> simp

/--
Syntax errors are classified exactly.  The tokens of a text stand to the grammar in
exactly one way, no expression being the beginning of another: they spell an
expression, go on after one, end inside one, or have a first token that cannot come
next.  Unless it runs out of depth, reading answers accordingly: with the expression,
or with a syntax error that says which it is and, in the last case, of what token.
And it does not run out of depth if it has as many as there are tokens.
-/
theorem parse_reports_first_defect (depth : Nat) (source : String) :
    (∃ standing, Stands H (tokenize source) standing ∧
      (∀ other, Stands H (tokenize source) other -> other = standing) ∧
      ((parse depth source : Except Failure (Datum H)) ≠ .error .depthExceeded ->
        standing.Answers (tokenize source) (parse depth source : Except Failure (Datum H)))) ∧
    ((tokenize source).length ≤ depth ->
      (parse depth source : Except Failure (Datum H)) ≠ .error .depthExceeded) ∧
    Viable H [] ∧ ∀ tokens, Derivable H tokens -> ¬ Viable H tokens := by
  refine ⟨?_, parse_ne_depthExceeded, Reader.Opens.nil.viable, fun _ h => h.not_viable⟩
  -- With enough depth there is an answer, which shows that there is a standing at all.
  have hdeep := parse_ne_depthExceeded (H := H) (Nat.le_refl (tokenize source).length)
  obtain ⟨standing, hstands, -⟩ := (stands_of_parse _ source).resolve_left hdeep
  refine ⟨standing, hstands, fun other hother => hother.unique hstands, fun hanswer => ?_⟩
  obtain ⟨other, hother, hanswers⟩ := (stands_of_parse depth source).resolve_left hanswer
  rwa [hother.unique hstands] at hanswers

end Reckoner
