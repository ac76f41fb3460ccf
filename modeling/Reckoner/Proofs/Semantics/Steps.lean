import Reckoner.Proofs.Semantics.Runs

/-!
# Runs of single steps

How each part of the evaluator that evaluates nothing itself runs: lookups,
bindings, special forms that fail at once, lambdas, and calls of host functions.
-/

namespace Reckoner

variable {H : Type}

/-! ## Blame -/

namespace Datum

theorem isWritable_of_items? {d : Datum H} {items : List (Datum H)} (h : d.items? = some items) :
    d.isWritable = allWritable items := by
  cases d <;> cases h <;> rfl

theorem isWritable_eq_false_of_showsOverlong {d : Datum H} (h : d.ShowsOverlong) :
    d.isWritable = false := by
  induction h with
  | int h => simpa [isWritable, Number.isWritable] using h
  | item hitems hmem _ ih =>
      rw [isWritable_of_items? hitems, Bool.eq_false_iff, Ne, allWritable_eq_true_iff]
      exact fun hall => by simp [hall _ hmem] at ih
  | parameter hmem _ ih =>
      rw [isWritable, Bool.eq_false_iff, Ne, allWritable_eq_true_iff]
      exact fun hall => by simp [hall _ hmem] at ih

theorem showsOverlong_number {n : Number} (h : n.isWritable = false) :
    (number n : Datum H).ShowsOverlong := by
  cases n with
  | int n => exact .int (by simpa [Number.isWritable] using h)
  | float x => cases h

mutual

theorem showsOverlong_of_isWritable_eq_false (d : Datum H) (h : d.isWritable = false) :
    d.ShowsOverlong := by
  cases d with
  | number n => exact showsOverlong_number h
  | combination items =>
      obtain ⟨item, hmem, hitem⟩ := exists_showsOverlong_of_allWritable_eq_false items h
      exact .item rfl hmem hitem
  | list items =>
      obtain ⟨item, hmem, hitem⟩ := exists_showsOverlong_of_allWritable_eq_false items h
      exact .item rfl hmem hitem
  | closure birth parameters body scope =>
      obtain ⟨item, hmem, hitem⟩ := exists_showsOverlong_of_allWritable_eq_false parameters h
      exact .parameter hmem hitem
  | _ => cases h

theorem exists_showsOverlong_of_allWritable_eq_false (items : List (Datum H))
    (h : allWritable items = false) : ∃ item ∈ items, item.ShowsOverlong := by
  cases items with
  | nil => cases h
  | cons item rest =>
      cases hitem : item.isWritable with
      | false => exact ⟨item, List.mem_cons_self, showsOverlong_of_isWritable_eq_false item hitem⟩
      | true =>
          have hrest : allWritable rest = false := by simpa [allWritable, hitem] using h
          obtain ⟨other, hmem, hother⟩ := exists_showsOverlong_of_allWritable_eq_false rest hrest
          exact ⟨other, List.mem_cons_of_mem item hmem, hother⟩

end

theorem showsOverlong_iff (d : Datum H) : d.ShowsOverlong ↔ d.isWritable = false :=
  ⟨isWritable_eq_false_of_showsOverlong, showsOverlong_of_isWritable_eq_false d⟩

end Datum

theorem blames_iff [Host H] {style : Datum.Style} {cause : String -> Failure} {d : Datum H}
    {failure : Failure} : Blames style cause d failure ↔
      failure = if d.isWritable then cause (d.write style) else .digitLimit := by
  constructor
  · intro h
    cases h with
    | shown h =>
        rw [Datum.showsOverlong_iff, Bool.not_eq_false] at h
        rw [if_pos h]
    | overlong h =>
        rw [Datum.showsOverlong_iff] at h
        simp [h]
  · rintro rfl
    cases h : d.isWritable with
    | true => exact .shown (by simp [Datum.showsOverlong_iff, h])
    | false => exact .overlong ((Datum.showsOverlong_iff d).mpr h)

theorem blames_blame [Host H] (cause : String -> Failure) (d : Datum H) :
    Blames .inspected cause d (d.blame cause) :=
  blames_iff.mpr rfl

theorem eq_blame_of_blames [Host H] {cause : String -> Failure} {d : Datum H} {failure : Failure}
    (h : Blames .inspected cause d failure) : failure = d.blame cause :=
  blames_iff.mp h

/-! ## Lookups and bindings -/

namespace Evaluation

theorem runs_lookup_of_sees {memory : Memory H} {scope : Nat} {name : String} {value : Datum H}
    (h : memory.store.Sees name value scope) :
    Runs (lookup scope name) memory (.ok value) memory [] := by
  intro events
  refine ⟨[], ?_, rfl, rfl⟩
  simp only [lookup, Store.lookup?_eq_some_iff.mpr h]
  rfl

theorem runs_lookup_of_unseen {memory : Memory H} {scope : Nat} {name : String}
    (h : ∀ value, ¬ memory.store.Sees name value scope) :
    Runs (lookup scope name) memory (.error (.undefinedVariable name)) memory [] := by
  intro events
  refine ⟨[], ?_, rfl, rfl⟩
  simp only [lookup, Store.lookup?_eq_none_iff.mpr h]
  rfl

theorem runs_define [Host H] {target : Datum H} {name : String}
    (h : target.identifier? = some name) (scope : Nat) (value : Datum H) (memory : Memory H) :
    Runs (define scope target value) memory (.ok ())
      ⟨memory.store.bind scope name value, memory.births⟩ [] := by
  intro events
  refine ⟨[.bound scope name value], ?_, rfl, rfl⟩
  simp only [define, h]
  rfl

theorem runs_define_refused [Host H] {target : Datum H} {failure : Failure}
    (h : target.identifier? = none) (hblame : Blames .displayed .invalidIdentifier target failure)
    (scope : Nat) (value : Datum H) (memory : Memory H) :
    Runs (define scope target value) memory (.error failure) memory [] := by
  intro events
  refine ⟨[], ?_, rfl, rfl⟩
  simp only [define, h]
  rw [blames_iff.mp hblame]
  rfl

theorem runs_bindAll [Host H] {scope : Nat} {pairs : List (Datum H × Datum H)}
    {store after : Store H} {outcome : Except Failure Unit}
    (h : Binds scope pairs store outcome after) (births : Nat) :
    Runs (bindAll scope pairs) ⟨store, births⟩ outcome ⟨after, births⟩ [] := by
  induction h with
  | nil => exact .pure () _
  | bound hname _ ih => exact (runs_define hname _ _ _).bind ih
  | refused hname hblame => exact (runs_define_refused hname hblame _ _ _).bind_error

theorem exists_binds [Host H] (scope : Nat) (pairs : List (Datum H × Datum H)) (store : Store H) :
    ∃ outcome after, Binds scope pairs store outcome after := by
  induction pairs generalizing store with
  | nil => exact ⟨_, _, .nil⟩
  | cons pair rest ih =>
      rcases pair with ⟨target, value⟩
      cases hname : target.identifier? with
      | none => exact ⟨_, _, .refused hname (blames_iff.mpr rfl)⟩
      | some name =>
          obtain ⟨outcome, after, hrest⟩ := ih (store.bind scope name value)
          exact ⟨outcome, after, .bound hname hrest⟩

theorem size_of_binds [Host H] {scope : Nat} {pairs : List (Datum H × Datum H)}
    {store after : Store H} {outcome : Except Failure Unit}
    (h : Binds scope pairs store outcome after) : after.frames.size = store.frames.size := by
  induction h with
  | nil => rfl
  | bound _ _ ih => exact ih.trans (Store.size_bind _ _ _ _)
  | refused => rfl

/-! ## Dispatch -/

theorem activate_of_items {strict : Bool} [Host H] (recur : Evaluator H) (scope : Nat)
    {expression : Datum H} {items : List (Datum H)} (h : expression.items? = some items) :
    activate strict recur scope expression = evaluateItems strict recur scope items := by
  cases expression <;> cases h <;> rfl

theorem activate_of_atom {strict : Bool} [Host H] (recur : Evaluator H) (scope : Nat)
    {expression : Datum H} (hitems : expression.items? = none)
    (hsymbol : ∀ name, expression ≠ .symbol name) :
    activate strict recur scope expression = pure expression := by
  cases expression with
  | symbol name => exact absurd rfl (hsymbol name)
  | combination items => cases hitems
  | list items => cases hitems
  | _ => rfl

theorem evaluateItems_define {strict : Bool} [Host H] (recur : Evaluator H) (scope : Nat)
    (tail : List (Datum H)) :
    evaluateItems strict recur scope (.symbol "define" :: tail) = evaluateDefine recur scope tail :=
  rfl

theorem evaluateItems_begin {strict : Bool} [Host H] (recur : Evaluator H) (scope : Nat)
    (tail : List (Datum H)) :
    evaluateItems strict recur scope (.symbol "begin" :: tail) =
      evaluateLast (recur scope) .nil tail :=
  rfl

theorem evaluateItems_call {strict : Bool} [Host H] (recur : Evaluator H) (scope : Nat)
    {operator : Datum H} (hhead : ∀ word ∈ ["define", "begin", "lambda"], operator ≠ .symbol word)
    (operands : List (Datum H)) :
    evaluateItems strict recur scope (operator :: operands) =
      evaluateCall strict recur scope operator operands := by
  have hkeyword : Keyword.ofDatum? operator = none := by
    cases operator with
    | symbol name =>
        have hne : ∀ word ∈ ["define", "begin", "lambda"], ¬ word = name := fun word hword heq =>
          hhead word hword (by rw [heq])
        simp only [List.mem_cons, List.not_mem_nil, or_false, forall_eq_or_imp, forall_eq] at hne
        simp [Keyword.ofDatum?, Keyword.ofName?, Keyword.all, Keyword.name, hne]
    | _ => rfl
  simp only [evaluateItems, hkeyword]

theorem evaluateLast_eq (recur : Datum H -> Action H (Datum H)) (last : Datum H)
    (expressions : List (Datum H)) :
    evaluateLast recur last expressions =
      evaluateAll recur expressions >>= fun values => pure (values.getLastD last) := by
  induction expressions generalizing last with
  | nil => rfl
  | cons expression rest ih =>
      simp only [evaluateLast, evaluateAll, ih, bind_assoc, pure_bind]
      congr 1
      funext value
      congr 1
      funext values
      cases values <;> rfl

/-! ## Special forms -/

theorem evaluateDefine_shape [Host H] (recur : Evaluator H) (scope : Nat) {tail : List (Datum H)}
    (h : tail.length ≠ 2) :
    evaluateDefine recur scope tail = throw (.definitionShape tail.length) := by
  unfold evaluateDefine
  split
  · exact absurd rfl h
  · rfl

theorem evaluateLambda_shape [Host H] (scope : Nat) {tail : List (Datum H)}
    (h : tail.length ≠ 2) : evaluateLambda scope tail = throw (.lambdaShape tail.length) := by
  unfold evaluateLambda
  split
  · exact absurd rfl h
  · rfl

theorem runs_definitionShape [Host H] (recur : Evaluator H) (scope : Nat) {tail : List (Datum H)}
    (h : tail.length ≠ 2) (memory : Memory H) :
    Runs (evaluateDefine recur scope tail) memory (.error (.definitionShape tail.length))
      memory [] := by
  rw [evaluateDefine_shape recur scope h]
  exact .throw _ memory

theorem runs_lambdaShape [Host H] (scope : Nat) {tail : List (Datum H)} (h : tail.length ≠ 2)
    (memory : Memory H) :
    Runs (evaluateLambda scope tail) memory (.error (.lambdaShape tail.length)) memory [] := by
  rw [evaluateLambda_shape scope h]
  exact .throw _ memory

theorem identifiers_of_names {items : List (Datum H)} {names : List String}
    (h : items.map Datum.identifier? = names.map some) :
    (items.find? fun item => item.identifier?.isNone) = none ∧
      items.filterMap Datum.identifier? = names := by
  induction items generalizing names with
  | nil =>
      cases names with
      | nil => exact ⟨rfl, rfl⟩
      | cons name rest => cases h
  | cons item items ih =>
      cases names with
      | nil => cases h
      | cons name rest =>
          simp only [List.map_cons, List.cons.injEq] at h
          obtain ⟨hfind, hfilter⟩ := ih h.2
          exact ⟨by simpa [h.1] using hfind, by simp [h.1, hfilter]⟩

theorem isSome_of_find?_eq_none {items : List (Datum H)}
    (h : (items.find? fun item => item.identifier?.isNone) = none) :
    ∀ item ∈ items, item.identifier?.isSome := by
  intro item hmem
  simpa [Option.isSome_iff_ne_none] using List.find?_eq_none.mp h item hmem

theorem exists_names {items : List (Datum H)}
    (h : ∀ item ∈ items, item.identifier?.isSome) :
    ∃ names : List String, items.map Datum.identifier? = names.map some := by
  induction items with
  | nil => exact ⟨[], rfl⟩
  | cons item rest ih =>
      obtain ⟨names, hnames⟩ := ih fun other hmem => h other (List.mem_cons_of_mem item hmem)
      obtain ⟨name, hname⟩ := Option.isSome_iff_exists.mp (h item List.mem_cons_self)
      exact ⟨name :: names, by simp [hname, hnames]⟩

theorem runs_lambda [Host H] (scope : Nat) {parameters : Datum H} (body : Datum H)
    {items : List (Datum H)} {names : List String} (hparameters : parameters.items? = some items)
    (hnames : items.map Datum.identifier? = names.map some) (hdistinct : names.Nodup)
    (memory : Memory H) :
    Runs (evaluateLambda scope [parameters, body]) memory
      (.ok (.closure memory.births items body scope)) ⟨memory.store, memory.births + 1⟩ [] := by
  obtain ⟨hfind, hfilter⟩ := identifiers_of_names hnames
  intro events
  refine ⟨[], ?_, rfl, rfl⟩
  simp only [evaluateLambda, hparameters, hfind, hfilter, if_pos hdistinct]
  rfl

theorem runs_repeatedParameter [Host H] (scope : Nat) {parameters : Datum H} (body : Datum H)
    {items : List (Datum H)} {names : List String} (hparameters : parameters.items? = some items)
    (hnames : items.map Datum.identifier? = names.map some) (hrepeated : ¬ names.Nodup)
    (memory : Memory H) :
    Runs (evaluateLambda scope [parameters, body]) memory (.error .repeatedParameter) memory [] := by
  obtain ⟨hfind, hfilter⟩ := identifiers_of_names hnames
  simp only [evaluateLambda, hparameters, hfind, hfilter, if_neg hrepeated]
  exact .throw _ memory

theorem runs_lambdaParameter [Host H] (scope : Nat) {parameters item : Datum H} (body : Datum H)
    {good rest : List (Datum H)} {names : List String} {failure : Failure}
    (hparameters : parameters.items? = some (good ++ item :: rest))
    (hgood : good.map Datum.identifier? = names.map some) (hitem : item.identifier? = none)
    (hblame : Blames .inspected .lambdaParameter item failure) (memory : Memory H) :
    Runs (evaluateLambda scope [parameters, body]) memory (.error failure) memory [] := by
  have hfind : ((good ++ item :: rest).find? fun item => item.identifier?.isNone) = some item := by
    rw [List.find?_append, (identifiers_of_names hgood).1]
    simp [hitem]
  simp only [evaluateLambda, hparameters, hfind]
  rw [eq_blame_of_blames hblame]
  exact .throw _ memory

theorem runs_lambdaParameters [Host H] (scope : Nat) {parameters : Datum H} (body : Datum H)
    {failure : Failure} (hparameters : parameters.items? = none)
    (hblame : Blames .inspected .lambdaParameters parameters failure) (memory : Memory H) :
    Runs (evaluateLambda scope [parameters, body]) memory (.error failure) memory [] := by
  simp only [evaluateLambda, hparameters]
  rw [eq_blame_of_blames hblame]
  exact .throw _ memory

/-! ## Calls -/

theorem runs_adopt {value : Datum H} (hnan : value.isNewNaN = false) (memory : Memory H) :
    Runs (adopt value) memory (.ok value) memory [] := by
  intro events
  refine ⟨[], ?_, rfl, rfl⟩
  simp only [adopt, hnan]
  rfl

theorem runs_adopt_nan {value : Datum H} (hnan : value.isNewNaN = true) (memory : Memory H) :
    Runs (adopt value) memory (.ok (.nan memory.births)) ⟨memory.store, memory.births + 1⟩ [] := by
  intro events
  refine ⟨[], ?_, rfl, rfl⟩
  simp only [adopt, hnan]
  rfl

/-- A value other than nothing is taken over after the call was recorded. -/
theorem callHost_of_ok [Host H] {function : H} {operands : List (Datum H)} {value : Datum H}
    (hcall : Host.call function operands = .ok value) (hvalue : value ≠ .absent)
    (machine : Machine H) : callHost function operands machine =
      adopt value (machine.record (.called function operands (.ok value))) := by
  simp only [callHost, hcall]
  rfl

theorem runs_callHost_of_ok [Host H] {function : H} {operands : List (Datum H)}
    {value adopted : Datum H} {memory after : Memory H}
    (hcall : Host.call function operands = .ok value) (hvalue : value ≠ .absent)
    (hadopt : Runs (adopt value) memory (.ok adopted) after []) :
    Runs (callHost function operands) memory (.ok adopted) after
      [⟨function, operands, memory.store⟩] := by
  intro events
  obtain ⟨history, hresult, hafter, hcalls⟩ :=
    hadopt (.called function operands (.ok value) :: events)
  refine ⟨.called function operands (.ok value) :: history, ?_, hafter, ?_⟩
  · rw [callHost_of_ok hcall hvalue]
    refine hresult.trans ?_
    rw [List.reverse_cons, List.append_assoc]
    rfl
  · simp only [Call.all, hcalls]

theorem runs_returned [Host H] {function : H} {operands : List (Datum H)} {value : Datum H}
    (hcall : Host.call function operands = .ok value) (hvalue : value ≠ .absent)
    (hnan : value.isNewNaN = false) (memory : Memory H) :
    Runs (callHost function operands) memory (.ok value) memory
      [⟨function, operands, memory.store⟩] :=
  runs_callHost_of_ok hcall hvalue (runs_adopt hnan memory)

theorem runs_returnedNaN [Host H] {function : H} {operands : List (Datum H)} {value : Datum H}
    (hcall : Host.call function operands = .ok value) (hnan : value.isNewNaN = true)
    (memory : Memory H) :
    Runs (callHost function operands) memory (.ok (.nan memory.births))
      ⟨memory.store, memory.births + 1⟩ [⟨function, operands, memory.store⟩] := by
  refine runs_callHost_of_ok hcall ?_ (runs_adopt_nan hnan memory)
  rintro rfl
  cases hnan

theorem runs_raised [Host H] {function : H} {operands : List (Datum H)} {failure : Failure}
    (hcall : Host.call function operands = .error failure) (memory : Memory H) :
    Runs (callHost function operands) memory (.error failure) memory
      [⟨function, operands, memory.store⟩] := by
  intro events
  refine ⟨[.called function operands (.error failure)], ?_, rfl, rfl⟩
  simp only [callHost, hcall]
  rfl

theorem runs_noValue [Host H] {function : H} {operands : List (Datum H)}
    (hcall : Host.call function operands = .ok .absent) (memory : Memory H) :
    Runs (callHost function operands) memory (.error (.noValue (Host.title function))) memory
      [⟨function, operands, memory.store⟩] := by
  intro events
  refine ⟨[.called function operands (.ok .absent)], ?_, rfl, rfl⟩
  simp only [callHost, hcall]
  rfl

theorem runs_arityMismatch [Host H] {strict : Bool} (recur : Evaluator H) (birth outer : Nat)
    {parameters operands : List (Datum H)} (body : Datum H) (hstrict : strict = true)
    (hlength : operands.length ≠ parameters.length) (memory : Memory H) :
    Runs (apply strict recur (.closure birth parameters body outer) operands) memory
      (.error (.arityMismatch parameters.length operands.length)) memory [] := by
  intro events
  refine ⟨[], ?_, rfl, rfl⟩
  rw [apply_closure, if_pos (by simpa [hstrict] using hlength)]
  rfl

/-- A call of a closure runs as its body does in the scope that is opened for it. -/
theorem runs_apply_closure [Host H] {strict : Bool} {recur : Evaluator H} (birth : Nat)
    {outer : Nat} {parameters operands : List (Datum H)} {body : Datum H}
    {outcome : Except Failure (Datum H)} {memory after : Memory H} {calls : List (Call H)}
    (hlength : strict = true -> operands.length = parameters.length)
    (h : Runs (bindAll memory.store.frames.size (parameters.zip operands) >>= fun _ =>
        recur memory.store.frames.size body)
      ⟨(memory.store.create (some outer)).2, memory.births⟩ outcome after calls) :
    Runs (apply strict recur (.closure birth parameters body outer) operands) memory
      outcome after calls := by
  intro events
  obtain ⟨history, hresult, hafter, hcalls⟩ := h (.opened (some outer) :: events)
  refine ⟨.opened (some outer) :: history, ?_, hafter, hcalls⟩
  have hfits : ¬ (strict && operands.length != parameters.length) = true := by
    simpa using hlength
  rw [apply_closure, if_neg hfits, List.reverse_cons, List.append_assoc]
  exact hresult

end Evaluation

end Reckoner
