import Reckoner.Proofs.Correspondence.Sessions
import Reckoner.Proofs.Respelling.Machines

/-!
# Runs with a respelled parameter

An expression and the same expression with a lambda respelled are evaluated side by side, on
machines that correspond.  Both evaluations are strict about arity, which is what has a call
of the lambda bind the parameter.
-/

namespace Reckoner

open Evaluation

variable {H : Type}

/-! ## Actions on two sides -/

namespace Respelling

variable (r : Respelling H)

structure World (start : Machine H) where
  first : Machine H
  second : Machine H
  zone : Zone
  beside : r.Beside start zone first second

abbrev pairing (start : Machine H) : Pairing H where
  World := r.World start
  first := World.first
  second := World.second
  Later before after := before.zone.Le after.zone
  later_refl world := .refl world.zone
  later_trans h h' := h.trans h'
  Value world := Datum.Alike (r.Made start.store.frames.size world.zone)
  Code world scope scope' e e' := scope' = scope ∧ scope < world.zone.scopes ∧
    r.Variant start.store.frames.size (world.zone.within scope) e e'
  Ended failure a failure' b := failure.kind = failure'.kind ∧ r.HistoriesAlike start a b
  Excused _ _ := False

variable {r} {α β : Type} {start : Machine H} {world : r.World start}

theorem agree_returned {Good : r.World start -> α -> β -> Prop} {v : α} {v' : β}
    {a b : Machine H} {zone : Zone} (hbeside : r.Beside start zone a b)
    (hle : world.zone.Le zone) (hgood : Good ⟨a, b, zone, hbeside⟩ v v') :
    (r.pairing start).Agree world Good (.ok v a) (.ok v' b) :=
  @Pairing.Agree.returned H α β (r.pairing start) world Good ⟨a, b, zone, hbeside⟩ v v' hle hgood

theorem related_throw {Good : r.World start -> α -> β -> Prop} {failure failure' : Failure}
    (h : failure.kind = failure'.kind) :
    (r.pairing start).Related world Good (throw failure) (throw failure') :=
  .throw ⟨h, world.beside.history⟩

theorem kind_blame [Host H] {cause : String -> Failure}
    (hcause : ∀ shown shown', (cause shown).kind = (cause shown').kind) {d d' : Datum H}
    (h : d'.isWritable = d.isWritable) : (d.blame cause).kind = (d'.blame cause).kind := by
  unfold Datum.blame
  rw [h]
  split
  · exact hcause _ _
  · rfl

theorem related_blame [Host H] {Good : r.World start -> α -> β -> Prop} {cause : String -> Failure}
    (hcause : ∀ shown shown', (cause shown).kind = (cause shown').kind) {d d' : Datum H}
    (h : d'.isWritable = d.isWritable) :
    (r.pairing start).Related world Good (throw (d.blame cause)) (throw (d'.blame cause)) :=
  related_throw (kind_blame hcause h)

theorem related_lookup {scope : Nat} {name : String}
    (hname : world.zone.within scope = true -> name ≠ r.new) :
    (r.pairing start).Related world (r.pairing start).Value (lookup scope name)
      (lookup scope (r.spell (world.zone.within scope) name)) := by
  have hfound := world.beside.lookup? hname
  unfold Pairing.Related lookup
  dsimp only
  revert hfound
  cases world.first.store.lookup? scope name with
  | some v =>
      cases world.second.store.lookup? scope (r.spell (world.zone.within scope) name) with
      | some v' =>
          rintro (⟨hvalue⟩ | _)
          exact agree_returned world.beside (.refl _) hvalue
      | none => rintro ⟨⟩
  | none =>
      cases world.second.store.lookup? scope (r.spell (world.zone.within scope) name) with
      | some v' => rintro ⟨⟩
      | none => exact fun _ => .failed ⟨rfl, world.beside.history⟩

theorem related_define [Host H] {scope : Nat} {target target' v v' : Datum H} {name : String}
    (hname : target.identifier? = some name)
    (hname' : target'.identifier? = some (r.spell (world.zone.within scope) name))
    (hfresh : world.zone.within scope = true -> name ≠ r.new)
    (hvalue : (r.pairing start).Value world v v') :
    (r.pairing start).Related world (fun _ _ _ => True) (define scope target v)
      (define scope target' v') := by
  unfold Pairing.Related define
  rw [hname, hname']
  exact agree_returned (world.beside.bound hfresh hvalue) (.refl _) trivial

theorem related_newClosure {scope : Nat} {names : List String} {body body' : Datum H}
    {within : Bool} (hscope : scope < world.zone.scopes) (hnames : Identifier.Distinct names)
    (hwithin : within = world.zone.within scope ∨ within = true ∧ r.old ∈ names)
    (hlocal : within = true -> ∀ name ∈ names, Datum.Occurs (.symbol name) r.lambda)
    (hbody : r.Variant start.store.frames.size within body body') :
    (r.pairing start).Related world (r.pairing start).Value
      (newClosure (names.map .symbol) body scope)
      (newClosure ((names.map (r.spell within)).map .symbol) body' scope) := by
  have hmade : Datum.Alike (r.Made start.store.frames.size world.zone)
      (.closure world.first.births (names.map .symbol) body scope)
      (.closure world.second.births ((names.map (r.spell within)).map .symbol) body' scope) := by
    rw [world.beside.births_eq]
    exact .closure (.intro hscope hnames hwithin hlocal hbody)
  exact agree_returned world.beside.bear (.refl _) hmade

theorem related_adopt {v v' : Datum H} (hvalue : (r.pairing start).Value world v v') :
    (r.pairing start).Related world (r.pairing start).Value (adopt v) (adopt v') := by
  unfold Pairing.Related adopt
  rw [hvalue.isNewNaN_eq]
  cases v.isNewNaN with
  | true =>
      have hnan : Datum.Alike (r.Made start.store.frames.size world.zone)
          (.nan world.first.births) (.nan world.second.births) := by
        rw [world.beside.births_eq]
        exact .atom rfl (by simp)
      exact agree_returned world.beside.bear (.refl _) hnan
  | false => exact agree_returned world.beside (.refl _) hvalue

theorem related_callHost [Host H] (hhost : Host.Opaque H) (function : H)
    {operands operands' : List (Datum H)}
    (hoperands : List.Forall₂ ((r.pairing start).Value world) operands operands') :
    (r.pairing start).Related world (r.pairing start).Value (callHost function operands)
      (callHost function operands') := by
  have houtcome := hhost _ function operands operands' hoperands
  have htwins := hoperands.imp fun _ _ hoperand => hoperand.mono fun _ _ => Made.twins
  unfold Pairing.Related
  cases hcall : Host.call function operands with
  | error failure =>
      cases hcall' : Host.call function operands' with
      | ok v' =>
          rw [hcall, hcall'] at houtcome
          cases houtcome
      | error failure' =>
          rw [hcall, hcall'] at houtcome
          cases houtcome with
          | failed hkind =>
              have hevent : r.EventsAlike (.called function operands (.error failure))
                (.called function operands' (.error failure')) := .called htwins (.failed hkind)
              simp only [callHost, hcall, hcall']
              exact .failed ⟨hkind, world.beside.history.record hevent⟩
  | ok v =>
      cases hcall' : Host.call function operands' with
      | error failure' =>
          rw [hcall, hcall'] at houtcome
          cases houtcome
      | ok v' =>
          rw [hcall, hcall'] at houtcome
          cases houtcome with
          | returned hvalue =>
              have hevent : r.EventsAlike (.called function operands (.ok v))
                  (.called function operands' (.ok v')) :=
                .called htwins (.returned (hvalue.mono fun _ _ => Made.twins))
              by_cases habsent : v = .absent
              · obtain rfl := hvalue.eq_absent_iff.mpr habsent
                subst habsent
                simp only [callHost, hcall, hcall']
                exact .failed ⟨rfl, world.beside.history.record hevent⟩
              · have habsent' := mt hvalue.eq_absent_iff.mp habsent
                rw [callHost_of_ok hcall habsent, callHost_of_ok hcall' habsent']
                have hadopted : (r.pairing start).Related
                    ⟨_, _, world.zone, world.beside.called hevent⟩ (r.pairing start).Value
                    (adopt v) (adopt v') := related_adopt hvalue
                refine Pairing.Agree.mono ?_ hadopted
                exact Zone.Le.refl world.zone

/-! ## Values in operator position -/

theorem related_extend [Host H] {birth scope : Nat} {parameters parameters' : List (Datum H)}
    {body body' : Datum H}
    (hmade : r.Made start.store.frames.size world.zone (.closure birth parameters body scope)
      (.closure birth parameters' body' scope))
    {operands operands' : List (Datum H)}
    (hoperands : List.Forall₂ ((r.pairing start).Value world) operands operands') :
    (r.pairing start).Related world
      (fun after inner inner' => (r.pairing start).Code after inner inner' body body')
      (extend true parameters scope operands) (extend true parameters' scope operands') := by
  cases hmade with
  | @intro _ _ names _ _ within hscope hnames hwithin hlocal hbody =>
      have hfresh : within = true -> r.new ∉ names := fun htrue hmem =>
        r.ne_new_of_occurs (hlocal htrue _ hmem) rfl
      have hnames' := r.distinct_spell hnames hfresh
      have hcount := hoperands.length_eq
      unfold Pairing.Related
      rw [extend_eq true hnames, extend_eq true hnames', List.length_map, ← hcount]
      by_cases hlength : operands.length = names.length
      · -- Every parameter gets an operand, so a closure of the lambda does bind the old name.
        rw [if_neg (by simp [hlength]), if_neg (by simp [hlength])]
        have hentered := world.beside.enter hscope hwithin hfresh hlength hoperands
        refine agree_returned hentered (world.zone.le_grow within) ⟨?_, ?_, ?_⟩
        · exact world.beside.size_eq.trans world.beside.scopes_eq.symm
        · exact Nat.lt_succ_of_le (Nat.le_of_eq world.beside.scopes_eq)
        · have hinner : (world.zone.grow within).within world.first.store.frames.size = within := by
            rw [world.beside.scopes_eq]
            exact world.zone.within_grow within
          exact hinner.symm ▸ hbody
      · rw [if_pos (by simpa using hlength), if_pos (by simpa using hlength)]
        exact .failed ⟨rfl, world.beside.history⟩

theorem head_of_alike [Host H] (hhost : Host.Opaque H) {v v' : Datum H}
    (hvalue : (r.pairing start).Value world v v') :
    (r.pairing start).Head true true world v v' := by
  have hended : (r.pairing start).Ended (v.blame .notCallable) world.first
      (v'.blame .notCallable) world.second :=
    ⟨kind_blame (fun _ _ => rfl) (hvalue.isWritable_eq fun _ _ => Made.isWritable_eq),
      world.beside.history⟩
  cases hvalue with
  | atom hitems hclosure =>
      cases v with
      | function f => exact .function fun hoperands => related_callHost hhost f hoperands
      | closure birth parameters body scope => exact absurd rfl (hclosure _ _ _ _)
      | _ => exact .refused rfl rfl hended
  | closure hmade => exact .closure fun hoperands => related_extend hmade hoperands
  | combination _ => exact .refused rfl rfl hended
  | list _ => exact .refused rfl rfl hended

/-! ## Expressions -/

variable {scope : Nat}

/-- A sequence whose second item is one too has no parameters. -/
theorem evaluateLambda_of_nested [Host H] {name : String} (hname : Identifier.isValid name = true)
    (inner rest : List (Datum H)) (body : Datum H) :
    evaluateLambda scope [.combination (.symbol name :: .combination inner :: rest), body] =
      throw ((Datum.combination inner).blame .lambdaParameter) := by
  simp [evaluateLambda, Datum.items?, Datum.identifier?, hname]

variable [Host H]

/-- Parameters are refused on both sides or on none. -/
theorem related_parameters {parameters parameters' body body' : Datum H}
    {items items' : List (Datum H)} (hscope : scope < world.zone.scopes)
    (hitems : parameters.items? = some items) (hitems' : parameters'.items? = some items')
    (hvariants : List.Forall₂ (r.Variant start.store.frames.size (world.zone.within scope))
      items items')
    (hbody : r.Variant start.store.frames.size (world.zone.within scope) body body') :
    (r.pairing start).Related world (r.pairing start).Value
      (evaluateLambda scope [parameters, body]) (evaluateLambda scope [parameters', body']) := by
  have hfind := Variant.find? hvariants
  simp only [evaluateLambda, hitems, hitems']
  cases hleft : items.find? fun item => item.identifier?.isNone with
  | some item =>
      cases hright : items'.find? fun item => item.identifier?.isNone with
      | some item' =>
          rw [hleft, hright] at hfind
          cases hfind with
          | some hitem => exact related_blame (fun _ _ => rfl) hitem.isWritable_eq
      | none =>
          rw [hleft, hright] at hfind
          cases hfind
  | none =>
      cases hright : items'.find? fun item => item.identifier?.isNone with
      | some item' =>
          rw [hleft, hright] at hfind
          cases hfind
      | none =>
          obtain ⟨names, rfl, rfl, hvalid, hlocal⟩ :=
            Variant.exists_names hvariants (isSome_of_find?_eq_none hleft)
          have hfresh : world.zone.within scope = true -> r.new ∉ names := fun hwithin hmem =>
            r.ne_new_of_occurs (hlocal hwithin _ hmem) rfl
          have hvalid' : ∀ name ∈ names.map (r.spell (world.zone.within scope)),
              Identifier.isValid name = true := by
            intro name hmem
            obtain ⟨other, hother, rfl⟩ := List.mem_map.mp hmem
            exact (r.isValid_spell _ other).trans (hvalid other hother)
          simp only [(identifiers_of_symbols hvalid).2, (identifiers_of_symbols hvalid').2]
          by_cases hdistinct : names.Nodup
          · rw [if_pos hdistinct, if_pos (r.distinct_spell ⟨hvalid, hdistinct⟩ hfresh).nodup]
            exact related_newClosure hscope ⟨hvalid, hdistinct⟩ (.inl rfl) hlocal hbody
          · rw [if_neg hdistinct, if_neg fun h => hdistinct (h.of_map _)]
            exact related_throw rfl

theorem related_evaluateLambda {tail tail' : List (Datum H)} (hscope : scope < world.zone.scopes)
    (htail : List.Forall₂ (r.Variant start.store.frames.size (world.zone.within scope)) tail tail') :
    (r.pairing start).Related world (r.pairing start).Value (evaluateLambda scope tail)
      (evaluateLambda scope tail') := by
  have hlength := htail.length_eq
  by_cases htwo : tail.length = 2
  · obtain ⟨parameters, body, rfl⟩ := List.length_eq_two.mp htwo
    obtain ⟨parameters', body', rfl⟩ := List.length_eq_two.mp (hlength.symm.trans htwo)
    rcases htail with _ | ⟨hparameters, _ | ⟨hbody, _⟩⟩
    cases hitems : parameters.items? with
    | none =>
        simp only [evaluateLambda, hitems, hparameters.items?_eq_none hitems]
        exact related_blame (fun _ _ => rfl) hparameters.isWritable_eq
    | some items =>
        obtain ⟨-, rfl, rfl⟩ | ⟨items', hitems', hvariants⟩ := hparameters.items hitems
        · -- The lambda stands where parameters should, so both sides refuse its own parameters.
          have hfirst : evaluateLambda scope [r.lambda, body] = throw
              ((Datum.combination (r.parameters.map .symbol)).blame .lambdaParameter) :=
            evaluateLambda_of_nested (by decide) _ _ body
          have hsecond : evaluateLambda scope [r.respelled, body'] = throw
              ((Datum.combination (Datum.respellAll (r.spell true)
                (r.parameters.map .symbol))).blame .lambdaParameter) :=
            evaluateLambda_of_nested ((r.isValid_spell true "lambda").trans (by decide)) _ _ body'
          rw [hfirst, hsecond]
          exact related_blame (fun _ _ => rfl) (Datum.allWritable_respellAll _ _)
        · exact related_parameters hscope hitems hitems' hvariants hbody
  · rw [evaluateLambda_shape scope htwo, evaluateLambda_shape scope (hlength ▸ htwo)]
    exact related_throw rfl

theorem evaluateLambda_of_distinct {names : List String} (h : Identifier.Distinct names)
    (body : Datum H) : evaluateLambda scope [.combination (names.map .symbol), body] =
      newClosure (names.map .symbol) body scope := by
  obtain ⟨hfind, hfilter⟩ := identifiers_of_symbols (H := H) h.isValid
  simp only [evaluateLambda, Datum.items?, hfind, hfilter, if_pos h.nodup]

/-- The lambda and its respelling make closures that correspond. -/
theorem shape_lambda (hscope : scope < world.zone.scopes) :
    (r.pairing start).Shape true true world scope scope r.lambda r.respelled := by
  refine .settled fun recur recur' => ?_
  have hlocal : ∀ name ∈ r.parameters, Datum.Occurs (.symbol name) r.lambda := fun name hmem =>
    .item rfl (List.mem_cons_of_mem _ List.mem_cons_self)
      (.item rfl (List.mem_map_of_mem hmem) .self)
  have hfresh : true = true -> r.new ∉ r.parameters := fun _ hmem =>
    r.ne_new_of_occurs (hlocal _ hmem) rfl
  have hbody : Datum.Occurs r.body r.lambda := .item rfl (by simp) .self
  have hfirst : activate true recur scope r.lambda =
      newClosure (r.parameters.map .symbol) r.body scope :=
    evaluateLambda_of_distinct r.distinct r.body
  have hsecond : activate true recur' scope r.respelled =
      newClosure ((r.parameters.map (r.spell true)).map .symbol) (r.body.respell (r.spell true))
        scope := by
    have hitems : r.respelled.items? = some [.symbol (r.spell true "lambda"),
        .combination ((r.parameters.map (r.spell true)).map .symbol),
        r.body.respell (r.spell true)] := by
      rw [← Datum.map_symbol_respell, ← Datum.respellAll_eq_map]
      rfl
    have hkeyword : Keyword.ofDatum? (.symbol (r.spell true "lambda") : Datum H) = some .lambda :=
      r.ofName?_spell true "lambda"
    rw [activate_of_items _ _ hitems]
    simp only [evaluateItems, hkeyword]
    exact evaluateLambda_of_distinct (r.distinct_spell r.distinct hfresh) _
  rw [hfirst, hsecond]
  exact related_newClosure hscope r.distinct (.inr ⟨rfl, r.mem⟩) (fun _ => hlocal) (.respelled hbody)

theorem shape_define {e e' operator operator' : Datum H} {tail tail' : List (Datum H)}
    (hscope : scope < world.zone.scopes) (hitems : e.items? = some (operator :: tail))
    (hitems' : e'.items? = some (operator' :: tail'))
    (hkeyword : Keyword.ofDatum? operator = some .define)
    (hkeyword' : Keyword.ofDatum? operator' = some .define)
    (htail : List.Forall₂ (r.Variant start.store.frames.size (world.zone.within scope)) tail tail') :
    (r.pairing start).Shape true true world scope scope e e' := by
  have hlength := htail.length_eq
  by_cases htwo : tail.length = 2
  · obtain ⟨target, form, rfl⟩ := List.length_eq_two.mp htwo
    obtain ⟨target', form', rfl⟩ := List.length_eq_two.mp (hlength.symm.trans htwo)
    rcases htail with _ | ⟨htarget, _ | ⟨hform, _⟩⟩
    have hidentifier := htarget.identifier?_eq
    cases hname : target.identifier? with
    | some name =>
        rw [hname, Option.map_some] at hidentifier
        refine .definition hitems hitems' hkeyword hkeyword' hname hidentifier ⟨rfl, hscope, hform⟩
          fun {after v v'} hlater hvalue => ?_
        obtain ⟨rfl, -⟩ := Datum.identifier?_eq_some_iff.mp hname
        rw [← hlater.within_eq hscope] at hidentifier htarget
        refine related_define hname hidentifier (fun hwithin => ?_) hvalue
        exact r.ne_new_of_occurs (htarget.symbol.2 hwithin)
    | none =>
        rw [hname, Option.map_none] at hidentifier
        refine .settled fun recur recur' => ?_
        rw [activate_of_items _ _ hitems, activate_of_items _ _ hitems']
        simp only [evaluateItems, hkeyword, hkeyword', evaluateForm, evaluateDefine, hname,
          hidentifier]
        exact related_blame (fun _ _ => rfl) htarget.isWritable_eq
  · refine .settled fun recur recur' => ?_
    rw [activate_of_items _ _ hitems, activate_of_items _ _ hitems']
    simp only [evaluateItems, hkeyword, hkeyword', evaluateForm]
    rw [evaluateDefine_shape _ _ htwo, evaluateDefine_shape _ _ (hlength ▸ htwo)]
    exact related_throw rfl

theorem shape_items {e e' : Datum H} {items items' : List (Datum H)}
    (hscope : scope < world.zone.scopes) (hitems : e.items? = some items)
    (hitems' : e'.items? = some items')
    (hvariants : List.Forall₂ (r.Variant start.store.frames.size (world.zone.within scope))
      items items') :
    (r.pairing start).Shape true true world scope scope e e' := by
  cases hvariants with
  | nil =>
      refine .settled fun recur recur' => ?_
      rw [activate_of_items _ _ hitems, activate_of_items _ _ hitems']
      exact related_throw rfl
  | @cons operator operator' operands operands' hoperator hoperands =>
      have hkeyword' := hoperator.ofDatum?_eq
      have hcodes : List.Forall₂ ((r.pairing start).Code world scope scope) operands operands' :=
        hoperands.imp fun _ _ hoperand => ⟨rfl, hscope, hoperand⟩
      cases hkeyword : Keyword.ofDatum? operator with
      | none =>
          exact .application hitems hitems' hkeyword (hkeyword'.trans hkeyword)
            ⟨rfl, hscope, hoperator⟩ hcodes
      | some keyword =>
          cases keyword with
          | define =>
              exact shape_define hscope hitems hitems' hkeyword (hkeyword'.trans hkeyword) hoperands
          | begin => exact .sequence hitems hitems' hkeyword (hkeyword'.trans hkeyword) hcodes
          | lambda =>
              refine .settled fun recur recur' => ?_
              rw [activate_of_items _ _ hitems, activate_of_items _ _ hitems']
              simp only [evaluateItems, hkeyword', hkeyword]
              exact related_evaluateLambda hscope hoperands

theorem shape_of_variant (hsource : r.lambda.IsSource) {e e' : Datum H}
    (hscope : scope < world.zone.scopes)
    (hvariant : r.Variant start.store.frames.size (world.zone.within scope) e e') :
    (r.pairing start).Shape true true world scope scope e e' := by
  cases hitems : e.items? with
  | some items =>
      obtain ⟨-, rfl, rfl⟩ | ⟨items', hitems', hvariants⟩ := hvariant.items hitems
      · exact shape_lambda hscope
      · exact shape_items hscope hitems hitems' hvariants
  | none =>
      refine .settled fun recur recur' => ?_
      by_cases hsymbol : ∃ name, e = .symbol name
      · obtain ⟨name, rfl⟩ := hsymbol
        obtain ⟨rfl, hlocal⟩ := hvariant.symbol
        exact related_lookup fun hwithin => r.ne_new_of_occurs (hlocal hwithin)
      · have hsymbol := not_exists.mp hsymbol
        rw [hvariant.eq_of_atom hitems hsymbol, activate_of_atom _ _ hitems hsymbol,
          activate_of_atom _ _ hitems hsymbol]
        exact .pure (alike_self world.beside.outside world.beside.start_le
          (hvariant.proper hsource))

/-! ## Evaluations -/

variable (r) (start)

def coupling (hhost : Host.Opaque H) (hsource : r.lambda.IsSource) : Coupling H true true where
  toPairing := r.pairing start
  value_later hlater h := h.mono fun _ _ => Made.mono hlater
  code_later hlater h := by
    obtain ⟨rfl, hscope, hvariant⟩ := h
    rw [← hlater.within_eq hscope] at hvariant
    exact ⟨rfl, Nat.lt_of_lt_of_le hscope hlater.scopes_le, hvariant⟩
  value_nil _ := .atom rfl (by simp)
  exhausted world := ⟨rfl, world.beside.history⟩
  shape := by
    rintro world scope _ e e' ⟨rfl, hscope, hvariant⟩
    exact shape_of_variant hsource hscope hvariant
  head hvalue := head_of_alike hhost hvalue

inductive ResultsAlike : EStateM.Result Failure (Machine H) (Datum H) ->
    EStateM.Result Failure (Machine H) (Datum H) -> Prop where
  | returned {v v' : Datum H} {a b : Machine H} (hvalue : v.Alike r.Twins v')
      (hhistory : r.HistoriesAlike start a b) : ResultsAlike (.ok v a) (.ok v' b)
  | failed {failure failure' : Failure} {a b : Machine H} (hkind : failure.kind = failure'.kind)
      (hhistory : r.HistoriesAlike start a b) : ResultsAlike (.error failure a) (.error failure' b)

end Respelling

/--
A parameter of a lambda can be spelled in another way.  Let one occurrence of a lambda in an
expression that was read be respelled.  From any scope of any session, strict evaluations of
the two expressions call the same host functions on operands that look alike, and return
values that look alike or fail in one kind of way, whatever the names are bound to outside.
Values that look alike are equal but for closures, which are the same as before, have the
lambda in their bodies respelled, or were made from the lambda or in it and are respelled.
-/
theorem respelled_parameter_keeps_meaning [Host H] (hhost : Host.Opaque H) {session : Session H}
    (hreachable : session.Reachable) {scope : Nat} (hscope : scope < session.scopes)
    {limit : Nat} {source : String} {e e' : Datum H} (hparse : parse limit source = .ok e)
    (r : Respelling H) (hreplaces : r.Replaces e e') (depth : Nat) :
    r.ResultsAlike session.machine (evaluate true depth scope e session.machine)
      (evaluate true depth scope e' session.machine) := by
  have hproper := (hreachable.proper hhost.makesNoClosures).machine
  have hread := isSource_of_parse hparse
  have hsource : r.lambda.IsSource := fun part hpart =>
    hread part (hpart.trans hreplaces.occurs)
  have hrelated : (r.pairing session.machine).Related
      ⟨session.machine, session.machine, _, Respelling.Beside.self hproper⟩
      (r.pairing session.machine).Value (evaluate true depth scope e)
      (evaluate true depth scope e') :=
    (r.coupling session.machine hhost hsource).related_evaluate depth
      ⟨rfl, hscope, .replaced hreplaces (hread.proper _)⟩
  unfold Pairing.Related at hrelated
  generalize evaluate true depth scope e session.machine = first at hrelated ⊢
  generalize evaluate true depth scope e' session.machine = second at hrelated ⊢
  cases hrelated with
  | @returned after _ _ _ hvalue =>
      exact .returned (hvalue.mono fun _ _ => Respelling.Made.twins) after.beside.history
  | failed hended => exact .failed hended.1 hended.2
  | excused hexcused => exact hexcused.elim

/-- A body that binds the parameter anew, and returns a closure that looks for it. -/
def countingBody (name : String) : Datum Builtin :=
  .combination [.symbol "begin",
    .combination [.symbol "define", .symbol name,
      .combination [.symbol "+", .symbol name, .number (.int 1)]],
    .lambda ["w"] (.combination [.symbol "+", .symbol name, .symbol "w"])]

def countingRespelling : Respelling Builtin where
  parameters := ["x"]
  body := countingBody "x"
  old := "x"
  new := "z"
  distinct := ⟨by decide, by decide⟩
  mem := by decide
  isValid_new := by decide
  old_not_keyword := by decide
  new_not_keyword := by decide
  fresh := by
    have hone : ¬ Datum.Occurs (.symbol "z") (.number (.int 1) : Datum Builtin) :=
      fun h => by cases h.eq_of_atom rfl rfl
    simp [Datum.lambda, countingBody, Datum.occurs_combination_iff, Datum.occurs_symbol_iff, hone]

theorem countingRespelling_respelled :
    countingRespelling.respelled = .lambda ["z"] (countingBody "z") := by
  simp [Respelling.respelled, Respelling.lambda, Datum.lambda, countingRespelling, countingBody,
    Datum.respell, Datum.respellAll, Respelling.spell]

def countingSession : Session Builtin :=
  Session.fresh.perform (.openRoot [(.text "+", .function .add),
    (.text "x", .number (.int 5)), (.text "z", .number (.int 3))])

theorem countingSession_reachable : countingSession.Reachable := by
  refine .perform .fresh fun entry hmem birth parameters body scope hpart => ?_
  simp only [List.mem_cons, List.not_mem_nil, or_false] at hmem
  rcases hmem with rfl | rfl | rfl
  · cases hpart.eq_of_atom rfl rfl
  · cases hpart.eq_of_atom rfl rfl
  · cases hpart.eq_of_atom rfl rfl

/-- The new name is that of the operand, which is bound outside. -/
theorem counting_keeps_meaning :
    let first : Datum Builtin := .combination [.lambda ["x"] (countingBody "x"), .symbol "z"]
    let second : Datum Builtin := .combination [.lambda ["z"] (countingBody "z"), .symbol "z"]
    let run := fun e => evaluate true 9 0 e countingSession.machine
    let made : String -> Datum Builtin := fun name =>
      .closure 1 [.symbol "w"] (.combination [.symbol "+", .symbol name, .symbol "w"]) 1
    Host.Opaque Builtin ∧ countingSession.Reachable ∧ 0 < countingSession.scopes ∧
      parse 9 "((lambda (x) (begin (define x (+ x 1)) (lambda (w) (+ x w)))) z)" = .ok first ∧
      countingRespelling.Replaces first second ∧
      Action.outcome (run first) = .ok (made "x") ∧
      Action.outcome (run second) = .ok (made "z") ∧
      countingRespelling.ResultsAlike countingSession.machine (run first) (run second) := by
  intro first second run made
  have hparse :
      parse 9 "((lambda (x) (begin (define x (+ x 1)) (lambda (w) (+ x w)))) z)" = .ok first := by
    rfl
  have hreplaces : countingRespelling.Replaces first second := by
    have hhere : countingRespelling.Replaces (.lambda ["x"] (countingBody "x"))
        (.lambda ["z"] (countingBody "z")) := by
      rw [← countingRespelling_respelled]
      exact .here
    exact .inside [] [_] hhere
  exact ⟨opaque_builtin, countingSession_reachable, by decide, hparse, hreplaces, by rfl, by rfl,
    respelled_parameter_keeps_meaning opaque_builtin countingSession_reachable (by decide) hparse
      countingRespelling hreplaces 9⟩

end Reckoner
