import Reckoner.Proofs.Correspondence.Coupling
import Reckoner.Proofs.Correspondence.Renaming

/-!
# Simulations

Two evaluations correspond if they start from corresponding machines and go step
by step through corresponding ones, up to a renaming of scopes and births.  A
`Simulation` says what corresponds and how every primitive of the evaluator keeps
it: lookups, bindings, births, new scopes and calls of host functions.  So it is a
coupling of one expression with its renaming, and whole evaluations keep it
(`Simulation.agree_evaluate`).

A simulation of an evaluation by itself is an invariant.
-/

namespace Reckoner

open Evaluation

variable {H α β : Type}

namespace Machine

def horizon (machine : Machine H) : Horizon :=
  ⟨machine.store.frames.size, machine.births⟩

/-- What an evaluation leaves of a machine: scopes stay in their places. -/
structure Later (before after : Machine H) : Prop where
  horizon_le : before.horizon.Le after.horizon
  outer_eq : ∀ {scope : Nat} {frame : Frame H}, before.store.frame? scope = some frame ->
    ∃ bindings, after.store.frame? scope = some ⟨bindings, frame.outer⟩

namespace Later

theorem refl (machine : Machine H) : Later machine machine :=
  ⟨.refl _, fun h => ⟨_, h⟩⟩

theorem trans {first second third : Machine H} (h : Later first second)
    (h' : Later second third) : Later first third := by
  refine ⟨h.horizon_le.trans h'.horizon_le, fun hframe => ?_⟩
  obtain ⟨middle, hmiddle⟩ := h.outer_eq hframe
  obtain ⟨last, hlast⟩ := h'.outer_eq hmiddle
  exact ⟨last, hlast⟩

theorem bear (machine : Machine H) : Later machine machine.bear :=
  ⟨⟨Nat.le_refl _, Nat.le_succ _⟩, fun h => ⟨_, h⟩⟩

theorem record (machine : Machine H) (event : Event H) : Later machine (machine.record event) := by
  refine ⟨⟨machine.store.size_le_after event, Nat.le_refl _⟩, fun {scope frame} hframe => ?_⟩
  cases event with
  | called function operands outcome => exact ⟨_, hframe⟩
  | opened outer =>
      have hlt := (Array.getElem?_eq_some_iff.mp hframe).1
      exact ⟨_, (Store.frame?_push_of_lt _ _ hlt).trans hframe⟩
  | bound inner name value =>
      by_cases h : inner = scope
      · subst h
        refine ⟨(frame.bind name value).bindings, ?_⟩
        exact (Store.frame?_bind_self ..).trans (congrArg (Option.map _) hframe)
      · exact ⟨_, (Store.frame?_bind_of_ne _ h _ _).trans hframe⟩

end Later

end Machine

theorem Effects.later {scope : Nat} {before after : Machine H} (h : Effects scope before after) :
    before.Later after := by
  induction h with
  | refl => exact .refl _
  | trans _ _ hfirst hsecond => exact hfirst.trans hsecond
  | born => exact .bear _
  | called function operands outcome => exact .record _ _
  | bound name value => exact .record _ _
  | within outer _ ih => exact (Machine.Later.record _ _).trans ih

/-- Whether a failure is one that evaluation does not bring up without a host function. -/
def Failure.isRaised : Failure -> Bool
  | .raised _ _ _ => true
  | .calculation _ => true
  | .noValue _ => true
  | .unhashable => true
  | _ => false

def Failure.isUnbindable : Failure -> Bool
  | .invalidIdentifier _ => true
  | _ => false

theorem Datum.isRaised_blame [Host H] {cause : String -> Failure}
    (hcause : ∀ shown, (cause shown).isRaised = false) (d : Datum H) :
    (d.blame cause).isRaised = false := by
  unfold blame
  split
  · exact hcause _
  · rfl

theorem Datum.isUnbindable_blame [Host H] {cause : String -> Failure}
    (hcause : ∀ shown, (cause shown).isUnbindable = false) (d : Datum H) :
    (d.blame cause).isUnbindable = false := by
  unfold blame
  split
  · exact hcause _
  · rfl

theorem Datum.isRaised_blameDisplayed [Host H] {cause : String -> Failure}
    (hcause : ∀ shown, (cause shown).isRaised = false) (d : Datum H) :
    (d.blameDisplayed cause).isRaised = false := by
  unfold blameDisplayed
  split
  · exact hcause _
  · rfl

/--
A correspondence between an evaluation and another that may be less strict.  Data
and scopes on the second side are those on the first, renamed; so what is asked of
values and of code is asked on the first side only.
-/
structure Simulation (H : Type) [Host H] (strict lax : Bool) where
  move : Renaming
  /-- Machines between two steps. -/
  Machines : Machine H -> Machine H -> Prop
  /-- Values that have been computed. -/
  Value : Machine H -> Datum H -> Prop
  /-- Expressions that may be evaluated in a scope. -/
  Code : Machine H -> Nat -> Datum H -> Prop
  /-- Machines in which both sides have failed. -/
  Ended : Failure -> Machine H -> Machine H -> Prop
  /-- Failures of the first side that the second need not share. -/
  Excused : Failure -> Machine H -> Prop
  stricter : lax ≤ strict
  value_later : ∀ {a after v}, a.Later after -> Value a v -> Value after v
  code_later : ∀ {a after scope e}, a.Later after -> Code a scope e -> Code after scope e
  ended : ∀ {a b failure}, Machines a b -> failure.isRaised = false ->
    failure.isUnbindable = false -> Ended failure a b
  mismatch : ∀ {a b expected given}, Machines a b -> strict ≠ lax -> given ≠ expected ->
    Excused (.arityMismatch expected given) a
  value_nil : ∀ {a}, Value a .nil
  atom : ∀ {a scope e}, Code a scope e -> e.items? = none -> (∀ name, e ≠ .symbol name) -> Value a e
  operator : ∀ {a scope e operator operands}, Code a scope e ->
    e.items? = some (operator :: operands) -> Keyword.ofDatum? operator = none ->
      Code a scope operator
  operand : ∀ {a scope e operator operands operand}, Code a scope e ->
    e.items? = some (operator :: operands) -> Keyword.ofDatum? operator ≠ some .lambda ->
      operand ∈ operands -> Code a scope operand
  lambda : ∀ {a b scope e operator parameters body items}, Machines a b -> Code a scope e ->
    e.items? = some [operator, parameters, body] -> parameters.items? = some items ->
      (∀ item ∈ items, item.identifier?.isSome) -> (items.filterMap Datum.identifier?).Nodup ->
        Value a.bear (.closure a.births items body scope)
  lookup : ∀ {a b scope name}, Machines a b -> Code a scope (.symbol name) ->
    b.store.lookup? (move.scope scope) name =
        (a.store.lookup? scope name).map (Datum.rename move) ∧
      ∀ v, a.store.lookup? scope name = some v -> Value a v
  bound : ∀ {a b scope name v}, Machines a b -> Identifier.isValid name = true -> Value a v ->
    Machines (a.record (.bound scope name v))
      (b.record (Event.rename move (.bound scope name v)))
  born : ∀ {a b}, Machines a b ->
    move.birth a.births = b.births ∧ Machines a.bear b.bear
  nan : ∀ {a b}, Machines a b -> Value a.bear (.nan a.births)
  opened : ∀ {a b birth parameters body outer}, Machines a b ->
    Value a (.closure birth parameters body outer) ->
      move.scope a.store.frames.size = b.store.frames.size ∧
      Machines (a.record (.opened (some outer)))
        (b.record (Event.rename move (.opened (some outer)))) ∧
      Code (a.record (.opened (some outer))) a.store.frames.size body
  refused : ∀ {a b birth parameters body outer parameter}, Machines a b ->
    Value a (.closure birth parameters body outer) -> parameter ∈ parameters ->
      parameter.identifier? = none -> Ended (parameter.blameDisplayed .invalidIdentifier) a b
  call_rename : ∀ (function : H) (operands : List (Datum H)),
    Host.call function (operands.map (Datum.rename move)) =
      (Host.call function operands).map (Datum.rename move)
  raised : ∀ {a b function operands failure}, Machines a b -> (∀ v ∈ operands, Value a v) ->
    Host.call function operands = .error failure ->
      Ended failure (a.record (.called function operands (.error failure)))
        (b.record (Event.rename move (.called function operands (.error failure))))
  absent : ∀ {a b function operands}, Machines a b -> (∀ v ∈ operands, Value a v) ->
    Host.call function operands = .ok .absent ->
      Ended (.noValue (Host.title function)) (a.record (.called function operands (.ok .absent)))
        (b.record (Event.rename move (.called function operands (.ok .absent))))
  returned : ∀ {a b function operands value}, Machines a b -> (∀ v ∈ operands, Value a v) ->
    Host.call function operands = .ok value -> value ≠ .absent ->
      Machines (a.record (.called function operands (.ok value)))
        (b.record (Event.rename move (.called function operands (.ok value)))) ∧
      (value.isNewNaN = false -> Value (a.record (.called function operands (.ok value))) value)

namespace Simulation

variable [Host H] {strict lax : Bool} (S : Simulation H strict lax)

/-! ## Two machines -/

def Same (a : Machine H) (v w : Datum H) : Prop :=
  w = v.rename S.move ∧ S.Value a v

structure World where
  first : Machine H
  second : Machine H
  machines : S.Machines first second

abbrev pairing : Pairing H where
  World := S.World
  first := World.first
  second := World.second
  Later before after := before.first.Later after.first
  later_refl world := .refl world.first
  later_trans h h' := h.trans h'
  Value world := S.Same world.first
  Code world scope scope' e e' :=
    scope' = S.move.scope scope ∧ e' = e.rename S.move ∧ S.Code world.first scope e
  Ended failure a failure' b := failure' = failure ∧ S.Ended failure a b
  Excused := S.Excused

variable {S} {world : S.World}

theorem agree_returned {Good : S.World -> α -> β -> Prop} {v : α} {w : β} {a b : Machine H}
    (hmachines : S.Machines a b) (hlater : world.first.Later a) (hgood : Good ⟨a, b, hmachines⟩ v w) :
    S.pairing.Agree world Good (.ok v a) (.ok w b) :=
  @Pairing.Agree.returned H α β S.pairing world Good ⟨a, b, hmachines⟩ v w hlater hgood

theorem related_throw {Good : S.World -> α -> β -> Prop} {failure : Failure}
    (hraised : failure.isRaised = false) (hunbindable : failure.isUnbindable = false) :
    S.pairing.Related world Good (throw failure) (throw failure) :=
  .throw ⟨rfl, S.ended world.machines hraised hunbindable⟩

theorem related_blame {Good : S.World -> α -> β -> Prop} {cause : String -> Failure}
    (hraised : ∀ shown, (cause shown).isRaised = false)
    (hunbindable : ∀ shown, (cause shown).isUnbindable = false) (d : Datum H) :
    S.pairing.Related world Good (throw (d.blame cause)) (throw ((d.rename S.move).blame cause)) := by
  rw [Datum.blame_rename]
  exact related_throw (Datum.isRaised_blame hraised d) (Datum.isUnbindable_blame hunbindable d)

/-! ## Primitives -/

section Primitives

theorem related_lookup {scope : Nat} {name : String}
    (hcode : S.Code world.first scope (.symbol name)) :
    S.pairing.Related world S.pairing.Value (Evaluation.lookup scope name)
      (Evaluation.lookup (S.move.scope scope) name) := by
  obtain ⟨hrenamed, hvalue⟩ := S.lookup world.machines hcode
  unfold Pairing.Related Evaluation.lookup pairing
  dsimp only
  rw [hrenamed]
  cases h : world.first.store.lookup? scope name with
  | some v => exact agree_returned world.machines (.refl _) ⟨rfl, hvalue v h⟩
  | none => exact .failed ⟨rfl, S.ended world.machines rfl rfl⟩

theorem related_define {scope : Nat} {target v : Datum H} {name : String}
    (hname : target.identifier? = some name) (hvalue : S.Value world.first v) :
    S.pairing.Related world (fun _ _ _ => True) (define scope target v)
      (define (S.move.scope scope) (target.rename S.move) (v.rename S.move)) := by
  have hvalid : Identifier.isValid name = true := (Datum.identifier?_eq_some_iff.mp hname).2
  unfold Pairing.Related define
  rw [Datum.identifier?_rename, hname]
  exact agree_returned (S.bound world.machines hvalid hvalue)
    (.record world.first (.bound scope name v)) trivial

/-- The targets are parameters of a closure that is called. -/
theorem related_bindAll {birth scope outer : Nat} {parameters targets vs : List (Datum H)}
    {body : Datum H} (hhead : S.Value world.first (.closure birth parameters body outer))
    (htargets : targets ⊆ parameters) (hvalues : ∀ v ∈ vs, S.Value world.first v) :
    S.pairing.Related world (fun _ _ _ => True) (bindAll scope (targets.zip vs))
      (bindAll (S.move.scope scope)
        ((targets.map (Datum.rename S.move)).zip (vs.map (Datum.rename S.move)))) := by
  induction targets generalizing vs world with
  | nil => exact .pure trivial
  | cons target targets ih =>
      cases vs with
      | nil => exact .pure trivial
      | cons v vs =>
          obtain ⟨hvalue, hrest⟩ := List.forall_mem_cons.mp hvalues
          obtain ⟨htarget, htargets⟩ := List.cons_subset.mp htargets
          have hfirst : S.pairing.Related world (fun _ _ _ => True) (define scope target v)
              (define (S.move.scope scope) (target.rename S.move) (v.rename S.move)) := by
            cases hname : target.identifier? with
            | some name => exact related_define hname hvalue
            | none =>
                unfold Pairing.Related define
                rw [Datum.identifier?_rename, hname, Datum.blameDisplayed_rename]
                exact .failed ⟨rfl, S.refused world.machines hhead htarget hname⟩
          refine .bind hfirst fun after _ _ hlater _ => ?_
          exact ih (S.value_later hlater hhead) htargets fun w hmem =>
            S.value_later hlater (hrest w hmem)

theorem related_extend {birth outer : Nat} {parameters operands : List (Datum H)} {body : Datum H}
    (hhead : S.Value world.first (.closure birth parameters body outer))
    (hvalues : ∀ v ∈ operands, S.Value world.first v) :
    S.pairing.Related world
      (fun after inner inner' => S.pairing.Code after inner inner' body (body.rename S.move))
      (extend strict parameters outer operands)
      (extend lax (parameters.map (Datum.rename S.move)) (S.move.scope outer)
        (operands.map (Datum.rename S.move))) := by
  unfold extend
  rw [List.length_map, List.length_map]
  by_cases hrefused : (strict && operands.length != parameters.length) = true
  · rw [if_pos hrefused]
    obtain ⟨hstrict, hlength⟩ := Bool.and_eq_true_iff.mp hrefused
    -- The first side refuses the call; the second does so too, or that is excused.
    by_cases hlax : lax = true
    · rw [if_pos (Bool.and_eq_true_iff.mpr ⟨hlax, hlength⟩)]
      exact related_throw rfl rfl
    · refine .excused (S.mismatch world.machines ?_ (by simpa using hlength))
      exact fun h => hlax (h ▸ hstrict)
  · have haccepted : ¬ (lax && operands.length != parameters.length) = true := by
      intro h
      obtain ⟨hlax, hlength⟩ := Bool.and_eq_true_iff.mp h
      exact hrefused (Bool.and_eq_true_iff.mpr ⟨S.stricter hlax, hlength⟩)
    rw [if_neg hrefused, if_neg haccepted]
    obtain ⟨hscope, hopened, hbody⟩ := S.opened world.machines hhead
    have hlater := Machine.Later.record world.first (.opened (some outer))
    have hnew : S.pairing.Related world
        (fun after inner inner' => inner' = S.move.scope inner ∧ S.Code after.first inner body ∧
          world.first.Later after.first)
        (newScope (some outer)) (newScope (some (S.move.scope outer))) :=
      agree_returned hopened hlater ⟨hscope.symm, hbody, hlater⟩
    refine .bind hnew fun middle inner inner' _ hinner => ?_
    obtain ⟨rfl, hcode, hlater⟩ := hinner
    have hbound : S.pairing.Related middle (fun _ _ _ => True)
        (bindAll inner (parameters.zip operands)) (bindAll (S.move.scope inner) _) :=
      related_bindAll (S.value_later hlater hhead) (List.Subset.refl parameters)
        fun v hmem => S.value_later hlater (hvalues v hmem)
    refine .bind hbound fun after _ _ hlater' _ => ?_
    exact .pure ⟨rfl, rfl, S.code_later hlater' hcode⟩

theorem related_adopt {v : Datum H} (hvalue : v.isNewNaN = false -> S.Value world.first v) :
    S.pairing.Related world S.pairing.Value (adopt v) (adopt (v.rename S.move)) := by
  unfold Pairing.Related adopt
  rw [Datum.isNewNaN_rename]
  cases h : v.isNewNaN with
  | true =>
      obtain ⟨hbirth, hborn⟩ := S.born world.machines
      refine agree_returned hborn (.bear world.first) ⟨?_, S.nan world.machines⟩
      rw [Datum.rename, hbirth]
  | false => exact agree_returned world.machines (.refl world.first) ⟨rfl, hvalue h⟩

theorem related_callHost {function : H} {operands : List (Datum H)}
    (hvalues : ∀ v ∈ operands, S.Value world.first v) :
    S.pairing.Related world S.pairing.Value (callHost function operands)
      (callHost function (operands.map (Datum.rename S.move))) := by
  have hrenamed := S.call_rename function operands
  unfold Pairing.Related
  cases hcall : Host.call function operands with
  | error failure =>
      rw [hcall] at hrenamed
      have hended := S.raised world.machines hvalues hcall
      simp only [callHost, hcall, hrenamed]
      exact .failed ⟨rfl, hended⟩
  | ok value =>
      rw [hcall] at hrenamed
      by_cases habsent : value = .absent
      · subst habsent
        have hended := S.absent world.machines hvalues hcall
        simp only [callHost, hcall, hrenamed]
        exact .failed ⟨rfl, hended⟩
      · obtain ⟨hafter, hvalue⟩ := S.returned world.machines hvalues hcall habsent
        have hpresent : value.rename S.move ≠ .absent := by
          cases value <;> simp_all [Datum.rename]
        rw [callHost_of_ok hcall habsent, callHost_of_ok hrenamed hpresent]
        have hadopted : S.pairing.Related ⟨_, _, hafter⟩ S.pairing.Value (adopt value)
          (adopt (value.rename S.move)) := related_adopt hvalue
        exact Pairing.Agree.mono (Machine.Later.record world.first _) hadopted

theorem related_newClosure {scope : Nat} {items : List (Datum H)} {body : Datum H}
    (hvalue : S.Value world.first.bear (.closure world.first.births items body scope)) :
    S.pairing.Related world S.pairing.Value (newClosure items body scope)
      (newClosure (items.map (Datum.rename S.move)) (body.rename S.move)
        (S.move.scope scope)) := by
  obtain ⟨hbirth, hborn⟩ := S.born world.machines
  refine agree_returned hborn (.bear world.first) ⟨?_, hvalue⟩
  rw [Datum.rename, hbirth, Datum.renameAll_eq_map]

end Primitives

/-! ## Expressions -/

theorem related_evaluateLambda {scope : Nat} {e operator : Datum H} {tail : List (Datum H)}
    (hcode : S.Code world.first scope e) (hitems : e.items? = some (operator :: tail)) :
    S.pairing.Related world S.pairing.Value (evaluateLambda scope tail)
      (evaluateLambda (S.move.scope scope) (tail.map (Datum.rename S.move))) := by
  by_cases hlength : tail.length = 2
  · obtain ⟨parameters, body, rfl⟩ := List.length_eq_two.mp hlength
    simp only [List.map_cons, List.map_nil, evaluateLambda, Datum.items?_rename]
    cases hparameters : parameters.items? with
    | none => exact related_blame (fun _ => rfl) (fun _ => rfl) parameters
    | some items =>
        simp only [Option.map_some, Datum.find?_map_rename, Datum.filterMap_map_rename]
        cases hfind : items.find? fun item => item.identifier?.isNone with
        | some item => exact related_blame (fun _ => rfl) (fun _ => rfl) item
        | none =>
            simp only [Option.map_none]
            split
            · rename_i hdistinct
              exact related_newClosure (S.lambda world.machines hcode hitems hparameters
                (isSome_of_find?_eq_none hfind) hdistinct)
            · exact related_throw rfl rfl
  · have hlength' : (tail.map (Datum.rename S.move)).length ≠ 2 := by rwa [List.length_map]
    rw [evaluateLambda_shape _ hlength, evaluateLambda_shape _ hlength', List.length_map]
    exact related_throw rfl rfl

theorem forall₂_code {scope : Nat} {forms : List (Datum H)}
    (h : ∀ form ∈ forms, S.Code world.first scope form) :
    List.Forall₂ (S.pairing.Code world scope (S.move.scope scope)) forms
      (forms.map (Datum.rename S.move)) :=
  List.forall₂_map_right_iff.mpr (List.forall₂_same.mpr fun form hmem => ⟨rfl, rfl, h form hmem⟩)

theorem shape_define {scope : Nat} {e operator : Datum H} {tail : List (Datum H)}
    (hitems : e.items? = some (operator :: tail))
    (hkeyword : Keyword.ofDatum? operator = some .define)
    (htail : ∀ form ∈ tail, S.Code world.first scope form) :
    S.pairing.Shape strict lax world scope (S.move.scope scope) e (e.rename S.move) := by
  have hrenamed : (e.rename S.move).items? =
      some (operator.rename S.move :: tail.map (Datum.rename S.move)) := by
    rw [Datum.items?_rename, hitems, Option.map_some, List.map_cons]
  have hkeyword' := (Datum.ofDatum?_rename S.move operator).trans hkeyword
  by_cases hlength : tail.length = 2
  · obtain ⟨target, form, rfl⟩ := List.length_eq_two.mp hlength
    cases hname : target.identifier? with
    | some name =>
        have hname' := (Datum.identifier?_rename S.move target).trans hname
        refine .definition hitems hrenamed hkeyword hkeyword' hname hname'
          ⟨rfl, rfl, htail form (by simp)⟩ fun {after v v'} _ hsame => ?_
        rw [hsame.1]
        exact related_define hname hsame.2
    | none =>
        refine .settled fun recur recur' => ?_
        rw [activate_of_items _ _ hitems, activate_of_items _ _ hrenamed]
        simp only [evaluateItems, hkeyword, hkeyword', evaluateForm, List.map_cons, List.map_nil,
          evaluateDefine, Datum.identifier?_rename, hname]
        exact related_blame (fun _ => rfl) (fun _ => rfl) target
  · have hlength' : (tail.map (Datum.rename S.move)).length ≠ 2 := by rwa [List.length_map]
    refine .settled fun recur recur' => ?_
    rw [activate_of_items _ _ hitems, activate_of_items _ _ hrenamed]
    simp only [evaluateItems, hkeyword, hkeyword', evaluateForm]
    rw [evaluateDefine_shape _ _ hlength, evaluateDefine_shape _ _ hlength', List.length_map]
    exact related_throw rfl rfl

theorem shape_items {scope : Nat} {e : Datum H} {items : List (Datum H)}
    (hcode : S.Code world.first scope e) (hitems : e.items? = some items) :
    S.pairing.Shape strict lax world scope (S.move.scope scope) e (e.rename S.move) := by
  have hrenamed : (e.rename S.move).items? = some (items.map (Datum.rename S.move)) := by
    rw [Datum.items?_rename, hitems, Option.map_some]
  cases items with
  | nil =>
      refine .settled fun recur recur' => ?_
      rw [activate_of_items _ _ hitems, activate_of_items _ _ hrenamed]
      exact related_throw rfl rfl
  | cons operator operands =>
      have hkeyword' := Datum.ofDatum?_rename S.move operator
      have hoperands : Keyword.ofDatum? operator ≠ some .lambda ->
          ∀ operand ∈ operands, S.Code world.first scope operand :=
        fun hne operand hmem => S.operand hcode hitems hne hmem
      cases hkeyword : Keyword.ofDatum? operator with
      | none =>
          have hoperator := S.operator hcode hitems hkeyword
          exact .application hitems hrenamed hkeyword (hkeyword'.trans hkeyword) ⟨rfl, rfl, hoperator⟩
            (forall₂_code (hoperands (by simp [hkeyword])))
      | some keyword =>
          cases keyword with
          | define => exact shape_define hitems hkeyword (hoperands (by simp [hkeyword]))
          | begin =>
              exact .sequence hitems hrenamed hkeyword (hkeyword'.trans hkeyword)
                (forall₂_code (hoperands (by simp [hkeyword])))
          | lambda =>
              refine .settled fun recur recur' => ?_
              rw [activate_of_items _ _ hitems, activate_of_items _ _ hrenamed]
              simp only [List.map_cons, evaluateItems, hkeyword', hkeyword]
              exact related_evaluateLambda hcode hitems

theorem shape_of_code {scope : Nat} {e : Datum H} (hcode : S.Code world.first scope e) :
    S.pairing.Shape strict lax world scope (S.move.scope scope) e (e.rename S.move) := by
  cases hitems : e.items? with
  | some items => exact shape_items hcode hitems
  | none =>
      refine .settled fun recur recur' => ?_
      cases e with
      | symbol name => exact related_lookup hcode
      | combination items => cases hitems
      | list items => cases hitems
      | _ => exact .pure ⟨rfl, S.atom hcode hitems (by simp)⟩

theorem sameAll {operands operands' : List (Datum H)}
    (h : List.Forall₂ (S.Same world.first) operands operands') :
    operands' = operands.map (Datum.rename S.move) ∧ ∀ v ∈ operands, S.Value world.first v := by
  induction h with
  | nil => exact ⟨rfl, by simp⟩
  | cons hsame _ ih =>
      exact ⟨by rw [hsame.1, ih.1, List.map_cons], List.forall_mem_cons.mpr ⟨hsame.2, ih.2⟩⟩

theorem head_of_value {v : Datum H} (hvalue : S.Value world.first v) :
    S.pairing.Head strict lax world v (v.rename S.move) := by
  cases v with
  | closure birth parameters body outer =>
      rw [Datum.rename, Datum.renameAll_eq_map]
      refine .closure fun {operands operands'} hoperands => ?_
      obtain ⟨rfl, hvalues⟩ := sameAll hoperands
      exact related_extend hvalue hvalues
  | function f =>
      refine .function fun {operands operands'} hoperands => ?_
      obtain ⟨rfl, hvalues⟩ := sameAll hoperands
      exact related_callHost hvalues
  | _ => exact .refused rfl rfl ⟨Datum.blame_rename .., S.ended world.machines
      (Datum.isRaised_blame (fun _ => rfl) _) (Datum.isUnbindable_blame (fun _ => rfl) _)⟩

/-! ## Evaluations -/

variable (S)

def coupling : Coupling H strict lax where
  toPairing := S.pairing
  value_later hlater h := ⟨h.1, S.value_later hlater h.2⟩
  code_later hlater h := ⟨h.1, h.2.1, S.code_later hlater h.2.2⟩
  value_nil _ := ⟨rfl, S.value_nil⟩
  exhausted world := ⟨rfl, S.ended world.machines rfl rfl⟩
  shape := by
    rintro world scope _ e _ ⟨rfl, rfl, hcode⟩
    exact shape_of_code hcode
  head := by
    rintro world v _ ⟨rfl, hvalue⟩
    exact head_of_value hvalue

inductive Agree (before : Machine H) (Good : Machine H -> α -> β -> Prop) :
    EStateM.Result Failure (Machine H) α -> EStateM.Result Failure (Machine H) β -> Prop where
  | returned {v : α} {w : β} {a b : Machine H} (hlater : before.Later a)
      (hmachines : S.Machines a b) (hgood : Good a v w) : Agree before Good (.ok v a) (.ok w b)
  | failed {failure : Failure} {a b : Machine H} (hended : S.Ended failure a b) :
      Agree before Good (.error failure a) (.error failure b)
  | excused {failure : Failure} {a : Machine H} {result : EStateM.Result Failure (Machine H) β}
      (hexcused : S.Excused failure a) : Agree before Good (.error failure a) result

/-- Corresponding evaluations give corresponding results, at every bound on nesting. -/
theorem agree_evaluate (depth : Nat) {a b : Machine H} {scope : Nat} {e : Datum H}
    (hcode : S.Code a scope e) (hmachines : S.Machines a b) :
    S.Agree a S.Same (evaluate strict depth scope e a)
      (evaluate lax depth (S.move.scope scope) (e.rename S.move) b) := by
  have hrelated : S.pairing.Related ⟨a, b, hmachines⟩ S.pairing.Value
      (evaluate strict depth scope e)
      (evaluate lax depth (S.move.scope scope) (e.rename S.move)) :=
    S.coupling.related_evaluate depth ⟨rfl, rfl, hcode⟩
  unfold Pairing.Related at hrelated
  generalize evaluate strict depth scope e a = first at hrelated ⊢
  generalize evaluate lax depth (S.move.scope scope) (e.rename S.move) b = second at hrelated ⊢
  cases hrelated with
  | returned hlater hgood => exact .returned hlater (World.machines _) hgood
  | failed hended =>
      obtain ⟨rfl, hended⟩ := hended
      exact .failed hended
  | excused hexcused => exact .excused hexcused

/-- Without a renaming, corresponding evaluations are those of one expression in one scope. -/
theorem agree_of_identity (S : Simulation H strict lax) (hmove : S.move = .identity)
    (depth scope : Nat) {a b : Machine H} {e : Datum H} (hcode : S.Code a scope e)
    (hmachines : S.Machines a b) :
    S.Agree a S.Same (evaluate strict depth scope e a) (evaluate lax depth scope e b) := by
  have hagree := S.agree_evaluate depth hcode hmachines
  rw [hmove, Datum.rename_identity] at hagree
  exact hagree

/-- Without a renaming, corresponding values are equal. -/
theorem Same.eq_of_identity {S : Simulation H strict lax} (hmove : S.move = .identity)
    {a : Machine H} {v w : Datum H} (h : S.Same a v w) : w = v := by
  rw [h.1, hmove, Datum.rename_identity]

end Simulation

end Reckoner
