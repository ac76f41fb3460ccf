import Reckoner.Proofs.Correspondence.Closedness
import Reckoner.Proofs.Correspondence.Discipline

/-!
# Sessions

A host makes scopes, binds names in them, and has expressions evaluated in any scope
that exists.  What it puts into tables, bindings and expressions may hold closures,
but only such as it has got from the session before.  Whatever the requests, and
whether they succeed or fail, names and scopes stay in order.
-/

namespace Reckoner

open Evaluation

variable {H : Type}

structure Session (H : Type) where
  machine : Machine H
  returned : List (Datum H)

inductive Request (H : Type) where
  | create (outer : Option Nat)
  | openRoot (table : Table H)
  | define (scope : Nat) (target value : Datum H)
  | update (scope : Nat) (entries : List (Datum H × Datum H))
  | evaluate (strict : Bool) (depth scope : Nat) (expression : Datum H)

namespace Session

def fresh : Session H :=
  ⟨.empty, []⟩

def scopes (session : Session H) : Nat :=
  session.machine.store.frames.size

def withStore (session : Session H) (store : Store H) : Session H :=
  ⟨⟨store, session.machine.births, session.machine.events⟩, session.returned⟩

/-- The session after a request. One that fails keeps what was done before it failed. -/
def perform [Host H] (session : Session H) : Request H -> Session H
  | .create outer => session.withStore (session.machine.store.create outer).2
  | .openRoot table => session.withStore (session.machine.store.openRoot table).2
  | .define scope target value =>
      match session.machine.store.define scope target value with
      | .ok store => session.withStore store
      | .error _ => session
  | .update scope entries => session.withStore (session.machine.store.update scope entries).2
  | .evaluate strict depth scope expression =>
      match Reckoner.evaluate strict depth scope expression session.machine with
      | .ok value machine => ⟨machine, value :: session.returned⟩
      | .error _ machine => ⟨machine, session.returned⟩

/-- A datum that the host can get hold of: it was returned, is bound, or was passed to a function. -/
inductive Holds (session : Session H) (d : Datum H) : Prop where
  | returned {value : Datum H} (hmem : value ∈ session.returned) (h : Datum.Occurs d value)
  | bound {scope : Nat} {frame : Frame H} {binding : String × Datum H}
      (hframe : session.machine.store.frame? scope = some frame)
      (hmem : binding ∈ frame.bindings) (h : Datum.Occurs d binding.2)
  | passed {function : H} {operands : List (Datum H)} {outcome : Except Failure (Datum H)}
      {operand : Datum H} (hevent : .called function operands outcome ∈ session.machine.events)
      (hmem : operand ∈ operands) (h : Datum.Occurs d operand)

def Provides (session : Session H) (d : Datum H) : Prop :=
  ∀ birth parameters body scope, Datum.Occurs (.closure birth parameters body scope) d ->
    session.Holds (.closure birth parameters body scope)

theorem provides_of_isSource {d : Datum H} (h : d.IsSource) (session : Session H) :
    session.Provides d := by
  intro birth parameters body scope hpart
  cases (h _ hpart).2

end Session

/-- A request is about scopes that exist and brings in no closures of its own. -/
def Request.Permitted (session : Session H) : Request H -> Prop
  | .create outer => ∀ scope, outer = some scope -> scope < session.scopes
  | .openRoot table => ∀ entry ∈ table, session.Provides entry.2
  | .define scope _ value => scope < session.scopes ∧ session.Provides value
  | .update scope entries => scope < session.scopes ∧ ∀ entry ∈ entries, session.Provides entry.2
  | .evaluate _ _ scope expression => scope < session.scopes ∧ session.Provides expression

inductive Session.Reachable [Host H] : Session H -> Prop where
  | fresh : Reachable .fresh
  | perform {session : Session H} {request : Request H} (h : Reachable session)
      (hpermitted : request.Permitted session) : Reachable (session.perform request)

namespace Session

/-! ## What a request keeps -/

structure Proper (session : Session H) : Prop where
  machine : session.machine.Proper
  returned : ∀ value ∈ session.returned, value.Proper session.scopes

namespace Proper

variable {session : Session H}

theorem holds (h : session.Proper) {d : Datum H} (hd : session.Holds d) :
    d.IsProper session.scopes := by
  cases hd with
  | returned hmem hvalue => exact h.returned _ hmem _ hvalue
  | bound hframe hmem hvalue => exact h.machine.holds _ _ hframe _ hmem _ hvalue
  | passed hevent hmem hvalue => exact h.machine.called hevent _ hmem _ hvalue

theorem provides (h : session.Proper) {d : Datum H} (hd : session.Provides d) :
    d.Proper session.scopes :=
  Datum.proper_of_closures fun birth parameters body scope hpart =>
    h.holds (hd birth parameters body scope hpart)

theorem fresh : (Session.fresh : Session H).Proper :=
  ⟨.empty, by simp [Session.fresh]⟩

theorem push (h : session.Proper) {frame : Frame H}
    (hnames : Identifier.Distinct (frame.bindings.map Prod.fst))
    (houter : ∀ outer, frame.outer = some outer -> outer < session.scopes)
    (hframe : ∀ binding ∈ frame.bindings, binding.2.Proper session.scopes) :
    (session.withStore (session.machine.store.push frame).2).Proper := by
  refine ⟨h.machine.push hnames houter hframe id, fun value hmem => ?_⟩
  refine (h.returned value hmem).mono ?_
  simp [scopes, withStore]

theorem define [Host H] (h : session.Proper) {scope : Nat} {target value : Datum H}
    (hvalue : value.Proper session.scopes) {store : Store H}
    (hdefine : session.machine.store.define scope target value = .ok store) :
    (session.withStore store).Proper ∧ (session.withStore store).scopes = session.scopes := by
  unfold Store.define at hdefine
  split at hdefine
  · rename_i name hname
    cases hdefine
    have hvalid := (Datum.identifier?_eq_some_iff.mp hname).2
    have hsize := session.machine.store.size_bind scope name value
    refine ⟨⟨h.machine.bind hvalid hvalue scope id, fun other hmem => ?_⟩, hsize⟩
    exact (h.returned other hmem).mono (Nat.le_of_eq hsize.symm)
  · cases hdefine

theorem update [Host H] (h : session.Proper) {scope : Nat} {entries : List (Datum H × Datum H)}
    (hentries : ∀ entry ∈ entries, entry.2.Proper session.scopes) :
    (session.withStore (session.machine.store.update scope entries).2).Proper := by
  induction entries generalizing session with
  | nil => exact h
  | cons entry rest ih =>
      obtain ⟨hfirst, hrest⟩ := List.forall_mem_cons.mp hentries
      unfold Store.update
      split
      · rename_i store hdefine
        obtain ⟨hproper, hscopes⟩ := h.define hfirst hdefine
        refine ih hproper fun other hmem => ?_
        rw [hscopes]
        exact hrest other hmem
      · exact h

theorem perform [Host H] (hhost : Host.MakesNoClosures H) (h : session.Proper)
    {request : Request H} (hpermitted : request.Permitted session) :
    (session.perform request).Proper := by
  cases request with
  | create outer => exact h.push .nil hpermitted (by simp)
  | openRoot table =>
      refine h.push table.distinct_bindings (by simp) ?_
      exact Table.forall_mem_bindings fun entry hmem => h.provides (hpermitted entry hmem)
  | define scope target value =>
      unfold Session.perform
      dsimp only
      split
      · rename_i store hdefine
        exact (h.define (h.provides hpermitted.2) hdefine).1
      · exact h
  | update scope entries =>
      exact h.update fun entry hmem => h.provides (hpermitted.2 entry hmem)
  | evaluate strict depth scope e =>
      obtain ⟨hmachine, hlater, hvalue, -⟩ :=
        evaluate_proper hhost strict depth h.machine (h.provides hpermitted.2) hpermitted.1
      have hreturned := fun value hmem =>
        (h.returned value hmem).mono hlater.horizon_le.scopes_le
      unfold Session.perform
      dsimp only
      revert hmachine hvalue hreturned
      cases Reckoner.evaluate strict depth scope e session.machine with
      | ok value machine =>
          intro hmachine hvalue hreturned
          exact ⟨hmachine, List.forall_mem_cons.mpr ⟨hvalue value rfl, hreturned⟩⟩
      | error failure machine =>
          intro hmachine _ hreturned
          exact ⟨hmachine, hreturned⟩

end Proper

theorem Reachable.proper [Host H] (hhost : Host.MakesNoClosures H) {session : Session H}
    (h : Reachable session) : session.Proper := by
  induction h with
  | fresh => exact .fresh
  | perform _ hpermitted ih => exact ih.perform hhost hpermitted

end Session

/-- Calculator functions return numbers. -/
theorem makesNoClosures_builtin : Host.MakesNoClosures Builtin := by
  intro function operands value hcall birth parameters body scope hpart
  have hpassed := passesOn_builtin ⟨0, 0⟩ function operands value hcall _ hpart
  exact hpassed.resolve_left fun hold => Nat.not_lt_zero birth hold.1

/--
Whatever has been asked of a session: every frame binds different identifiers; from
every scope the links lead to a root; every closure that the host can get hold of has
different identifiers for parameters and was made in a scope of the store.  So a call
of it fails for its arity only, and else binds the parameters that have an operand, in
their order, in a new scope.  And an evaluation fails for something that cannot be bound
only if a host function has just brought that up.
-/
theorem reachable_session_in_order [Host H] (hhost : Host.MakesNoClosures H) {session : Session H}
    (hreachable : session.Reachable) :
    (∀ scope frame, session.machine.store.frame? scope = some frame ->
      Identifier.Distinct (frame.bindings.map Prod.fst)) ∧
    (∀ scope, scope < session.scopes ->
      session.machine.store.Walk scope (session.machine.store.chain scope)) ∧
    (∀ birth parameters body scope, session.Holds (.closure birth parameters body scope) ->
      scope < session.scopes ∧
      ∃ names, parameters = names.map .symbol ∧ Identifier.Distinct names ∧
        ∀ strict operands, extend strict parameters scope operands session.machine =
          if strict && operands.length != names.length then
            .error (.arityMismatch names.length operands.length) session.machine
          else .ok session.scopes (session.machine.enter scope (names.zip operands))) ∧
    ∀ strict depth scope e, (Request.evaluate strict depth scope e).Permitted session ->
      ∀ failure after, evaluate strict depth scope e session.machine = .error failure after ->
        failure.kind = "SigmaInvalidIdentifier" ->
          ∃ function operands recent, after.events =
            .called function operands (.error failure) :: (recent ++ session.machine.events) := by
  have hproper := hreachable.proper hhost
  refine ⟨fun scope frame hframe => hproper.machine.distinct hframe,
    fun scope hscope => hproper.machine.walk hscope, ?_, ?_⟩
  · intro birth parameters body scope hholds
    obtain ⟨⟨names, rfl, hnames⟩, hscope⟩ := hproper.holds hholds
    exact ⟨hscope, names, rfl, hnames, fun strict operands =>
      extend_eq strict hnames scope operands session.machine⟩
  · intro strict depth scope e hpermitted failure after hended hkind
    obtain ⟨-, -, -, hraised⟩ := evaluate_proper hhost strict depth hproper.machine
      (hproper.provides hpermitted.2) hpermitted.1
    rw [hended] at hraised
    exact hraised failure rfl hkind

def pairLambda : Datum Builtin :=
  .combination [.symbol "lambda", .combination [.symbol "y", .symbol "x"], .symbol "y"]

def pairClosure : Datum Builtin :=
  .closure 0 [.symbol "y", .symbol "x"] (.symbol "y") 0

def pairMade : Session Builtin :=
  ((Session.fresh.perform (.openRoot [])).perform (.evaluate true 2 0 pairLambda)).perform
    (.create (some 0))

/-- It puts the closure into an expression, whose evaluation fails for an operand too few. -/
def pairSession : Session Builtin :=
  pairMade.perform (.evaluate true 2 1 (.list [pairClosure, .number (.int 7)]))

theorem pairMade_reachable : pairMade.Reachable := by
  have hsource : pairLambda.IsSource :=
    isSource_of_parse (show parse 5 "(lambda (y x) y)" = .ok pairLambda by rfl)
  refine .perform (.perform (.perform .fresh ?_) ?_) ?_
  · exact fun entry hmem => absurd hmem List.not_mem_nil
  · exact ⟨by decide, Session.provides_of_isSource hsource _⟩
  · rintro _ ⟨⟩
    decide

theorem pairSession_reachable : pairSession.Reachable := by
  refine .perform pairMade_reachable ⟨by decide, fun birth parameters body scope hpart => ?_⟩
  -- The closure in the expression is the one that was returned.
  refine .returned List.mem_cons_self ?_
  cases hpart with
  | item hitems hmem hpart =>
      cases hitems
      rcases List.mem_cons.mp hmem with rfl | hmem
      · exact hpart
      · rw [List.mem_singleton.mp hmem] at hpart
        cases hpart.eq_of_atom rfl rfl

/-- Called with one operand, which is let pass, the closure binds its first parameter only. -/
theorem pairSession_in_order :
    Host.MakesNoClosures Builtin ∧ pairSession.Reachable ∧ pairSession.Holds pairClosure ∧
      ∃ names, [.symbol "y", .symbol "x"] = names.map (Datum.symbol (H := Builtin)) ∧
        Identifier.Distinct names ∧
        extend false [.symbol "y", .symbol "x"] 0 [.number (.int 7)] pairSession.machine =
          .ok 2 (pairSession.machine.enter 0 (names.zip [.number (.int 7)])) := by
  have hholds : pairSession.Holds pairClosure := .returned List.mem_cons_self .self
  have horder := reachable_session_in_order makesNoClosures_builtin pairSession_reachable
  obtain ⟨-, names, hnames, hdistinct, hextend⟩ := horder.2.2.1 _ _ _ _ hholds
  exact ⟨makesNoClosures_builtin, pairSession_reachable, hholds, names, hnames, hdistinct,
    hextend false [.number (.int 7)]⟩

end Reckoner
