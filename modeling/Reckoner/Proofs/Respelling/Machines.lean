import Reckoner.Proofs.Respelling.Variants

/-!
# Machines with respelled scopes

Two machines run side by side, one for an expression and one for its variant.  Scopes that
calls of the lambda open, or calls of closures made in such scopes, spell names in the new
way; all other scopes bind the same names on both sides.  The scope of a call of the lambda
binds the parameter, so that a name that is spelled in two ways is never sought outside.
-/

namespace Reckoner

variable {H : Type}

/-! ## Entries -/

namespace Entries

variable {Key Value Value' : Type}

def Spelled (spell : Key -> Key) (R : Value -> Value' -> Prop) :
    List (Key × Value) -> List (Key × Value') -> Prop :=
  List.Forall₂ fun entry entry' => entry'.1 = spell entry.1 ∧ R entry.2 entry'.2

namespace Spelled

variable {spell : Key -> Key} {R : Value -> Value' -> Prop} {entries : List (Key × Value)}
  {entries' : List (Key × Value')}

theorem mono {S : Value -> Value' -> Prop} (h : Spelled spell R entries entries')
    (hle : ∀ v v', R v v' -> S v v') : Spelled spell S entries entries' :=
  h.imp fun _ _ hentry => ⟨hentry.1, hle _ _ hentry.2⟩

theorem zip {keys : List Key} {values : List Value} {values' : List Value'}
    (h : List.Forall₂ R values values') :
    Spelled spell R (keys.zip values) ((keys.map spell).zip values') := by
  induction keys generalizing values values' with
  | nil => exact .nil
  | cons key keys ih =>
      cases h with
      | nil => exact .nil
      | cons hvalue hvalues => exact .cons ⟨rfl, hvalue⟩ (ih hvalues)

variable [DecidableEq Key] {key : Key}

/-- A key is found on both sides or on none, unless another is spelled like it. -/
theorem get? (h : Spelled spell R entries entries')
    (hkey : ∀ other ∈ entries.map Prod.fst, spell other = spell key -> other = key) :
    Option.Rel R (Entries.get? (· == ·) key entries)
      (Entries.get? (· == ·) (spell key) entries') := by
  induction h with
  | nil => exact .none
  | @cons entry entry' _ _ hentry _ ih =>
      obtain ⟨hfirst, hrest⟩ := List.forall_mem_cons.mp hkey
      unfold Entries.get?
      rw [hentry.1]
      by_cases heq : entry.1 = key
      · rw [if_pos (beq_iff_eq.mpr heq), if_pos (beq_iff_eq.mpr (congrArg spell heq))]
        exact .some hentry.2
      · rw [if_neg (by simpa using heq), if_neg (by simpa using mt hfirst heq)]
        exact ih hrest

theorem put (h : Spelled spell R entries entries')
    (hkey : ∀ other ∈ entries.map Prod.fst, spell other = spell key -> other = key)
    {value : Value} {value' : Value'} (hvalue : R value value') :
    Spelled spell R (Entries.put (· == ·) key value entries)
      (Entries.put (· == ·) (spell key) value' entries') := by
  induction h with
  | nil => exact .cons ⟨rfl, hvalue⟩ .nil
  | @cons entry entry' _ _ hentry hentries ih =>
      obtain ⟨hfirst, hrest⟩ := List.forall_mem_cons.mp hkey
      unfold Entries.put
      rw [hentry.1]
      by_cases heq : entry.1 = key
      · rw [if_pos (beq_iff_eq.mpr heq), if_pos (beq_iff_eq.mpr (congrArg spell heq))]
        exact .cons ⟨rfl, hvalue⟩ hentries
      · rw [if_neg (by simpa using heq), if_neg (by simpa using mt hfirst heq)]
        exact .cons ⟨rfl, hentry.2⟩ (ih hrest)

end Spelled

end Entries

/-! ## Values on two sides -/

namespace Respelling

/-- How many scopes there are, and which of them were opened from within the lambda. -/
structure Zone where
  scopes : Nat
  within : Nat -> Bool

namespace Zone

structure Le (zone later : Zone) : Prop where
  scopes_le : zone.scopes ≤ later.scopes
  within_eq : ∀ {scope}, scope < zone.scopes -> later.within scope = zone.within scope

theorem Le.refl (zone : Zone) : Le zone zone :=
  ⟨Nat.le_refl _, fun _ => rfl⟩

theorem Le.trans {first second third : Zone} (h : Le first second) (h' : Le second third) :
    Le first third := by
  refine ⟨Nat.le_trans h.scopes_le h'.scopes_le, fun {scope} hscope => ?_⟩
  rw [h'.within_eq (Nat.lt_of_lt_of_le hscope h.scopes_le), h.within_eq hscope]

def grow (zone : Zone) (within : Bool) : Zone :=
  ⟨zone.scopes + 1, fun scope => if scope = zone.scopes then within else zone.within scope⟩

theorem le_grow (zone : Zone) (within : Bool) : zone.Le (zone.grow within) :=
  ⟨Nat.le_succ _, fun hscope => if_neg (Nat.ne_of_lt hscope)⟩

theorem within_grow (zone : Zone) (within : Bool) :
    (zone.grow within).within zone.scopes = within :=
  if_pos rfl

end Zone

variable (r : Respelling H)

/--
Closures that correspond.  In the scopes of their calls names are spelled as in the scope
that they were made in, but for closures of the lambda itself; those bind the parameter.
-/
inductive Made (start : Nat) (zone : Zone) : Datum H -> Datum H -> Prop where
  | intro {birth scope : Nat} {names : List String} {body body' : Datum H} {within : Bool}
      (hscope : scope < zone.scopes) (hnames : Identifier.Distinct names)
      (hwithin : within = zone.within scope ∨ within = true ∧ r.old ∈ names)
      (hlocal : within = true -> ∀ name ∈ names, Datum.Occurs (.symbol name) r.lambda)
      (hbody : r.Variant start within body body') :
      Made start zone (.closure birth (names.map .symbol) body scope)
        (.closure birth ((names.map (r.spell within)).map .symbol) body' scope)

/-- Closures of which the second has the lambda in its body replaced, or is a respelled part of it. -/
inductive Twins : Datum H -> Datum H -> Prop where
  | kept {birth scope : Nat} {parameters : List (Datum H)} {body body' : Datum H}
      (h : body' = body ∨ r.Replaces body body') :
      Twins (.closure birth parameters body scope) (.closure birth parameters body' scope)
  | respelled {birth scope : Nat} {parameters : List (Datum H)} {body : Datum H}
      (hparameters : ∀ parameter ∈ parameters, Datum.Occurs parameter r.lambda)
      (hbody : Datum.Occurs body r.lambda) :
      Twins (.closure birth parameters body scope)
        (.closure birth (parameters.map (Datum.respell (r.spell true)))
          (body.respell (r.spell true)) scope)

variable {r} {start scopes : Nat} {zone later : Zone}

theorem Made.mono (hle : zone.Le later) {c c' : Datum H} (h : r.Made start zone c c') :
    r.Made start later c c' := by
  obtain ⟨hscope, hnames, hwithin, hlocal, hbody⟩ := h
  refine .intro (Nat.lt_of_lt_of_le hscope hle.scopes_le) hnames ?_ hlocal hbody
  rwa [hle.within_eq hscope]

theorem Made.twins {c c' : Datum H} (h : r.Made start zone c c') : r.Twins c c' := by
  obtain ⟨-, -, -, hlocal, hbody⟩ := h
  cases hbody with
  | respelled hbody =>
      rw [← Datum.map_symbol_respell]
      refine .respelled (fun parameter hmem => ?_) hbody
      obtain ⟨name, hname, rfl⟩ := List.mem_map.mp hmem
      exact hlocal rfl name hname
  | kept =>
      rw [spell_false, List.map_id]
      exact .kept (.inl rfl)
  | replaced h =>
      rw [spell_false, List.map_id]
      exact .kept (.inr h)

theorem Made.isWritable_eq {c c' : Datum H} (h : r.Made start zone c c') :
    c'.isWritable = c.isWritable := by
  obtain ⟨-, -, -, -, -⟩ := h
  rw [Datum.isWritable, Datum.isWritable, Datum.allWritable_symbols, Datum.allWritable_symbols]

/-- What is older than the run corresponds to itself. -/
theorem made_self {birth scope : Nat} {parameters : List (Datum H)} {body : Datum H}
    (houtside : ∀ scope, scope < start -> zone.within scope = false) (hle : start ≤ zone.scopes)
    (h : (Datum.closure birth parameters body scope).Proper start) :
    r.Made start zone (.closure birth parameters body scope)
      (.closure birth parameters body scope) := by
  obtain ⟨⟨names, rfl, hnames⟩, hscope⟩ := h _ .self
  have hmade : r.Made start zone (.closure birth (names.map .symbol) body scope)
      (.closure birth ((names.map (r.spell false)).map .symbol) body scope) :=
    .intro (Nat.lt_of_lt_of_le hscope hle) hnames (.inl (houtside scope hscope).symm) (by simp)
      (.kept (h.occurs (.body .self)))
  rwa [spell_false, List.map_id] at hmade

theorem alike_self (houtside : ∀ scope, scope < start -> zone.within scope = false)
    (hle : start ≤ zone.scopes) {d : Datum H} (h : d.Proper start) :
    d.Alike (r.Made start zone) d :=
  .refl d fun _ _ _ _ hpart => made_self houtside hle (h.occurs hpart)

/-! ## Machines on two sides -/

variable (r)

structure FramesAlike (start : Nat) (zone : Zone) (scope : Nat) (frame frame' : Frame H) :
    Prop where
  outer_eq : frame'.outer = frame.outer
  outer_lt : ∀ {outer}, frame.outer = some outer -> outer < scope
  bindings : Entries.Spelled (r.spell (zone.within scope)) (Datum.Alike (r.Made start zone))
    frame.bindings frame'.bindings
  /-- No scope outside the lambda lies in one that is within. -/
  apart : ∀ {outer}, frame.outer = some outer -> zone.within scope = false ->
    zone.within outer = false
  fresh : zone.within scope = true -> r.new ∉ frame.bindings.map Prod.fst
  /-- From within the lambda the parameter is found before the way leads out. -/
  found : ∀ {outer}, frame.outer = some outer -> zone.within scope = true ->
    r.old ∈ frame.bindings.map Prod.fst ∨ zone.within outer = true

inductive EventsAlike : Event H -> Event H -> Prop where
  | called {function : H} {operands operands' : List (Datum H)}
      {outcome outcome' : Except Failure (Datum H)}
      (hoperands : List.Forall₂ (Datum.Alike r.Twins) operands operands')
      (houtcome : Host.AlikeOutcomes r.Twins outcome outcome') :
      EventsAlike (.called function operands outcome) (.called function operands' outcome')
  | opened (outer : Option Nat) : EventsAlike (.opened outer) (.opened outer)
  | bound {scope : Nat} {name : String} {value value' : Datum H} (within : Bool)
      (hvalue : value.Alike r.Twins value') :
      EventsAlike (.bound scope name value) (.bound scope (r.spell within name) value')

def HistoriesAlike (start a b : Machine H) : Prop :=
  ∃ recent recent', a.events = recent ++ start.events ∧ b.events = recent' ++ start.events ∧
    List.Forall₂ r.EventsAlike recent recent'

structure Beside (start : Machine H) (zone : Zone) (a b : Machine H) : Prop where
  scopes_eq : a.store.frames.size = zone.scopes
  size_eq : b.store.frames.size = zone.scopes
  births_eq : b.births = a.births
  start_le : start.store.frames.size ≤ zone.scopes
  outside : ∀ scope, scope < start.store.frames.size -> zone.within scope = false
  frames : ∀ {scope frame}, a.store.frame? scope = some frame ->
    ∃ frame', b.store.frame? scope = some frame' ∧
      r.FramesAlike start.store.frames.size zone scope frame frame'
  history : r.HistoriesAlike start a b

variable {r}

namespace FramesAlike

variable {scope : Nat} {frame frame' : Frame H}

theorem mono (h : r.FramesAlike start zone scope frame frame') (hle : zone.Le later)
    (hscope : scope < zone.scopes) : r.FramesAlike start later scope frame frame' := by
  have houter : ∀ {outer}, frame.outer = some outer ->
      later.within outer = zone.within outer := fun hlink =>
    hle.within_eq (Nat.lt_trans (h.outer_lt hlink) hscope)
  have hwithin := hle.within_eq hscope
  refine ⟨h.outer_eq, h.outer_lt, ?_, fun hlink => ?_, ?_, fun hlink => ?_⟩
  · rw [hwithin]
    exact h.bindings.mono fun v v' hvalue => hvalue.mono fun _ _ => Made.mono hle
  · rw [hwithin, houter hlink]
    exact h.apart hlink
  · rw [hwithin]
    exact h.fresh
  · rw [hwithin, houter hlink]
    exact h.found hlink

/-- No other name in the frame is spelled like one that is not the new name. -/
theorem eq_of_spell_eq (h : r.FramesAlike start zone scope frame frame') {name : String}
    (hname : zone.within scope = true -> name ≠ r.new) :
    ∀ other ∈ frame.bindings.map Prod.fst,
      r.spell (zone.within scope) other = r.spell (zone.within scope) name -> other = name :=
  fun _ hmem => r.eq_of_spell_eq (fun hwithin heq => h.fresh hwithin (heq ▸ hmem)) hname

theorem spell_outer (h : r.FramesAlike start zone scope frame frame') {name : String}
    (hnone : frame.get? name = none) {outer : Nat} (hlink : frame.outer = some outer) :
    r.spell (zone.within outer) name = r.spell (zone.within scope) name ∧
      (zone.within outer = true -> zone.within scope = true) := by
  cases hwithin : zone.within scope with
  | false =>
      have houter := h.apart hlink hwithin
      exact ⟨by rw [houter], by simp [houter]⟩
  | true =>
      refine ⟨?_, fun _ => rfl⟩
      -- The spelling changes only outside a frame that binds the parameter.
      rcases h.found hlink hwithin with hmem | houter
      · have hold : name ≠ r.old := by
          rintro rfl
          exact (Entries.get?_eq_none_iff _ _).mp hnone hmem
        simp [spell, hold]
      · rw [houter]

theorem bind (h : r.FramesAlike start zone scope frame frame') {name : String}
    (hname : zone.within scope = true -> name ≠ r.new) {v v' : Datum H}
    (hvalue : v.Alike (r.Made start zone) v') :
    r.FramesAlike start zone scope (frame.bind name v)
      (frame'.bind (r.spell (zone.within scope) name) v') := by
  have hkeys := Entries.keys_put name v frame.bindings
  refine ⟨h.outer_eq, h.outer_lt, h.bindings.put (h.eq_of_spell_eq hname) hvalue, h.apart,
    fun hwithin => ?_, fun hlink hwithin => (h.found hlink hwithin).imp_left fun hold => ?_⟩
  · rw [Frame.bind, hkeys]
    split
    · exact h.fresh hwithin
    · rw [List.mem_append, not_or, List.mem_singleton]
      exact ⟨h.fresh hwithin, (hname hwithin).symm⟩
  · rw [Frame.bind, hkeys]
    split
    · exact hold
    · exact List.mem_append_left _ hold

end FramesAlike

theorem HistoriesAlike.record {start a b : Machine H} (h : r.HistoriesAlike start a b)
    {event event' : Event H} (hevent : r.EventsAlike event event') :
    r.HistoriesAlike start (a.record event) (b.record event') := by
  obtain ⟨recent, recent', ha, hb, halike⟩ := h
  refine ⟨event :: recent, event' :: recent', ?_, ?_, .cons hevent halike⟩
  · rw [Machine.record, ha, List.cons_append]
  · rw [Machine.record, hb, List.cons_append]

/-- The events of a call's scope come after those before, on both sides. -/
theorem HistoriesAlike.enter {start a b : Machine H} (h : r.HistoriesAlike start a b)
    (hsize : a.store.frames.size = b.store.frames.size) {outer : Nat} {within : Bool}
    {bindings bindings' : Bindings H}
    (hbindings : Entries.Spelled (r.spell within) (Datum.Alike (r.Made scopes zone))
      bindings bindings') :
    r.HistoriesAlike start (a.enter outer bindings) (b.enter outer bindings') := by
  obtain ⟨recent, recent', ha, hb, halike⟩ := h
  have hbound : List.Forall₂ r.EventsAlike
      (bindings.map fun binding => .bound a.store.frames.size binding.1 binding.2)
      (bindings'.map fun binding => .bound b.store.frames.size binding.1 binding.2) := by
    rw [List.forall₂_map_left_iff, List.forall₂_map_right_iff, hsize]
    refine hbindings.imp fun binding binding' hbinding => ?_
    rw [hbinding.1]
    exact .bound within (hbinding.2.mono fun _ _ => Made.twins)
  have hopened : r.EventsAlike (.opened (some outer)) (.opened (some outer)) := .opened _
  refine ⟨_ ++ .opened (some outer) :: recent, _ ++ .opened (some outer) :: recent', ?_, ?_,
    List.rel_append (List.forall₂_reverse_iff.mpr hbound) (.cons hopened halike)⟩
  · rw [Machine.enter, ha, List.append_assoc, List.cons_append]
  · rw [Machine.enter, hb, List.append_assoc, List.cons_append]

/-- The frames of a call: names are spelled as in the closure's scope, or the parameter is bound. -/
theorem framesAlike_new {outer : Nat} {names : List String} {within : Bool}
    (houter : outer < zone.scopes)
    (hwithin : within = zone.within outer ∨ within = true ∧ r.old ∈ names)
    (hfresh : within = true -> r.new ∉ names)
    {operands operands' : List (Datum H)} (hlength : operands.length = names.length)
    (hbindings : Entries.Spelled (r.spell within) (Datum.Alike (r.Made start zone))
      (names.zip operands) ((names.map (r.spell within)).zip operands')) :
    r.FramesAlike start (zone.grow within) zone.scopes ⟨names.zip operands, some outer⟩
      ⟨(names.map (r.spell within)).zip operands', some outer⟩ := by
  have hgrown := zone.le_grow within
  have hkeys : (names.zip operands).map Prod.fst = names :=
    List.map_fst_zip (Nat.le_of_eq hlength.symm)
  have hnew := zone.within_grow within
  refine ⟨rfl, ?_, ?_, ?_, fun _ => ?_, ?_⟩
  · rintro _ ⟨⟩
    exact houter
  · rw [hnew]
    exact hbindings.mono fun v v' hvalue => hvalue.mono fun _ _ => Made.mono hgrown
  · rintro _ ⟨⟩ hfalse
    rw [hgrown.within_eq houter]
    rw [hnew] at hfalse
    rcases hwithin with heq | ⟨htrue, -⟩
    · rw [← heq, hfalse]
    · cases hfalse.symm.trans htrue
  · rw [hkeys]
    exact hfresh (hnew ▸ ‹_›)
  · rintro _ ⟨⟩ htrue
    rw [hkeys, hgrown.within_eq houter]
    rw [hnew] at htrue
    rcases hwithin with heq | ⟨-, hmem⟩
    · exact .inr (heq ▸ htrue)
    · exact .inl hmem

namespace Beside

variable {start a b : Machine H}

theorem seek (h : r.Beside start zone a b) {name : String} {fuel scope : Nat}
    (hname : zone.within scope = true -> name ≠ r.new) :
    Option.Rel (Datum.Alike (r.Made start.store.frames.size zone))
      (a.store.seek name fuel scope)
      (b.store.seek (r.spell (zone.within scope) name) fuel scope) := by
  -- Frame by frame outwards: the name is found on both sides, or its spelling stays the same.
  induction fuel generalizing scope with
  | zero => exact .none
  | succ fuel ih =>
      cases hframe : a.store.frame? scope with
      | none =>
          have hnone : b.store.frame? scope = none := by
            rw [Store.frame?, Array.getElem?_eq_none_iff] at hframe ⊢
            rw [h.size_eq, ← h.scopes_eq]
            exact hframe
          rw [Store.seek_of_no_frame hframe, Store.seek_of_no_frame hnone]
          exact .none
      | some frame =>
          obtain ⟨frame', hframe', halike⟩ := h.frames hframe
          have hget := halike.bindings.get? (halike.eq_of_spell_eq hname)
          change Option.Rel _ (frame.get? name) (frame'.get? _) at hget
          cases hown : frame.get? name with
          | some v =>
              cases hown' : frame'.get? (r.spell (zone.within scope) name) with
              | none =>
                  rw [hown, hown'] at hget
                  cases hget
              | some v' =>
                  rw [hown, hown'] at hget
                  rw [Store.seek_succ_of_own hframe hown, Store.seek_succ_of_own hframe' hown']
                  exact hget
          | none =>
              have hown' : frame'.get? (r.spell (zone.within scope) name) = none := by
                cases hother : frame'.get? (r.spell (zone.within scope) name) with
                | none => rfl
                | some v' =>
                    rw [hown, hother] at hget
                    cases hget
              cases hlink : frame.outer with
              | none =>
                  have hlink' := halike.outer_eq.trans hlink
                  rw [Store.seek_succ_of_last hframe hown hlink,
                    Store.seek_succ_of_last hframe' hown' hlink']
                  exact .none
              | some outer =>
                  have hlink' := halike.outer_eq.trans hlink
                  obtain ⟨hspell, hwithin⟩ := halike.spell_outer hown hlink
                  rw [Store.seek_succ_of_outer hframe hown hlink,
                    Store.seek_succ_of_outer hframe' hown' hlink', ← hspell]
                  exact ih fun houter => hname (hwithin houter)

theorem lookup? (h : r.Beside start zone a b) {name : String} {scope : Nat}
    (hname : zone.within scope = true -> name ≠ r.new) :
    Option.Rel (Datum.Alike (r.Made start.store.frames.size zone)) (a.store.lookup? scope name)
      (b.store.lookup? scope (r.spell (zone.within scope) name)) := by
  rw [Store.lookup?_eq_seek, Store.lookup?_eq_seek, h.scopes_eq, h.size_eq]
  exact h.seek hname

theorem bear (h : r.Beside start zone a b) : r.Beside start zone a.bear b.bear :=
  ⟨h.scopes_eq, h.size_eq, congrArg (· + 1) h.births_eq, h.start_le, h.outside, h.frames,
    h.history⟩

theorem called (h : r.Beside start zone a b) {function : H} {operands operands' : List (Datum H)}
    {outcome outcome' : Except Failure (Datum H)}
    (hevent : r.EventsAlike (.called function operands outcome)
      (.called function operands' outcome')) :
    r.Beside start zone (a.record (.called function operands outcome))
      (b.record (.called function operands' outcome')) :=
  ⟨h.scopes_eq, h.size_eq, h.births_eq, h.start_le, h.outside, h.frames, h.history.record hevent⟩

theorem bound (h : r.Beside start zone a b) {name : String} {scope : Nat}
    (hname : zone.within scope = true -> name ≠ r.new) {v v' : Datum H}
    (hvalue : v.Alike (r.Made start.store.frames.size zone) v') :
    r.Beside start zone (a.record (.bound scope name v))
      (b.record (.bound scope (r.spell (zone.within scope) name) v')) := by
  refine ⟨?_, ?_, h.births_eq, h.start_le, h.outside, fun {other found} hfound => ?_, ?_⟩
  · exact (Store.size_bind ..).trans h.scopes_eq
  · exact (Store.size_bind ..).trans h.size_eq
  · change (a.store.bind scope name v).frame? other = some found at hfound
    change ∃ found', (b.store.bind scope _ v').frame? other = some found' ∧ _
    rw [Store.frame?_bind] at hfound ⊢
    split at hfound
    · rename_i hscope
      subst hscope
      obtain ⟨frame, hframe, rfl⟩ := Option.map_eq_some_iff.mp hfound
      obtain ⟨frame', hframe', halike⟩ := h.frames hframe
      rw [if_pos rfl, hframe']
      exact ⟨_, rfl, halike.bind hname hvalue⟩
    · rename_i hscope
      rw [if_neg hscope]
      exact h.frames hfound
  · exact h.history.record (.bound _ (hvalue.mono fun _ _ => Made.twins))

theorem enter (h : r.Beside start zone a b) {outer : Nat} {names : List String} {within : Bool}
    (houter : outer < zone.scopes)
    (hwithin : within = zone.within outer ∨ within = true ∧ r.old ∈ names)
    (hlocal : within = true -> r.new ∉ names)
    {operands operands' : List (Datum H)} (hlength : operands.length = names.length)
    (hvalues : List.Forall₂ (Datum.Alike (r.Made start.store.frames.size zone))
      operands operands') :
    r.Beside start (zone.grow within) (a.enter outer (names.zip operands))
      (b.enter outer ((names.map (r.spell within)).zip operands')) := by
  have hgrown := zone.le_grow within
  have hbindings : Entries.Spelled (r.spell within)
      (Datum.Alike (r.Made start.store.frames.size zone)) (names.zip operands)
      ((names.map (r.spell within)).zip operands') := .zip hvalues
  have hnew := framesAlike_new houter hwithin hlocal hlength hbindings
  refine ⟨?_, ?_, h.births_eq, Nat.le_trans h.start_le hgrown.scopes_le, fun scope hscope => ?_,
    fun {scope found} hfound => ?_, h.history.enter (h.scopes_eq.trans h.size_eq.symm) hbindings⟩
  · exact (Store.size_push ..).trans (congrArg (· + 1) h.scopes_eq)
  · exact (Store.size_push ..).trans (congrArg (· + 1) h.size_eq)
  · rw [hgrown.within_eq (Nat.lt_of_lt_of_le hscope h.start_le)]
    exact h.outside scope hscope
  · have hpushed := Store.frame?_push b.store
      ⟨(names.map (r.spell within)).zip operands', some outer⟩ scope
    obtain ⟨rfl, rfl⟩ | hold := Store.frame?_push_cases hfound
    · rw [if_pos (h.scopes_eq.trans h.size_eq.symm)] at hpushed
      refine ⟨_, hpushed, ?_⟩
      rw [h.scopes_eq]
      exact hnew
    · have hscope : scope < zone.scopes := h.scopes_eq ▸ Store.lt_size_of_frame? hold
      obtain ⟨frame', hframe', halike⟩ := h.frames hold
      rw [if_neg (h.size_eq ▸ Nat.ne_of_lt hscope)] at hpushed
      exact ⟨frame', hpushed.trans hframe', halike.mono hgrown hscope⟩

/-- A proper machine is beside itself as long as no scope is within the lambda. -/
theorem self (h : start.Proper) :
    r.Beside start ⟨start.store.frames.size, fun _ => false⟩ start start := by
  refine ⟨rfl, rfl, rfl, Nat.le_refl _, fun _ _ => rfl, fun {scope frame} hframe => ?_,
    [], [], rfl, rfl, .nil⟩
  refine ⟨frame, hframe, rfl, fun hlink => h.outer_lt hframe hlink, ?_, fun _ _ => rfl, by simp,
    by simp⟩
  refine List.forall₂_same.mpr fun binding hmem => ⟨by rw [spell_false, id], ?_⟩
  have hvalue := h.holds scope frame hframe binding hmem
  exact alike_self (fun _ _ => rfl) (Nat.le_refl start.store.frames.size) hvalue

end Beside

end Respelling

end Reckoner
