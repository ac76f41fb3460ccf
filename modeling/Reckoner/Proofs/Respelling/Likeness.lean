import Reckoner.Proofs.Correspondence.Discipline

/-!
# Data that look alike

Data may have their symbols spelled in another way, and a part of a datum may be replaced.
Closures that were made from such data keep their birth and their scope.  To a host that
takes closures as they are, data look alike if they differ in closures only.
-/

namespace Reckoner

variable {H : Type}

namespace Datum

/-! ## Respelled symbols -/

mutual

def respell (spell : String -> String) : Datum H -> Datum H
  | .symbol name => .symbol (spell name)
  | .combination items => .combination (respellAll spell items)
  | .list items => .list (respellAll spell items)
  | d => d

def respellAll (spell : String -> String) : List (Datum H) -> List (Datum H)
  | [] => []
  | item :: rest => respell spell item :: respellAll spell rest

end

theorem respellAll_eq_map (spell : String -> String) (items : List (Datum H)) :
    respellAll spell items = items.map (respell spell) := by
  induction items with
  | nil => rfl
  | cons item rest ih => rw [respellAll, ih, List.map_cons]

theorem items?_respell (spell : String -> String) (d : Datum H) :
    (d.respell spell).items? = d.items?.map (List.map (respell spell)) := by
  cases d <;> simp [respell, items?, respellAll_eq_map]

theorem map_symbol_respell (spell : String -> String) (names : List String) :
    (names.map symbol).map (respell spell) = ((names.map spell).map symbol : List (Datum H)) := by
  rw [List.map_map, List.map_map]
  rfl

theorem respell_eq_self {spell : String -> String} {d : Datum H} (hitems : d.items? = none)
    (hsymbol : ∀ name, d ≠ .symbol name) : d.respell spell = d := by
  cases d with
  | symbol name => exact absurd rfl (hsymbol name)
  | combination items => cases hitems
  | list items => cases hitems
  | _ => rfl

theorem allWritable_eq_all (items : List (Datum H)) :
    allWritable items = items.all isWritable := by
  induction items with
  | nil => rfl
  | cons item rest ih => rw [allWritable, ih, List.all_cons]

theorem allWritable_symbols (names : List String) :
    allWritable (names.map symbol : List (Datum H)) = true := by
  rw [allWritable_eq_true_iff]
  intro item hmem
  obtain ⟨name, -, rfl⟩ := List.mem_map.mp hmem
  rfl

mutual

theorem isWritable_respell (spell : String -> String) (d : Datum H) :
    (d.respell spell).isWritable = d.isWritable := by
  cases d with
  | combination items => exact allWritable_respellAll spell items
  | list items => exact allWritable_respellAll spell items
  | _ => rfl

theorem allWritable_respellAll (spell : String -> String) (items : List (Datum H)) :
    allWritable (respellAll spell items) = allWritable items := by
  cases items with
  | nil => rfl
  | cons item rest =>
      rw [respellAll, allWritable, allWritable, isWritable_respell spell item,
        allWritable_respellAll spell rest]

end

inductive Replaces (part part' : Datum H) : Datum H -> Datum H -> Prop where
  | here : Replaces part part' part part'
  | inside {d d' : Datum H} (before after : List (Datum H)) (h : Replaces part part' d d') :
      Replaces part part' (.combination (before ++ d :: after)) (.combination (before ++ d' :: after))

theorem Replaces.occurs {part part' d d' : Datum H} (h : Replaces part part' d d') :
    Occurs part d := by
  induction h with
  | here => exact .self
  | inside before after _ ih => exact .item rfl (by simp) ih

theorem Replaces.isWritable_eq {part part' d d' : Datum H} (h : Replaces part part' d d')
    (hpart : part'.isWritable = part.isWritable) : d'.isWritable = d.isWritable := by
  induction h with
  | here => exact hpart
  | inside before after _ ih => simp [isWritable, allWritable_eq_all, ih]

/-! ## Data that look alike -/

/-- Data that differ in closures only; these have the same birth and scope, and are related. -/
inductive Alike (R : Datum H -> Datum H -> Prop) : Datum H -> Datum H -> Prop where
  | atom {d : Datum H} (hitems : d.items? = none)
      (hclosure : ∀ birth parameters body scope, d ≠ .closure birth parameters body scope) :
      Alike R d d
  | closure {birth scope : Nat} {parameters parameters' : List (Datum H)} {body body' : Datum H}
      (h : R (.closure birth parameters body scope) (.closure birth parameters' body' scope)) :
      Alike R (.closure birth parameters body scope) (.closure birth parameters' body' scope)
  | combination {pairs : List (Datum H × Datum H)} (h : ∀ pair ∈ pairs, Alike R pair.1 pair.2) :
      Alike R (.combination (pairs.map Prod.fst)) (.combination (pairs.map Prod.snd))
  | list {pairs : List (Datum H × Datum H)} (h : ∀ pair ∈ pairs, Alike R pair.1 pair.2) :
      Alike R (.list (pairs.map Prod.fst)) (.list (pairs.map Prod.snd))

theorem allWritable_map_snd {pairs : List (Datum H × Datum H)}
    (h : ∀ pair ∈ pairs, pair.2.isWritable = pair.1.isWritable) :
    allWritable (pairs.map Prod.snd) = allWritable (pairs.map Prod.fst) := by
  induction pairs with
  | nil => rfl
  | cons pair rest ih =>
      obtain ⟨hfirst, hrest⟩ := List.forall_mem_cons.mp h
      simp only [List.map_cons, allWritable, hfirst, ih hrest]

namespace Alike

variable {R S : Datum H -> Datum H -> Prop} {d d' : Datum H}

theorem mono (h : Alike R d d') (hle : ∀ c c', R c c' -> S c c') : Alike S d d' := by
  induction h with
  | atom hitems hclosure => exact .atom hitems hclosure
  | closure h => exact .closure (hle _ _ h)
  | combination _ ih => exact .combination ih
  | list _ ih => exact .list ih

theorem operand_eq (h : Alike R d d') : d'.operand = d.operand := by
  cases h <;> rfl

theorem isNewNaN_eq (h : Alike R d d') : d'.isNewNaN = d.isNewNaN := by
  cases h <;> rfl

theorem eq_absent_iff (h : Alike R d d') : d' = .absent ↔ d = .absent := by
  cases h <;> simp

theorem isWritable_eq (h : Alike R d d')
    (hclosure : ∀ c c', R c c' -> c'.isWritable = c.isWritable) : d'.isWritable = d.isWritable := by
  induction h with
  | atom => rfl
  | closure h => exact hclosure _ _ h
  | combination _ ih => exact allWritable_map_snd ih
  | list _ ih => exact allWritable_map_snd ih

/-- A closure in the first datum lies in one that is related to one in the second. -/
theorem exists_of_occurs {birth scope : Nat} {parameters : List (Datum H)} {body : Datum H}
    (h : Alike R d d') (hpart : Occurs (.closure birth parameters body scope) d) :
    ∃ c c', R c c' ∧ Occurs (.closure birth parameters body scope) c := by
  induction h with
  | atom hitems hclosure =>
      cases hpart with
      | self => exact absurd rfl (hclosure _ _ _ _)
      | item hitems' _ _ => cases hitems.symm.trans hitems'
      | parameter _ _ => exact absurd rfl (hclosure _ _ _ _)
      | body _ => exact absurd rfl (hclosure _ _ _ _)
  | closure h => exact ⟨_, _, h, hpart⟩
  | combination _ ih =>
      cases hpart with
      | item hitems hmem hpart =>
          cases hitems
          obtain ⟨pair, hpair, rfl⟩ := List.mem_map.mp hmem
          exact ih pair hpair hpart
  | list _ ih =>
      cases hpart with
      | item hitems hmem hpart =>
          cases hitems
          obtain ⟨pair, hpair, rfl⟩ := List.mem_map.mp hmem
          exact ih pair hpair hpart

mutual

/-- A datum is like itself if the closures in it are related to themselves. -/
theorem refl (d : Datum H) (h : ∀ birth parameters body scope,
    Occurs (.closure birth parameters body scope) d ->
      R (.closure birth parameters body scope) (.closure birth parameters body scope)) :
    Alike R d d := by
  cases d with
  | closure birth parameters body scope => exact .closure (h _ _ _ _ .self)
  | combination items =>
      have halike := @combination H R (items.map fun item => (item, item))
        (reflAll items fun item hmem _ _ _ _ hpart => h _ _ _ _ (.item rfl hmem hpart))
      simpa [Function.comp_def] using halike
  | list items =>
      have halike := @list H R (items.map fun item => (item, item))
        (reflAll items fun item hmem _ _ _ _ hpart => h _ _ _ _ (.item rfl hmem hpart))
      simpa [Function.comp_def] using halike
  | _ => exact .atom rfl (by simp)

theorem reflAll (items : List (Datum H)) (h : ∀ item ∈ items, ∀ birth parameters body scope,
    Occurs (.closure birth parameters body scope) item ->
      R (.closure birth parameters body scope) (.closure birth parameters body scope)) :
    ∀ pair ∈ items.map fun item => (item, item), Alike R pair.1 pair.2 := by
  cases items with
  | nil => simp
  | cons item rest =>
      obtain ⟨hfirst, hrest⟩ := List.forall_mem_cons.mp h
      exact List.forall_mem_cons.mpr ⟨refl item hfirst, reflAll rest hrest⟩

end

end Alike

end Datum

/-! ## Hosts -/

/-- Outcomes that look alike: values do, and failures are of one kind. -/
inductive Host.AlikeOutcomes (R : Datum H -> Datum H -> Prop) :
    Except Failure (Datum H) -> Except Failure (Datum H) -> Prop where
  | returned {v v' : Datum H} (h : v.Alike R v') : AlikeOutcomes R (.ok v) (.ok v')
  | failed {failure failure' : Failure} (h : failure.kind = failure'.kind) :
      AlikeOutcomes R (.error failure) (.error failure')

/-- Host functions do not look into closures: on operands that look alike, so do the outcomes. -/
def Host.Opaque (H : Type) [Host H] : Prop :=
  ∀ (R : Datum H -> Datum H -> Prop) (function : H) (operands operands' : List (Datum H)),
    List.Forall₂ (Datum.Alike R) operands operands' ->
      AlikeOutcomes R (Host.call function operands) (Host.call function operands')

/-- What a host does not look into, it cannot make. -/
theorem Host.Opaque.makesNoClosures [Host H] (h : Host.Opaque H) : Host.MakesNoClosures H := by
  intro function operands value hcall birth parameters body scope hpart
  -- Every operand is like itself, where a closure is related to itself if an operand has it.
  have houtcome := h (fun c c' => c = c' ∧ ∃ operand ∈ operands, Datum.Occurs c operand) function
    operands operands <| List.forall₂_same.mpr fun operand hmem =>
      Datum.Alike.refl operand fun _ _ _ _ hclosure => ⟨rfl, operand, hmem, hclosure⟩
  rw [hcall] at houtcome
  cases houtcome with
  | returned halike =>
      obtain ⟨c, -, ⟨-, operand, hmem, hoperand⟩, hclosure⟩ := halike.exists_of_occurs hpart
      exact ⟨operand, hmem, hclosure.trans hoperand⟩

/-- Calculator functions take closures for operands of no use. -/
theorem opaque_builtin : Host.Opaque Builtin := by
  intro R function operands operands' halike
  have hoperands : operands'.map Datum.operand = operands.map Datum.operand := by
    induction halike with
    | nil => rfl
    | cons h _ ih => rw [List.map_cons, List.map_cons, h.operand_eq, ih]
  have hcall : Builtin.call function operands' = Builtin.call function operands := by
    unfold Builtin.call
    rw [hoperands]
  change Host.AlikeOutcomes R (Builtin.call function operands) (Builtin.call function operands')
  rw [hcall]
  obtain ⟨n, hn⟩ | ⟨fault, hfault⟩ := Builtin.call_cases function operands
  · rw [hn]
    exact .returned (.atom rfl (by simp))
  · rw [hfault]
    exact .failed rfl

end Reckoner
