import Mathlib.Data.List.Nodup
import Reckoner.Proofs.Respelling.Likeness

/-!
# Respelled parameters

A parameter of a lambda may be spelled in another way throughout the lambda, as long as the
new name does not occur there.  In an expression that holds the lambda, that part is then
replaced by its respelling.  What the two expressions have in the same places are variants
of each other, and the evaluator treats variants in the same way.
-/

namespace Reckoner

variable {H : Type}

/-! ## Respellings -/

def Datum.lambda (parameters : List String) (body : Datum H) : Datum H :=
  .combination [.symbol "lambda", .combination (parameters.map .symbol), body]

/-- A parameter of a lambda, and a name that can take its place. -/
structure Respelling (H : Type) where
  parameters : List String
  body : Datum H
  old : String
  new : String
  distinct : Identifier.Distinct parameters
  mem : old ∈ parameters
  isValid_new : Identifier.isValid new = true
  old_not_keyword : Keyword.ofName? old = none
  new_not_keyword : Keyword.ofName? new = none
  fresh : ¬ Datum.Occurs (.symbol new) (Datum.lambda parameters body)

namespace Respelling

variable (r : Respelling H)

def lambda : Datum H :=
  .lambda r.parameters r.body

/-- How a name is spelled in the lambda (if the flag is set), and elsewhere. -/
def spell (within : Bool) (name : String) : String :=
  if within = true ∧ name = r.old then r.new else name

def respelled : Datum H :=
  r.lambda.respell (r.spell true)

def Replaces : Datum H -> Datum H -> Prop :=
  Datum.Replaces r.lambda r.respelled

@[simp] theorem spell_false : r.spell false = id := by
  funext name
  simp [spell]

theorem isValid_spell (within : Bool) (name : String) :
    Identifier.isValid (r.spell within name) = Identifier.isValid name := by
  unfold spell
  split
  · rename_i h
    rw [r.isValid_new, h.2, r.distinct.isValid r.old r.mem]
  · rfl

theorem ofName?_spell (within : Bool) (name : String) :
    Keyword.ofName? (r.spell within name) = Keyword.ofName? name := by
  unfold spell
  split
  · rename_i h
    rw [r.new_not_keyword, h.2, r.old_not_keyword]
  · rfl

/-- Apart from the new name, no two names get one spelling. -/
theorem eq_of_spell_eq {within : Bool} {name other : String}
    (hname : within = true -> name ≠ r.new) (hother : within = true -> other ≠ r.new)
    (h : r.spell within name = r.spell within other) : name = other := by
  unfold spell at h
  by_cases hfirst : within = true ∧ name = r.old
  · rw [if_pos hfirst] at h
    by_cases hsecond : within = true ∧ other = r.old
    · rw [hfirst.2, hsecond.2]
    · rw [if_neg hsecond] at h
      exact absurd h.symm (hother hfirst.1)
  · rw [if_neg hfirst] at h
    by_cases hsecond : within = true ∧ other = r.old
    · rw [if_pos hsecond] at h
      exact absurd h (hname hsecond.1)
    · rwa [if_neg hsecond] at h

theorem ne_new_of_occurs {name : String} (h : Datum.Occurs (.symbol name) r.lambda) :
    name ≠ r.new := by
  rintro rfl
  exact r.fresh h

theorem distinct_spell {within : Bool} {names : List String} (h : Identifier.Distinct names)
    (hfresh : within = true -> r.new ∉ names) :
    Identifier.Distinct (names.map (r.spell within)) := by
  refine ⟨fun name hmem => ?_, ?_⟩
  · obtain ⟨other, hother, rfl⟩ := List.mem_map.mp hmem
    rw [r.isValid_spell]
    exact h.isValid other hother
  · have hne : ∀ name ∈ names, within = true -> name ≠ r.new :=
      fun name hmem hwithin heq => hfresh hwithin (heq ▸ hmem)
    refine (List.nodup_map_iff_inj_on h.nodup).mpr fun name hname other hother hspell => ?_
    exact r.eq_of_spell_eq (hne name hname) (hne other hother) hspell

/-! ## Expressions on two sides -/

/--
Expressions that are evaluated side by side: inside the lambda its parts with their
respellings, and outside what is the same or has the lambda replaced.
-/
inductive Variant (scopes : Nat) : Bool -> Datum H -> Datum H -> Prop where
  | respelled {e : Datum H} (h : Datum.Occurs e r.lambda) :
      Variant scopes true e (e.respell (r.spell true))
  | kept {e : Datum H} (h : e.Proper scopes) : Variant scopes false e e
  | replaced {e e' : Datum H} (h : r.Replaces e e') (hproper : e.Proper scopes) :
      Variant scopes false e e'

variable {r}

theorem Replaces.cases {e e' : Datum H} (h : r.Replaces e e') :
    e = r.lambda ∧ e' = r.respelled ∨
      ∃ before d d' after, e = .combination (before ++ d :: after) ∧
        e' = .combination (before ++ d' :: after) ∧ r.Replaces d d' := by
  cases h with
  | here => exact .inl ⟨rfl, rfl⟩
  | inside before after h => exact .inr ⟨before, _, _, after, rfl, rfl, h⟩

/-- Only combinations are replaced, by combinations. -/
theorem Replaces.exists_items {e e' : Datum H} (h : r.Replaces e e') :
    ∃ items items', e = .combination items ∧ e' = .combination items' := by
  obtain ⟨rfl, rfl⟩ | ⟨before, d, d', after, rfl, rfl, -⟩ := h.cases
  · exact ⟨_, _, rfl, rfl⟩
  · exact ⟨_, _, rfl, rfl⟩

theorem isWritable_respelled : r.respelled.isWritable = r.lambda.isWritable :=
  Datum.isWritable_respell (r.spell true) r.lambda

namespace Variant

variable {scopes : Nat} {within : Bool} {e e' : Datum H}

theorem proper (hsource : r.lambda.IsSource) (h : r.Variant scopes within e e') :
    e.Proper scopes := by
  cases h with
  | respelled h =>
      refine Datum.IsSource.proper (fun part hpart => ?_) scopes
      exact hsource part (hpart.trans h)
  | kept h => exact h
  | replaced _ hproper => exact hproper

theorem symbol {name : String} (h : r.Variant scopes within (.symbol name) e') :
    e' = .symbol (r.spell within name) ∧
      (within = true -> Datum.Occurs (.symbol name) r.lambda) := by
  cases h with
  | respelled h => exact ⟨rfl, fun _ => h⟩
  | kept => exact ⟨by rw [spell_false, id], by simp⟩
  | replaced h =>
      obtain ⟨_, _, hsymbol, -⟩ := h.exists_items
      cases hsymbol

theorem eq_of_atom (h : r.Variant scopes within e e') (hitems : e.items? = none)
    (hsymbol : ∀ name, e ≠ .symbol name) : e' = e := by
  cases h with
  | respelled h => exact Datum.respell_eq_self hitems hsymbol
  | kept => rfl
  | replaced h =>
      obtain ⟨_, _, rfl, -⟩ := h.exists_items
      cases hitems

/-- Sequences are variants item by item, unless they are the lambda and its respelling. -/
theorem items (h : r.Variant scopes within e e') {items : List (Datum H)}
    (hitems : e.items? = some items) :
    (within = false ∧ e = r.lambda ∧ e' = r.respelled) ∨
      ∃ items', e'.items? = some items' ∧
        List.Forall₂ (r.Variant scopes within) items items' := by
  cases h with
  | respelled h =>
      refine .inr ⟨items.map (Datum.respell (r.spell true)), ?_, ?_⟩
      · rw [Datum.items?_respell, hitems, Option.map_some]
      · refine List.forall₂_map_right_iff.mpr (List.forall₂_same.mpr fun item hmem => ?_)
        exact .respelled ((Datum.Occurs.item hitems hmem .self).trans h)
  | kept h =>
      refine .inr ⟨items, hitems, List.forall₂_same.mpr fun item hmem => ?_⟩
      exact .kept (h.occurs (.item hitems hmem .self))
  | replaced h hproper =>
      obtain ⟨rfl, rfl⟩ | ⟨before, d, d', after, rfl, rfl, hinner⟩ := h.cases
      · exact .inl ⟨rfl, rfl, rfl⟩
      · cases hitems
        have hkept : ∀ item ∈ before ++ d :: after, item.Proper scopes := fun item hmem =>
          hproper.occurs (.item rfl hmem .self)
        refine .inr ⟨before ++ d' :: after, rfl, List.rel_append ?_ (.cons ?_ ?_)⟩
        · exact List.forall₂_same.mpr fun item hmem => .kept (hkept item (by simp [hmem]))
        · exact .replaced hinner (hkept d (by simp))
        · exact List.forall₂_same.mpr fun item hmem => .kept (hkept item (by simp [hmem]))

theorem items?_eq_none (h : r.Variant scopes within e e') (hitems : e.items? = none) :
    e'.items? = none := by
  cases h with
  | respelled => rw [Datum.items?_respell, hitems, Option.map_none]
  | kept => exact hitems
  | replaced h =>
      obtain ⟨_, _, rfl, -⟩ := h.exists_items
      cases hitems

theorem identifier?_eq (h : r.Variant scopes within e e') :
    e'.identifier? = e.identifier?.map (r.spell within) := by
  cases h with
  | respelled =>
      cases e with
      | symbol name =>
          simp only [Datum.respell, Datum.identifier?, r.isValid_spell]
          split <;> rfl
      | _ => rfl
  | kept => rw [spell_false, Option.map_id, id]
  | replaced h =>
      obtain ⟨_, _, rfl, rfl⟩ := h.exists_items
      rfl

theorem ofDatum?_eq (h : r.Variant scopes within e e') :
    Keyword.ofDatum? e' = Keyword.ofDatum? e := by
  cases h with
  | respelled =>
      cases e with
      | symbol name => exact r.ofName?_spell true name
      | _ => rfl
  | kept => rfl
  | replaced h =>
      obtain ⟨_, _, rfl, rfl⟩ := h.exists_items
      rfl

theorem isWritable_eq (h : r.Variant scopes within e e') : e'.isWritable = e.isWritable := by
  cases h with
  | respelled => exact Datum.isWritable_respell _ e
  | kept => rfl
  | replaced h => exact Datum.Replaces.isWritable_eq h isWritable_respelled

theorem find? {items items' : List (Datum H)}
    (h : List.Forall₂ (r.Variant scopes within) items items') :
    Option.Rel (r.Variant scopes within) (items.find? fun item => item.identifier?.isNone)
      (items'.find? fun item => item.identifier?.isNone) := by
  induction h with
  | nil => exact .none
  | @cons item item' _ _ hitem _ ih =>
      have hnone : item'.identifier?.isNone = item.identifier?.isNone := by
        rw [hitem.identifier?_eq, Option.isNone_map]
      rw [List.find?_cons, List.find?_cons, hnone]
      cases item.identifier?.isNone with
      | true => exact .some hitem
      | false => exact ih

/-- Identifiers are spelled in another way, and those within the lambda occur in it. -/
theorem exists_names {items items' : List (Datum H)}
    (h : List.Forall₂ (r.Variant scopes within) items items')
    (hidentifiers : ∀ item ∈ items, item.identifier?.isSome) :
    ∃ names : List String, items = names.map .symbol ∧
      items' = (names.map (r.spell within)).map .symbol ∧
      (∀ name ∈ names, Identifier.isValid name = true) ∧
      (within = true -> ∀ name ∈ names, Datum.Occurs (.symbol name) r.lambda) := by
  induction h with
  | nil => exact ⟨[], rfl, rfl, by simp, by simp⟩
  | cons hitem _ ih =>
      obtain ⟨hfirst, hrest⟩ := List.forall_mem_cons.mp hidentifiers
      obtain ⟨names, rfl, rfl, hvalids, hlocals⟩ := ih hrest
      obtain ⟨name, hname⟩ := Option.isSome_iff_exists.mp hfirst
      obtain ⟨rfl, hvalid⟩ := Datum.identifier?_eq_some_iff.mp hname
      obtain ⟨rfl, hlocal⟩ := hitem.symbol
      refine ⟨name :: names, rfl, rfl, List.forall_mem_cons.mpr ⟨hvalid, hvalids⟩, fun hwithin => ?_⟩
      exact List.forall_mem_cons.mpr ⟨hlocal hwithin, hlocals hwithin⟩

end Variant

end Respelling

end Reckoner
