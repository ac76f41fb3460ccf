import Reckoner.Proofs.Correspondence.Discipline
import Reckoner.Proofs.Reading.SourceNames
import Reckoner.Proofs.Scopes

/-!
# Tables and root scopes

A text and a symbol are different keys, also where they have one name, so the binding of a
name may get its place from one entry of a table and its value from another.  Opening a
root scope binds the names of a table one after the other, and the frame reflects these
bindings as every frame does; the keys without a name are what is left over.
-/

namespace Reckoner

variable {H : Type}

/-- A key that can be bound: a text or a symbol that spells an identifier. -/
def Datum.IsNamed (key : Datum H) : Prop :=
  ∃ name, key.Names name ∧ IsName name.toList

namespace Table

theorem nameOf?_eq_some_iff_names {key : Datum H} {name : String} :
    nameOf? key = some name ↔ key.Names name ∧ IsName name.toList := by
  rw [nameOf?_eq_some_iff, isValid_iff, Datum.Names]

theorem isSome_nameOf?_iff {key : Datum H} : (nameOf? key).isSome = true ↔ key.IsNamed := by
  simp only [Option.isSome_iff_exists, nameOf?_eq_some_iff_names, Datum.IsNamed]

instance decidableIsNamed (key : Datum H) : Decidable key.IsNamed :=
  decidable_of_iff ((nameOf? key).isSome = true) isSome_nameOf?_iff

theorem skipped_eq_filter (table : Table H) :
    table.skipped = (table.map Prod.fst).filter fun key => ¬ key.IsNamed := by
  refine List.filter_congr fun key _ => ?_
  rw [Bool.eq_iff_iff, decide_eq_true_iff, ← isSome_nameOf?_iff, Option.isNone_iff_eq_none,
    Option.not_isSome_iff_eq_none]

/-! ## What a table binds -/

/-- The names of the keys that can be bound, each with its value, in the order of the table. -/
def named (table : Table H) : List (String × Datum H) :=
  table.filterMap fun entry => (nameOf? entry.1).map fun name => (name, entry.2)

theorem mem_names_iff {table : Table H} {name : String} :
    name ∈ table.named.map Prod.fst ↔ ∃ entry ∈ table, nameOf? entry.1 = some name := by
  simp [named, List.map_filterMap]

/-- Binding the names of a table one after the other leads a frame on from what it reflects. -/
theorem reflects_bindInto {frame : Frame H} {bound : List (String × Datum H)}
    (h : frame.Reflects bound) (table : Table H) :
    (⟨bindInto frame.bindings table, frame.outer⟩ : Frame H).Reflects (bound ++ table.named) := by
  induction table generalizing frame bound with
  | nil => simpa [bindInto, named] using h
  | cons entry rest ih =>
      rcases entry with ⟨key, value⟩
      cases hname : nameOf? key with
      | none => simpa [bindInto, named, hname] using ih h
      | some name =>
          have hrest := ih (h.bind name value)
          rw [List.append_assoc] at hrest
          simpa [bindInto, named, hname, Frame.bind] using hrest

theorem reflects_bindings (table : Table H) :
    (⟨table.bindings, none⟩ : Frame H).Reflects table.named :=
  reflects_bindInto (.nil none) table

/-- Among the keys of a name there is a last one. -/
theorem exists_last {table : Table H} {name : String}
    (h : ∃ entry ∈ table, entry.1.Names name) :
    ∃ front key value back, table = front ++ (key, value) :: back ∧ key.Names name ∧
      ∀ entry ∈ back, ¬ entry.1.Names name := by
  induction table with
  | nil => simp at h
  | cons entry rest ih =>
      by_cases hrest : ∃ later ∈ rest, later.1.Names name
      · obtain ⟨front, key, value, back, rfl, hlast⟩ := ih hrest
        exact ⟨entry :: front, key, value, back, rfl, hlast⟩
      · push Not at hrest
        obtain ⟨found, hmem, hfound⟩ := h
        rcases List.mem_cons.mp hmem with rfl | hlater
        · exact ⟨[], found.1, found.2, rest, rfl, hfound, hrest⟩
        · exact absurd hfound (hrest found hlater)

/-- A name is bound to the value of its last key. -/
theorem get?_bindings_eq_some_iff {table : Table H} {name : String} {value : Datum H} :
    Entries.get? (· == ·) name table.bindings = some value ↔ table.Keeps name value := by
  refine ⟨fun h => ?_, Keeps.get?_bindings⟩
  have hmem : name ∈ table.bindings.map Prod.fst := by
    by_contra hnone
    rw [← Entries.get?_eq_none_iff] at hnone
    rw [hnone] at h
    cases h
  rw [(reflects_bindings table).names_eq, List.mem_eraseDups, mem_names_iff] at hmem
  obtain ⟨entry, hentry, hname⟩ := hmem
  obtain ⟨hnames, hvalid⟩ := nameOf?_eq_some_iff.mp hname
  obtain ⟨front, key, last, back, hsplit, hkey, hback⟩ := exists_last ⟨entry, hentry, hnames⟩
  have hkept : key ∉ table.skipped := by
    rw [mem_skipped_iff hkey, hvalid]
    simp
  have hlast : table.Keeps name last := ⟨front, key, back, hsplit, hkey, hkept, hback⟩
  rw [hlast.get?_bindings] at h
  cases h
  exact hlast

end Table

/--
A root scope loses and invents nothing of its table, whatever kinds of keys that has.

It lies inside no other scope.  It binds the names of the keys that are texts or symbols
and spell an identifier: each name once, in the order in which the names come first, and
with the value of the last key of that name.  The keys that are skipped are all the
others, in the order of the table.
-/
theorem openRoot_binds_table (store : Store H) (table : Table H) :
    (∃ frame, (store.openRoot table).2.frame? (store.openRoot table).1 = some frame ∧
      frame.outer = none ∧
      frame.bindings.map Prod.fst = (table.named.map Prod.fst).eraseDups ∧
      (frame.bindings.map Prod.fst).Nodup ∧
      ∀ name value, frame.get? name = some value ↔ table.Keeps name value) ∧
    (∀ (key : Datum H) (name : String),
      Table.nameOf? key = some name ↔ key.Names name ∧ IsName name.toList) ∧
    table.skipped = (table.map Prod.fst).filter fun key => ¬ key.IsNamed := by
  refine ⟨⟨⟨table.bindings, none⟩, store.frame?_push_self _, rfl, ?_, ?_, ?_⟩,
    fun key name => Table.nameOf?_eq_some_iff_names, table.skipped_eq_filter⟩
  · exact table.reflects_bindings.names_eq
  · exact table.distinct_bindings.nodup
  · exact fun name value => Table.get?_bindings_eq_some_iff

/-- The place of `b` comes from a text, and its value from a symbol. -/
example :
    let table : Table Builtin := [(.text "b", .number (.int 1)), (.number (.int 7), .nil),
      (.symbol "a", .number (.int 2)), (.symbol "b", .number (.int 3)), (.text "b c", .nil)]
    table.bindings = [("b", .number (.int 3)), ("a", .number (.int 2))] ∧
      table.skipped = [.number (.int 7), .text "b c"] :=
  ⟨rfl, rfl⟩

end Reckoner
