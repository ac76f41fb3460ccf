import Mathlib.Data.List.Perm.Subperm
import Mathlib.Data.Nat.Find
import Reckoner.Proofs.Semantics.Rules

/-!
# Names and the scopes that bind them

`Store.lookup?` walks outwards along links and stops after as many scopes as
there are.  It finds exactly the values that the rules let a name see: a walk that
finds its name at the earliest place meets no scope twice.
-/

namespace Reckoner

namespace Store

variable {H : Type}

/-- The value of a name in the first of so many scopes outwards that binds it. -/
def seek (store : Store H) (name : String) (fuel scope : Nat) : Option (Datum H) :=
  (store.chainFrom fuel scope).findSome? fun candidate => store.own? candidate name

theorem lookup?_eq_seek (store : Store H) (scope : Nat) (name : String) :
    store.lookup? scope name = store.seek name store.frames.size scope := by
  simp only [lookup?, find?, seek, chain]
  induction store.chainFrom store.frames.size scope with
  | nil => rfl
  | cons candidate rest ih =>
      cases h : store.own? candidate name with
      | none => simp [h, ih]
      | some value => simp [h]

theorem seek_of_no_frame {store : Store H} {scope : Nat} (h : store.frame? scope = none)
    (name : String) (fuel : Nat) : store.seek name fuel scope = none := by
  cases fuel with
  | zero => rfl
  | succ fuel => simp [seek, chainFrom, h]

theorem seek_succ_of_own {store : Store H} {scope : Nat} {frame : Frame H} {name : String}
    {value : Datum H} (hframe : store.frame? scope = some frame)
    (hvalue : frame.get? name = some value) (fuel : Nat) :
    store.seek name (fuel + 1) scope = some value := by
  cases h : frame.outer with
  | none => simp [seek, chainFrom, hframe, h, own?, hvalue]
  | some outer => simp [seek, chainFrom, hframe, h, own?, hvalue]

theorem seek_succ_of_outer {store : Store H} {scope outer : Nat} {frame : Frame H} {name : String}
    (hframe : store.frame? scope = some frame) (hnone : frame.get? name = none)
    (houter : frame.outer = some outer) (fuel : Nat) :
    store.seek name (fuel + 1) scope = store.seek name fuel outer := by
  simp [seek, chainFrom, hframe, houter, own?, hnone]

theorem seek_succ_of_last {store : Store H} {scope : Nat} {frame : Frame H} {name : String}
    (hframe : store.frame? scope = some frame) (hnone : frame.get? name = none)
    (houter : frame.outer = none) (fuel : Nat) :
    store.seek name (fuel + 1) scope = none := by
  simp [seek, chainFrom, hframe, houter, own?, hnone]

/-- A walk that finds something either finds it here, or one link further out. -/
theorem seek_succ_cases {store : Store H} {scope fuel : Nat} {name : String} {value : Datum H}
    (h : store.seek name (fuel + 1) scope = some value) :
    ∃ frame, store.frame? scope = some frame ∧
      (frame.get? name = some value ∨
        frame.get? name = none ∧ ∃ outer, frame.outer = some outer ∧
          store.seek name fuel outer = some value) := by
  cases hframe : store.frame? scope with
  | none => simp [seek_of_no_frame hframe] at h
  | some frame =>
      refine ⟨frame, rfl, ?_⟩
      cases hown : frame.get? name with
      | some own =>
          rw [seek_succ_of_own hframe hown] at h
          exact .inl h
      | none =>
          cases houter : frame.outer with
          | none =>
              rw [seek_succ_of_last hframe hown houter] at h
              cases h
          | some outer =>
              rw [seek_succ_of_outer hframe hown houter] at h
              exact .inr ⟨rfl, outer, rfl, h⟩

theorem sees_of_seek {store : Store H} {name : String} {value : Datum H} {fuel scope : Nat}
    (h : store.seek name fuel scope = some value) : store.Sees name value scope := by
  induction fuel generalizing scope with
  | zero => cases h
  | succ fuel ih =>
      obtain ⟨frame, hframe, hown | ⟨hnone, outer, houter, hrest⟩⟩ := seek_succ_cases h
      · exact .own hframe hown
      · exact .outer hframe hnone houter (ih hrest)

theorem seek_mono {store : Store H} {name : String} {value : Datum H} {fuel more scope : Nat}
    (h : store.seek name fuel scope = some value) (hle : fuel ≤ more) :
    store.seek name more scope = some value := by
  induction fuel generalizing more scope with
  | zero => cases h
  | succ fuel ih =>
      obtain ⟨rest, rfl⟩ := Nat.exists_eq_add_of_le' (Nat.lt_of_lt_of_le (Nat.zero_lt_succ _) hle)
      obtain ⟨frame, hframe, hown | ⟨hnone, outer, houter, hrest⟩⟩ := seek_succ_cases h
      · exact seek_succ_of_own hframe hown rest
      · rw [seek_succ_of_outer hframe hnone houter]
        exact ih hrest (by omega)

theorem exists_seek_of_sees {store : Store H} {name : String} {value : Datum H} {scope : Nat}
    (h : store.Sees name value scope) : ∃ fuel, store.seek name fuel scope = some value := by
  induction h with
  | own hframe hvalue => exact ⟨1, seek_succ_of_own hframe hvalue 0⟩
  | outer hframe hnone houter _ ih =>
      obtain ⟨fuel, hfuel⟩ := ih
      exact ⟨fuel + 1, by rw [seek_succ_of_outer hframe hnone houter]; exact hfuel⟩

/-- The scopes of a walk of least length are all different: from each of them it is shorter. -/
theorem exists_nodup_of_least {store : Store H} {name : String} {value : Datum H}
    {fuel scope : Nat} (h : store.seek name fuel scope = some value)
    (hleast : ∀ less, less < fuel -> store.seek name less scope = none) :
    ∃ scopes : List Nat, scopes.length = fuel ∧ scopes.Nodup ∧
      ∀ met ∈ scopes, met < store.frames.size ∧
        ∃ enough, enough ≤ fuel ∧ store.seek name enough met ≠ none := by
  induction fuel generalizing scope with
  | zero => cases h
  | succ fuel ih =>
      obtain ⟨frame, hframe, hown | ⟨hnone, outer, houter, hrest⟩⟩ := seek_succ_cases h
      · have hzero : fuel = 0 := by
          by_contra hpos
          have hnone := hleast 1 (by omega)
          rw [seek_succ_of_own hframe hown] at hnone
          cases hnone
        subst hzero
        refine ⟨[scope], rfl, List.pairwise_singleton _ scope, ?_⟩
        intro met hmet
        rw [List.mem_singleton] at hmet
        subst hmet
        exact ⟨(Array.getElem?_eq_some_iff.mp hframe).1, 1, Nat.le_refl 1, by simp [h]⟩
      · obtain ⟨scopes, hlength, hnodup, hmet⟩ := ih hrest (fun less hless => by
          rw [← seek_succ_of_outer hframe hnone houter]
          exact hleast (less + 1) (by omega))
        have hnew : scope ∉ scopes := by
          intro hmem
          obtain ⟨_, enough, hle, hfound⟩ := hmet scope hmem
          exact hfound (hleast enough (by omega))
        refine ⟨scope :: scopes, by simp [hlength], List.nodup_cons.mpr ⟨hnew, hnodup⟩, ?_⟩
        intro met hmem
        rcases List.mem_cons.mp hmem with rfl | hmem
        · exact ⟨(Array.getElem?_eq_some_iff.mp hframe).1, fuel + 1, Nat.le_refl _, by simp [h]⟩
        · obtain ⟨hsize, enough, hle, hfound⟩ := hmet met hmem
          exact ⟨hsize, enough, by omega, hfound⟩

theorem lookup?_eq_some_iff {store : Store H} {scope : Nat} {name : String} {value : Datum H} :
    store.lookup? scope name = some value ↔ store.Sees name value scope := by
  rw [lookup?_eq_seek]
  refine ⟨sees_of_seek, fun hseen => ?_⟩
  classical
  have hexists : ∃ fuel, store.seek name fuel scope = some value := exists_seek_of_sees hseen
  have hfound := Nat.find_spec hexists
  have hleast : ∀ less, less < Nat.find hexists -> store.seek name less scope = none := by
    intro less hless
    cases hless' : store.seek name less scope with
    | none => rfl
    | some other =>
        have hsame := seek_mono hless' (Nat.le_of_lt hless)
        rw [hfound] at hsame
        exact absurd (hsame ▸ hless') (Nat.find_min hexists hless)
  obtain ⟨scopes, hlength, hnodup, hmet⟩ := exists_nodup_of_least hfound hleast
  have hsubset : scopes ⊆ List.range store.frames.size := fun met hmem =>
    List.mem_range.mpr (hmet met hmem).1
  have hcount := (List.subperm_of_subset hnodup hsubset).length_le
  rw [hlength, List.length_range] at hcount
  exact seek_mono hfound hcount

theorem lookup?_eq_none_iff {store : Store H} {scope : Nat} {name : String} :
    store.lookup? scope name = none ↔ ∀ value, ¬ store.Sees name value scope := by
  simp only [← lookup?_eq_some_iff, Option.eq_none_iff_forall_ne_some, ne_eq]

end Store

end Reckoner
