/-!
# Ordered entries

A list of keys with values in which each key stands once, at the place where it
was first put.  What counts as the same key is given by the caller.
-/

namespace Reckoner

namespace Entries

variable {Key Value : Type}

/-- Gives a key a value: in its old place with its old key if it is there, else at the end. -/
def put (same : Key -> Key -> Bool) (key : Key) (value : Value) :
    List (Key × Value) -> List (Key × Value)
  | [] => [(key, value)]
  | (k, v) :: rest => if same k key then (k, value) :: rest else (k, v) :: put same key value rest

def get? (same : Key -> Key -> Bool) (key : Key) : List (Key × Value) -> Option Value
  | [] => none
  | (k, v) :: rest => if same k key then some v else get? same key rest

/-- What holds of the old values and of a new one holds of all values once it is put. -/
theorem forall_mem_put {same : Key -> Key -> Bool} {key : Key} {value : Value}
    {entries : List (Key × Value)} {P : Value -> Prop} (h : ∀ entry ∈ entries, P entry.2)
    (hvalue : P value) : ∀ entry ∈ put same key value entries, P entry.2 := by
  induction entries with
  | nil => simpa [put] using hvalue
  | cons entry rest ih =>
      obtain ⟨hfirst, hrest⟩ := List.forall_mem_cons.mp h
      unfold put
      split
      · exact List.forall_mem_cons.mpr ⟨hvalue, hrest⟩
      · exact List.forall_mem_cons.mpr ⟨hfirst, ih hrest⟩

theorem exists_mem_of_get? {same : Key -> Key -> Bool} {key : Key} {value : Value}
    {entries : List (Key × Value)} (h : get? same key entries = some value) :
    ∃ entry ∈ entries, entry.2 = value := by
  induction entries with
  | nil => cases h
  | cons entry rest ih =>
      unfold get? at h
      split at h
      · exact ⟨entry, List.mem_cons_self, Option.some.inj h⟩
      · obtain ⟨found, hmem, hvalue⟩ := ih h
        exact ⟨found, List.mem_cons_of_mem entry hmem, hvalue⟩

section Map

variable {Other : Type} (same : Key -> Key -> Bool) (key : Key) (f : Value -> Other)

theorem get?_map (entries : List (Key × Value)) :
    get? same key (entries.map (Prod.map id f)) = (get? same key entries).map f := by
  induction entries with
  | nil => rfl
  | cons entry rest ih =>
      simp only [List.map_cons, Prod.map, id, get?]
      split
      · rfl
      · exact ih

theorem put_map (value : Value) (entries : List (Key × Value)) :
    put same key (f value) (entries.map (Prod.map id f)) =
      (put same key value entries).map (Prod.map id f) := by
  induction entries with
  | nil => rfl
  | cons entry rest ih =>
      simp only [List.map_cons, Prod.map, id, put]
      split
      · rfl
      · rw [List.map_cons, ih]
        rfl

end Map

variable [DecidableEq Key]

/-- A key that is put has its new value, and every other key its old one. -/
theorem get?_put (key sought : Key) (value : Value) (entries : List (Key × Value)) :
    get? (· == ·) sought (put (· == ·) key value entries) =
      if key = sought then some value else get? (· == ·) sought entries := by
  induction entries with
  | nil => simp [put, get?]
  | cons entry rest ih =>
      rcases entry with ⟨k, v⟩
      by_cases hkey : k = key
      · subst hkey
        by_cases hsought : k = sought <;> simp [put, get?, hsought]
      · by_cases hsought : k = sought
        · subst hsought
          simp [put, get?, hkey, Ne.symm hkey]
        · simp [put, get?, hkey, hsought, ih]

/-- Keys keep their places, and a new one comes last. -/
theorem keys_put (key : Key) (value : Value) (entries : List (Key × Value)) :
    (put (· == ·) key value entries).map Prod.fst =
      if key ∈ entries.map Prod.fst then entries.map Prod.fst
      else entries.map Prod.fst ++ [key] := by
  induction entries with
  | nil => simp [put]
  | cons entry rest ih =>
      rcases entry with ⟨k, v⟩
      by_cases hkey : k = key
      · simp [put, hkey]
      · have hother : ¬ key = k := fun h => hkey h.symm
        simp only [put, beq_iff_eq, hkey, ↓reduceIte, List.map_cons, ih, List.mem_cons, hother,
          false_or]
        split <;> simp

/-- Entries with other keys are not touched. -/
theorem filter_put (select : Key -> Bool) {key : Key} (h : select key = false) (value : Value)
    (entries : List (Key × Value)) :
    (put (· == ·) key value entries).filter (fun entry => select entry.1) =
      entries.filter (fun entry => select entry.1) := by
  induction entries with
  | nil => simp [put, h]
  | cons entry rest ih =>
      rcases entry with ⟨k, v⟩
      by_cases hkey : k = key
      · simp [put, hkey, h]
      · simp [put, hkey, List.filter_cons, ih]

/-- A key has no value exactly if it is not among the keys. -/
theorem get?_eq_none_iff (sought : Key) (entries : List (Key × Value)) :
    get? (· == ·) sought entries = none ↔ sought ∉ entries.map Prod.fst := by
  induction entries with
  | nil => simp [get?]
  | cons entry rest ih =>
      rcases entry with ⟨k, v⟩
      by_cases h : k = sought
      · simp [get?, h]
      · simp only [get?, beq_iff_eq, h, ↓reduceIte, ih, List.map_cons, List.mem_cons, not_or]
        exact ⟨fun hrest => ⟨fun heq => h heq.symm, hrest⟩, fun hrest => hrest.2⟩

end Entries

end Reckoner
