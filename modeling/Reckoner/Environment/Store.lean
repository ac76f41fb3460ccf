import Reckoner.Datum.Text
import Reckoner.Entries

/-!
# Scopes

A scope is a frame of bindings with a link to the scope around it.  All scopes
live in one store and are known by their number there, so that closures share
the scope they were made in and see what is defined in it later.  A name is
looked up from a scope outwards; a binding is only ever written to the scope it
is made in.
-/

namespace Reckoner

/-- Bindings in the order in which their names were first bound. -/
abbrev Bindings (H : Type) :=
  List (String × Datum H)

structure Frame (H : Type) where
  bindings : Bindings H
  outer : Option Nat

namespace Frame

variable {H : Type}

instance : Inhabited (Frame H) :=
  ⟨⟨[], none⟩⟩

def get? (frame : Frame H) (name : String) : Option (Datum H) :=
  Entries.get? (· == ·) name frame.bindings

/-- Binds a name in this frame; a name bound before keeps its place. -/
def bind (frame : Frame H) (name : String) (value : Datum H) : Frame H :=
  ⟨Entries.put (· == ·) name value frame.bindings, frame.outer⟩

theorem get?_bind (frame : Frame H) (name sought : String) (value : Datum H) :
    (frame.bind name value).get? sought = if name = sought then some value else frame.get? sought :=
  Entries.get?_put name sought value frame.bindings

end Frame

/-- All scopes. A scope's number is its place. -/
structure Store (H : Type) where
  frames : Array (Frame H)

namespace Store

variable {H : Type}

def empty : Store H :=
  ⟨#[]⟩

instance : Inhabited (Store H) :=
  ⟨empty⟩

def frame? (store : Store H) (scope : Nat) : Option (Frame H) :=
  store.frames[scope]?

/-- Adds a scope with the given frame; its number is the count of scopes before. -/
def push (store : Store H) (frame : Frame H) : Nat × Store H :=
  (store.frames.size, ⟨store.frames.push frame⟩)

def create (store : Store H) (outer : Option Nat) : Nat × Store H :=
  store.push ⟨[], outer⟩

def bind (store : Store H) (scope : Nat) (name : String) (value : Datum H) : Store H :=
  ⟨store.frames.modify scope fun frame => frame.bind name value⟩

@[simp] theorem frame?_push_self (store : Store H) (frame : Frame H) :
    (store.push frame).2.frame? (store.push frame).1 = some frame := by
  simp [push, frame?]

/-- A new scope leaves the frames of the others alone. -/
theorem frame?_push_of_lt (store : Store H) (frame : Frame H) {scope : Nat}
    (h : scope < store.frames.size) :
    (store.push frame).2.frame? scope = store.frame? scope := by
  simp [push, frame?, Array.getElem?_push, Nat.ne_of_lt h]

@[simp] theorem size_bind (store : Store H) (scope : Nat) (name : String) (value : Datum H) :
    (store.bind scope name value).frames.size = store.frames.size := by
  simp [bind]

theorem frame?_bind_self (store : Store H) (scope : Nat) (name : String) (value : Datum H) :
    (store.bind scope name value).frame? scope =
      (store.frame? scope).map fun frame => frame.bind name value := by
  simp [bind, frame?, Array.getElem?_modify]

/-- A binding leaves the frames of other scopes alone. -/
theorem frame?_bind_of_ne (store : Store H) {scope other : Nat} (h : scope ≠ other)
    (name : String) (value : Datum H) :
    (store.bind scope name value).frame? other = store.frame? other := by
  simp [bind, frame?, Array.getElem?_modify, h]

def chainFrom (store : Store H) : Nat -> Nat -> List Nat
  | 0, _ => []
  | fuel + 1, scope =>
      match store.frame? scope with
      | none => []
      | some frame =>
          match frame.outer with
          | none => [scope]
          | some outer => scope :: chainFrom store fuel outer

/-- The scopes from one outwards. No scope is met twice, so there are at most as many as in the store. -/
def chain (store : Store H) (scope : Nat) : List Nat :=
  store.chainFrom store.frames.size scope

def own? (store : Store H) (scope : Nat) (name : String) : Option (Datum H) :=
  (store.frame? scope).bind fun frame => frame.get? name

def find? (store : Store H) (scope : Nat) (name : String) : Option Nat :=
  (store.chain scope).find? fun candidate => (store.own? candidate name).isSome

def lookup? (store : Store H) (scope : Nat) (name : String) : Option (Datum H) :=
  (store.find? scope name).bind fun candidate => store.own? candidate name

def define [Host H] (store : Store H) (scope : Nat) (target value : Datum H) :
    Except Failure (Store H) :=
  match target.identifier? with
  | some name => .ok (store.bind scope name value)
  | none => .error (target.blameDisplayed .invalidIdentifier)

/-- Defines entries one after the other; the first that fails ends it and keeps those before. -/
def update [Host H] (store : Store H) (scope : Nat) :
    List (Datum H × Datum H) -> Except Failure Unit × Store H
  | [] => (.ok (), store)
  | (target, value) :: rest =>
      match store.define scope target value with
      | .ok next => next.update scope rest
      | .error failure => (.error failure, store)

/-- The nearest scope that binds a key. Only symbols are ever bound, but any key may be sought. -/
def findKey [Host H] (store : Store H) (scope : Nat) (key : Datum H) :
    Except Failure (Option Nat) :=
  if key.isHashable then
    match key with
    | .symbol name => .ok (store.find? scope name)
    | _ => .ok none
  else .error .unhashable

def lookupKey [Host H] (store : Store H) (scope : Nat) (key : Datum H) :
    Except Failure (Datum H) :=
  let missing := Except.error (key.blameDisplayed .undefinedVariable)
  if key.isHashable then
    match key with
    | .symbol name =>
        match store.lookup? scope name with
        | some value => .ok value
        | none => missing
    | _ => missing
  else .error .unhashable

end Store

end Reckoner
