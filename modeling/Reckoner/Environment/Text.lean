import Reckoner.Environment.Store

/-!
# Text of scopes

A scope shows its own bindings, on its own with a hint that there is more around
it, or with everything around it.
-/

namespace Reckoner

namespace Frame

variable {H : Type}

def isWritable (frame : Frame H) : Bool :=
  frame.bindings.all fun binding => binding.2.isWritable

def text [Host H] (frame : Frame H) : String :=
  let shown := frame.bindings.map fun binding => binding.1 ++ ": " ++ binding.2.inspect
  "\x7b" ++ ", ".intercalate shown ++ "\x7d"

end Frame

namespace Store

variable {H : Type}

def framesFrom (store : Store H) (scope : Nat) : List (Frame H) :=
  (store.chain scope).filterMap store.frame?

def display? [Host H] (store : Store H) (scope : Nat) : Except Failure String :=
  let frame := (store.frame? scope).getD default
  if frame.isWritable then .ok (frame.text ++ if frame.outer.isSome then " -> ..." else "")
  else .error .digitLimit

def inspect? [Host H] (store : Store H) (scope : Nat) : Except Failure String :=
  let frames := store.framesFrom scope
  if frames.all Frame.isWritable then
    .ok ("<Environment chain: " ++ " -> ".intercalate (frames.map Frame.text) ++ ">")
  else .error .digitLimit

end Store

end Reckoner
