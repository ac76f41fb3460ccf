import Reckoner.Datum.Basic
import Reckoner.Failure
import Reckoner.Token

/-!
# The reader

Reads one expression from the front of a token list.  The combinations that are
still open are kept on a stack, innermost first, each with its items in reverse;
so the reader is one pass over the tokens, whatever the nesting.
-/

namespace Reckoner

namespace Reader

variable {H : Type}

/-- The open combinations, innermost first, each with its last item first. -/
abbrev Stack (H : Type) :=
  List (List (Datum H))

inductive Step (H : Type) where
  | finished (value : Datum H)
  | failed (failure : Failure)
  | more (stack : Stack H)

/-- Hands an expression to the innermost open combination, or finishes if none is open. -/
def deliver (value : Datum H) : Stack H -> Step H
  | [] => .finished value
  | items :: outer => .more ((value :: items) :: outer)

def start (token : String) (stack : Stack H) : Step H :=
  match Lexeme.ofToken token with
  | .literal n => deliver (.number n) stack
  | .overlong characters => .failed (.numeralTooLong characters)
  | .name identifier => deliver (.symbol identifier) stack
  | .opening => .more ([] :: stack)
  | .closing => .failed (.unexpectedToken token)
  | .unknown => .failed (.unexpectedToken token)

/--
Takes one token.

A closing parenthesis ends the innermost open combination; any other token
starts an expression, which must not be nested deeper than `depth`.
-/
def step (depth : Nat) (token : String) : Stack H -> Step H
  | [] => if depth = 0 then .failed .depthExceeded else start token []
  | items :: outer =>
      if token == ")" then deliver (.combination items.reverse) outer
      else if depth ≤ (items :: outer).length then .failed .depthExceeded
      else start token (items :: outer)

structure Reading (H : Type) where
  outcome : Except Failure (Datum H)
  rest : List String

def resume (depth : Nat) : Stack H -> List String -> Reading H
  | _, [] => ⟨.error .endOfInput, []⟩
  | stack, token :: rest =>
      match step depth token stack with
      | .finished value => ⟨.ok value, rest⟩
      | .failed failure => ⟨.error failure, rest⟩
      | .more next => resume depth next rest

def read (depth : Nat) (tokens : List String) : Reading H :=
  resume depth [] tokens

end Reader

/-- Reads a source text as exactly one expression, nested at most `depth` deep. -/
def parse {H : Type} (depth : Nat) (source : String) : Except Failure (Datum H) :=
  let reading : Reader.Reading H := Reader.read depth (tokenize source)
  match reading.outcome with
  | .error failure => .error failure
  | .ok value => if reading.rest.isEmpty then .ok value else .error .surplusTokens

structure Cursor where
  tokens : List String
  position : Nat
deriving DecidableEq, Repr

namespace Cursor

def ofTokens (tokens : List String) : Cursor :=
  ⟨tokens, 0⟩

def remaining (cursor : Cursor) : List String :=
  cursor.tokens.drop cursor.position

def isExhausted (cursor : Cursor) : Bool :=
  decide (cursor.tokens.length ≤ cursor.position)

def peek? (cursor : Cursor) : Option String :=
  cursor.tokens[cursor.position]?

def advance (cursor : Cursor) : Except Failure String × Cursor :=
  match cursor.peek? with
  | some token => (.ok token, ⟨cursor.tokens, cursor.position + 1⟩)
  | none => (.error .endOfInput, cursor)

/-- Reads one expression; where reading fails the cursor stays at the tokens left then. -/
def read {H : Type} (depth : Nat) (cursor : Cursor) : Except Failure (Datum H) × Cursor :=
  let reading : Reader.Reading H := Reader.read depth cursor.remaining
  let consumed := cursor.remaining.length - reading.rest.length
  (reading.outcome, ⟨cursor.tokens, cursor.position + consumed⟩)

end Cursor

end Reckoner
