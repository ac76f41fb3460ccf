import Reckoner.Identifier
import Reckoner.Number
import Reckoner.Text.Blank

/-!
# Tokens

Source text is cut into tokens: single parentheses and atoms, which are separated
by blanks or parentheses.  The text is normalised first, so that in the end it
only has to be split at single spaces.
-/

namespace Reckoner

namespace Token

def isParenthesis (c : Char) : Bool :=
  c == '(' || c == ')'

def spaceOut (chars : List Char) : List Char :=
  chars.flatMap fun c => if isParenthesis c then [' ', c, ' '] else [c]

/-- Replaces every run of blanks by one space; `inRun` says that a run has been replaced already. -/
def collapseFrom (inRun : Bool) : List Char -> List Char
  | [] => []
  | c :: rest =>
      if Text.isBlank c then
        if inRun then collapseFrom true rest else ' ' :: collapseFrom true rest
      else c :: collapseFrom false rest

def collapse (chars : List Char) : List Char :=
  collapseFrom false chars

/-- Splits at every single space; there is always at least one piece. -/
def splitSpaces : List Char -> List (List Char)
  | [] => [[]]
  | c :: rest =>
      if c == ' ' then [] :: splitSpaces rest
      else
        match splitSpaces rest with
        | [] => [[c]]
        | piece :: pieces => (c :: piece) :: pieces

def normalize (chars : List Char) : List Char :=
  Text.trimBlanks (collapse (spaceOut chars))

def tokenizeChars (chars : List Char) : List (List Char) :=
  let normal := normalize chars
  if normal.isEmpty then [] else splitSpaces normal

end Token

def tokenize (source : String) : List String :=
  (Token.tokenizeChars source.toList).map String.ofList

inductive Lexeme where
  | literal (n : Number)
  /-- An integer numeral of too many digits; the token's length counts. -/
  | overlong (characters : Nat)
  | name (identifier : String)
  | opening
  | closing
  | unknown
deriving DecidableEq

namespace Lexeme

/-- Classifies a token. Numerals come first: `-5` is a number and `-` is a name. -/
def ofToken (token : String) : Lexeme :=
  match Numeral.ofChars? token.toList with
  | some numeral =>
      match Number.ofNumeral? numeral with
      | some n => .literal n
      | none => .overlong token.length
  | none =>
      if Identifier.isValid token then .name token
      else if token == "(" then .opening
      else if token == ")" then .closing
      else .unknown

end Lexeme

end Reckoner
