import Reckoner.Host
import Reckoner.Text.Quoted

/-!
# Text of data

A datum is written in two styles: displayed, where texts and symbols at the top
appear as they are, and inspected, where they are quoted and marked.  Items of
sequences are inspected in both.  An integer of too many digits cannot be
written, so whoever writes a datum asks `isWritable` first.
-/

namespace Reckoner

namespace Datum

variable {H : Type}

inductive Style where
  | displayed
  | inspected
deriving DecidableEq, Repr

/-- Items between parentheses; a single item is followed by a comma. -/
def tupleText : List String -> String
  | [item] => "(" ++ item ++ ",)"
  | items => "(" ++ ", ".intercalate items ++ ")"

/-- The text of a closure with the given parameters; its body is not shown. -/
def lambdaText (parameters : List String) : String :=
  "(lambda (" ++ " ".intercalate parameters ++ ") ...)"

mutual

def write [Host H] (style : Style) : Datum H -> String
  | .number n => n.text .value
  | .nan _ => "nan"
  | .bool b => if b then "True" else "False"
  | .text s => if style = .displayed then s else Text.quoted s
  | .absent => "None"
  | .nil => "nil"
  | .symbol name => if style = .displayed then name else "Symbol(" ++ Text.quoted name ++ ")"
  | .combination items => tupleText (writeAll .inspected items)
  | .list items => "[" ++ ", ".intercalate (writeAll .inspected items) ++ "]"
  | .closure _ parameters _ _ =>
      let shown := lambdaText (writeAll .displayed parameters)
      if style = .displayed then shown else "<Closure " ++ shown ++ ">"
  | .function f => Host.label f

def writeAll [Host H] (style : Style) : List (Datum H) -> List String
  | [] => []
  | item :: rest => write style item :: writeAll style rest

end

/-- The text of a datum on its own. -/
def display [Host H] (d : Datum H) : String :=
  d.write .displayed

/-- The text of a datum inside others and in messages. -/
def inspect [Host H] (d : Datum H) : String :=
  d.write .inspected

mutual

/-- Whether a datum can be written: no integer that shows has too many digits. -/
def isWritable : Datum H -> Bool
  | .number n => n.isWritable
  | .combination items => allWritable items
  | .list items => allWritable items
  | .closure _ parameters _ _ => allWritable parameters
  | _ => true

def allWritable : List (Datum H) -> Bool
  | [] => true
  | item :: rest => isWritable item && allWritable rest

end

theorem allWritable_eq_true_iff (items : List (Datum H)) :
    allWritable items = true ↔ ∀ item ∈ items, item.isWritable = true := by
  induction items with
  | nil => simp [allWritable]
  | cons item rest ih => simp [allWritable, ih]

def display? [Host H] (d : Datum H) : Except Failure String :=
  if d.isWritable then .ok d.display else .error .digitLimit

def inspect? [Host H] (d : Datum H) : Except Failure String :=
  if d.isWritable then .ok d.inspect else .error .digitLimit

/-- A failure whose message inspects a datum; the datum's own text may fail first. -/
def blame [Host H] (cause : String -> Failure) (d : Datum H) : Failure :=
  if d.isWritable then cause d.inspect else .digitLimit

def blameDisplayed [Host H] (cause : String -> Failure) (d : Datum H) : Failure :=
  if d.isWritable then cause d.display else .digitLimit

end Datum

end Reckoner
