import Reckoner.CommandLine.Options
import Reckoner.Interpreter
import Reckoner.Settings

/-!
# Running the command

Each expression is interpreted on its own against the calculator's table.  Values
go to the output and reports on failures to the error channel, in order; the
status tells whether anything failed.
-/

namespace Reckoner

def Builtin.call {H : Type} (b : Builtin) (operands : List (Datum H)) :
    Except Failure (Datum H) :=
  match b.apply (operands.map Datum.operand) with
  | .ok n => .ok (.number n)
  | .error fault => .error (.calculation fault)

instance : Host Builtin where
  call := Builtin.call
  title := Builtin.title
  label := Builtin.label

namespace CommandLine

inductive Channel where
  | output
  | errors
deriving DecidableEq, Repr

inductive Ending where
  /-- All expressions were dealt with. -/
  | finished (status : Nat)
  /-- The arguments left nothing to run. -/
  | stopped (code : Nat)
  /-- A failure that is not reported ended it. -/
  | crashed (failure : Failure)
deriving DecidableEq, Repr

structure Report where
  written : List (Channel × String)
  ending : Ending
deriving DecidableEq, Repr

namespace Report

def on (report : Report) (channel : Channel) : String :=
  String.join ((report.written.filter fun piece => piece.1 == channel).map Prod.snd)

def prepend (pieces : List (Channel × String)) (report : Report) : Report :=
  ⟨pieces ++ report.written, report.ending⟩

def failed (report : Report) : Report :=
  match report.ending with
  | .finished _ => ⟨report.written, .finished 1⟩
  | _ => report

end Report

def debugLine (text : String) : Channel × String :=
  (.errors, "DEBUG sigma.interpreter: " ++ text ++ "\n")

def debugLines {H : Type} [Host H] (source : String) (interpretation : Interpretation H) :
    List (Channel × String) :=
  let shown := Text.quoted source
  let parsed :=
    match interpretation.expression with
    | some expression => [debugLine ("Parsed " ++ shown ++ " -> " ++ expression.inspect)]
    | none => []
  let ended :=
    match interpretation.result with
    | .ok value =>
        if value.isWritable then [debugLine ("Evaluated " ++ shown ++ " -> " ++ value.inspect)]
        else []
    | .error failure =>
        if failure.isFatal then []
        else
          [debugLine ("Evaluation of " ++ shown ++ " failed with " ++ failure.kind ++ ": "
            ++ failure.message)]
  parsed ++ ended

def isBlankText (text : String) : Bool :=
  (Text.trimBlanks text.toList).isEmpty

def calculatorTable : Table Builtin :=
  Table.calculator id

def interpretOne (strict : Bool) (source : String) : Interpretation Builtin :=
  interpret defaultDepth strict .empty calculatorTable source

/-- Deals with expressions one after the other; blank ones are passed over. -/
def run (verbose strict : Bool) : List String -> Report
  | [] => ⟨[], .finished 0⟩
  | source :: rest =>
      if isBlankText source then run verbose strict rest
      else
        let interpretation := interpretOne strict source
        let log := if verbose then debugLines source interpretation else []
        match interpretation.outcome with
        | .value value =>
            match value.display? with
            | .ok text => (run verbose strict rest).prepend (log ++ [(.output, text ++ "\n")])
            | .error failure => ⟨log, .crashed failure⟩
        | .error report =>
            (run verbose strict rest).failed.prepend
              (log ++ [(.errors, "error: " ++ report ++ "\n")])
        | .escaped failure => ⟨log, .crashed failure⟩

/-- Cuts a text after every line break; a last line without one counts as well. -/
def linesFrom (current : List Char) : List Char -> List String
  | [] => if current.isEmpty then [] else [String.ofList current.reverse]
  | c :: rest =>
      if c == '\n' then String.ofList ('\n' :: current).reverse :: linesFrom [] rest
      else linesFrom (c :: current) rest

def lines (text : String) : List String :=
  linesFrom [] text.toList

/--
Carries a request out.

Without expressions the lines of the input take their place.  The setting for
arity is asked only if the arguments do not settle it.
-/
def carryOut (request : Request) (strictArity : Option String) (input : String) : Report :=
  match request with
  | .help => ⟨[(.output, helpText)], .stopped 0⟩
  | .refused message => ⟨[(.errors, refusalText message)], .stopped 2⟩
  | .run verbose laxArity expressions =>
      let strict := if laxArity then false else Settings.strictArity strictArity
      run verbose strict (if expressions.isEmpty then lines input else expressions)

end CommandLine

end Reckoner
