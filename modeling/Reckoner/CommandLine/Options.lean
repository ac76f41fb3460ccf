import Reckoner.Text.DecimalDigit
import Reckoner.Text.Quoted

/-!
# Command line options

The command takes three switches and any number of expressions.  Long switches
may be abbreviated, short ones may be written together, and a lone double dash
makes everything after it an expression.  The expressions must stand in one run:
those after a later switch are not recognised.
-/

namespace Reckoner

namespace CommandLine

inductive Switch where
  | help
  | verbose
  | laxArity
deriving DecidableEq, Repr

namespace Switch

def all : List Switch :=
  [.help, .verbose, .laxArity]

def letter? : Switch -> Option Char
  | .help => some 'h'
  | .verbose => some 'v'
  | .laxArity => none

def long : Switch -> String
  | .help => "--help"
  | .verbose => "--verbose"
  | .laxArity => "--lax-arity"

def title : Switch -> String
  | .help => "-h/--help"
  | .verbose => "-v/--verbose"
  | .laxArity => "--lax-arity"

def ofLetter? (c : Char) : Option Switch :=
  all.find? fun switch => switch.letter? == some c

def ofLong? (chars : List Char) : Option Switch :=
  all.find? fun switch => switch.long.toList == chars

def abbreviatedBy (chars : List Char) : List Switch :=
  all.filter fun switch => chars.isPrefixOf switch.long.toList

end Switch

inductive Argument where
  | expression (text : String)
  /-- The double dash. -/
  | separator
  /-- A long switch, with the text after an equals sign if there is one. -/
  | long (switch : Switch) (value : Option (List Char))
  /-- A short switch with the characters written behind it. -/
  | short (switch : Switch) (tail : List Char)
  /-- Something that looks like a switch and is none. -/
  | unknown (text : String)
deriving DecidableEq, Repr

namespace Argument

def splitEquals (chars : List Char) : List Char × Option (List Char) :=
  let before := chars.takeWhile (· != '=')
  match chars.dropWhile (· != '=') with
  | [] => (before, none)
  | _ :: after => (before, some after)

/-- Digits with an optional point before the last of them; a line break at the end is ignored. -/
def isUnsignedNumber (chars : List Char) : Bool :=
  let body := if chars.getLast? == some '\n' then chars.dropLast else chars
  match body.dropWhile Text.isDecimalDigit with
  | [] => !body.isEmpty
  | c :: rest => c == '.' && !rest.isEmpty && rest.all Text.isDecimalDigit

def dashed (text : String) : Argument :=
  if isUnsignedNumber (text.toList.drop 1) || text.toList.contains ' ' then .expression text
  else .unknown text

def ambiguity (text : String) (switches : List Switch) : String :=
  "ambiguous option: " ++ text ++ " could match " ++ ", ".intercalate (switches.map Switch.long)

/-- Classifies an argument, the double dash apart. -/
def classify (text : String) : Except String Argument :=
  match text.toList with
  | '-' :: '-' :: rest =>
      let (name, value) := splitEquals ('-' :: '-' :: rest)
      match Switch.ofLong? name with
      | some switch => .ok (.long switch value)
      | none =>
          match Switch.abbreviatedBy name with
          | [] => .ok (dashed text)
          | [switch] => .ok (.long switch value)
          | switches => .error (ambiguity text switches)
  | '-' :: letter :: tail =>
      match Switch.ofLetter? letter with
      | some switch => .ok (.short switch tail)
      | none => .ok (dashed text)
  | _ => .ok (.expression text)

def classifyAll : List String -> Except String (List Argument)
  | [] => .ok []
  | text :: rest =>
      if text == "--" then .ok (.separator :: rest.map .expression)
      else
        match classify text, classifyAll rest with
        | .error message, _ => .error message
        | .ok _, .error message => .error message
        | .ok argument, .ok arguments => .ok (argument :: arguments)

end Argument

inductive Request where
  | help
  /-- The arguments make no sense. -/
  | refused (message : String)
  | run (verbose laxArity : Bool) (expressions : List String)
deriving DecidableEq, Repr

def Request.readsInput : Request -> Bool
  | .run _ _ expressions => expressions.isEmpty
  | _ => false

def ignoredValue (switch : Switch) (value : List Char) : String :=
  "argument " ++ switch.title ++ ": ignored explicit argument " ++ Text.quoted (String.ofList value)

namespace Switch

/--
Reads the characters behind a short switch as the letters of further switches.

A character that is no letter of a switch makes everything from it on a value,
which the switch before it refuses.
-/
def cluster (switch : Switch) : List Char -> Except String (List Switch)
  | [] => .ok [switch]
  | letter :: rest =>
      match ofLetter? letter with
      | none => .error (ignoredValue switch (letter :: rest))
      | some next =>
          match cluster next rest with
          | .error message => .error message
          | .ok switches => .ok (switch :: switches)

/--
The switches in an argument that starts with a short switch.

An equals sign right behind that switch is passed over, so that it may stand in
front of further letters, but not alone.
-/
def ofShort (switch : Switch) : List Char -> Except String (List Switch)
  | ['='] => .error (ignoredValue switch [])
  | '=' :: letters => cluster switch letters
  | letters => cluster switch letters

end Switch

inductive Phase where
  | ahead
  | inside
  | behind
deriving DecidableEq, Repr

/-- What has been gathered from the arguments so far, lists in reverse. -/
structure Gathered where
  verbose : Bool
  laxArity : Bool
  expressions : List String
  unrecognized : List String
  phase : Phase
deriving DecidableEq, Repr

namespace Gathered

def none : Gathered :=
  ⟨false, false, [], [], .ahead⟩

/-- Takes an expression, or sets it aside if the run of expressions is over. -/
def expression (gathered : Gathered) (text : String) : Gathered :=
  match gathered.phase with
  | .behind => { gathered with unrecognized := text :: gathered.unrecognized }
  | _ => { gathered with expressions := text :: gathered.expressions, phase := .inside }

def separator (gathered : Gathered) : Gathered :=
  match gathered.phase with
  | .behind => { gathered with unrecognized := "--" :: gathered.unrecognized }
  | _ => { gathered with phase := .inside }

/-- A switch ends a run of expressions that has begun. -/
def interrupted (gathered : Gathered) : Gathered :=
  match gathered.phase with
  | .inside => { gathered with phase := .behind }
  | _ => gathered

def setAside (gathered : Gathered) (text : String) : Gathered :=
  { gathered with unrecognized := text :: gathered.unrecognized }

/-- Turns a switch on; help is given at once, so it gathers nothing. -/
def turnOn (gathered : Gathered) : Switch -> Option Gathered
  | .help => Option.none
  | .verbose => some { gathered with verbose := true }
  | .laxArity => some { gathered with laxArity := true }

def turnOnAll (gathered : Gathered) : List Switch -> Option Gathered
  | [] => some gathered
  | switch :: rest =>
      match gathered.turnOn switch with
      | Option.none => Option.none
      | some next => next.turnOnAll rest

def request (gathered : Gathered) : Request :=
  if gathered.unrecognized.isEmpty then
    .run gathered.verbose gathered.laxArity gathered.expressions.reverse
  else .refused ("unrecognized arguments: " ++ " ".intercalate gathered.unrecognized.reverse)

end Gathered

/-- Goes through the arguments in order; the first request for help or fault ends it. -/
def gather : Gathered -> List Argument -> Request
  | gathered, [] => gathered.request
  | gathered, .expression text :: rest => gather (gathered.expression text) rest
  | gathered, .separator :: rest => gather gathered.separator rest
  | gathered, .unknown text :: rest => gather (gathered.interrupted.setAside text) rest
  | _, .long switch (some value) :: _ => .refused (ignoredValue switch value)
  | gathered, .long switch Option.none :: rest =>
      match gathered.interrupted.turnOn switch with
      | Option.none => .help
      | some next => gather next rest
  | gathered, .short switch tail :: rest =>
      match switch.ofShort tail with
      | .error message => .refused message
      | .ok switches =>
          match gathered.interrupted.turnOnAll switches with
          | Option.none => .help
          | some next => gather next rest

def Request.ofArguments (arguments : List String) : Request :=
  match Argument.classifyAll arguments with
  | .error message => .refused message
  | .ok classified => gather .none classified

def usage : String :=
  "usage: sigma [-h] [-v] [--lax-arity] [expressions ...]\n"

def helpText : String :=
  usage
    ++ "\n"
    ++ "Evaluate Sigma expressions with the default calculator builtins.\n"
    ++ "\n"
    ++ "positional arguments:\n"
    ++ "  expressions    expressions to evaluate; read one per line from stdin when\n"
    ++ "                 omitted\n"
    ++ "\n"
    ++ "options:\n"
    ++ "  -h, --help     show this help message and exit\n"
    ++ "  -v, --verbose  enable debug logging\n"
    ++ "  --lax-arity    tolerate closure calls with too many or too few arguments\n"

def refusalText (message : String) : String :=
  usage ++ "sigma: error: " ++ message ++ "\n"

end CommandLine

end Reckoner
