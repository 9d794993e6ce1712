import FuzzCampaign.Chain.Network
import FuzzCampaign.CommandLine.Settings
import FuzzCampaign.Random.Seed

/-!
# What commands take

A command takes arguments with names, arguments by position, or subcommands.

* `UsageError`: why a command line is not understood, `UsageError.exitCode`;
* `ValueKind`, `ArgumentValue`: what a value has to be, and what it is;
* `Argument`, `CommandShape`: what a command takes;
* `CommandShape.helpOn`: what becomes of the wish for help.
-/

namespace FuzzCampaign

/-- Why the words of a command line do not make a command, or which text is wanted instead. -/
inductive UsageError
  | unknownArgument
  /-- A value is missing, empty or none of those listed. -/
  | invalidValue
  /-- A value does not have the form that its argument asks for. -/
  | malformedValue
  | missingArgument
  /-- An argument that can be given once is given twice. -/
  | repeatedArgument
  | unknownSubcommand
  /-- A flag is given a value. -/
  | unwantedValue
  | missingSubcommand
  | help
  /-- The version of a program or command with this title is asked for. -/
  | version (title : String)
  /-- Nothing is given where a subcommand is needed. -/
  | helpForNothing
  deriving DecidableEq, Repr

/-- The exit code: a text that was asked for is no failure. -/
def UsageError.exitCode : UsageError → Nat
  | .help | .version _ => 0
  | _ => 2

/-! ## Values -/

/-- What a value has to be. -/
inductive ValueKind
  | text
  | path
  | count
  | port
  | seed
  | network
  | colour
  deriving DecidableEq, Repr

/-- A value. -/
inductive ArgumentValue
  | text (s : String)
  | number (n : Nat)
  | seed (s : Seed)
  | network (n : Network)
  | colour (c : ColourChoice)
  deriving DecidableEq

namespace ValueKind

/-- A value of a form that may be missed. -/
def orMalformed {α : Type} (make : α → ArgumentValue) : Option α → Except UsageError ArgumentValue
  | some a => .ok (make a)
  | none => .error .malformedValue

/-- A port: a numeral, with a minus sign only before zero. -/
def readPort? (cs : List Char) : Option Nat :=
  match cs with
  | '-' :: '+' :: _ => none
  | '-' :: r => (Numeral.readDecimal? word16 r).filter (· = 0)
  | cs => Numeral.readDecimal? word16 cs

/-- Read a value. -/
def read (kind : ValueKind) (s : String) : Except UsageError ArgumentValue :=
  match kind with
  | .text => .ok (.text s)
  | .path => if s = "" then .error .invalidValue else .ok (.text s)
  | .count => orMalformed .number (Numeral.readDecimal? word64 s.toList)
  | .port => orMalformed .number (readPort? s.toList)
  | .seed => orMalformed .seed (Seed.ofHex s).toOption
  | .network => orMalformed .network (Network.ofName s).toOption
  | .colour =>
    match ColourChoice.ofName? s with
    | some c => .ok (.colour c)
    | none => .error .invalidValue

end ValueKind

/-! ## Commands -/

/-- What an argument is: a flag that is given once or counted, a value that is given once or again
and again, or the wish for a text. -/
inductive ArgumentForm
  | flag
  | counted
  | once (kind : ValueKind)
  | repeated (kind : ValueKind)
  | help
  | version
  deriving DecidableEq, Repr

/-- What the value of an argument has to be, if it takes one. -/
def ArgumentForm.kind? : ArgumentForm → Option ValueKind
  | .once kind | .repeated kind => some kind
  | _ => none

/-- An argument, given by name or, in short, by a letter. -/
structure Argument where
  name : String
  letter? : Option Char
  form : ArgumentForm
  deriving DecidableEq, Repr

/-- What a command takes. The title names it with the commands above it. -/
inductive CommandShape
  | mk (name title : String) (named positional : List Argument) (required : List String)
    (subcommands : List CommandShape)

namespace CommandShape

/-- The name of a command. -/
def name : CommandShape → String
  | .mk name .. => name

/-- The title of a command. -/
def title : CommandShape → String
  | .mk _ title .. => title

/-- The arguments that are given by name. -/
def named : CommandShape → List Argument
  | .mk _ _ named .. => named

/-- The arguments that are given by position. -/
def positional : CommandShape → List Argument
  | .mk _ _ _ positional .. => positional

/-- The names of the arguments that have to be given. -/
def required : CommandShape → List String
  | .mk _ _ _ _ required _ => required

/-- The subcommands. -/
def subcommands : CommandShape → List CommandShape
  | .mk _ _ _ _ _ subcommands => subcommands

/-- The subcommand of a name. -/
def subcommand? (c : CommandShape) (name : String) : Option CommandShape :=
  c.subcommands.find? fun s => s.name = name

/-- The argument of a name. -/
def argument? (c : CommandShape) (name : String) : Option Argument :=
  (c.named ++ c.positional).find? fun a => a.name = name

/-- The name of the subcommand that gives help, which every command with subcommands has. -/
def helpName : String := "help"

/-- Whether a word is the name of a subcommand. -/
def isSubcommand (c : CommandShape) (name : String) : Bool :=
  !c.subcommands.isEmpty && (name = helpName || (c.subcommand? name).isSome)

/-- The outcome of asking for help on a command below this one. -/
def helpOn (c : CommandShape) : List String → UsageError
  | [] => .help
  | w :: ws =>
    match c.subcommand? w with
    | some s => s.helpOn ws
    | none => if c.isSubcommand w && ws.isEmpty then .help else .unknownSubcommand

end CommandShape

end FuzzCampaign
