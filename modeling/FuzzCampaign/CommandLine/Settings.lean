/-!
# Settings of a command

How much a command says, and whether it says it in colours.

* `Verbosity`, `Verbosity.ofFlags`, `Verbosity.logFilter`;
* `ColourChoice`, `ColourChoice.inColour`;
* `Settings`.
-/

namespace FuzzCampaign

/-- How much a command says. -/
inductive Verbosity
  | quiet
  | normal
  | verbose
  | debug
  deriving DecidableEq, Repr

namespace Verbosity

/-- The name of a verbosity. -/
def name : Verbosity → String
  | .quiet => "Quiet"
  | .normal => "Normal"
  | .verbose => "Verbose"
  | .debug => "Debug"

/-- The verbosity that the flags ask for; quiet wins. -/
def ofFlags (quiet : Bool) (verbose : Nat) : Verbosity :=
  if quiet then .quiet
  else
    match verbose with
    | 0 => .normal
    | 1 => .verbose
    | _ => .debug

/-- Whether only errors are said. -/
def isQuiet (v : Verbosity) : Bool := v = .quiet

/-- Whether more than usual is said. -/
def isVerbose (v : Verbosity) : Bool := v = .verbose || v = .debug

/-- The least level of log lines that are shown. -/
def logFilter : Verbosity → String
  | .quiet => "error"
  | .normal => "warn"
  | .verbose => "info"
  | .debug => "debug"

end Verbosity

/-- When a command uses colours. -/
inductive ColourChoice
  | always
  | auto
  | never
  deriving DecidableEq, Repr

namespace ColourChoice

/-- Every choice. -/
def all : List ColourChoice := [.always, .auto, .never]

/-- The name of a choice, as the user gives it. -/
def name : ColourChoice → String
  | .always => "always"
  | .auto => "auto"
  | .never => "never"

/-- The choice of a name. -/
def ofName? (s : String) : Option ColourChoice := all.find? fun c => c.name = s

/-- Whether colours are used; `atTerminal` says whether there is a terminal to show them. -/
def inColour (atTerminal : Bool) : ColourChoice → Bool
  | .always => true
  | .auto => atTerminal
  | .never => false

end ColourChoice

/-- The settings of a command. -/
structure Settings where
  verbosity : Verbosity
  colour : ColourChoice
  deriving DecidableEq, Repr

end FuzzCampaign
