import FuzzCampaign.Error
import FuzzCampaign.Text.Quoted
import FuzzCampaign.Text.Split

/-!
# Fuzz tests

A test is a function of a module, with the names of the arguments that it declares.

* `TestCase`, `TestCase.fullName`, `TestCase.answersTo`;
* `TestCase.find`: the one test that a name stands for;
* `TestCase.needsProbe`: whether it declares a coverage probe, if it declares nothing unknown;
* `TestCase.logFile`: the name of a worker's log file, safe on any file system;
* `TestCase.listing`: the tests, a line each.
-/

namespace FuzzCampaign

/-- A test: its module, its name, and the arguments that it declares. -/
structure TestCase where
  modulePath : String
  name : String
  params : List String
  deriving DecidableEq, Repr, Inhabited

namespace TestCase

/-- The name with its module. -/
def fullName (t : TestCase) : String := t.modulePath ++ "::" ++ t.name

/-- Whether a name stands for the test, bare or with its module. -/
def answersTo (t : TestCase) (query : String) : Bool := query = t.name || query = t.fullName

/-- The one test that a name stands for. -/
def find (tests : List TestCase) (query : String) : Except CampaignError TestCase :=
  match tests.filter fun t => t.answersTo query with
  | [] => .error (.unknownTest query)
  | [t] => .ok t
  | _ =>
    .error (.configuration s!"Test name '{query}' is ambiguous; use the qualified name")

/-- The name of the argument that receives a coverage probe. -/
def coverageParam : String := "coverage"

/-- Whether the test declares a coverage probe; it may declare no other argument. -/
def needsProbe (t : TestCase) : Except CampaignError Bool :=
  match t.params.find? fun p => p ≠ coverageParam with
  | some p =>
    .error (.configuration
      s!"Unable to set value for '{p}' argument in '{t.name}' function.")
  | none => .ok (t.params.contains coverageParam)

/-- The error of taking an argument of another name as a coverage probe. -/
def notAProbe (name : String) : CampaignError :=
  .configuration s!"'{name}' cannot be bound to a coverage probe"

/-- The extension of log files. -/
def logSuffix : String := "ansi"

/-- A character that may stand in the name of a log file. -/
def isSafe (c : Char) : Bool := c.isAlphanum || c = '.' || c = '_' || c = '-'

/-- The name of the log file of a worker. -/
def logFile (t : TestCase) (index : UInt64) : String :=
  let modulePath := Text.replace [':', ':'] ['.'] t.modulePath.toList
  let raw := modulePath ++ '.' :: t.name.toList ++ s!"_{index}.{logSuffix}".toList
  String.ofList ((raw.map fun c => if isSafe c then c else '_').dropWhile (· = '.'))

/-- The test as it is shown among other values. -/
def shown (t : TestCase) : String :=
  "FuzzTest \x7b module: " ++ Quoted.quote t.modulePath ++ ", name: " ++ Quoted.quote t.name ++
    ", params: " ++ Shown.list (t.params.map Quoted.quote) ++ ", .. \x7d"

/-- The tests with their arguments, a line each. -/
def listing (tests : List TestCase) : String :=
  String.join (tests.map fun t =>
    t.fullName ++
      (if t.params = [] then "" else " (" ++ ", ".intercalate t.params ++ ")") ++ "\n")

end TestCase

end FuzzCampaign
