import FuzzCampaign.Campaign.Plan
import FuzzCampaign.CommandLine.Scan

/-!
# The commands

Two programs share their global flags. The tool works with coverage files and nodes; a runner runs
the tests that are registered with it.

* `GlobalFlags`, `GlobalFlags.settings`;
* `ToolCommand`, `ToolCommand.parse`: the commands of the tool;
* `RunnerCommand`, `RunArguments`, `RunnerCommand.parse`: the commands of a runner.
-/

namespace FuzzCampaign

/-! ## Global flags -/

/-- The flags that every command takes. -/
structure GlobalFlags where
  verbose : Nat
  quiet : Bool
  colour : ColourChoice
  deriving DecidableEq, Repr

namespace GlobalFlags

/-- The settings that the flags ask for. -/
def settings (g : GlobalFlags) : Settings := ⟨.ofFlags g.quiet g.verbose, g.colour⟩

/-- The global flags as arguments. -/
def arguments : List Argument :=
  [⟨"verbose", some 'v', .counted⟩, ⟨"quiet", some 'q', .flag⟩, ⟨"color", none, .once .colour⟩]

/-- The lowest level at which an argument is given. -/
def lowest? (levels : List Level) (name : String) : Option Level :=
  levels.reverse.find? fun l => l.has name

/-- The global flags given at any level; the lowest level counts. -/
def ofLevels (levels : List Level) : GlobalFlags where
  verbose := ((lowest? levels "verbose").bind (·.number? "verbose")).getD 0
  quiet := (lowest? levels "quiet").isSome
  colour := ((lowest? levels "color").bind (·.colour? "color")).getD .auto

end GlobalFlags

/-- The argument that asks for help. -/
def helpArgument : Argument := ⟨"help", some 'h', .help⟩

/-- The argument that asks for the version. -/
def versionArgument : Argument := ⟨"version", some 'V', .version⟩

/-- The argument that names a kind of network. -/
def networkArgument : Argument := ⟨"network", none, .once .network⟩

/-! ## The tool -/

/-- A command of the tool. -/
inductive ToolCommand
  | merge (files : List String) (output : String)
  | summary (file : String)
  | check (network : Network) (port : UInt16)
  | listNetworks
  deriving DecidableEq, Repr

namespace ToolCommand

/-- The name of the tool. -/
def program : String := "chainfuzz"

/-- The arguments that every command of the tool takes. -/
def common : List Argument := GlobalFlags.arguments ++ [helpArgument, versionArgument]

/-- A group of commands. -/
def groupOf (name : String) (commands : List CommandShape) : CommandShape :=
  .mk name s!"{program}-{name}" common [] [] commands

/-- A command of a group that takes arguments besides those that every one takes. -/
def commandOf (group name : String) (named positional : List Argument) (required : List String) :
    CommandShape :=
  .mk name s!"{program}-{group}-{name}" (common ++ named) positional required []

/-- The commands on coverage files. -/
def coverageShape : CommandShape :=
  groupOf "coverage"
    [commandOf "coverage" "merge" [⟨"output", some 'o', .once .path⟩]
        [⟨"files", none, .repeated .path⟩] ["files", "output"],
      commandOf "coverage" "summary" [] [⟨"file", none, .once .path⟩] ["file"]]

/-- The commands on nodes. -/
def nodeShape : CommandShape :=
  groupOf "node"
    [commandOf "node" "check" [networkArgument, ⟨"port", none, .once .port⟩] [] [],
      commandOf "node" "list" [] [] []]

/-- The commands of the tool. -/
def shape : CommandShape := .mk program program common [] [] [coverageShape, nodeShape]

/-- The command of the lowest level. -/
def ofLevel (l : Level) : ToolCommand :=
  match l.command with
  | "merge" => .merge (l.texts "files") ((l.text? "output").getD "")
  | "summary" => .summary ((l.text? "file").getD "")
  | "check" =>
    .check ((l.network? "network").getD .anvil)
      (((l.number? "port").map UInt16.ofNat).getD usualPort)
  | _ => .listNetworks

/-- Read the command line of the tool, without the name of the program. -/
def parse (words : List String) : Except UsageError (GlobalFlags × ToolCommand) := do
  let levels ← shape.parse words
  return (.ofLevels levels, (levels.getLast?.map ofLevel).getD .listNetworks)

end ToolCommand

/-! ## Runners -/

/-- What a run of a campaign takes. -/
structure RunArguments where
  test : String
  processes : UInt64 := 1
  seeds : List Seed := []
  logsDir : String := ".chainfuzz-logs"
  passive : Bool := false
  network : Network := .anvil
  coverage : UInt64 := 0
  verboseCoverage : Bool := false
  basePort : UInt16 := usualPort
  coverageDir : String := "."
  /-- In seconds. -/
  decisionTimeout : Option UInt64 := none
  deriving DecidableEq

/-- A command of a runner. -/
inductive RunnerCommand
  | list
  | run (a : RunArguments)
  deriving DecidableEq

namespace RunnerCommand

/-- The arguments of a run. -/
def runNamed : List Argument :=
  [⟨"processes", some 'n', .once .count⟩, ⟨"seed", none, .repeated .seed⟩,
    ⟨"logs-dir", none, .once .path⟩, ⟨"passive", none, .flag⟩, networkArgument,
    ⟨"coverage", none, .once .count⟩, ⟨"verbose-coverage", none, .flag⟩,
    ⟨"base-port", none, .once .port⟩, ⟨"coverage-dir", none, .once .path⟩,
    ⟨"decision-timeout", none, .once .count⟩]

/-- The arguments that every command of a runner takes. -/
def common : List Argument := GlobalFlags.arguments ++ [helpArgument]

/-- The commands of a runner. -/
def shape : CommandShape :=
  .mk "harness" "harness" (common ++ [versionArgument]) [] []
    [.mk "list" "harness-list" common [] [] [],
      .mk "run" "harness-run" (common ++ runNamed) [⟨"test", none, .once .text⟩] ["test"] []]

/-- The arguments of a run from its level. -/
def runArguments (l : Level) : RunArguments where
  test := (l.text? "test").getD ""
  processes := ((l.number? "processes").map UInt64.ofNat).getD 1
  seeds := l.seeds "seed"
  logsDir := (l.text? "logs-dir").getD ".chainfuzz-logs"
  passive := l.has "passive"
  network := (l.network? "network").getD .anvil
  coverage := ((l.number? "coverage").map UInt64.ofNat).getD 0
  verboseCoverage := l.has "verbose-coverage"
  basePort := ((l.number? "base-port").map UInt16.ofNat).getD usualPort
  coverageDir := (l.text? "coverage-dir").getD "."
  decisionTimeout := (l.number? "decision-timeout").map UInt64.ofNat

/-- The command of the lowest level. -/
def ofLevel (l : Level) : RunnerCommand :=
  match l.command with
  | "run" => .run (runArguments l)
  | _ => .list

/-- Read the command line of a runner, without the name of the program. -/
def parse (words : List String) : Except UsageError (GlobalFlags × RunnerCommand) := do
  let levels ← shape.parse words
  return (.ofLevels levels, (levels.getLast?.map ofLevel).getD .list)

end RunnerCommand

end FuzzCampaign
