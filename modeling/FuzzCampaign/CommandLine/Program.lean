import FuzzCampaign.CommandLine.Merging
import FuzzCampaign.CommandLine.NodeCheck
import FuzzCampaign.CommandLine.Running
import FuzzCampaign.Worker.Run

/-!
# The programs

A program carries out the command of its command line and ends with an exit code.

* `Tool.run`: the tool; `Tool.versionText`;
* `Runner.run`: a runner with its tests;
* `Runner.workerExitCode`: the exit code of a runner that was started as a worker.
-/

namespace FuzzCampaign

variable {m : Type → Type} [Monad m]

/-- How a program reports with its settings; `atTerminal` says whether there is a terminal. -/
def Console.ofSettings (s : Settings) (atTerminal : Bool) : Console :=
  let colours := s.colour.inColour atTerminal
  ⟨colours, colours, s.verbosity.isQuiet⟩

namespace Tool

open CommandLine

/-- The version of the tool. -/
def versionNumber : String := "0.4.0"

/-- The answer to the question for the version of a command with this title. -/
def versionText (title : String) : String := s!"{title} {versionNumber}\n"

/-- Carry out a command. -/
def execute (host : CommandHost m) (console : Console)
    (check : Network → UInt16 → m (Except CampaignError UInt64)) :
    ToolCommand → CommandAction m Unit
  | .merge files output => mergeInto host console files output
  | .summary file => printTable host file
  | .check network port => do discard (reportCheck host console check network port)
  | .listNetworks => CommandAction.ask (printNetworks host)

/-- The exit code of a program that aborts. -/
def abortCode : Nat := 101

/-- Carry out the command of a command line; gives the exit code. -/
def run (host : CommandHost m) (atTerminal : Bool)
    (check : Network → UInt16 → m (Except CampaignError UInt64)) (flags : GlobalFlags)
    (command : ToolCommand) : m Nat := do
  let console := Console.ofSettings flags.settings atTerminal
  match ← (execute host console check command).run with
  | .ok () => return 0
  | .error (.failed e) =>
    host.printErr s!"Error: {e.message}\n"
    return 1
  | .error (.abort message) =>
    host.printErr (message ++ "\n")
    return abortCode
  | .error .outOfRounds => return abortCode

end Tool

namespace Runner

open CommandLine

/-- Every worker passed. -/
def successCode : Nat := 0

/-- At least one worker failed. -/
def testFailureCode : Nat := 1

/-- The campaign could not be run to its end. -/
def fatalCode : Nat := 2

/-- The exit code of a runner that was started as a worker. -/
def workerExitCode : Except CampaignError WorkerEnd → Nat
  | .ok .passed => successCode
  | .ok (.failed _) => testFailureCode
  | .error _ => fatalCode

/-- The exit code after a campaign. -/
def codeOf (report : Findings) : Nat :=
  if report.allPassed then successCode else testFailureCode

/-- Carry out a command; gives the exit code, or the message with which the program aborts. -/
def run (host : CommandHost m) (atTerminal : Bool)
    (campaign : CampaignPlan → TestCase → m (Except Stop Findings))
    (tests : List TestCase) (flags : GlobalFlags) (command : RunnerCommand) :
    m (Except String Nat) := do
  let console := Console.ofSettings flags.settings atTerminal
  match command with
  | .list =>
    host.printOut (TestCase.listing tests)
    return .ok successCode
  | .run a =>
    match ← (reportedRun host console campaign tests a).run with
    | .ok report => return .ok (codeOf report)
    | .error (.failed e) =>
      host.printErr (console.say .failure e.message)
      return .ok fatalCode
    | .error (.abort message) => return .error message
    | .error .outOfRounds => return .ok fatalCode

end Runner

end FuzzCampaign
