import FuzzCampaign.Action
import FuzzCampaign.CommandLine.Command
import FuzzCampaign.CommandLine.Console
import FuzzCampaign.CommandLine.Host

/-!
# Running a campaign from the command line

* `buildPlan`: the plan that the arguments of a run ask for;
* `reportedRun`: a campaign and its report.
-/

namespace FuzzCampaign

namespace CommandLine

open CommandAction

variable {m : Type → Type} [Monad m]

/-- Why an action stopped, as the reason why its command stops. -/
def ofStop : Stop → CommandStop
  | .error e => .failed (.campaign e)
  | .abort message => .abort message
  | .outOfRounds => .outOfRounds

/-- The failure of a run without workers. -/
def tooFewProcesses : CommandError := .invalidArgument "--processes must be at least 1"

/-- The failure of a run in which more workers collect coverage than there are workers. -/
def tooMuchCoverage (a : RunArguments) : CommandError :=
  .invalidArgument s!"--coverage {a.coverage} exceeds --processes {a.processes}"

/-- The plan of a run, before it is validated. -/
def requestedPlan (a : RunArguments) : CampaignPlan where
  processCount := a.processes
  seeds := a.seeds
  logsDir := a.logsDir
  passive := a.passive
  network := a.network
  coverageWorkers := a.coverage
  verboseCoverage := a.verboseCoverage
  basePort := a.basePort
  coverageDir := a.coverageDir
  decisionTimeout := a.decisionTimeout.map fun s => .ofSeconds s.toNat

/-- The plan of a run; makes the directory of logs. -/
def buildPlan (host : CommandHost m) (a : RunArguments) : CommandAction m CampaignPlan := do
  if a.processes = 0 then throw (.failed tooFewProcesses)
  if a.processes < a.coverage then throw (.failed (tooMuchCoverage a))
  orStop (.failed <| .io ·) (← ask (host.makeDirectories a.logsDir))
  let plan := requestedPlan a
  let hasLogsDir ← ask (host.isDirectory plan.logsDir)
  orStop ofStop (plan.validate hasLogsDir)
  return plan

/-- Run a test in a campaign, which `campaign` carries out, and report on it. -/
def reportedRun (host : CommandHost m) (console : Console)
    (campaign : CampaignPlan → TestCase → m (Except Stop Findings))
    (tests : List TestCase) (a : RunArguments) : CommandAction m Findings := do
  let test ← orFail (TestCase.find tests a.test)
  let plan ← buildPlan host a
  ask (host.printErr (console.say .info
    (s!"fuzzing {test.fullName} with {plan.processCount} processes, " ++
      s!"logs in {plan.logsDir}")))
  let report ← orStop ofStop (← ask (campaign plan test))
  ask (host.printErr (console.campaign report))
  return report

end CommandLine

end FuzzCampaign
