import FuzzCampaign.Chain.Node
import FuzzCampaign.CommandLine.Program
import FuzzCampaign.Scripted.Campaign
import FuzzCampaign.Scripted.Disk

/-!
# Programs without a network

A machine on which nothing can be reached: programs of networks can be started, if there are any,
but their nodes do not answer, and worker processes cannot reach their orchestrator.

* `ProgramTable`, `ProgramTable.start`, `ProgramTable.check`: nodes that do not answer;
* `Disk.runCampaign`: a campaign whose workers fail at once.
-/

namespace FuzzCampaign

/-- The programs that can be started, and what becomes of their processes. -/
abbrev ProgramTable : Type := List (String × NodeState)

namespace ProgramTable

/-- Start the program of a network. -/
def start (programs : ProgramTable) (network : Network) (port : UInt16) :
    Except CampaignError RunningNode :=
  match programs.find? fun p => p.1 = network.program with
  | some (_, state) => .ok ⟨network, port, state⟩
  | none => .error (network.startFailure DiskError.noEntry.message)

/-- The world of a check, in which the clock is all that changes. -/
def checkHost (programs : ProgramTable) (network : Network) (port : UInt16) :
    CommandLine.CheckHost Nat where
  openConnection _ := return .ok ()
  exchange _ := return .error (.transport "connection refused")
  nodeStatus := return (programs.start network port).toOption.bind (·.status?)
  now := get
  sleep d := modify (· + d.nanoseconds)
  launch network port := return (programs.start network port).map fun _ => ()
  stopNode := return ()

/-- Check a node. -/
def check (programs : ProgramTable) (rounds : Nat) (network : Network) (port : UInt16) :
    Except CampaignError UInt64 :=
  let host := programs.checkHost network port
  match ((CommandLine.checkNode host network port rounds).outcome 0).1 with
  | .ok block => .ok block
  | .error (.error e) => .error e
  | .error _ => .error (.connectionTimeout (Network.url port) Patience.default.timeout.millis)

end ProgramTable

namespace Disk

/-- A worker process that cannot reach its orchestrator. -/
def lostWorker : WorkerScript where
  seenLater :=
    .ok (some (ExitStatus.code (Runner.workerExitCode (.error Channel.workerHungUp))).text)

/-- The world of a campaign of such workers. -/
def lostWorkers (d : Disk) (fresh : Seed) (plan : CampaignPlan) : ScriptedCampaign where
  scripts := List.replicate plan.processCount.toNat fun _ => lostWorker
  prompt := ⟨[], []⟩
  directories := if d.isDirectory (parts plan.logsDir) then [plan.logsDir] else []
  fresh := fresh

/-- Run a campaign; each worker process leaves a log, and the terminal shows what is printed. -/
def runCampaign (fresh : Seed) (rounds : Nat) (plan : CampaignPlan) (test : TestCase) :
    StateM Disk (Except Stop Findings) := do
  let (result, world) := (Campaign.run ScriptedCampaign.host plan test rounds).outcome
    ((← get).lostWorkers fresh plan)
  host.printErr world.printed
  world.events.forM fun
    | .spawned task => discard (host.writeFile task.logPath "")
    | _ => return ()
  return result

end Disk

end FuzzCampaign
