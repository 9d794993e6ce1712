import FuzzCampaign.Campaign.Settlement
import FuzzCampaign.Worker.Bench
import FuzzCampaign.Worker.Debugging

/-!
# The run of a worker

A worker starts its node, connects to it, resets the chain, opens its log and runs the body of its
test. It reports the outcome, waits for the decision on a debugger if the outcome is a failure, and
stops its node last.

* `setUp`: everything before the body, or the first failure on the way;
* `runBody`: the body, and the report of its failure if it fails;
* `reportOutcome`: the conversation with the orchestrator;
* `run`: all of it, and the end of the node.
-/

namespace FuzzCampaign

/-- How a worker ends. -/
inductive WorkerEnd
  | passed
  | failed (attached : Bool)
  deriving DecidableEq, Repr

/-- The name of an exit. -/
def WorkerEnd.text : WorkerEnd → String
  | .passed => "Passed"
  | .failed attached => "Failed \x7b attached: " ++ toString attached ++ " \x7d"

namespace Worker

variable {σ : Type}

/-! ## Log lines -/

/-- The first line of a worker's log. -/
def headerLine (task : WorkerTask) (time : String) : String :=
  s!"chainfuzz worker #{task.index} seed {task.seed.hex} started {time}\n"

/-- The log line of a test that begins. -/
def beginLine (test : TestCase) (task : WorkerTask) : String :=
  s!"INFO running test body test={test.fullName} seed={task.seed.hex}\n"

/-- The log line of a test that ended. -/
def endLine : Option Envelope → String
  | none => "INFO test passed\n"
  | some e => s!"ERROR test failed envelope={e.text}\n"

/-! ## Before the body -/

/-- Reset the chain; a network that cannot be reset is used as it is. -/
def resetChain (host : WorkerHost σ) (network : Network) (client : RpcClient) :
    Action σ RpcClient := do
  let (r, client) ← Action.ask (client.reset host.exchange network)
  match r with
  | .ok () => return client
  | .error (.unsupported _) => return client
  | .error e => throw (.error e)

/-- The probe of the body, if it declares one and coverage is collected. -/
def makeProbe (host : WorkerHost σ) (task : WorkerTask) (wanted : Bool) (client : RpcClient) :
    Action σ (Option Probe × RpcClient) := do
  if task.coverage && wanted then
    let (block, client) ← Action.ask (client.latestBlock host.exchange)
    return (some (.start (← Action.lift block)), client)
  else return (none, client)

/-- Everything between the start of the node and the body: the client and the probe. -/
def setUp (host : WorkerHost σ) (test : TestCase) (task : WorkerTask) (retry : Patience)
    (rounds : Nat) : Action σ (RpcClient × Option Probe) := do
  let client ←
    connectPatiently host.toNodeHost (Network.url task.port) retry task.network rounds
  let client ← resetChain host task.network client
  Action.perform (host.openLog task.logPath)
  let time ← Action.ask host.time
  Action.perform (Bench.writeLog host task.tee (headerLine task time))
  let wanted ← Action.lift test.needsProbe
  let (probe, client) ← makeProbe host task wanted client
  return (client, probe)

/-! ## The body -/

/-- The report of a body's failure. -/
def failureReport (test : TestCase) (watched : List (String × String)) : BodyFailure → Envelope
  | .error e => .ofTestError test.fullName e watched
  | .panic p => .ofPanic test.fullName p watched

/-- Run the body at its bench, give up its probe however it ends, and report its failure if it
fails. -/
def runBody (host : WorkerHost σ) (test : TestCase) (body : FuzzBody σ) (task : WorkerTask)
    (client : RpcClient) (probe? : Option Probe) : StateM σ (Option Envelope) := do
  discard (Bench.writeLog host task.tee (beginLine test task))
  let bench : Bench σ := ⟨← get, client, .ofSeed task.seed, [], probe?, none⟩
  let (outcome, bench) := (body host task).run.run bench
  let ((), bench) := (Bench.dropProbe host).run bench
  let ((), bench) := (Bench.dropArgument host).run bench
  set bench.world
  let report := match outcome with
    | .ok () => none
    | .error failure => some (failureReport test bench.watched failure)
  discard (Bench.writeLog host task.tee (endLine report))
  return report

/-- Start the node and run the body; gives whether there is a node, and the report of the failure of
the body or of the step that failed. -/
def execute (host : WorkerHost σ) (test : TestCase) (body : FuzzBody σ) (task : WorkerTask)
    (retry : Patience) (rounds : Nat) : Action σ (Bool × Option Envelope) := do
  let harness (e : CampaignError) : Option Envelope :=
    some (.ofHarnessError test.fullName e)
  match ← Action.ask (host.launch task.network task.port) with
  | .error e => return (false, harness e)
  | .ok () =>
    Action.ask host.guardNode
    match ← Action.attempt (setUp host test task retry rounds) with
    | .error e => return (true, harness e)
    | .ok (client, probe) =>
      return (true, ← Action.ask (runBody host test body task client probe))

/-! ## The report -/

/-- Whether the orchestrator wants a debugger; an orchestrator that ends wants none. -/
def wantsDebugger : Command → Bool
  | .decision attach => attach
  | .shutdown => false

/-- Debug a failure at the terminal. -/
def debug (host : WorkerHost σ) (e : Envelope) : StateM σ Unit :=
  host.converse fun input =>
    let ending := DebugState.session e input
    (ending.output, ending.unread)

/-- Report the outcome, and after a failure wait for the decision on a debugger. -/
def reportOutcome (host : WorkerHost σ) (report : Option Envelope) : Action σ WorkerEnd := do
  let state := Settlement.running
  match report with
  | none =>
    Action.perform (host.send (.exception none))
    Action.perform (host.send .finished)
    let _ ← Action.lift state.finish
    return .passed
  | some e =>
    let state ← Action.lift state.raise
    Action.perform (host.send (.exception (some e)))
    Action.perform (host.send .finished)
    let state ← Action.lift state.report
    let attach := wantsDebugger (← Action.perform host.receive)
    let state ← Action.lift (state.resolve attach)
    if attach then Action.ask (debug host e)
    Action.perform (host.send .finished)
    let _ ← Action.lift state.finish
    return .failed attach

/-- The whole run: whatever happens, a node that was started is stopped once, and last. -/
def run (host : WorkerHost σ) (test : TestCase) (body : FuzzBody σ) (task : WorkerTask)
    (retry : Patience) (rounds : Nat) : Action σ WorkerEnd := do
  let (hasNode, report) ← execute host test body task retry rounds
  let result ← Action.attempt (reportOutcome host report)
  if hasNode then Action.ask host.stopNode
  Action.lift result

end Worker

end FuzzCampaign
