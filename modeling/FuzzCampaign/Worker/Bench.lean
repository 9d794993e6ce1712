import FuzzCampaign.Chain.Connect
import FuzzCampaign.Coverage.Probe
import FuzzCampaign.Link.Message
import FuzzCampaign.Random.Generator
import FuzzCampaign.TestCase
import FuzzCampaign.Worker.Task

/-!
# What a test body works with

A body runs at a bench: a client of the worker's node, random numbers, the values it watches, the
worker's log, and a coverage probe if one was given to it. The bench also holds the state of the
world around the worker.

* `WorkerHost`: how the world answers a worker;
* `Bench`, `FuzzBody`;
* `Bench.watch`, `Bench.write`, `Bench.request`, `Bench.draw`: what a body does with these;
* `Bench.takeProbe`, `Bench.hit`, `Bench.openTransaction`, `Bench.exportCoverage`,
  `Bench.dropProbe`: what it does with its probe.
-/

namespace FuzzCampaign

/-- How the world answers a worker: its node, its log, its link to the orchestrator, and a terminal
for a debugger. -/
structure WorkerHost (σ : Type) extends NodeHost σ where
  launch : Network → UInt16 → StateM σ (Except CampaignError Unit)
  stopNode : StateM σ Unit
  /-- Have the node killed if the link to the orchestrator is lost. -/
  guardNode : StateM σ Unit
  openLog : String → StateM σ (Except CampaignError Unit)
  appendLog : String → StateM σ (Except CampaignError Unit)
  printOut : String → StateM σ (Except CampaignError Unit)
  /-- The present time, as a log shows it. -/
  time : StateM σ String
  send : Dispatch → StateM σ (Except CampaignError Unit)
  receive : StateM σ (Except CampaignError Command)
  /-- Let a session read the terminal's input, write output, and leave the rest of the input. -/
  converse : (List UInt8 → String × List UInt8) → StateM σ Unit

/-- The state of a body and of the world around it. -/
structure Bench (σ : Type) where
  world : σ
  client : RpcClient
  generator : Generator
  /-- The watched names with their values as shown, in the order of first watching. -/
  watched : List (String × String)
  /-- The probe that is the body's argument, until the body takes it. -/
  argument? : Option Probe
  /-- The probe in the hands of the body. -/
  probe? : Option Probe

/-- How a body ends other than by returning. -/
inductive BodyFailure
  | error (e : TestError)
  | panic (p : Panic)
  deriving DecidableEq, Repr

/-- What the body of a test does. -/
abbrev BodyAction (σ α : Type) : Type := ExceptT BodyFailure (StateM (Bench σ)) α

/-- What is done at the bench, as part of a body. -/
def BodyAction.ofBench {σ α : Type} (act : StateM (Bench σ) α) : BodyAction σ α := ExceptT.lift act

/-- The body of a test, for worlds of a kind. -/
abbrev FuzzBody (σ : Type) : Type := WorkerHost σ → WorkerTask → BodyAction σ Unit

namespace Bench

variable {σ α : Type}

/-- Ask the world around the bench. -/
def ask (question : StateM σ α) : StateM (Bench σ) α := do
  let bench ← get
  let (a, world) := question bench.world
  set { bench with world }
  return a

/-! ## Watched values -/

/-- The watched values with a new one, in place of the one of that name if there is one. -/
def addWatched (name value : String) : List (String × String) → List (String × String)
  | [] => [(name, value)]
  | (n, v) :: r => if n = name then (n, value) :: r else (n, v) :: addWatched name value r

/-- Watch a value, as shown, under a name. -/
def watch (name value : String) : StateM (Bench σ) Unit :=
  modify fun b => { b with watched := addWatched name value b.watched }

/-! ## Chain, random numbers and log -/

/-- Make a request to the worker's node. -/
def request (act : RpcClient → StateM σ (Except CampaignError α × RpcClient)) :
    StateM (Bench σ) (Except CampaignError α) := do
  let (r, client) ← ask (act (← get).client)
  modify fun b => { b with client }
  return r

/-- Draw from the worker's generator. -/
def draw (f : Generator → Except Generator.DrawError (α × Generator)) :
    StateM (Bench σ) (Except Generator.DrawError α) := do
  match f (← get).generator with
  | .ok (a, generator) =>
    modify fun b => { b with generator }
    return .ok a
  | .error e => return .error e

/-- Append to the worker's log, and print it as well if the worker's output goes to the terminal. -/
def writeLog (host : WorkerHost σ) (tee : Bool) (text : String) :
    StateM σ (Except CampaignError Unit) := do
  match ← host.appendLog text with
  | .error e => return .error e
  | .ok () => if tee then host.printOut text else return .ok ()

/-- Write output of the test, which goes to the worker's log. -/
def write (host : WorkerHost σ) (task : WorkerTask) (text : String) :
    StateM (Bench σ) (Except CampaignError Unit) :=
  ask (writeLog host task.tee text)

/-! ## Coverage -/

/-- Report a snapshot. -/
def report (host : WorkerHost σ) (s : Snapshot) : StateM (Bench σ) (Except CampaignError Unit) :=
  ask (host.send (.coverage s))

/-- Give up the probe in the body's hands, which reports what it has counted. -/
def dropProbe (host : WorkerHost σ) : StateM (Bench σ) Unit := do
  let bench ← get
  set { bench with probe? := none }
  match bench.probe?.bind (·.farewell) with
  | some s => discard (report host s)
  | none => return ()

/-- Take the argument of a name as a probe, if there is one; gives the block at which it starts. -/
def takeProbe (host : WorkerHost σ) (name : String) :
    StateM (Bench σ) (Except CampaignError (Option UInt64)) := do
  if name = TestCase.coverageParam then
    match (← get).argument? with
    | none => return .ok none
    | some probe =>
      dropProbe host
      modify fun b => { b with argument? := none, probe? := some probe }
      return .ok (some probe.startingBlock)
  else return .error (TestCase.notAProbe name)

/-- Count hits, if the body has a probe. -/
def hit (file : String) (position : Position) (name : String) (n : UInt64) :
    StateM (Bench σ) Unit :=
  modify fun b => { b with probe? := b.probe?.map fun p => p.hit file position name n }

/-- Begin a transaction, if the body has a probe. -/
def openTransaction : StateM (Bench σ) Unit :=
  modify fun b => { b with probe? := b.probe?.map (·.openTransaction) }

/-- Report what the probe has counted; none without a probe. -/
def exportCoverage (host : WorkerHost σ) :
    StateM (Bench σ) (Option (Except CampaignError Unit)) := do
  match (← get).probe? with
  | none => return none
  | some p => return some (← report host p.snapshot)

/-- Whether the body has a probe. -/
def hasProbe : StateM (Bench σ) Bool := do return (← get).probe?.isSome

/-- Give up the argument that the body did not take. -/
def dropArgument (host : WorkerHost σ) : StateM (Bench σ) Unit := do
  let bench ← get
  set { bench with argument? := none }
  match bench.argument?.bind (·.farewell) with
  | some s => discard (report host s)
  | none => return ()

end Bench

end FuzzCampaign
