import FuzzCampaign.Action
import FuzzCampaign.Count
import FuzzCampaign.Duration
import FuzzCampaign.Path
import FuzzCampaign.TestCase
import FuzzCampaign.Worker.Task

/-!
# Plan of a campaign

How many workers a campaign has, on which ports their nodes listen, which of them collect coverage,
and how long the orchestrator waits for what.

* `CampaignPlan`; its defaults are those of the structure;
* `CampaignPlan.validate`: whether a campaign can be run like this;
* `CampaignPlan.portOf`, `isMeasured`, `copiesOutput`, `asksAbout`: what holds for a worker;
* `CampaignPlan.taskOf`: the place of a worker in the campaign;
* `CampaignPlan.json`, `CampaignPlan.reader`.
-/

namespace FuzzCampaign

open Json

/-- The port of the first worker's node, unless another is given. -/
def usualPort : UInt16 := 8545

/-- The plan of a campaign. -/
structure CampaignPlan where
  processCount : UInt64 := 1
  /-- The seeds of the first workers; the others get fresh ones. -/
  seeds : List Seed := []
  logsDir : String := ".chainfuzz-logs"
  /-- Whether only the first worker talks to the terminal. -/
  passive : Bool := false
  network : Network := .anvil
  /-- How many workers collect coverage. -/
  coverageWorkers : UInt64 := 0
  verboseCoverage : Bool := false
  basePort : UInt16 := usualPort
  /-- The pause between two looks at the workers. -/
  pollInterval : Duration := .ofMillis 125
  coverageDir : String := "."
  /-- How long a question is open, if not for ever. -/
  decisionTimeout : Option Duration := none
  /-- How long a worker that is done has for its exit. -/
  reapTimeout : Duration := .ofSeconds 10
  /-- How long a worker may be gone before it counts as dead. -/
  deadWorkerGrace : Duration := .ofSeconds 2
  deriving DecidableEq, Inhabited

namespace CampaignPlan

/-! ## What holds for a worker -/

/-- The port of a worker's node. -/
def portOf (c : CampaignPlan) (index : UInt64) : Except Overflow UInt16 :=
  (addExact c.basePort.toUInt64 index).map fun port =>
    if port.toNat < word16 then port.toUInt16 else 65535

/-- Whether a worker collects coverage. -/
def isMeasured (c : CampaignPlan) (index : UInt64) : Bool := index < c.coverageWorkers

/-- Whether a worker's output goes to the terminal as well. -/
def copiesOutput (c : CampaignPlan) (index : UInt64) : Bool := c.passive && index = 0

/-- Whether a worker's failure is shown and asked about. -/
def asksAbout (c : CampaignPlan) (index : UInt64) : Bool := !c.passive || index = 0

/-- The place of a worker in a campaign that runs `test`. -/
def taskOf (c : CampaignPlan) (test : TestCase) (index : UInt64) (seed : Seed) :
    Except Overflow WorkerTask := do
  let port ← c.portOf index
  return {
    index, seed, port
    test := test.fullName
    logPath := Path.join c.logsDir (test.logFile index)
    tee := c.copiesOutput index
    network := c.network
    coverage := c.isMeasured index }

/-! ## Validation -/

/-- The refusal of a campaign without workers. -/
def noWorkers : CampaignError := .configuration "process count must be at least 1"

/-- The refusal of more workers that collect coverage than there are workers. -/
def tooMuchCoverage (c : CampaignPlan) : CampaignError :=
  .configuration
    s!"coverage worker count {c.coverageWorkers} exceeds process count {c.processCount}"

/-- The refusal of a port range that ends above the last port. -/
def portsExceeded (c : CampaignPlan) : CampaignError :=
  .configuration
    s!"{c.processCount} workers starting at port {c.basePort} exceed the port range"

/-- The refusal of a directory of logs that is none. -/
def noLogsDir (c : CampaignPlan) : CampaignError :=
  .configuration s!"logs directory '{c.logsDir}' does not exist"

/-- Whether a campaign can be run like this; `hasLogsDir` says whether the directory of logs is
one. -/
def validate (c : CampaignPlan) (hasLogsDir : Bool) : Except Stop Unit :=
  if c.processCount = 0 then .error (.error noWorkers)
  else if c.processCount < c.coverageWorkers then .error (.error c.tooMuchCoverage)
  else
    match addExact c.basePort.toUInt64 c.processCount with
    | .error e => .error (.abort e.message)
    | .ok firstFree =>
      if word16 < firstFree.toNat then .error (.error c.portsExceeded)
      else if hasLogsDir then .ok ()
      else .error (.error c.noLogsDir)

/-! ## JSON -/

/-- The JSON of a plan. -/
def json (c : CampaignPlan) : Value :=
  .object [("process_count", .number (.unsigned c.processCount)),
    ("seeds", .list (c.seeds.map Seed.json)),
    ("logs_dir", .text c.logsDir),
    ("passive", .bool c.passive),
    ("network", c.network.json),
    ("coverage_workers", .number (.unsigned c.coverageWorkers)),
    ("verbose_coverage", .bool c.verboseCoverage),
    ("base_port", .ofNat c.basePort.toNat),
    ("poll_interval", c.pollInterval.json),
    ("coverage_dir", .text c.coverageDir),
    ("decision_timeout", c.decisionTimeout.elim .null Duration.json),
    ("reap_timeout", c.reapTimeout.json),
    ("dead_worker_grace", c.deadWorkerGrace.json)]

/-- The reader of a plan. -/
def reader : Reader CampaignPlan :=
  Reader.record "CampaignConfig"
    [.of "process_count" (Reader.unsigned word64 "usize")
        fun n c => { c with processCount := UInt64.ofNat n },
      .of "seeds" (Reader.sequence Seed.reader) fun x c => { c with seeds := x },
      .of "logs_dir" (Reader.textFor "path string") fun x c => { c with logsDir := x },
      .of "passive" Reader.boolean fun x c => { c with passive := x },
      .of "network" Network.reader fun x c => { c with network := x },
      .of "coverage_workers" (Reader.unsigned word64 "usize")
        fun n c => { c with coverageWorkers := UInt64.ofNat n },
      .of "verbose_coverage" Reader.boolean fun x c => { c with verboseCoverage := x },
      .of "base_port" (Reader.unsigned word16 "u16")
        fun n c => { c with basePort := UInt16.ofNat n },
      .of "poll_interval" Duration.reader fun x c => { c with pollInterval := x },
      .of "coverage_dir" (Reader.textFor "path string") fun x c => { c with coverageDir := x },
      .ofOption "decision_timeout" Duration.reader fun x c => { c with decisionTimeout := x },
      .of "reap_timeout" Duration.reader fun x c => { c with reapTimeout := x },
      .of "dead_worker_grace" Duration.reader fun x c => { c with deadWorkerGrace := x }]
    {}

end CampaignPlan

end FuzzCampaign
