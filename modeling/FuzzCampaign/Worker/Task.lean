import FuzzCampaign.Chain.Network
import FuzzCampaign.Json.Record
import FuzzCampaign.Random.Seed

/-!
# Tasks of workers

What a worker has to know of its place in the campaign. A worker process finds it as JSON in its
environment, beside the address of the orchestrator.

* `WorkerTask`, `WorkerTask.json`, `WorkerTask.reader`;
* `WorkerTask.environment`: the variables with which a worker process is started;
* `WorkerTask.ofEnvironment`: the task and the address, for a process that is a worker.
-/

namespace FuzzCampaign

open Json

/-- The place of a worker in the campaign. -/
structure WorkerTask where
  index : UInt64
  /-- The name of the test with its module. -/
  test : String
  seed : Seed
  port : UInt16
  logPath : String
  /-- Whether the output goes to the terminal as well. -/
  tee : Bool
  network : Network
  /-- Whether coverage is collected. -/
  coverage : Bool
  deriving DecidableEq, Inhabited

namespace WorkerTask

/-- The JSON of a task. -/
def json (s : WorkerTask) : Value :=
  .object [("index", .number (.unsigned s.index)), ("test", .text s.test), ("seed", s.seed.json),
    ("port", .ofNat s.port.toNat), ("log_path", .text s.logPath), ("tee", .bool s.tee),
    ("network", s.network.json), ("coverage", .bool s.coverage)]

/-- The reader of a task. -/
def reader : Reader WorkerTask :=
  Reader.record "WorkerSpec"
    [.of "index" (Reader.unsigned word64 "usize") fun n s => { s with index := UInt64.ofNat n },
      .of "test" Reader.text fun x s => { s with test := x },
      .of "seed" Seed.reader fun x s => { s with seed := x },
      .of "port" (Reader.unsigned word16 "u16") fun n s => { s with port := UInt16.ofNat n },
      .of "log_path" (Reader.textFor "path string") fun x s => { s with logPath := x },
      .of "tee" Reader.boolean fun x s => { s with tee := x },
      .of "network" Network.reader fun x s => { s with network := x },
      .of "coverage" Reader.boolean fun x s => { s with coverage := x }]
    default

/-- The environment variable with the task. -/
def taskVariable : String := "CHAINFUZZ_WORKER_SPEC"

/-- The environment variable with the address of the orchestrator. -/
def addressVariable : String := "CHAINFUZZ_CONTROL_ADDR"

/-- The variables with which a worker process is started, beside those it inherits. -/
def environment (task : WorkerTask) (address : String) : List (String × String) :=
  [(taskVariable, task.json.compact), (addressVariable, address)]

/-- The task and the address from the values of the two variables; none for a process that
is no worker. -/
def ofEnvironment (task? address? : Option String) :
    Except CampaignError (Option (WorkerTask × String)) :=
  match task? with
  | none => .ok none
  | some text =>
    match Reader.run reader text with
    | .error e => .error (.json e)
    | .ok task =>
      match address? with
      | some address => .ok (some (task, address))
      | none => .error (.configuration s!"{taskVariable} is set but {addressVariable} is not")

end WorkerTask

end FuzzCampaign
