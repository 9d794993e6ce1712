import FuzzCampaign.Worker.Run

/-!
# Worker processes

The program that runs a campaign also runs its workers: a process that is started as a worker looks
for the test of its task among the tests that are registered with the program.

* `Worker.runProcess`.
-/

namespace FuzzCampaign

namespace Worker

variable {σ : Type}

/-- The run of a process that was started as a worker, in a program with these tests and bodies;
`connect` connects the worker with its index to the orchestrator. -/
def runProcess (host : WorkerHost σ) (tests : List TestCase) (bodyOf : TestCase → FuzzBody σ)
    (connect : UInt64 → StateM σ (Except CampaignError Unit)) (task : WorkerTask) (rounds : Nat) :
    Action σ WorkerEnd := do
  let test ← Action.lift (TestCase.find tests task.test)
  Action.perform (connect task.index)
  run host test (bodyOf test) task .default rounds

end Worker

end FuzzCampaign
