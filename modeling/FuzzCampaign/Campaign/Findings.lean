import FuzzCampaign.Failure.Envelope
import FuzzCampaign.Random.Seed

/-!
# The report of a campaign

* `Verdict`, `Finding`: how a worker ended;
* `Findings`, `Findings.failures`, `Findings.allPassed`;
* `Findings.summary`: the report in a line.
-/

namespace FuzzCampaign

/-- How the test of a worker ended. -/
inductive Verdict
  | passed
  | failed (report : Envelope) (attached : Bool)
  deriving DecidableEq, Repr

/-- Whether a test passed. -/
def Verdict.isPassed : Verdict → Bool
  | .passed => true
  | .failed .. => false

/-- The outcome of a worker and the seed that it ran with. -/
structure Finding where
  index : UInt64
  seed : Seed
  outcome : Verdict
  deriving DecidableEq

/-- The outcomes of the workers in order, and the coverage files written last. -/
structure Findings where
  workers : List Finding
  coverageFiles : List String
  deriving DecidableEq

namespace Findings

/-- The workers whose tests failed. -/
def failures (r : Findings) : List Finding :=
  r.workers.filter fun w => !w.outcome.isPassed

/-- Whether the tests of all workers passed. -/
def allPassed (r : Findings) : Bool := r.workers.all fun w => w.outcome.isPassed

/-- The report in a line. -/
def summary (r : Findings) : String :=
  let total := r.workers.length
  let failed := r.failures.length
  let verdict := if r.allPassed then "PASSED" else "FAILED"
  s!"{verdict}: {total - failed} of {total} processes passed, {failed} failed"

end Findings

end FuzzCampaign
