import FuzzCampaign.Coverage.Record
import FuzzCampaign.Failure.Envelope

/-!
# Messages between workers and orchestrator

Upward a worker announces itself, reports its failure or that it passed, sends its coverage, and
says when it is done. Downward the orchestrator decides on a debugger or ends the worker.

* `Dispatch`, `Command`;
* `linkVersion`: the version that a worker announces.
-/

namespace FuzzCampaign

/-- The version of the protocol. -/
def linkVersion : UInt16 := 1

/-- What a worker sends. -/
inductive Dispatch
  | hello (index : UInt64) (version : UInt16)
  /-- The outcome of the test: a failure, or none. -/
  | exception (report : Option Envelope)
  | coverage (snapshot : Snapshot)
  | finished
  deriving DecidableEq

/-- What the orchestrator sends. -/
inductive Command
  /-- Whether the worker shall attach a debugger. -/
  | decision (attach : Bool)
  | shutdown
  deriving DecidableEq, Repr

end FuzzCampaign
