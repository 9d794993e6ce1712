import FuzzCampaign.Error

/-!
# Settlement of failures

After a failure, worker and orchestrator agree on whether a debugger is attached. Both follow the
same states.

* `Settlement`: the states; `Settlement.name`;
* `Settlement.raise`, `report`, `resolve`, `finish`: the legal steps, all others are errors.
-/

namespace FuzzCampaign

/-- How far a worker has come. -/
inductive Settlement
  | running
  | exceptionRaised
  | awaitingDecision
  | attached
  | detached
  | finished
  deriving DecidableEq, Repr

namespace Settlement

/-- The name of a state. -/
def name : Settlement → String
  | .running => "Running"
  | .exceptionRaised => "ExceptionRaised"
  | .awaitingDecision => "AwaitingDecision"
  | .attached => "Attached"
  | .detached => "Detached"
  | .finished => "Finished"

/-- Go on to `next`, if the state is one of `allowed`. -/
def advance (s : Settlement) (allowed : List Settlement) (next : Settlement) :
    Except CampaignError Settlement :=
  if s ∈ allowed then .ok next
  else .error (.protocol s!"illegal handshake transition {s.name} -> {next.name}")

/-- The test failed. -/
def raise (s : Settlement) : Except CampaignError Settlement :=
  s.advance [.running] .exceptionRaised

/-- The failure is reported. -/
def report (s : Settlement) : Except CampaignError Settlement :=
  s.advance [.exceptionRaised] .awaitingDecision

/-- The decision is made. -/
def resolve (s : Settlement) (attach : Bool) : Except CampaignError Settlement :=
  s.advance [.awaitingDecision] (if attach then .attached else .detached)

/-- The worker is done. -/
def finish (s : Settlement) : Except CampaignError Settlement :=
  s.advance [.running, .attached, .detached] .finished

end Settlement

end FuzzCampaign
