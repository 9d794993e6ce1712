import FuzzCampaign.Campaign.Findings
import FuzzCampaign.Campaign.Host
import FuzzCampaign.Campaign.Plan
import FuzzCampaign.Campaign.Settlement

/-!
# The orchestrator's side of one worker

A worker is watched while it runs, handled once it says that it is done, and reaped at the end.

* `lookAfter`: a look at a worker that has said nothing;
* `awaitFinished`: waiting for a worker that has a decision;
* `reap`, `shutdown`: the end of a worker;
* `decideAttach`: the decision on a debugger;
* `conclude`: everything from the first completion of a worker to its end.
-/

namespace FuzzCampaign

namespace Campaign

variable {σ : Type}

/-! ## Liveness -/

/-- What is said of a worker that closed its link and still runs. -/
def linkClosed : String := "control connection closed"

/-- Look at a worker that has said nothing; `disconnected` says whether its link is closed, and
`since?` since when it is known to be gone. Gives the new value of the latter, and fails when the
worker has been gone for the whole period of grace. -/
def lookAfter (host : CampaignHost σ) (grace : Duration) (index : UInt64) (disconnected : Bool)
    (since? : Option Nat) : Action σ (Option Nat) := do
  match (← Action.perform (host.status index)).or (if disconnected then some linkClosed else none)
    with
  | none => return none
  | some status =>
    let since ← match since? with
      | some since => pure since
      | none => Action.ask host.now
    let now ← Action.ask host.now
    if grace.nanoseconds ≤ now - since then throw (.error (.workerDied index status))
    else return some since

/-- Wait for a completion, or look after the worker. Gives nothing once the completion came. -/
def awaitRound (host : CampaignHost σ) (plan : CampaignPlan) (index : UInt64)
    (since? : Option Nat) : Action σ (Option (Option Nat)) := do
  match ← Action.ask (host.awaitFinished index plan.pollInterval) with
  | .got () => return none
  | .empty => return some (← lookAfter host plan.deadWorkerGrace index false since?)
  | .disconnected =>
    let since? ← lookAfter host plan.deadWorkerGrace index true since?
    Action.ask (host.sleep plan.pollInterval)
    return some since?

/-- Wait for a completion of a worker that is known to be gone since some time. -/
def awaitFrom (host : CampaignHost σ) (plan : CampaignPlan) (index : UInt64) :
    Nat → Option Nat → Action σ Unit
  | 0, _ => throw .outOfRounds
  | rounds + 1, since? => do
    match ← awaitRound host plan index since? with
    | none => return ()
    | some since? => awaitFrom host plan index rounds since?

/-- Wait for the completion of a worker that has a decision. -/
def awaitFinished (host : CampaignHost σ) (plan : CampaignPlan) (rounds : Nat)
    (index : UInt64) : Action σ Unit :=
  awaitFrom host plan index rounds none

/-! ## The end of a worker -/

/-- The pause between two looks at a worker that is about to exit. -/
def reapInterval : Duration := .ofMillis 10

/-- Look whether a worker has exited; kill it if it cannot be looked at or its time is up. -/
def reapRound (host : CampaignHost σ) (index : UInt64) (deadline : Nat) :
    Action σ (Option Unit) := do
  match ← Action.ask (host.status index) with
  | .ok (some _) => return some ()
  | .error _ =>
    Action.ask (host.kill index)
    return some ()
  | .ok none =>
    if (← Action.ask host.now) < deadline then
      Action.ask (host.sleep reapInterval)
      return none
    else
      Action.ask (host.kill index)
      return some ()

/-- Wait for the exit of a worker, and kill it if it takes too long. The clock has no last moment,
so there is a deadline for every timeout. A system clock may have one, and then a timeout of 2^63
seconds or more, which a plan may have, can abort the run here; that is left out. -/
def reap (host : CampaignHost σ) (timeout : Duration) (rounds : Nat) (index : UInt64) :
    Action σ Unit := do
  let now ← Action.ask host.now
  Action.repeatUntil (reapRound host index (now + timeout.nanoseconds)) rounds

/-- Tell a worker to end, whether it hears it or not. -/
def sendShutdown (host : CampaignHost σ) (index : UInt64) : Action σ Unit :=
  Action.ask do discard (host.send index .shutdown)

/-- Tell a worker to end, and see to its end. -/
def shutdown (host : CampaignHost σ) (timeout : Duration) (rounds : Nat) (index : UInt64) :
    Action σ Unit := do
  sendShutdown host index
  reap host timeout rounds index

/-! ## A worker that is done -/

/-- What is said of a worker that died while its question was open and that leaves no status. -/
def exitedMeanwhile : String := "exited while awaiting decision"

/-- Ask the user whether to attach a debugger. -/
def askUser (host : CampaignHost σ) (index : UInt64) (e : Envelope) : Action σ Bool := do
  match ← Action.ask (host.decide index e (host.stillRuns index)) with
  | .answer attach => return attach
  | .timedOut => return false
  | .abandoned =>
    match ← Action.ask (host.status index) with
    | .ok (some status) => throw (.error (.workerDied index status))
    | _ => throw (.error (.workerDied index exitedMeanwhile))

/-- The decision on a debugger: a failure that is prompted for is shown, and the user is asked if a
debugger is of use. -/
def decideAttach (host : CampaignHost σ) (plan : CampaignPlan) (index : UInt64) (e : Envelope) :
    Action σ Bool := do
  if plan.asksAbout index then
    Action.ask (host.printLine (e.render host.colours index))
    if e.canDebug then askUser host index e else return false
  else return false

/-- The error of a worker that is done and has not said how its test ended. -/
def noOutcome (index : UInt64) : CampaignError :=
  .protocol s!"worker #{index} signalled completion without reporting an outcome"

/-- Send the decision to a worker. -/
def sendDecision (host : CampaignHost σ) (index : UInt64) (attach : Bool) : Action σ Unit := do
  match ← Action.ask (host.send index (.decision attach)) with
  | .ok () => return ()
  | .error e => throw (.error (.workerDied index e.message))

/-- Handle a worker whose test failed, up to its end. -/
def concludeFailed (host : CampaignHost σ) (plan : CampaignPlan) (rounds : Nat) (index : UInt64)
    (e : Envelope) : Action σ Verdict := do
  let state ← Action.lift Settlement.running.raise
  let state ← Action.lift state.report
  let attach ← decideAttach host plan index e
  let state ← Action.lift (state.resolve attach)
  sendDecision host index attach
  awaitFinished host plan rounds index
  let _ ← Action.lift state.finish
  reap host plan.reapTimeout rounds index
  return .failed e attach

/-- Handle a worker that says that it is done, up to its end. -/
def conclude (host : CampaignHost σ) (plan : CampaignPlan) (rounds : Nat)
    (index : UInt64) : Action σ Verdict := do
  match ← Action.ask (host.exception index) with
  | .got none =>
    let _ ← Action.lift Settlement.running.finish
    reap host plan.reapTimeout rounds index
    return .passed
  | .got (some e) => concludeFailed host plan rounds index e
  | _ => throw (.error (noOutcome index))

end Campaign

end FuzzCampaign
