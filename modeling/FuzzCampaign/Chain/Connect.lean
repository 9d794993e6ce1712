import FuzzCampaign.Chain.Client
import FuzzCampaign.Duration

/-!
# Connecting to a node that is starting

A node needs time before it answers. Its worker tries again until the node answers, exits, or the
time is up.

* `Patience`: how often and how long to try;
* `NodeHost`: how the world answers a worker that connects;
* `connectAttempt`, `connectRound`, `connectPatiently`.
-/

namespace FuzzCampaign

/-- The pause between attempts and the time for all of them. -/
structure Patience where
  pollInterval : Duration
  timeout : Duration
  deriving DecidableEq

/-- The usual policy: ten attempts a second, for ten seconds. -/
def Patience.default : Patience := ⟨.ofMillis 100, .ofSeconds 10⟩

/-- How the world answers: opening a connection, exchanging a request for a response, the exit
status of the node, the clock in nanoseconds, and pauses. -/
structure NodeHost (σ : Type) where
  openConnection : String → StateM σ (Except CampaignError Unit)
  exchange : Exchange σ
  nodeStatus : StateM σ (Option String)
  now : StateM σ Nat
  sleep : Duration → StateM σ Unit

variable {σ : Type}

/-- Try once: open a connection and ask for the block number. -/
def connectAttempt (host : NodeHost σ) (url : String) :
    StateM σ (Except CampaignError RpcClient) := do
  match ← host.openConnection url with
  | .error e => return .error e
  | .ok () =>
    match ← (RpcClient.connect url).latestBlock host.exchange with
    | (.ok _, client) => return .ok client
    | (.error e, _) => return .error e

/-- One round: try, and after a failure that a starting node explains, see whether the node has
exited or the time is up, and pause. -/
def connectRound (host : NodeHost σ) (url : String) (policy : Patience) (network : Network)
    (start : Nat) : Action σ (Option RpcClient) := do
  match ← Action.ask (connectAttempt host url) with
  | .ok client => return some client
  | .error e =>
    if e.isTransportFault then
      match ← Action.ask host.nodeStatus with
      | some status => throw (.error (.nodeExited network.name status))
      | none =>
        let now ← Action.ask host.now
        if policy.timeout.nanoseconds ≤ now - start then
          throw (.error (.connectionTimeout url policy.timeout.millis))
        else
          Action.ask (host.sleep policy.pollInterval)
          return none
    else throw (.error e)

/-- Try until the node answers, it exits, the time is up, or another failure shows. -/
def connectPatiently (host : NodeHost σ) (url : String) (policy : Patience) (network : Network)
    (rounds : Nat) : Action σ RpcClient := do
  let start ← Action.ask host.now
  Action.repeatUntil (connectRound host url policy network start) rounds

end FuzzCampaign
