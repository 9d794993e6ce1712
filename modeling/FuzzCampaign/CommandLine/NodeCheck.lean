import FuzzCampaign.Campaign.Plan
import FuzzCampaign.Chain.Connect
import FuzzCampaign.CommandLine.Console
import FuzzCampaign.CommandLine.Host

/-!
# Commands on nodes

* `networkTable`, `printNetworks`: the kinds of networks and their programs;
* `CheckHost`, `checkNode`: start a node, connect to it, read its block number and stop it;
* `reportCheck`.
-/

namespace FuzzCampaign

namespace CommandLine

/-- The line on a kind of network. -/
def networkLine (n : Network) : String :=
  Text.padEnd 8 n.name ++ " " ++ n.program ++ " " ++ " ".intercalate (n.arguments usualPort)

/-- The kinds of networks with the programs that serve them. -/
def networkTable : String := String.join (Network.all.map fun n => networkLine n ++ "\n")

/-- Print the kinds of networks. -/
def printNetworks {m : Type → Type} (host : CommandHost m) : m Unit :=
  host.printOut networkTable

/-- How the world answers the check of a node. -/
structure CheckHost (σ : Type) extends NodeHost σ where
  launch : Network → UInt16 → StateM σ (Except CampaignError Unit)
  stopNode : StateM σ Unit

/-- Connect to a node and read its block number. -/
def askNode {σ : Type} (host : CheckHost σ) (network : Network) (port : UInt16) (rounds : Nat) :
    Action σ UInt64 := do
  let client ← connectPatiently host.toNodeHost (Network.url port) .default network rounds
  let (block, _) ← Action.ask (client.latestBlock host.exchange)
  Action.lift block

/-- Start a node, read its block number and stop it. -/
def checkNode {σ : Type} (host : CheckHost σ) (network : Network) (port : UInt16) (rounds : Nat) :
    Action σ UInt64 := do
  Action.perform (host.launch network port)
  let block ← Action.attempt (askNode host network port rounds)
  Action.ask host.stopNode
  Action.lift block

/-- Report on the check of a node, which `check` carries out. -/
def reportCheck {m : Type → Type} [Monad m] (host : CommandHost m) (console : Console)
    (check : Network → UInt16 → m (Except CampaignError UInt64)) (network : Network)
    (port : UInt16) : CommandAction m UInt64 := do
  CommandAction.ask (host.printErr (console.say .info s!"starting {network.name} on port {port}"))
  let block ← CommandAction.orFail (← CommandAction.ask (check network port))
  CommandAction.ask (host.printErr (console.say .success
    s!"{network.name} answered on port {port} at block {block}"))
  return block

end CommandLine

end FuzzCampaign
