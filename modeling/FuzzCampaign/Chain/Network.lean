import FuzzCampaign.Error
import FuzzCampaign.Json.Reader

/-!
# Networks

A development network is a program that serves a private chain on a port of the loopback address.

* `Network`, `Network.name`, `Network.ofName`;
* `Network.program`, `Network.arguments`: how it is started; `Network.url`: where it answers;
* `Network.resetMethod?`: the request that resets its state;
* `Network.startFailure`: the error of a program that does not start.
-/

namespace FuzzCampaign

/-- The kinds of development networks. -/
inductive Network
  | anvil
  | ganache
  | hardhat
  deriving DecidableEq, Repr, Inhabited

namespace Network

/-- Every kind of network. -/
def all : List Network := [.anvil, .ganache, .hardhat]

/-- The name of a kind of network. -/
def name : Network → String
  | .anvil => "anvil"
  | .ganache => "ganache"
  | .hardhat => "hardhat"

/-- The kind of network of a name. -/
def ofName (s : String) : Except CampaignError Network :=
  match all.find? fun n => n.name = s with
  | some n => .ok n
  | none => .error (.configuration s!"Unknown network ID '{s}'")

/-- The program that serves a network. -/
def program : Network → String
  | .anvil => "anvil"
  | .ganache => "ganache-cli"
  | .hardhat => "npx"

/-- The arguments with which the program serves a network on a port. -/
def arguments (n : Network) (port : UInt16) : List String :=
  match n with
  | .anvil =>
    ["--port", toString port, "--prune-history", "--gas-price", "0", "--base-fee", "0",
      "--steps-tracing"]
  | .ganache => ["--port", toString port, "-g", "0", "-k", "istanbul"]
  | .hardhat => ["hardhat", "node", "--port", toString port]

/-- The request that resets the state of a network, if it has one. -/
def resetMethod? : Network → Option String
  | .anvil => some "anvil_reset"
  | .hardhat => some "hardhat_reset"
  | .ganache => none

/-- Where the network of a port answers. -/
def url (port : UInt16) : String := s!"http://127.0.0.1:{port}"

/-- The error of a program that does not start. -/
def startFailure (n : Network) (reason : String) : CampaignError :=
  .configuration s!"Failed to start {n.name} node ({n.program}): {reason}"

/-- The JSON of a kind of network. -/
def json (n : Network) : Json.Value := .text n.name

/-- The reader of a kind of network. -/
def reader : Json.Reader Network := Json.Reader.choice (all.map fun n => (n.name, n))

end Network

end FuzzCampaign
