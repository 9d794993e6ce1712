import FuzzCampaign.Json.Fault

/-!
# Errors of a campaign

Every way in which a campaign, a worker or a tool can fail, with its kind and wording.

* `CampaignError`, `CampaignError.kind`, `CampaignError.message`;
* `CampaignError.isTransportFault`: the failures that a node which is still starting explains;
* `CommandError`: the failures of the command line.
-/

namespace FuzzCampaign

/-- Why a campaign, a worker or one of their parts failed. -/
inductive CampaignError
  /-- A campaign, worker or test was set up wrongly. -/
  | configuration (message : String)
  /-- The node did not answer in time. -/
  | connectionTimeout (url : String) (milliseconds : Nat)
  /-- The node exited before it answered. -/
  | nodeExited (network status : String)
  /-- The node cannot do what was asked. -/
  | unsupported (capability : String)
  /-- The node answered with an error of its own. -/
  | rpc (code : Int) (message : String)
  /-- The node could not be talked to. -/
  | transport (message : String)
  /-- Orchestrator and worker did not keep to their protocol. -/
  | protocol (message : String)
  /-- A worker ended without completing the protocol. -/
  | workerDied (index : UInt64) (status : String)
  /-- No test has this name. -/
  | unknownTest (name : String)
  /-- The operating system refused an operation. -/
  | io (message : String)
  /-- A text is no JSON, or JSON of the wrong shape. -/
  | json (error : Json.JsonError)
  /-- A frame does not hold a message. -/
  | codec (message : String)
  deriving DecidableEq, Repr

namespace CampaignError

/-- The name of a kind of failure, as an exception report gives it. -/
def kind : CampaignError → String
  | .configuration _ => "ConfigurationError"
  | .connectionTimeout .. => "ConnectionTimeoutError"
  | .nodeExited .. => "NodeExitedError"
  | .unsupported _ => "UnsupportedCapabilityError"
  | .rpc .. => "RpcError"
  | .transport _ => "TransportError"
  | .protocol _ => "ProtocolError"
  | .workerDied .. => "WorkerDiedError"
  | .unknownTest _ => "UnknownTestError"
  | .io _ => "IoError"
  | .json _ => "JsonError"
  | .codec _ => "CodecError"

/-- The wording of a failure. -/
def message : CampaignError → String
  | .configuration message => s!"Configuration error: {message}"
  | .connectionTimeout url ms => s!"Could not connect to {url} within {ms}ms"
  | .nodeExited network status =>
    s!"{network} node exited before accepting connections ({status})"
  | .unsupported capability => s!"Unsupported capability: {capability}"
  | .rpc code message => s!"RPC error {code}: {message}"
  | .transport message => s!"Transport error: {message}"
  | .protocol message => s!"Protocol violation: {message}"
  | .workerDied index status =>
    s!"Worker #{index} terminated without signalling completion ({status})"
  | .unknownTest name => s!"Unknown fuzz test '{name}'"
  | .io message => s!"I/O error: {message}"
  | .json error => s!"JSON error: {error.message}"
  | .codec message => s!"Codec error: {message}"

/-- Whether a node that is still starting explains the failure. -/
def isTransportFault : CampaignError → Bool
  | .transport _ | .io _ => true
  | _ => false

/-- The wording of what caused a failure, for the failures that pass on one from outside. -/
def causes : CampaignError → List String
  | .io message => [message]
  | .json error => [error.message]
  | .codec message => [message]
  | _ => []

end CampaignError

/-- Why a command failed. -/
inductive CommandError
  | config (message : String)
  | invalidArgument (message : String)
  | io (message : String)
  | json (error : Json.JsonError)
  | campaign (error : CampaignError)
  deriving DecidableEq, Repr

/-- The wording of a failed command. -/
def CommandError.message : CommandError → String
  | .config message => s!"Configuration error: {message}"
  | .invalidArgument message => s!"Invalid argument: {message}"
  | .io message => s!"I/O error: {message}"
  | .json error => s!"JSON error: {error.message}"
  | .campaign error => error.message


end FuzzCampaign
