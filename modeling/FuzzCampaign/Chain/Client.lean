import FuzzCampaign.Action
import FuzzCampaign.Chain.Network
import FuzzCampaign.Json.Reader

/-!
# Requests to a node

A client numbers its requests from one on, sends each as a JSON object, and takes the result out of
the response.

* `RpcClient`, `requestText`: a client and the text of a request;
* `resultOf`: the result in a response, or the error that the node reports;
* `blockNumberOf`, `resetOutcome`: what two kinds of results mean;
* `RpcClient.call`, `RpcClient.latestBlock`, `RpcClient.reset`.
-/

namespace FuzzCampaign

open Json

/-- A client of one node: its address and the number of its next request. -/
structure RpcClient where
  url : String
  nextId : UInt64
  deriving DecidableEq, Repr

/-- The exchange of one request for the text of its response. -/
abbrev Exchange (σ : Type) : Type := String → StateM σ (Except CampaignError String)

/-- The error of a method that a node does not have. -/
def unknownMethod : Int := -32601

/-- The text of a request; the keys of every object stand in order. -/
def requestText (id : UInt64) (method : String) (params : Value) : String :=
  (Value.object [("id", .number (.unsigned id)), ("jsonrpc", .text "2.0"), ("method", .text method),
    ("params", params.sorted)]).compact

/-- The code of an error, if it is an integer of 64 bits. -/
def codeOf : Option Value → Int
  | some (.number (.unsigned n)) => if n.toNat < Nat.pow 2 63 then n.toNat else 0
  | some (.number (.negative n)) => -(n.toNat : Int)
  | _ => 0

/-- The text of an error. -/
def errorTextOf : Option Value → String
  | some (.text s) => s
  | _ => "unknown error"

/-- The result in a response; the member `error`, whatever its value, tells of a failure. -/
def resultOf (response : Value) : Except CampaignError Value :=
  match response.field? "error" with
  | some error =>
    .error (.rpc (codeOf (error.field? "code")) (errorTextOf (error.field? "message")))
  | none => .ok ((response.field? "result").getD .null)

/-- A text without every `0x` at its beginning. -/
def dropHexMarks : List Char → List Char
  | '0' :: 'x' :: r => dropHexMarks r
  | cs => cs

/-- The block number in a result: a hexadecimal text. -/
def blockNumberOf (result : Value) : Except CampaignError UInt64 :=
  match result with
  | .text hex =>
    match Numeral.read 16 word64 (dropHexMarks hex.toList) with
    | .ok n => .ok (UInt64.ofNat n)
    | .error e => .error (.transport s!"bad block number '{hex}': {e.message}")
  | value => .error (.transport s!"unexpected eth_blockNumber result {value.compact}")

/-- The error of a network that cannot be reset. -/
def resetUnsupported (network : Network) : CampaignError :=
  .unsupported s!"reset on {network.name}"

/-- What the outcome of a reset request means. -/
def resetOutcome (network : Network) : Except CampaignError Value → Except CampaignError Unit
  | .ok _ => .ok ()
  | .error (.rpc code message) =>
    .error (if code = unknownMethod then resetUnsupported network else .rpc code message)
  | .error e => .error e

namespace RpcClient

variable {σ : Type}

/-- A client that has sent nothing yet. -/
def connect (url : String) : RpcClient := ⟨url, 1⟩

/-- The client as it is shown among other values. -/
def shown (c : RpcClient) : String := "ChainClient \x7b url: " ++ Quoted.quote c.url ++ " \x7d"

/-- Call a method; gives its result and the client for the next request. -/
def call (exchange : Exchange σ) (c : RpcClient) (method : String) (params : Value) :
    StateM σ (Except CampaignError Value × RpcClient) := do
  let next := { c with nextId := c.nextId + 1 }
  match ← exchange (requestText c.nextId method params) with
  | .error e => return (.error e, next)
  | .ok raw =>
    match Reader.run Reader.value raw with
    | .error e => return (.error (.json e), next)
    | .ok response => return (resultOf response, next)

/-- The number of the latest block. -/
def latestBlock (exchange : Exchange σ) (c : RpcClient) :
    StateM σ (Except CampaignError UInt64 × RpcClient) := do
  let (result, next) ← c.call exchange "eth_blockNumber" (.list [])
  return (result.bind blockNumberOf, next)

/-- Reset the state of the chain. -/
def reset (exchange : Exchange σ) (c : RpcClient) (network : Network) :
    StateM σ (Except CampaignError Unit × RpcClient) := do
  match network.resetMethod? with
  | none => return (.error (resetUnsupported network), c)
  | some method =>
    let (result, next) ← c.call exchange method (.list [])
    return (resetOutcome network result, next)

end RpcClient

end FuzzCampaign
