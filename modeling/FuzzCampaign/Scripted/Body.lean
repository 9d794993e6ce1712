import FuzzCampaign.Worker.Bench
import FuzzCampaign.Worker.PanicGuard

/-!
# Test bodies from scripts

A body that performs steps one after the other, and has something to say on each one that it
completes. A step may pass its error on, which ends the body.

* `WatchedValue`, `WatchedValue.shown`: values to watch, and their texts;
* `Draw`, `Draw.perform`: draws of random numbers;
* `ChainCall`, `ChainCall.perform`, `ChainCall.performAll`: requests to a node;
* `BodyStep`, `BodyStep.perform`: steps of a body, and the answers to them;
* `scriptedBody`: the body that performs steps with labels.
-/

namespace FuzzCampaign

open Json

/-! ## Values, draws and requests -/

/-- A value that a body watches. -/
inductive WatchedValue
  | text (s : String)
  | number (n : Number)
  | flag (b : Bool)
  | absent
  | texts (items : List String)
  | numbers (items : List (Option Number))

/-- The text of a value. -/
def WatchedValue.shown : WatchedValue → String
  | .text s => Quoted.quote s
  | .number n => String.ofList n.text
  | .flag b => toString b
  | .absent => Shown.option none
  | .texts items => Shown.list (items.map Quoted.quote)
  | .numbers items =>
    Shown.list (items.map fun n => Shown.option (n.map fun n => String.ofList n.text))

/-- A draw of a random number. -/
inductive Draw
  | word
  | doubleWord
  | bytes (n : Nat)
  | between (low high : UInt64)
  | chance (p : Float)

/-- What is drawn. -/
def Draw.perform (g : Generator) : Draw → Except Generator.DrawError (Value × Generator)
  | .word => .ok (g.word.map (fun w => .ofNat w.toNat) id)
  | .doubleWord => .ok (g.doubleWord.map (fun w => .number (.unsigned w)) id)
  | .bytes n => .ok ((g.bytes n).map (fun bs => .text (String.ofList (Hex.encode bs))) id)
  | .between low high => (g.between? low high).map (Prod.map (fun w => .number (.unsigned w)) id)
  | .chance p => (g.chance? p).map (Prod.map .bool id)

/-- A request to a node, or the question for the client. -/
inductive ChainCall
  | call (method : String) (params : Value)
  | latestBlock
  | reset (network : String)
  | client

namespace ChainCall

variable {σ : Type}

/-- The result of a request. -/
def perform (exchange : Exchange σ) (c : RpcClient) :
    ChainCall → StateM σ (Except CampaignError Value × RpcClient)
  | .call method params => c.call exchange method params
  | .latestBlock => return (← c.latestBlock exchange).map (·.map fun n => .number (.unsigned n)) id
  | .reset name =>
    match Network.ofName name with
    | .error e => return (.error e, c)
    | .ok network => return (← c.reset exchange network).map (·.map fun _ => .null) id
  | .client => return (.ok (.list [.text c.url, .text c.shown]), c)

/-- The results of requests, each of which is passed to `note`. -/
def performAll (exchange : Exchange σ) (note : Except CampaignError Value → StateM σ Unit) :
    List ChainCall → RpcClient → StateM σ Unit
  | [], _ => return ()
  | s :: rest, c => do
    let (r, c) ← s.perform exchange c
    note r
    performAll exchange note rest c

end ChainCall

/-! ## Steps -/

/-- A step of a body. The steps that may fail say whether they pass their error on. -/
inductive BodyStep
  /-- Ask for the place in the campaign. -/
  | place
  | watch (name : String) (v : WatchedValue)
  | draw (d : Draw)
  | write (text : String)
  | take (name : String) (passesOn : Bool)
  | hit (file position name : String) (n : UInt64)
  | openTransaction
  | exportCoverage
  | dropProbe
  | fail (e : TestError)
  | panic (payload : PanicGuard.Payload)
  | chain (c : ChainCall) (passesOn : Bool)

/-- The answer to a step: a value, or the result of something that may fail. -/
inductive StepAnswer
  | value (v : Value)
  | result (r : Except CampaignError Value)

namespace BodyStep

variable {σ : Type}

/-- End the body with an error. -/
def failWith {α : Type} (e : TestError) : BodyAction σ α := throw (.error e)

/-- End the body with a panic. -/
def panicWith {α : Type} (message : String) : BodyAction σ α :=
  throw (.panic ⟨message, some ("script", 1), ""⟩)

/-- The result of a step that may pass its error on. -/
def answerOf (passesOn : Bool) (r : Except CampaignError Value) : BodyAction σ StepAnswer :=
  match r with
  | .error e => if passesOn then failWith (.ofCampaignError e) else return .result r
  | .ok _ => return .result r

/-- The answer of a body that has no probe. -/
def noProbe : StepAnswer := .value (.text "no probe")

/-- Perform a step. -/
def perform (host : WorkerHost σ) (task : WorkerTask) : BodyStep → BodyAction σ StepAnswer
  | .place => do
    return .value (.list [.number (.unsigned task.index), .text task.seed.hex, task.network.json,
      .text (← getThe (Bench σ)).client.url])
  | .watch name v => do
    .ofBench (Bench.watch name v.shown)
    let watched := (← getThe (Bench σ)).watched
    return .value (.list (watched.map fun w => .list [.text w.1, .text w.2]))
  | .draw d => do
    match ← .ofBench (Bench.draw d.perform) with
    | .ok v => return .value v
    | .error e => panicWith e.message
  | .write text => do
    discard (.ofBench (Bench.write host task text))
    return .value .null
  | .take name passesOn => do
    let start? ← .ofBench (Bench.takeProbe host name)
    answerOf passesOn (start?.map fun b => b.elim .null fun b => .number (.unsigned b))
  | .hit file position name n =>
    match Position.parse position with
    | .error e => failWith (.ofCampaignError e)
    | .ok p => do
      .ofBench (Bench.hit file p name n)
      return if ← .ofBench Bench.hasProbe then .value (.text "recorded") else noProbe
  | .openTransaction => do
    .ofBench Bench.openTransaction
    return .value .null
  | .exportCoverage => do
    match ← .ofBench (Bench.exportCoverage host) with
    | none => return noProbe
    | some (.ok ()) => return .value (.text "exported")
    | some (.error e) => return .result (.error e)
  | .dropProbe => do
    .ofBench (Bench.dropProbe host)
    return .value .null
  | .fail e => failWith e
  | .panic payload => panicWith payload.message
  | .chain c passesOn => do
    answerOf passesOn (← .ofBench (Bench.request fun client => c.perform host.exchange client))

end BodyStep

/-- The body that performs steps with labels; each label is passed to `note` with its answer. -/
def scriptedBody {σ : Type} (note : String → StepAnswer → StateM σ Unit)
    (script : List (String × BodyStep)) : FuzzBody σ := fun host task =>
  script.forM fun s => do
    let answer ← s.2.perform host task
    .ofBench (Bench.ask (note s.1 answer))

end FuzzCampaign
