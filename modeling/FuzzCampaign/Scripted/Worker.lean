import FuzzCampaign.Link.Channel
import FuzzCampaign.Scripted.Body
import FuzzCampaign.Worker.Run

/-!
# A worker's world from a script

A world in which node, link, log and terminal answer as a script says, and which keeps a record of
what they were asked. A list of answers is used from the front, and its last answer again and again.

* `Reply`: a node's answer to a request;
* `WorkerEvent`: what was asked;
* `ScriptedWorker`: the script and its state; `ScriptedWorker.host`, `ScriptedWorker.body`.
-/

namespace FuzzCampaign

open Json

/-- The next answer of a list, whose last answer is used again and again. -/
def nextAnswer {α : Type} : List α → Option α × List α
  | [] => (none, [])
  | [a] => (some a, [a])
  | a :: rest => (some a, rest)

/-- A node's answer to a request. -/
inductive Reply
  | fails (e : CampaignError)
  /-- A response to the letter. -/
  | raw (text : String)
  /-- A response that gets the number of its request. -/
  | response (v : Value)

namespace Reply

/-- The response with a result. -/
def result (v : Value) : Reply := .response (.object [("jsonrpc", .text "2.0"), ("result", v)])

/-- The response with an error. -/
def error (code : UInt64) (message : String) : Reply :=
  .response (.object [("jsonrpc", .text "2.0"),
    ("error", .object [("code", .number (.negative code)), ("message", .text message)])])

/-- What a node answers if the script says nothing on a method. -/
def usual (method : String) : Reply :=
  match method with
  | "eth_blockNumber" => result (.text "0x2a")
  | "anvil_reset" | "hardhat_reset" => result .null
  | _ => error 32601 "Method not found"

/-- The response with a number put into it. -/
def numbered (id : Value) : Value → Value
  | .object fields => .object (fields.filter (fun f => f.1 ≠ "id") ++ [("id", id)])
  | v => v

/-- The text of a response to a request, or the failure to get one. -/
def text (request : Value) : Reply → Except CampaignError String
  | .fails e => .error e
  | .raw s => .ok s
  | .response v => .ok (numbered ((request.field? "id").getD .null) v).compact

end Reply

/-- What was asked of a world, in part with the answer. -/
inductive WorkerEvent
  | launched (network : Network) (port : UInt16)
  | opened (url : String)
  | requested (text : String)
  | askedStatus (status? : Option String)
  | stopped
  | killed
  | guarded
  | sent (m : Dispatch) (delivered : Bool)
  | received (c? : Option Command)
  /-- The answer to something with a label. -/
  | noted (label : String) (answer : StepAnswer)

/-- The script of a worker's world, and its state. -/
structure ScriptedWorker where
  launchError? : Option CampaignError := none
  opens : List (Except CampaignError Unit) := []
  exits : List (Option String) := []
  replies : List (String × List Reply) := []
  commands : List Command := []
  /-- How many messages are delivered. -/
  delivered? : Option Nat := none
  /-- Whether the link is lost before the first command. -/
  lost : Bool := false
  hasLogDirectory : Bool := true
  log? : Option String := none
  input : List UInt8 := []
  clock : Nat := 0
  sends : Nat := 0
  isGuarded : Bool := false
  output : String := ""
  terminal : String := ""
  events : List WorkerEvent := []

namespace ScriptedWorker

/-- Record an event. -/
def record (e : WorkerEvent) : StateM ScriptedWorker Unit :=
  modify fun w => { w with events := w.events ++ [e] }

/-- The next answer to a request for a method. -/
def takeReply (method : String) (w : ScriptedWorker) : Reply × ScriptedWorker :=
  match w.replies.find? fun r => r.1 = method with
  | none => (.usual method, w)
  | some (_, answers) =>
    let (answer?, answers) := nextAnswer answers
    (answer?.getD (.usual method),
      { w with replies := (method, answers) :: w.replies.filter fun r => r.1 ≠ method })

/-- Answer a request. -/
def answer (text : String) : StateM ScriptedWorker (Except CampaignError String) := do
  record (.requested text)
  let request := ((Reader.run Reader.value text).toOption).getD .null
  let method := match request.field? "method" with
    | some (.text s) => s
    | _ => ""
  let reply ← modifyGet (takeReply method)
  return reply.text request

/-- The world as a worker that connects sees it. -/
def nodeHost : NodeHost ScriptedWorker where
  openConnection url := do
    record (.opened url)
    let (answer?, opens) := nextAnswer (← get).opens
    modify fun w => { w with opens }
    return answer?.getD (.ok ())
  exchange := answer
  nodeStatus := do
    let (answer?, exits) := nextAnswer (← get).exits
    modify fun w => { w with exits }
    record (.askedStatus answer?.join)
    return answer?.join
  now := return (← get).clock
  sleep d := modify fun w => { w with clock := w.clock + d.nanoseconds }

/-- Start the node. -/
def launch (network : Network) (port : UInt16) :
    StateM ScriptedWorker (Except CampaignError Unit) := do
  record (.launched network port)
  match (← get).launchError? with
  | some e => return .error e
  | none => return .ok ()

/-- The error of a log in a directory that does not exist. -/
def noLogDirectory : CampaignError := .io "No such file or directory (os error 2)"

/-- Open the log, which keeps what it holds. -/
def openLog : StateM ScriptedWorker (Except CampaignError Unit) := do
  let w ← get
  if w.hasLogDirectory then
    set { w with log? := some (w.log?.getD "") }
    return .ok ()
  else return .error noLogDirectory

/-- Send a message up. -/
def sendUp (m : Dispatch) : StateM ScriptedWorker (Except CampaignError Unit) := do
  let w ← get
  let isDelivered := w.delivered?.all fun n => w.sends < n
  set { w with sends := w.sends + 1 }
  record (.sent m isDelivered)
  return if isDelivered then .ok () else .error Channel.stoppedListening

/-- Receive a command. -/
def receiveCommand : StateM ScriptedWorker (Except CampaignError Command) := do
  let w ← get
  if w.lost && w.isGuarded then
    modify fun w => { w with isGuarded := false }
    record .killed
  record (.received w.commands.head?)
  modify fun w => { w with commands := w.commands.tail }
  match w.commands.head? with
  | some c => return .ok c
  | none => return .error Channel.orchestratorHungUp

/-- The world as a worker sees it. -/
def host : WorkerHost ScriptedWorker where
  toNodeHost := nodeHost
  launch := launch
  stopNode := record .stopped
  guardNode := do
    modify fun w => { w with isGuarded := true }
    record .guarded
  openLog _ := openLog
  appendLog text := do
    modify fun w => { w with log? := some (w.log?.getD "" ++ text) }
    return .ok ()
  printOut text := do
    modify fun w => { w with output := w.output ++ text }
    return .ok ()
  time := return ""
  send := sendUp
  receive := receiveCommand
  converse session := modify fun w =>
    let (shown, input) := session w.input
    { w with terminal := w.terminal ++ shown, input }

/-- Record an answer. -/
def note (label : String) (answer : StepAnswer) : StateM ScriptedWorker Unit :=
  record (.noted label answer)

/-- The body of a test from a script, whose answers are recorded. -/
def body (script : List (String × BodyStep)) : FuzzBody ScriptedWorker := scriptedBody note script

end ScriptedWorker

end FuzzCampaign
