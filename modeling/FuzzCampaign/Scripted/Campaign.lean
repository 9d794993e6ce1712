import FuzzCampaign.Campaign.Run

/-!
# A campaign's world from a script

A world in which workers, user and clock do what a script says, and which keeps a record of what
they were asked. A worker acts when it is started, looked at, or sent a command.

* `Burst`: what a worker does at once;
* `WorkerScript`: what a worker does in all;
* `CampaignEvent`: what was asked;
* `ScriptedCampaign`: the script and its state; `ScriptedCampaign.host`.
-/

namespace FuzzCampaign

/-- What a worker does at once: it sends messages, and may drop its link or exit. -/
structure Burst where
  messages : List Dispatch := []
  hangsUp : Bool := false
  exit? : Option String := none

/-- What happens when a worker is looked at: what the worker does first, and what is seen. -/
structure ScriptedLook where
  before : Burst
  seen : Except CampaignError (Option String)

/-- What a worker does. -/
structure WorkerScript where
  spawnError? : Option CampaignError := none
  onSpawn : Burst := {}
  looks : List ScriptedLook := []
  /-- What is seen when the looks of the script are used up. -/
  seenLater : Except CampaignError (Option String) := .error (.protocol "script exhausted")
  onCommand : Command → Burst := fun _ => {}
  /-- Whether no command reaches the worker. -/
  isDeaf : Bool := false

/-- A worker that was started: what it will do, and its link. -/
structure ActingWorker where
  script : WorkerScript
  link : Channel

namespace ActingWorker

/-- A message goes into the link, unless the link refuses it. -/
def say (link : Channel) (m : Dispatch) : Channel :=
  match link.send m with
  | .ok link => link
  | .error _ => link

/-- The worker acts; after it has dropped its link it does nothing more. -/
def act (w : ActingWorker) (b : Burst) : ActingWorker :=
  if w.link.hasWorker then
    let link := b.messages.foldl say w.link
    { script := match b.exit? with
        | some status => { w.script with seenLater := .ok (some status) }
        | none => w.script
      link := if b.hangsUp then { link with hasWorker := false } else link }
  else w

end ActingWorker

/-- What was asked of a world, in part with the answer. -/
inductive CampaignEvent
  | spawned (task : WorkerTask)
  /-- A look at a worker, and what was seen if the script says it. -/
  | lookedAt (index : UInt64) (seen? : Option (Except CampaignError (Option String)))
  | commanded (index : UInt64) (c : Command)
  | asked (index : UInt64) (e : Envelope)
  | answered (outcome : PromptReply)
  | killed (index : UInt64)

/-- The script of a campaign's world, and its state. -/
structure ScriptedCampaign where
  /-- What the workers do, each with the place that it is given. -/
  scripts : List (WorkerTask → WorkerScript)
  prompt : ReplyScript
  /-- The answers on single workers; those on the others come from the prompt. -/
  answers : List (UInt64 × PromptReply) := []
  directories : List String
  /-- The error of writing files, if that fails. -/
  storeError? : Option CampaignError := none
  /-- The seed that counts as fresh. -/
  fresh : Seed
  workers : List (UInt64 × ActingWorker) := []
  clock : Nat := 0
  printed : String := ""
  files : List (String × String) := []
  events : List CampaignEvent := []

namespace ScriptedCampaign

/-- Record an event. -/
def record (e : CampaignEvent) : StateM ScriptedCampaign Unit :=
  modify fun c => { c with events := c.events ++ [e] }

/-- A worker that was started. -/
def worker? (c : ScriptedCampaign) (index : UInt64) : Option ActingWorker :=
  (c.workers.find? fun w => w.1 = index).map (·.2)

/-- Change a worker. -/
def setWorker (index : UInt64) (w : ActingWorker) : StateM ScriptedCampaign Unit :=
  modify fun c => { c with
    workers := c.workers.map fun v => if v.1 = index then (index, w) else v }

/-- Start a worker. -/
def spawn (task : WorkerTask) : StateM ScriptedCampaign (Except CampaignError Unit) := do
  record (.spawned task)
  let script := match (← get).scripts[task.index.toNat]? with
    | some script => script task
    | none => {}
  match script.spawnError? with
  | some e => return .error e
  | none =>
    let w := (ActingWorker.mk script .fresh).act script.onSpawn
    modify fun c => { c with workers := c.workers ++ [(task.index, w)] }
    return .ok ()

/-- Look at a worker. -/
def look (index : UInt64) : StateM ScriptedCampaign (Except CampaignError (Option String)) := do
  match (← get).worker? index with
  | none => return .ok none
  | some w =>
    match w.script.looks with
    | l :: looks =>
      setWorker index ({ w with script := { w.script with looks } }.act l.before)
      record (.lookedAt index (some l.seen))
      return l.seen
    | [] =>
      record (.lookedAt index none)
      return w.script.seenLater

/-- Send a command to a worker. -/
def sendDown (index : UInt64) (m : Command) :
    StateM ScriptedCampaign (Except CampaignError Unit) := do
  record (.commanded index m)
  match (← get).worker? index with
  | none => return .error Channel.workerHungUp
  | some w =>
    if w.script.isDeaf then return .error Channel.workerHungUp
    else
      match w.link.down m with
      | .error e => return .error e
      | .ok link =>
        setWorker index ({ w with link }.act (w.script.onCommand m))
        return .ok ()

/-- Look into a queue of a worker's link. -/
def poll {α : Type} (take : Channel → Poll α × Channel) (index : UInt64) :
    StateM ScriptedCampaign (Poll α) := do
  match (← get).worker? index with
  | none => return .disconnected
  | some w =>
    let (found, link) := take w.link
    setWorker index { w with link }
    return found

/-- Wait for a completion; nothing happens meanwhile. -/
def awaitFinished (index : UInt64) (d : Duration) : StateM ScriptedCampaign (Poll Unit) := do
  let found ← poll Channel.completion index
  if found = .empty then modify fun c => { c with clock := c.clock + d.nanoseconds }
  return found

/-- Take all coverage of a worker that is queued. -/
def takeSnapshots (index : UInt64) : StateM ScriptedCampaign (List Snapshot) := do
  match (← get).worker? index with
  | none => return []
  | some w =>
    setWorker index { w with link := { w.link with snapshots := [] } }
    return w.link.snapshots

/-- Answer a question. -/
def decide (index : UInt64) (e : Envelope) (alive : StateM ScriptedCampaign Bool) :
    StateM ScriptedCampaign PromptReply := do
  record (.asked index e)
  match (← get).answers.find? fun a => a.1 = index with
  | some (_, outcome) =>
    modify fun c => { c with prompt := { c.prompt with asked := c.prompt.asked ++ [index] } }
    return outcome
  | none =>
    let stillRuns ← alive
    let (outcome, prompt) := (← get).prompt.decide index stillRuns
    modify fun c => { c with prompt }
    record (.answered outcome)
    return outcome

/-- Write files. -/
def store (files : List (String × String)) :
    StateM ScriptedCampaign (Except CampaignError Unit) := do
  match (← get).storeError? with
  | some e => return .error e
  | none =>
    modify fun c => { c with files }
    return .ok ()

/-- The world as the orchestrator sees it. -/
def host : CampaignHost ScriptedCampaign where
  colours := false
  isDirectory path := return (← get).directories.contains path
  freshSeed := return (← get).fresh
  printLine text := modify fun c => { c with printed := c.printed ++ text ++ "\n" }
  showStatus _ := return ()
  store _ files := store files
  spawn := spawn
  status := look
  kill index := record (.killed index)
  send := sendDown
  completion := poll Channel.completion
  awaitFinished := awaitFinished
  exception := poll Channel.exception
  snapshots := takeSnapshots
  decide := decide
  now := return (← get).clock
  sleep d := modify fun c => { c with clock := c.clock + d.nanoseconds }

end ScriptedCampaign

end FuzzCampaign
