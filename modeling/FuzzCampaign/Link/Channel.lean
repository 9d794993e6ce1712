import FuzzCampaign.Link.Message

/-!
# Links inside a process

A link has a queue for every kind of message that a worker sends up, and one for the commands that
go down. Each end can be dropped; what is queued stays for the other end.

* `Poll`: what a look into a queue finds;
* `Channel`, `Channel.fresh`;
* `Channel.send`, `Channel.receive`: the worker's end;
* `Channel.down`, `Channel.completion`, `Channel.exception`, `Channel.snapshot`: the orchestrator's
  end;
* `Channel.dropWorker`, `Channel.dropOrchestrator`.
-/

namespace FuzzCampaign

/-- What a look into a queue finds: an item, nothing yet, or nothing any more. -/
inductive Poll (α : Type)
  | got (a : α)
  | empty
  | disconnected
  deriving DecidableEq, Repr

/-- Whether a look found an item. -/
def Poll.isGot {α : Type} : Poll α → Bool
  | .got _ => true
  | _ => false

/-- A look into a queue, and the queue after it; `isOpen` says whether its sender still exists. -/
def Poll.ofQueue {α : Type} (isOpen : Bool) : List α → Poll α × List α
  | a :: rest => (.got a, rest)
  | [] => (if isOpen then .empty else .disconnected, [])

/-- A link: what is queued in it, and whether its two ends still exist. -/
structure Channel where
  completions : List Unit
  exceptions : List (Option Envelope)
  snapshots : List Snapshot
  commands : List Command
  hasWorker : Bool
  hasOrchestrator : Bool
  deriving DecidableEq

namespace Channel

/-- A link with both ends, in which nothing is queued. -/
def fresh : Channel := ⟨[], [], [], [], true, true⟩

/-! ## The worker's end -/

/-- The error of a worker that announces itself where nobody expects it. -/
def unexpectedHello (index : UInt64) : CampaignError :=
  .protocol s!"unexpected hello from worker #{index}"

/-- The error of a message to an orchestrator that is gone. -/
def stoppedListening : CampaignError := .protocol "orchestrator stopped listening"

/-- The error of waiting for an orchestrator that is gone. -/
def orchestratorHungUp : CampaignError := .protocol "orchestrator hung up"

/-- Queue a message of the worker; a greeting has no queue. -/
def enqueue (c : Channel) : Dispatch → Except CampaignError Channel
  | .hello index _ => .error (unexpectedHello index)
  | .exception report => .ok { c with exceptions := c.exceptions ++ [report] }
  | .coverage snapshot => .ok { c with snapshots := c.snapshots ++ [snapshot] }
  | .finished => .ok { c with completions := c.completions ++ [()] }

/-- Send a message up. -/
def send (c : Channel) (m : Dispatch) : Except CampaignError Channel := do
  let c' ← c.enqueue m
  if c.hasOrchestrator then return c' else throw stoppedListening

/-- Look for a command. -/
def receive (c : Channel) : Poll Command × Channel :=
  let (found, commands) := Poll.ofQueue c.hasOrchestrator c.commands
  (found, { c with commands })

/-- Drop the worker's end; commands that it has not received are lost. -/
def dropWorker (c : Channel) : Channel := { c with hasWorker := false, commands := [] }

/-! ## The orchestrator's end -/

/-- The error of a command to a worker that is gone. -/
def workerHungUp : CampaignError := .protocol "worker hung up"

/-- Send a command down. -/
def down (c : Channel) (m : Command) : Except CampaignError Channel :=
  if c.hasWorker then .ok { c with commands := c.commands ++ [m] } else .error workerHungUp

/-- Look for a completion. -/
def completion (c : Channel) : Poll Unit × Channel :=
  let (found, completions) := Poll.ofQueue c.hasWorker c.completions
  (found, { c with completions })

/-- Look for the outcome of the test. -/
def exception (c : Channel) : Poll (Option Envelope) × Channel :=
  let (found, exceptions) := Poll.ofQueue c.hasWorker c.exceptions
  (found, { c with exceptions })

/-- Look for coverage. -/
def snapshot (c : Channel) : Poll Snapshot × Channel :=
  let (found, snapshots) := Poll.ofQueue c.hasWorker c.snapshots
  (found, { c with snapshots })

/-- Drop the orchestrator's end; messages that it has not taken are lost. -/
def dropOrchestrator (c : Channel) : Channel :=
  { c with hasOrchestrator := false, completions := [], exceptions := [], snapshots := [] }

end Channel

end FuzzCampaign
