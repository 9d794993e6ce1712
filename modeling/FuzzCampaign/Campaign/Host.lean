import FuzzCampaign.Action
import FuzzCampaign.Campaign.Question
import FuzzCampaign.Link.Channel
import FuzzCampaign.Worker.Task

/-!
# The world of a campaign

What the orchestrator of a campaign asks of the world around it: workers and their links, the user,
files, and the clock. Workers are named by their indexes.

* `CampaignHost`;
* `CampaignHost.stillRuns`: whether a worker is seen running.
-/

namespace FuzzCampaign

/-- How the world answers an orchestrator. -/
structure CampaignHost (σ : Type) where
  /-- Whether the terminal shows colours. -/
  colours : Bool
  isDirectory : String → StateM σ Bool
  freshSeed : StateM σ Seed
  /-- Print a line on the terminal. -/
  printLine : String → StateM σ Unit
  /-- Show the status of the campaign. -/
  showStatus : String → StateM σ Unit
  /-- Write files into a directory, which is made if there is none. -/
  store : String → List (String × String) → StateM σ (Except CampaignError Unit)
  /-- Start a worker. -/
  spawn : WorkerTask → StateM σ (Except CampaignError Unit)
  /-- How a worker ended, if it did. -/
  status : UInt64 → StateM σ (Except CampaignError (Option String))
  kill : UInt64 → StateM σ Unit
  /-- Send a command to a worker. -/
  send : UInt64 → Command → StateM σ (Except CampaignError Unit)
  /-- Look whether a worker says that it is done. -/
  completion : UInt64 → StateM σ (Poll Unit)
  /-- Wait until a worker says that it is done, for so long at most. -/
  awaitFinished : UInt64 → Duration → StateM σ (Poll Unit)
  /-- Look for the outcome of a worker's test. -/
  exception : UInt64 → StateM σ (Poll (Option Envelope))
  /-- Take all coverage of a worker that is queued. -/
  snapshots : UInt64 → StateM σ (List Snapshot)
  /-- Ask the user whether a debugger is attached to a worker that failed; the question may look
  whether the worker is alive. -/
  decide : UInt64 → Envelope → StateM σ Bool → StateM σ PromptReply
  /-- The clock, in nanoseconds. -/
  now : StateM σ Nat
  sleep : Duration → StateM σ Unit

namespace CampaignHost

variable {σ : Type}

/-- Whether a worker is seen running. -/
def stillRuns (host : CampaignHost σ) (index : UInt64) : StateM σ Bool := do
  match ← host.status index with
  | .ok none => return true
  | _ => return false

end CampaignHost

end FuzzCampaign
