import FuzzCampaign.Scripted.Campaign
import FuzzCampaign.Scripted.Worker

/-!
# Workers beside a campaign

A worker whose world is scripted can take part in a campaign whose world is scripted. Up to its
first command it does the same whatever that command will be, so what it does in the campaign
follows from its runs with no command and with one.

* `ScriptedWorker.messages`, `ScriptedWorker.commandsTaken`;
* `WorkerScript.ofRun`: what a worker with these runs does.
-/

namespace FuzzCampaign

/-- The messages that a worker sent. -/
def ScriptedWorker.messages (w : ScriptedWorker) : List Dispatch :=
  w.events.filterMap fun
    | .sent m _ => some m
    | _ => none

/-- How often a worker waited for a command. -/
def ScriptedWorker.commandsTaken (w : ScriptedWorker) : Nat :=
  w.events.countP fun
    | .received _ => true
    | _ => false

namespace WorkerScript

/-- What is said of the exit of a worker that ran so. -/
def exitText : Except Stop WorkerEnd → String
  | .ok exit => exit.text
  | .error (.error e) => "error: " ++ e.message
  | .error _ => "panicked"

/-- The end of a run, of which some messages were sent before. -/
def lastBurst (sent : Nat) (ended : Except Stop WorkerEnd × ScriptedWorker) : Burst where
  messages := ended.2.messages.drop sent
  hangsUp := true
  exit? := some (exitText ended.1)

/-- What a worker does whose run is `run` for the commands that it gets. -/
def ofRun (run : List Command → Except Stop WorkerEnd × ScriptedWorker) : WorkerScript :=
  let alone := run []
  let first := alone.2.messages
  { onSpawn := if alone.2.commandsTaken = 0 then lastBurst 0 alone else { messages := first }
    seenLater := .ok none
    onCommand := fun c => lastBurst first.length (run [c]) }

end WorkerScript

/-- The places that workers were started with, each with the commands sent to that worker. -/
def ScriptedCampaign.started (c : ScriptedCampaign) : List (WorkerTask × List Command) :=
  c.events.filterMap fun
    | .spawned task => some (task, c.events.filterMap fun
      | .commanded i m => if i = task.index then some m else none
      | _ => none)
    | _ => none

end FuzzCampaign
