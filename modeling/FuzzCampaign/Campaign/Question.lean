import FuzzCampaign.Action
import FuzzCampaign.Duration
import FuzzCampaign.Failure.Envelope
import FuzzCampaign.Link.Channel

/-!
# Questions to the user

Whether a debugger is attached to a failed worker is for the user to say. A question at the terminal
is open until it is answered, its time is up, or the worker has died meanwhile.

* `PromptReply`: how a question ends; `PromptReply.ofLine?`: the answer in a line;
* `TerminalHost`: how the world answers a question at the terminal;
* `TerminalPrompt.decide`: a question at the terminal; `TerminalPrompt.ask`: one for which lines may
  have to be read first;
* `ReplyScript`: answers that are known beforehand.
-/

namespace FuzzCampaign

/-- The question. -/
def attachQuestion : String := "Would you like to attach the debugger? [y/n] "

/-- How a question ends. -/
inductive PromptReply
  | answer (attach : Bool)
  /-- The worker died while the question was open. -/
  | abandoned
  /-- Nobody answered in time. -/
  | timedOut
  deriving DecidableEq, Repr

/-- The answer in a line, if it is one. -/
def PromptReply.ofLine? (line : String) : Option Bool :=
  match String.ofList (Text.trim line.toList) with
  | "y" => some true
  | "n" => some false
  | _ => none

/-! ## At the terminal -/

/-- How the world answers a question at the terminal. A line is read on request; a request that is
not answered in time stays open. Where a line is expected, `none` is the end of the input. -/
structure TerminalHost (σ : Type) where
  now : StateM σ Nat
  print : String → StateM σ Unit
  /-- Begin to read lines on request; whether that is possible. -/
  startReader : StateM σ Bool
  /-- Request a line; whether there is anybody to read it. -/
  requestLine : StateM σ Bool
  /-- Wait for the line requested. -/
  awaitLine : Duration → StateM σ (Poll (Option String))
  /-- Whether the line requested has come by now; it is thrown away. -/
  discardLine : StateM σ Bool

/-- How often a question looks after the worker. -/
def lookInterval : Duration := .ofMillis 100

namespace TerminalPrompt

variable {σ : Type}

/-- Wait for the line requested. Gives what came, and whether the request is still open. -/
def awaitTyped (host : TerminalHost σ) : StateM σ (Poll (Option String) × Bool) := do
  let found ← host.awaitLine lookInterval
  return (found, !found.isGot)

/-- Wait for a line, after a request if none is open. -/
def takeTyped (host : TerminalHost σ) (pending : Bool) :
    StateM σ (Poll (Option String) × Bool) := do
  if pending then awaitTyped host
  else if ← host.requestLine then awaitTyped host
  else return (.disconnected, false)

/-- When the time of a question that begins now is up. As in `Campaign.reap`, the clock has no last
moment, and what a system clock does with a timeout that goes beyond its last one is left out. -/
def deadline? (host : TerminalHost σ) (timeout? : Option Duration) : StateM σ (Option Nat) :=
  match timeout? with
  | none => return none
  | some timeout => return some ((← host.now) + timeout.nanoseconds)

/-- Whether the time of a question is up. -/
def isOver (host : TerminalHost σ) (deadline? : Option Nat) : StateM σ Bool :=
  match deadline? with
  | none => return false
  | some deadline => return deadline ≤ (← host.now)

/-- A question that is open: look after the worker and the clock, then wait for a line. Gives how it
ends, and whether a request for a line is still open. -/
def decideFrom (host : TerminalHost σ) (alive : StateM σ Bool) (deadline? : Option Nat) :
    Nat → Bool → Action σ (PromptReply × Bool)
  | 0, _ => throw .outOfRounds
  | rounds + 1, pending => do
    if !(← Action.ask alive) then
      Action.ask (host.print "\n")
      return (.abandoned, pending)
    if ← Action.ask (isOver host deadline?) then
      Action.ask (host.print "\n")
      return (.timedOut, pending)
    let (found, pending) ← Action.ask (takeTyped host pending)
    match found with
    | .empty => decideFrom host alive deadline? rounds pending
    | .got none | .disconnected => return (.answer false, pending)
    | .got (some text) =>
      match PromptReply.ofLine? text with
      | some attach => return (.answer attach, pending)
      | none =>
        Action.ask (host.print attachQuestion)
        decideFrom host alive deadline? rounds pending

/-- Ask at the terminal, for so long at most. `pending` says whether a request for a line is still
open from an earlier question; what it brought meanwhile is thrown away. -/
def decide (host : TerminalHost σ) (timeout? : Option Duration) (alive : StateM σ Bool)
    (pending : Bool) (rounds : Nat) : Action σ (PromptReply × Bool) := do
  let pending ← if pending then do pure !(← Action.ask host.discardLine) else pure false
  let deadline? ← Action.ask (deadline? host timeout?)
  Action.ask (host.print attachQuestion)
  decideFrom host alive deadline? rounds pending

/-- Ask at the terminal. `reader?` is what is left of earlier questions: nothing if lines are not
read yet, otherwise whether a request for a line is still open. A terminal that cannot be read says
no. -/
def ask (host : TerminalHost σ) (timeout? : Option Duration) (alive : StateM σ Bool)
    (reader? : Option Bool) (rounds : Nat) : Action σ (PromptReply × Option Bool) := do
  match reader? with
  | some pending =>
    let (reply, pending) ← decide host timeout? alive pending rounds
    return (reply, some pending)
  | none =>
    if ← Action.ask host.startReader then
      let (reply, pending) ← decide host timeout? alive false rounds
      return (reply, some pending)
    else return (.answer false, none)

end TerminalPrompt

/-! ## From a script -/

/-- Answers that are known beforehand, and the workers asked about so far. -/
structure ReplyScript where
  answers : List PromptReply
  asked : List UInt64
  deriving DecidableEq, Repr

namespace ReplyScript

/-- Answer from the script, and with no when it is used up; a dead worker is not waited for. -/
def decide (p : ReplyScript) (index : UInt64) (alive : Bool) : PromptReply × ReplyScript :=
  let asked := p.asked ++ [index]
  if alive then
    match p.answers with
    | outcome :: rest => (outcome, ⟨rest, asked⟩)
    | [] => (.answer false, ⟨[], asked⟩)
  else (.abandoned, { p with asked })

end ReplyScript

end FuzzCampaign
