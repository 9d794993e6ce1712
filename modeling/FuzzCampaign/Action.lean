import FuzzCampaign.Error

/-!
# Actions

What a worker or a campaign does depends on how the world around it answers. An action changes the
state `σ` of that world and ends with a value, or stops: with an error, because a sum overflowed, or
because it was not given enough rounds to finish. Statements about an action hold for every world.

* `Stop`, `Action`;
* `Action.perform`: ask the world; `Action.attempt`: take an error as a value;
* `Action.repeatUntil`: a loop whose body decides whether it is done.
-/

namespace FuzzCampaign

/-- Why an action ended without a value. -/
inductive Stop
  | error (e : CampaignError)
  /-- The program aborted with this message. -/
  | abort (message : String)
  /-- The rounds given were not enough. -/
  | outOfRounds
  deriving DecidableEq, Repr

/-- A change of a world that ends with a value or stops. -/
abbrev Action (σ α : Type) : Type := ExceptT Stop (StateM σ) α

namespace Action

variable {σ α : Type}

/-- Ask the world for something that cannot fail. -/
def ask (question : StateM σ α) : Action σ α := ExceptT.lift question

/-- Ask the world for something; an error stops the action. -/
def perform (question : StateM σ (Except CampaignError α)) : Action σ α := do
  match ← ask question with
  | .ok a => return a
  | .error e => throw (.error e)

/-- A value, or an error that stops the action. -/
def lift (r : Except CampaignError α) : Action σ α :=
  match r with
  | .ok a => return a
  | .error e => throw (.error e)

/-- Run an action and take its error as a value. -/
def attempt (act : Action σ α) : Action σ (Except CampaignError α) :=
  ExceptT.mk do
    match ← act.run with
    | .ok a => return .ok (.ok a)
    | .error (.error e) => return .ok (.error e)
    | .error stop => return .error stop

/-- Repeat a body until it gives a value, for so many rounds at most. -/
def repeatUntil (body : Action σ (Option α)) : Nat → Action σ α
  | 0 => throw .outOfRounds
  | rounds + 1 => do
    match ← body with
    | some a => return a
    | none => repeatUntil body rounds

/-- The outcome of an action and the state of the world after it. -/
def outcome (act : Action σ α) (s : σ) : Except Stop α × σ := act.run.run s

end Action

end FuzzCampaign
