import FuzzCampaign.Count
import FuzzCampaign.Error

/-!
# The world of a command

What a command asks of the world around it: files and the terminal. A command ends with a value, or
it stops.

* `CommandHost`;
* `CommandStop`, `CommandAction`.
-/

namespace FuzzCampaign

/-- How the world answers a command; a refusal comes with the words of the system. -/
structure CommandHost (m : Type → Type) where
  fileBytes : String → m (Except String (List UInt8))
  writeFile : String → String → m (Except String Unit)
  /-- Make a directory and those above it, as far as there are none. -/
  makeDirectories : String → m (Except String Unit)
  isDirectory : String → m Bool
  printOut : String → m Unit
  printErr : String → m Unit

/-- Why a command ended without a value. -/
inductive CommandStop
  | failed (e : CommandError)
  /-- The program aborted with this message. -/
  | abort (message : String)
  /-- The rounds given were not enough. -/
  | outOfRounds
  deriving DecidableEq, Repr

/-- What a command does. -/
abbrev CommandAction (m : Type → Type) (α : Type) : Type := ExceptT CommandStop m α

namespace CommandAction

variable {m : Type → Type} [Monad m] {α β : Type}

/-- Ask the world for something that cannot fail. -/
def ask (question : m α) : CommandAction m α := ExceptT.lift question

/-- A value, or an error of some kind that stops the command. -/
def orStop (stop : β → CommandStop) (r : Except β α) : CommandAction m α :=
  match r with
  | .ok a => return a
  | .error e => throw (stop e)

/-- A value, or a failure of a campaign that stops the command. -/
def orFail (r : Except CampaignError α) : CommandAction m α := orStop (.failed <| .campaign ·) r

/-- A value, or a sum that overflowed and aborts the command. -/
def orAbort (r : Except Overflow α) : CommandAction m α := orStop (.abort ·.message) r

end CommandAction

end FuzzCampaign
